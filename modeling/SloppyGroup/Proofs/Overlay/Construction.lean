import SloppyGroup.Proofs.Overlay.Histories
import SloppyGroup.Proofs.Overlay.Outreach

/-!
Constructed overlays come from histories of requests: node after node makes those of its turn. So
the overlays consist of the nodes of the trust graph, and no node holds more backlinks than it
admits.
-/

namespace SloppyGroup

def BacklinkAnswer.isReplaced : BacklinkAnswer → Bool
  | .replaced _ => true
  | _ => false

def TrustGraph.backlinkCapacity (g : TrustGraph) (v : Nat) : Nat :=
  (g.node v).backlinkCapacity

def Outreach.requests (outreach : Outreach) : List Request :=
  outreach.targets.map fun peer => ⟨outreach.node, peer.node, peer.hops⟩

theorem Outreach.mem_flatMap_requests {schedule : List Outreach} {r : Request} :
    r ∈ schedule.flatMap requests ↔ ∃ outreach ∈ schedule, ∃ peer ∈ outreach.targets,
      ⟨outreach.node, peer.node, peer.hops⟩ = r := by
  simp only [List.mem_flatMap, requests, List.mem_map]

namespace Construction

variable {g : TrustGraph} {c c' c'' : Construction} {history further : List Request}

/-- What becomes of a construction on which a history of requests is carried out: its counts are
those of the answers. -/
structure Served (g : TrustGraph) (c : Construction) (history : List Request)
    (c' : Construction) : Prop where
  overlay : c'.overlay = c.overlay.handleAll g.backlinkCapacity history
  declined : c'.declined =
    c.declined + (c.overlay.answers g.backlinkCapacity history).countP (· == .declined)
  evicted : c'.evicted =
    c.evicted + (c.overlay.answers g.backlinkCapacity history).countP BacklinkAnswer.isReplaced

theorem Served.nil (foreign : Array ForeignView) : Served g c [] { c with foreign } :=
  ⟨rfl, rfl, rfl⟩

theorem Served.append (first : Served g c history c') (second : Served g c' further c'') :
    Served g c (history ++ further) c'' where
  overlay := by rw [second.overlay, first.overlay, Overlay.handleAll_append]
  declined := by
    rw [second.declined, first.declined, first.overlay, Overlay.answers_append,
      List.countP_append, Nat.add_assoc]
  evicted := by
    rw [second.evicted, first.evicted, first.overlay, Overlay.answers_append,
      List.countP_append, Nat.add_assoc]

theorem overlay_link (g : TrustGraph) (v : Nat) (c : Construction) (peer : Peer) :
    (link g v c peer).overlay =
      (c.overlay.connect v peer.node peer.hops (g.node peer.node).backlinkCapacity).2 := by
  rw [link]
  rcases c.overlay.connect v peer.node peer.hops (g.node peer.node).backlinkCapacity with
    ⟨answer, overlay⟩
  cases answer with
  | admitted => rfl
  | replaced => rfl
  | declined => rfl
  | selfLink => rfl

theorem served_link (v : Nat) (c : Construction) (peer : Peer) :
    Served g c [⟨v, peer.node, peer.hops⟩] (link g v c peer) := by
  have answers : c.overlay.answers g.backlinkCapacity [⟨v, peer.node, peer.hops⟩] =
      [(c.overlay.connect v peer.node peer.hops (g.node peer.node).backlinkCapacity).1] := rfl
  refine ⟨overlay_link g v c peer, ?_, ?_⟩
  · rw [answers, link]
    rcases c.overlay.connect v peer.node peer.hops _ with ⟨_ | _ | _ | _, overlay⟩ <;> rfl
  · rw [answers, link]
    rcases c.overlay.connect v peer.node peer.hops _ with ⟨_ | _ | _ | _, overlay⟩ <;> rfl

theorem served_foldl_link (v : Nat) (targets : List Peer) (c : Construction) :
    Served g c (targets.map fun peer => ⟨v, peer.node, peer.hops⟩) (targets.foldl (link g v) c) := by
  induction targets generalizing c with
  | nil => exact .nil c.foreign
  | cons peer rest ih => exact (served_link v c peer).append (ih (link g v c peer))

theorem served_serve (c : Construction) (outreach : Outreach) :
    Served g c outreach.requests (serve g c outreach) :=
  (Served.nil (c.foreign.setIfInBounds outreach.node outreach.foreign)).append
    (served_foldl_link outreach.node outreach.targets _)

theorem served_foldl_serve (schedule : List Outreach) (c : Construction) :
    Served g c (schedule.flatMap Outreach.requests) (schedule.foldl (serve g) c) := by
  induction schedule generalizing c with
  | nil => exact .nil c.foreign
  | cons outreach rest ih =>
    exact (served_serve c outreach).append (ih (serve g c outreach))

/-- A schedule is carried out request by request. -/
theorem served_ofSchedule (schedule : List Outreach) :
    Served g (start g.size) (schedule.flatMap Outreach.requests) (ofSchedule g schedule) :=
  served_foldl_serve schedule (start g.size)

variable {σ : Type} [RandomSource σ] {survey : Survey}

theorem spans_run (h : survey.Sound g) (mode : WalkMode) (source : σ) :
    (run g survey mode source).1.overlay.Spans g.size := by
  have sound := Outreach.sound_schedule h mode source
  rw [run, (served_ofSchedule _).overlay]
  apply Overlay.spans_handleAll
  intro r hr
  obtain ⟨outreach, scheduled, peer, hp, rfl⟩ := Outreach.mem_flatMap_requests.1 hr
  exact ⟨(sound outreach scheduled).node_lt, ((sound outreach scheduled).finds peer hp).lt⟩

theorem bounded_run (g : TrustGraph) (survey : Survey) (mode : WalkMode) (source : σ) :
    (run g survey mode source).1.overlay.Bounded fun v => (g.node v).backlinkCapacity := by
  rw [run, (served_ofSchedule _).overlay]
  exact Overlay.bounded_handleAll g.size g.backlinkCapacity _

end Construction

theorem Overlay.Bounded.check {g : TrustGraph} {o : Overlay}
    (h : o.Bounded fun v => (g.node v).backlinkCapacity) : o.check g = .ok () := by
  apply forM_ok
  intro v _
  exact if_neg (Nat.not_lt.2 (h v))

end SloppyGroup
