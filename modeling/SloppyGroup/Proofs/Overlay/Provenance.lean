import SloppyGroup.Proofs.Overlay.Displacement

/-!
Where links come from. Every link joins a node that reached out with one of its targets, forward
from the node or back to it. So links join different nodes that can reach each other, say how far
apart they are, and lead to members of the group of the node that reached out.
-/

namespace SloppyGroup

variable {σ : Type} [RandomSource σ] {g : TrustGraph} {survey : Survey} {mode : WalkMode}
  {v w : Nat} {peer : Peer} {link : Link}

theorem LocalView.mem_surroundings {s : Surroundings} (h : peer ∈ (LocalView.of g v s).peers) :
    peer ∈ s.vicinity.peers ∨ peer ∈ (ColorTable.bucket s.colors (g.node v).group).peers := by
  rcases mem_foldl_notice h with start | noticed
  · cases start
  · rcases List.mem_append.1 noticed with near | colored
    · exact .inl (List.mem_of_mem_filter near)
    · exact .inr colored

namespace Outreach

theorem targets_decide (unwired : mode ≠ .wire) (v : Nat) (source : σ) :
    (decide g survey mode v source).1.targets = (LocalView.of g v (survey.of v)).peers := by
  cases mode with
  | off => rfl
  | explore => rfl
  | wire => exact absurd rfl unwired

theorem targets_schedule (unwired : mode ≠ .wire) (source : σ) :
    ∀ outreach ∈ (schedule g survey mode source).1,
      outreach.targets = (LocalView.of g outreach.node (survey.of outreach.node)).peers := by
  apply forall_schedule
  intro v _ source
  rw [targets_decide unwired, node_decide]

/-- What the walkers of a node find beyond its local view, and the source after their walks. -/
def explored (g : TrustGraph) (survey : Survey) (v : Nat) (source : σ) : ForeignView × σ :=
  let view := LocalView.of g v (survey.of v)
  let walked := Exploration.run g (g.distancesFrom v) (Exploration.reach view.radius) view.known
    source
  (walked.1.1, walked.2)

theorem targets_decide_wire (v : Nat) (source : σ) :
    let (foreign, after) := explored g survey v source
    let outreach := (decide g survey .wire v source).1
    outreach.foreign = foreign ∧
      outreach.targets = (LocalView.of g v (survey.of v)).peers ++
        (foreign.longLinks (g.node v).fanout after).1 :=
  ⟨rfl, rfl⟩

/-- With walks wired in, a node reaches out to its local view and then to the long links that it
picks from what its walkers found. -/
theorem targets_schedule_wire (source : σ) :
    ∀ outreach ∈ (schedule g survey .wire source).1, ∃ before : σ,
      let (foreign, after) := explored g survey outreach.node before
      outreach.foreign = foreign ∧
        outreach.targets = (LocalView.of g outreach.node (survey.of outreach.node)).peers ++
          (foreign.longLinks (g.node outreach.node).fanout after).1 := by
  apply forall_schedule
  intro v _ source
  exact ⟨source, targets_decide_wire v source⟩

end Outreach

/-- Why a node may link to a peer: it is a member of the node's group and, unless walks are wired
in, the node knows it from its own surroundings. -/
structure Picked (g : TrustGraph) (survey : Survey) (mode : WalkMode) (v : Nat) (peer : Peer) :
    Prop where
  member : (g.node peer.node).id.startsWith (g.node v).group = true
  nearby : mode ≠ .wire → peer ∈ (survey.of v).vicinity.peers ∨
    peer ∈ (ColorTable.bucket (survey.of v).colors (g.node v).group).peers

/-- A link as it should be: it joins different nodes at their distance, and one of them picked the
other one, the source if it is a forward link and the target if it is a backlink. -/
structure Link.Sound (g : TrustGraph) (survey : Survey) (mode : WalkMode) (v w : Nat)
    (link : Link) : Prop where
  source_lt : v < g.size
  target_lt : w < g.size
  distinct : v ≠ w
  connected : g.trust.Reachable v w
  hops_eq : g.trust.edist v w = link.hops
  forward : link.isBacklink = false → Picked g survey mode v ⟨link.hops, w⟩
  backlink : link.isBacklink = true → Picked g survey mode w ⟨link.hops, v⟩

/-- A link goes forward from a node of the schedule to one of its targets, or back. -/
inductive Stems (schedule : List Outreach) (v w : Nat) (link : Link) : Prop where
  | forward (outreach : Outreach) (scheduled : outreach ∈ schedule) (own : outreach.node = v)
      (target : ⟨link.hops, w⟩ ∈ outreach.targets) (kind : link.isBacklink = false)
  | backlink (outreach : Outreach) (scheduled : outreach ∈ schedule) (own : outreach.node = w)
      (target : ⟨link.hops, v⟩ ∈ outreach.targets) (kind : link.isBacklink = true)

theorem Turn.stems {schedule : List Outreach} {outreach : Outreach} {o o' : Overlay}
    (turn : Turn g outreach o o') (scheduled : outreach ∈ schedule)
    (before : ∀ v w link, o.link? v w = some link → Stems schedule v w link)
    (held : o'.link? v w = some link) : Stems schedule v w link := by
  rcases turn.link?_cases held with old | ⟨rfl, target, kind⟩ | ⟨rfl, target, kind⟩
  · exact before v w link old
  · exact .forward outreach scheduled rfl target kind
  · exact .backlink outreach scheduled rfl target kind

theorem Construction.stems_ofSchedule {schedule : List Outreach}
    (sound : ∀ outreach ∈ schedule, outreach.Sound g survey)
    (held : (ofSchedule g schedule).overlay.link? v w = some link) : Stems schedule v w link := by
  refine ofSchedule_preserves
    (P := fun o => ∀ v w link, o.link? v w = some link → Stems schedule v w link)
    sound ?_ ?_ v w link held
  · intro v w link absent
    rw [Overlay.link?_blank] at absent
    cases absent
  · intro outreach scheduled o o' turn before v w link held
    exact turn.stems scheduled before held

namespace Outreach.Sound

variable {outreach : Outreach}

theorem edist_eq (h : outreach.Sound g survey) (target : peer ∈ outreach.targets) :
    g.trust.edist outreach.node peer.node = peer.hops :=
  (TrustGraph.distance?_distancesFrom h.node_lt).1 (h.finds peer target)

theorem reachable (h : outreach.Sound g survey) (target : peer ∈ outreach.targets) :
    g.trust.Reachable outreach.node peer.node := by
  rw [← SimpleGraph.edist_ne_top_iff_reachable, h.edist_eq target]
  exact ENat.natCast_ne_top peer.hops

theorem node_ne (h : outreach.Sound g survey) (target : peer ∈ outreach.targets) :
    outreach.node ≠ peer.node := by
  intro same
  have fresh := (List.nodup_cons.1 h.nodup).1
  rw [same] at fresh
  exact fresh (List.mem_map_of_mem target)

theorem picked (h : outreach.Sound g survey) (target : peer ∈ outreach.targets)
    (near : mode ≠ .wire →
      outreach.targets = (LocalView.of g outreach.node (survey.of outreach.node)).peers) :
    Picked g survey mode outreach.node peer where
  member := h.shares peer target
  nearby unwired := LocalView.mem_surroundings (near unwired ▸ target)

end Outreach.Sound

theorem Stems.sound {schedule : List Outreach}
    (sound : ∀ outreach ∈ schedule, outreach.Sound g survey)
    (targets : mode ≠ .wire → ∀ outreach ∈ schedule,
      outreach.targets = (LocalView.of g outreach.node (survey.of outreach.node)).peers)
    (h : Stems schedule v w link) : link.Sound g survey mode v w := by
  cases h with
  | forward outreach scheduled own target kind =>
    subst own
    have reaches := sound outreach scheduled
    refine ⟨reaches.node_lt, (reaches.finds _ target).lt, reaches.node_ne target,
      reaches.reachable target, reaches.edist_eq target, fun _ => ?_, fun back => ?_⟩
    · exact reaches.picked target fun unwired => targets unwired outreach scheduled
    · rw [kind] at back
      cases back
  | backlink outreach scheduled own target kind =>
    subst own
    have reaches := sound outreach scheduled
    refine ⟨(reaches.finds _ target).lt, reaches.node_lt, (reaches.node_ne target).symm,
      (reaches.reachable target).symm, ?_, fun forth => ?_, fun _ => ?_⟩
    · rw [SimpleGraph.edist_comm]
      exact reaches.edist_eq target
    · rw [kind] at forth
      cases forth
    · exact reaches.picked target fun unwired => targets unwired outreach scheduled

namespace Construction

theorem sound_link_run (surveyed : survey.Sound g) (mode : WalkMode) (source : σ)
    (held : (run g survey mode source).1.overlay.link? v w = some link) :
    link.Sound g survey mode v w := by
  have sound := Outreach.sound_schedule surveyed mode source
  exact (stems_ofSchedule sound held).sound sound
    fun unwired => Outreach.targets_schedule unwired source

/-- Every link of every constructed overlay is sound. -/
theorem run_links_soundly {σ τ : Type} [RandomSource σ] [RandomSource τ] (g : TrustGraph)
    (mode : WalkMode) (source : σ) (source' : τ) :
    let survey := (Survey.conduct g source).1
    let overlay := (run g survey mode source').1.overlay
    ∀ v w link, overlay.link? v w = some link → link.Sound g survey mode v w :=
  fun _ _ _ held => sound_link_run (Survey.sound_conduct g source) mode source' held

theorem run_links_soundly_fork : forkOverlay.link? 1 0 = some ⟨1, true⟩ ∧
    Link.Sound fork forkSurvey.1 .off 1 0 ⟨1, true⟩ := by
  have held : forkOverlay.link? 1 0 = some ⟨1, true⟩ := by decide +kernel
  exact ⟨held, run_links_soundly fork .off (Random.ChaCha.ofSeed 2) forkSurvey.2 1 0 _ held⟩

end Construction

end SloppyGroup
