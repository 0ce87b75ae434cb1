import SloppyGroup.Proofs.Overlay.Abundance
import SloppyGroup.Proofs.Overlay.Provenance

/-!
Schedules as histories of requests: every node makes its requests when it has its turn. Where
everyone has room for a backlink to each node that links to it, it follows which links there are in
the end and which of them are backlinks.
-/

namespace SloppyGroup

deriving instance DecidableEq for Outreach

namespace Outreach

variable {g : TrustGraph} {survey : Survey} {schedule : List Outreach} {outreach : Outreach}
  {r : Request} {v w : Nat}

/-- The nodes that a node links to. -/
def links (schedule : List Outreach) (v : Nat) : List Nat :=
  (schedule.filter fun outreach => outreach.node = v).flatMap fun outreach =>
    outreach.targets.map (·.node)

/-- A node has its turn before another one. -/
def Precedes (schedule : List Outreach) (v w : Nat) : Prop :=
  [v, w].Sublist (schedule.map (·.node))

instance (schedule : List Outreach) (v w : Nat) : Decidable (Precedes schedule v w) :=
  inferInstanceAs (Decidable (List.Sublist _ _))

theorem mem_links : w ∈ links schedule v ↔
    ∃ outreach ∈ schedule, outreach.node = v ∧ w ∈ outreach.targets.map (·.node) := by
  simp only [links, List.mem_flatMap, List.mem_filter, decide_eq_true_eq, and_assoc]

theorem mem_links_iff_request : w ∈ links schedule v ↔
    ∃ r ∈ schedule.flatMap requests, r.source = v ∧ r.target = w := by
  rw [mem_links]
  constructor
  · rintro ⟨outreach, scheduled, rfl, target⟩
    obtain ⟨peer, hp, rfl⟩ := List.mem_map.1 target
    exact ⟨_, mem_flatMap_requests.2 ⟨outreach, scheduled, peer, hp, rfl⟩, rfl, rfl⟩
  · rintro ⟨r, hr, rfl, rfl⟩
    obtain ⟨outreach, scheduled, peer, hp, rfl⟩ := mem_flatMap_requests.1 hr
    exact ⟨outreach, scheduled, rfl, List.mem_map_of_mem hp⟩

theorem mem_links_node (nodup : (schedule.map (·.node)).Nodup) (scheduled : outreach ∈ schedule) :
    w ∈ links schedule outreach.node ↔ w ∈ outreach.targets.map (·.node) := by
  rw [mem_links]
  constructor
  · rintro ⟨other, again, same, target⟩
    rw [← List.inj_on_of_nodup_map nodup again scheduled same]
    exact target
  · exact fun target => ⟨outreach, scheduled, rfl, target⟩

theorem mem_node_of_mem_links (h : w ∈ links schedule v) : v ∈ schedule.map (·.node) := by
  obtain ⟨outreach, scheduled, rfl, _⟩ := mem_links.1 h
  exact List.mem_map_of_mem scheduled

theorem precedes_or_precedes (hv : v ∈ schedule.map (·.node)) (hw : w ∈ schedule.map (·.node))
    (other : v ≠ w) : Precedes schedule v w ∨ Precedes schedule w v := by
  rw [Precedes, Precedes]
  obtain ⟨earlier, later, split⟩ := List.append_of_mem hv
  rw [split] at hw ⊢
  rcases List.mem_append.1 hw with before | after
  · right
    exact (List.singleton_sublist.2 before).append (List.singleton_sublist.2 List.mem_cons_self)
  · left
    have after := (List.mem_cons.1 after).resolve_left other.symm
    exact ((List.singleton_sublist.2 after).cons_cons v).trans (List.sublist_append_right _ _)

/-- Of two nodes that link to each other the one whose turn is later makes the last request. -/
theorem source_lastBetween (nodup : (schedule.map (·.node)).Nodup)
    (order : Precedes schedule w v) (linked : w ∈ links schedule v)
    (last : Request.lastBetween (schedule.flatMap requests) v w = some r) : r.source = v := by
  -- The schedule is split between the two turns.
  obtain ⟨_, _, split, first, second⟩ := List.cons_sublist_iff.1 order
  obtain ⟨earlier, later, rfl, rfl, rfl⟩ := List.map_eq_append_iff.1 split
  rw [List.singleton_sublist] at second
  rw [List.map_append, List.nodup_append] at nodup
  obtain ⟨-, -, apart⟩ := nodup
  have lateLink : w ∈ links later v := by
    obtain ⟨outreach, scheduled, own, target⟩ := mem_links.1 linked
    rcases List.mem_append.1 scheduled with early | late
    · exact absurd own (apart _ (List.mem_map_of_mem early) _ second)
    · exact mem_links.2 ⟨outreach, late, own, target⟩
  obtain ⟨back, late, source, target⟩ := mem_links_iff_request.1 lateLink
  have found : (Request.lastBetween (later.flatMap requests) v w).isSome = true :=
    Request.isSome_lastBetween.2 ⟨back, late, .inl ⟨source, target⟩⟩
  rw [List.flatMap_append, Request.lastBetween_append, Option.or_of_isSome found] at last
  obtain ⟨made, joins⟩ := Request.mem_of_lastBetween last
  rcases joins with ⟨source, _⟩ | ⟨source, target⟩
  · exact source
  · -- The node with the earlier turn makes no request any more.
    have early := mem_node_of_mem_links (mem_links_iff_request.2 ⟨r, made, source, target⟩)
    exact absurd rfl (apart w first w early)

theorem countP_requests (nodup : (outreach.targets.map (·.node)).Nodup) (v : Nat) :
    (outreach.requests.countP fun r => r.target = v) =
      if v ∈ outreach.targets.map (·.node) then 1 else 0 := by
  rw [← nodup.count, List.count_eq_countP, requests, List.countP_map, List.countP_map]
  rfl

/-- A node is asked as often as there are nodes that link to it. -/
theorem countP_flatMap_requests (sound : ∀ outreach ∈ schedule, outreach.Sound g survey)
    (turns : (schedule.map (·.node)).Perm (List.range g.size)) (v : Nat) :
    ((schedule.flatMap requests).countP fun r => r.target = v) =
      (List.range g.size).countP fun w => v ∈ links schedule w := by
  have nodup := turns.nodup_iff.2 List.nodup_range
  have once (part : List Outreach) (inside : part ⊆ schedule) :
      ((part.flatMap requests).countP fun r => r.target = v) =
        part.countP fun outreach => v ∈ outreach.targets.map (·.node) := by
    induction part with
    | nil => rfl
    | cons outreach rest ih =>
      have reaches := sound outreach (inside List.mem_cons_self)
      rw [List.flatMap_cons, List.countP_append, List.countP_cons,
        ih fun other ho => inside (List.mem_cons_of_mem _ ho),
        countP_requests (List.nodup_cons.1 reaches.nodup).2, Nat.add_comm]
      simp only [decide_eq_true_eq]
  calc _ = schedule.countP fun outreach => v ∈ outreach.targets.map (·.node) :=
        once schedule fun _ ho => ho
    _ = schedule.countP fun outreach => v ∈ links schedule outreach.node := by
        apply List.countP_congr
        intro outreach scheduled
        simp only [decide_eq_true_eq, mem_links_node nodup scheduled]
    _ = (schedule.map (·.node)).countP fun w => v ∈ links schedule w := by
        rw [List.countP_map]
        rfl
    _ = _ := turns.countP_eq _

theorem ample_requests (sound : ∀ outreach ∈ schedule, outreach.Sound g survey)
    (turns : (schedule.map (·.node)).Perm (List.range g.size))
    (room : ∀ v < g.size, ((List.range g.size).countP fun w => v ∈ links schedule w) ≤
      (g.node v).backlinkCapacity) :
    Overlay.Ample g.backlinkCapacity (schedule.flatMap requests) where
  other r hr := by
    obtain ⟨outreach, scheduled, peer, hp, rfl⟩ := mem_flatMap_requests.1 hr
    exact (sound outreach scheduled).node_ne hp
  room v := by
    by_cases hv : v < g.size
    · rw [countP_flatMap_requests sound turns]
      exact room v hv
    · rw [List.countP_eq_zero.2 fun r hr => ?_]
      · exact Nat.zero_le _
      · obtain ⟨outreach, scheduled, peer, hp, rfl⟩ := mem_flatMap_requests.1 hr
        rw [decide_eq_true_eq]
        rintro rfl
        exact hv ((sound outreach scheduled).finds peer hp).lt

theorem isSome_lastBetween_requests :
    (Request.lastBetween (schedule.flatMap requests) v w).isSome = true ↔
      w ∈ links schedule v ∨ v ∈ links schedule w := by
  rw [Request.isSome_lastBetween, mem_links_iff_request, mem_links_iff_request]
  constructor
  · rintro ⟨r, hr, forth | back⟩
    · exact .inl ⟨r, hr, forth⟩
    · exact .inr ⟨r, hr, back⟩
  · rintro (⟨r, hr, forth⟩ | ⟨r, hr, back⟩)
    · exact ⟨r, hr, .inl forth⟩
    · exact ⟨r, hr, .inr back⟩

/-- A node makes the last request between itself and a node that it links to, unless that one links
to it in a later turn. -/
theorem source_lastBetween_iff (nodup : (schedule.map (·.node)).Nodup)
    (other : ∀ r ∈ schedule.flatMap requests, r.source ≠ r.target) :
    (∃ r, Request.lastBetween (schedule.flatMap requests) v w = some r ∧ r.source = w) ↔
      v ∈ links schedule w ∧ ¬(w ∈ links schedule v ∧ Precedes schedule w v) := by
  constructor
  · rintro ⟨r, last, rfl⟩
    obtain ⟨hr, joins⟩ := Request.mem_of_lastBetween last
    rcases joins with ⟨_, self⟩ | ⟨_, rfl⟩
    · exact absurd self.symm (other r hr)
    · refine ⟨mem_links_iff_request.2 ⟨r, hr, rfl, rfl⟩, fun ⟨linked, order⟩ => ?_⟩
      exact other r hr (source_lastBetween nodup order linked last)
  · rintro ⟨linked, lastTurn⟩
    obtain ⟨r, last⟩ := Option.isSome_iff_exists.1
      (isSome_lastBetween_requests (v := v).2 (.inr linked))
    refine ⟨r, last, ?_⟩
    obtain ⟨hr, ⟨rfl, rfl⟩ | ⟨source, _⟩⟩ := Request.mem_of_lastBetween last
    · have back : r.target ∈ links schedule r.source :=
        mem_links_iff_request.2 ⟨r, hr, rfl, rfl⟩
      rcases precedes_or_precedes (mem_node_of_mem_links back) (mem_node_of_mem_links linked)
        (other r hr) with order | order
      · rw [Request.lastBetween_comm] at last
        exact source_lastBetween nodup order linked last
      · exact absurd ⟨back, order⟩ lastTurn
    · exact source

end Outreach

namespace Outreach

variable {σ : Type} [RandomSource σ] {g : TrustGraph} {survey : Survey} {mode : WalkMode}
  {v w : Nat}

theorem exists_turn (survey : Survey) (mode : WalkMode) (hv : v < g.size) (source : σ) :
    ∃ outreach ∈ (schedule g survey mode source).1, outreach.node = v ∧
      ∀ w, w ∈ links (schedule g survey mode source).1 v ↔
        w ∈ outreach.targets.map (·.node) := by
  have turns := perm_schedule g survey mode source
  obtain ⟨outreach, scheduled, rfl⟩ := List.mem_map.1 (turns.mem_iff.2 (List.mem_range.2 hv))
  have nodup := turns.nodup_iff.2 List.nodup_range
  exact ⟨outreach, scheduled, rfl, fun w => mem_links_node nodup scheduled⟩

/-- Unless walks are wired in, a node links to its local view. -/
theorem mem_links_schedule (unwired : mode ≠ .wire) (hv : v < g.size) (source : σ) :
    w ∈ links (schedule g survey mode source).1 v ↔
      w ∈ (LocalView.of g v (survey.of v)).peers.map (·.node) := by
  obtain ⟨outreach, scheduled, rfl, linked⟩ := exists_turn survey mode hv source
  rw [linked, targets_schedule unwired source outreach scheduled]

/-- With walks wired in, a node links to its local view and to the long links that it picks from
what its walkers found. -/
theorem mem_links_schedule_wire (survey : Survey) (hv : v < g.size) (source : σ) :
    ∃ before : σ,
      let (foreign, after) := explored g survey v before
      ∀ w, w ∈ links (schedule g survey .wire source).1 v ↔
        w ∈ (LocalView.of g v (survey.of v)).peers.map (·.node) ∨
        w ∈ (foreign.longLinks (g.node v).fanout after).1.map (·.node) := by
  obtain ⟨outreach, scheduled, rfl, linked⟩ := exists_turn survey .wire hv source
  obtain ⟨before, -, targets⟩ := targets_schedule_wire source outreach scheduled
  refine ⟨before, fun w => ?_⟩
  rw [linked, targets, List.map_append, List.mem_append]

end Outreach

namespace Construction

/-- Where everyone has room for a backlink to each node that links to it, nobody is refused
anything, and the overlay consists of the links that nodes make and of the backlinks to them, which
only give way to links that their holders make in later turns. -/
theorem run_links_exactly {σ τ : Type} [RandomSource σ] [RandomSource τ] (g : TrustGraph)
    (mode : WalkMode) (source : σ) (source' : τ) :
    let survey := (Survey.conduct g source).1
    let schedule := (Outreach.schedule g survey mode source').1
    let built := (run g survey mode source').1
    (∀ v < g.size, ((List.range g.size).countP fun w => v ∈ Outreach.links schedule w) ≤
      (g.node v).backlinkCapacity) →
    built.declined = 0 ∧ built.evicted = 0 ∧ ∀ v w,
      ((built.overlay.link? v w).isSome = true ↔
        w ∈ Outreach.links schedule v ∨ v ∈ Outreach.links schedule w) ∧
      ((∃ hops, built.overlay.link? v w = some ⟨hops, true⟩) ↔
        v ∈ Outreach.links schedule w ∧
          ¬(w ∈ Outreach.links schedule v ∧ Outreach.Precedes schedule w v)) := by
  intro survey schedule built room
  have sound := Outreach.sound_schedule (Survey.sound_conduct g source) mode source'
  have turns := Outreach.perm_schedule g survey mode source'
  have ample := Outreach.ample_requests sound turns room
  have served : Served g (start g.size) (schedule.flatMap Outreach.requests) built :=
    served_ofSchedule schedule
  refine ⟨?_, ?_, fun v w => ?_⟩
  · rw [served.declined, List.countP_eq_zero.2 fun answer given => ?_]
    · rfl
    · rw [ample.admits answer given]
      decide
  · rw [served.evicted, List.countP_eq_zero.2 fun answer given => ?_]
    · rfl
    · rw [ample.admits answer given]
      decide
  · have decided : built.overlay.link? v w =
        (Request.lastBetween (schedule.flatMap Outreach.requests) v w).map
          fun r => ⟨r.hops, decide (r.source = w)⟩ := by
      rw [served.overlay]
      exact ample.link? v w
    have backlinks : (∃ r, Request.lastBetween (schedule.flatMap Outreach.requests) v w = some r ∧
        r.source = w) ↔ _ :=
      Outreach.source_lastBetween_iff (turns.nodup_iff.2 List.nodup_range) ample.other
    rw [decided, Option.isSome_map, ← backlinks]
    exact ⟨Outreach.isSome_lastBetween_requests, by simp [Option.map_eq_some_iff]⟩

/-- A row of three nodes that walk along it; the last one admits a single backlink. -/
def chain : TrustGraph where
  nodes := #[⟨"a", default, ⟨[]⟩, false, false, 0, 1, 2, none⟩,
    ⟨"b", default, ⟨[]⟩, false, false, 0, 1, 2, none⟩,
    ⟨"c", default, ⟨[]⟩, false, false, 0, 1, 1, none⟩]
  newest := [(0, 1), (1, 2)]
  neighborTable := Undirected.neighborTable 3 [(0, 1), (1, 2)]
  labels_distinct := by decide
  simple := ⟨by decide, by decide, by decide⟩
  neighborTable_eq := rfl

def chainSurvey : Survey × Random.ChaCha :=
  Survey.conduct chain (.ofSeed 0)

def chainSchedule : List Outreach :=
  (Outreach.schedule chain chainSurvey.1 .wire chainSurvey.2).1

theorem chainSchedule_eq : chainSchedule =
    [⟨2, [⟨1, 1⟩, ⟨2, 0⟩], ⟨[⟨2, 0⟩]⟩⟩, ⟨0, [⟨1, 1⟩, ⟨2, 2⟩], ⟨[⟨2, 2⟩]⟩⟩, ⟨1, [⟨1, 0⟩], ⟨[]⟩⟩] := by
  decide +kernel

theorem run_links_exactly_chain :
    let built := (run chain chainSurvey.1 .wire chainSurvey.2).1
    (∀ v < chain.size, ((List.range chain.size).countP fun w =>
      v ∈ Outreach.links chainSchedule w) ≤ (chain.node v).backlinkCapacity) ∧
    built.declined = 0 ∧ built.evicted = 0 ∧
    (∃ hops, built.overlay.link? 2 0 = some ⟨hops, true⟩) ∧
    ¬∃ hops, built.overlay.link? 0 2 = some ⟨hops, true⟩ := by
  intro built
  have room : ∀ v < chain.size, ((List.range chain.size).countP fun w =>
      v ∈ Outreach.links chainSchedule w) ≤ (chain.node v).backlinkCapacity := by
    rw [chainSchedule_eq]
    decide
  obtain ⟨declined, evicted, links⟩ :=
    run_links_exactly chain .wire (Random.ChaCha.ofSeed 0) chainSurvey.2 room
  have backlink (v w : Nat) : (∃ hops, built.overlay.link? v w = some ⟨hops, true⟩) ↔
      v ∈ Outreach.links chainSchedule w ∧
        ¬(w ∈ Outreach.links chainSchedule v ∧ Outreach.Precedes chainSchedule w v) :=
    (links v w).2
  refine ⟨room, declined, evicted, ?_, ?_⟩
  · rw [backlink, chainSchedule_eq]
    decide
  · rw [backlink, chainSchedule_eq]
    decide

end Construction

end SloppyGroup
