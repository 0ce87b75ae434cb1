import SloppyGroup.Proofs.Overlay.Schedules

/-!
Refusals. Whoever links to a node that had an earlier turn gets a backlink that lasts, or the node
ends up with as many backlinks as it admits, none of them farther than the one that it refused or
gave up.
-/

namespace SloppyGroup

namespace Overlay

variable {o o' : Overlay} {v asker other hops hops' capacity : Nat}

/-- What a request has come to: the backlink is there, or the node that was asked is crowded by
backlinks that are at most as far. -/
inductive Met (o : Overlay) (v asker hops capacity : Nat) : Prop where
  | granted (link : o.link? v asker = some ⟨hops, true⟩)
  | crowded (h : o.Crowded v capacity hops)

theorem crowded_of_far (full : capacity ≤ (o.backlinks v).length)
    (far : ∀ farthest ∈ (o.backlinks v).getLast?, farthest.hops ≤ hops) :
    o.Crowded v capacity hops where
  full := full
  near q hq := by
    cases last : (o.backlinks v).getLast? with
    | none =>
      rw [List.getLast?_eq_none_iff.1 last] at hq
      cases hq
    | some farthest => exact (hops_le_of_getLast? last hq).trans (far farthest last)

theorem Granted.met (h : Granted o o' v asker hops capacity) (fresh : asker ∉ o.backlinkNodes v) :
    o'.Met v asker hops capacity := by
  have stays : o.Crowded v capacity hops → o'.Crowded v capacity hops := h.crowded fresh
  cases h with
  | admitted room links => exact .granted (by rw [links, if_pos rfl])
  | replaced farthest full last nearer links => exact .granted (by rw [links, if_pos rfl])
  | declined full far links => exact .crowded (stays (crowded_of_far full far))

theorem Met.spared (h : o.Met v asker hops capacity) (same : o'.row v = o.row v) :
    o'.Met v asker hops capacity := by
  cases h with
  | granted link => exact .granted ((link?_congr same asker).trans link)
  | crowded h =>
    obtain ⟨full, near⟩ := h
    rw [← backlinks_congr same] at full near
    exact .crowded ⟨full, near⟩

/-- Later requests take a backlink away only for nearer ones, in a crowd of backlinks none of which
is farther. -/
theorem Met.asked (h : o.Met v asker hops capacity)
    (granted : Granted o o' v other hops' capacity) (fresh : other ∉ o.backlinkNodes v) :
    o'.Met v asker hops capacity := by
  cases h with
  | granted link =>
    have held : ⟨hops, asker⟩ ∈ o.backlinks v := mem_backlinks.2 link
    have apart : asker ≠ other := by
      rintro rfl
      exact fresh (List.mem_map_of_mem held)
    rcases granted.stays_or_yields held apart with stays | ⟨crowded, _⟩
    · exact .granted (mem_backlinks.1 stays)
    · exact .crowded (granted.crowded fresh crowded)
  | crowded h => exact .crowded (granted.crowded fresh h)

end Overlay

namespace Outreach

variable {schedule : List Outreach} {u v w : Nat}

/-- At the turn of a node, and from then on, it is not the turn of one that precedes it. -/
theorem exists_turn_of_precedes (nodup : (schedule.map (·.node)).Nodup)
    (order : Precedes schedule v w) (linked : u ∈ links schedule w) :
    ∃ before own after, schedule = before ++ own :: after ∧ own.node = w ∧
      u ∈ own.targets.map (·.node) ∧ v ∉ (own :: after).map (·.node) := by
  obtain ⟨_, _, split, first, second⟩ := List.cons_sublist_iff.1 order
  obtain ⟨earlier, later, rfl, rfl, rfl⟩ := List.map_eq_append_iff.1 split
  rw [List.singleton_sublist] at second
  rw [List.map_append, List.nodup_append] at nodup
  obtain ⟨-, -, apart⟩ := nodup
  obtain ⟨own, scheduled, rfl, target⟩ := mem_links.1 linked
  rcases List.mem_append.1 scheduled with early | late
  · exact absurd rfl (apart _ (List.mem_map_of_mem early) _ second)
  · obtain ⟨middle, after, rfl⟩ := List.append_of_mem late
    refine ⟨earlier ++ middle, own, after, by simp, rfl, target, fun again => ?_⟩
    refine apart v first v ?_ rfl
    rw [List.map_append]
    exact List.mem_append_right _ again

end Outreach

namespace Construction

variable {g : TrustGraph} {survey : Survey}

/-- A node that has not had its turn has not asked anyone. -/
theorem fresh_ofSchedule {before : List Outreach} {next : Outreach}
    (sound : ∀ outreach ∈ before, outreach.Sound g survey)
    (nodup : ((before ++ [next]).map (·.node)).Nodup) (v : Nat) :
    next.node ∉ (ofSchedule g before).overlay.backlinkNodes v := by
  intro held
  rw [List.map_append, List.nodup_append] at nodup
  exact nodup.2.2 _ (backlinkNodes_subset sound v held) _ List.mem_cons_self rfl

theorem met_ofSchedule {before after : List Outreach} {own : Outreach} {v hops : Nat}
    (sound : ∀ outreach ∈ before ++ own :: after, outreach.Sound g survey)
    (nodup : ((before ++ own :: after).map (·.node)).Nodup) (target : ⟨hops, v⟩ ∈ own.targets)
    (past : v ∉ (own :: after).map (·.node)) :
    (ofSchedule g (before ++ own :: after)).overlay.Met v own.node hops
      (g.node v).backlinkCapacity := by
  induction after using List.reverseRecOn with
  | nil =>
    have earlier : ∀ b ∈ before, b.Sound g survey := fun b hb =>
      sound b (List.mem_append_left _ hb)
    have turn := turn_ofSchedule (sound own (by simp)) before
    exact (turn.asks _ target).met (fresh_ofSchedule earlier nodup v)
  | append_singleton after next ih =>
    have split : before ++ own :: (after ++ [next]) = (before ++ own :: after) ++ [next] := by
      simp
    rw [split] at sound nodup ⊢
    rw [← List.cons_append, List.map_append, List.mem_append, not_or] at past
    have earlier : ∀ b ∈ before ++ own :: after, b.Sound g survey := fun b hb =>
      sound b (List.mem_append_left _ hb)
    have fresh := fresh_ofSchedule earlier nodup v
    have turn := turn_ofSchedule (sound next (by simp)) (before ++ own :: after)
    rw [List.map_append] at nodup
    have met := ih earlier nodup.of_append_left past.1
    have other : v ≠ next.node := fun same => past.2 (by simp [same])
    rcases turn.spared_or_asked other with same | ⟨_, _, granted⟩
    · exact met.spared same
    · exact met.asked granted fresh

/-- Where a node that was linked to after its own turn does not link back in the end, it holds as
many backlinks as it admits, none of them farther than the node that it does not link back to. -/
theorem run_refuses_justly {σ τ : Type} [RandomSource σ] [RandomSource τ] (g : TrustGraph)
    (mode : WalkMode) (source : σ) (source' : τ) :
    let survey := (Survey.conduct g source).1
    let schedule := (Outreach.schedule g survey mode source').1
    let overlay := (run g survey mode source').1.overlay
    ∀ v w, Outreach.Precedes schedule v w → v ∈ Outreach.links schedule w →
      overlay.link? v w = none →
      (overlay.backlinks v).length = (g.node v).backlinkCapacity ∧
        ∀ q ∈ overlay.backlinks v, q.hops ≤ g.trust.edist v w := by
  intro survey schedule overlay v w order linked absent
  have sound : ∀ outreach ∈ schedule, outreach.Sound g survey :=
    Outreach.sound_schedule (Survey.sound_conduct g source) mode source'
  have turns : (schedule.map (·.node)).Perm (List.range g.size) :=
    Outreach.perm_schedule g survey mode source'
  have nodup := turns.nodup_iff.2 List.nodup_range
  have bound : (overlay.backlinks v).length ≤ (g.node v).backlinkCapacity :=
    bounded_run g survey mode source' v
  have constructed : overlay = (ofSchedule g schedule).overlay := rfl
  obtain ⟨before, own, after, split, rfl, reaches, past⟩ :=
    Outreach.exists_turn_of_precedes nodup order linked
  obtain ⟨⟨hops, v⟩, target, rfl⟩ := List.mem_map.1 reaches
  have distance := (sound own (by simp [split])).edist_eq target
  rw [split] at sound nodup constructed
  have met := met_ofSchedule sound nodup target past
  rw [← constructed] at met
  cases met with
  | granted link =>
    rw [absent] at link
    cases link
  | crowded h =>
    refine ⟨Nat.le_antisymm bound h.full, fun q hq => ?_⟩
    rw [SimpleGraph.edist_comm, distance]
    exact_mod_cast h.near q hq

theorem run_refuses_justly_fork :
    let schedule := (Outreach.schedule fork forkSurvey.1 .off forkSurvey.2).1
    Outreach.Precedes schedule 1 2 ∧ 1 ∈ Outreach.links schedule 2 ∧
    forkOverlay.link? 1 2 = none ∧ (forkOverlay.backlinks 1).length = 1 ∧
    ∀ q ∈ forkOverlay.backlinks 1, q.hops ≤ fork.trust.edist 1 2 := by
  intro schedule
  have order : Outreach.Precedes schedule 1 2 := by decide +kernel
  have linked : 1 ∈ Outreach.links schedule 2 := by decide +kernel
  obtain ⟨full, near⟩ := run_refuses_justly fork .off (Random.ChaCha.ofSeed 2) forkSurvey.2 1 2
    order linked fork_loses.2
  exact ⟨order, linked, fork_loses.2, full, near⟩

end Construction

end SloppyGroup
