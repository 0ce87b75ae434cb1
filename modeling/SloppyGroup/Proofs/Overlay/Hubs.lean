import SloppyGroup.Proofs.Overlay.Provenance
import SloppyGroup.Proofs.Proximity.Completeness

/-!
Hubs: links stay within groups, and where local views are complete, the member of a group that has
the last turn keeps its links to all other members and theirs to it, however few backlinks there is
room for.
-/

namespace SloppyGroup

/-- Nobody links to another group. -/
def Overlay.Grouped (o : Overlay) (g : TrustGraph) : Prop :=
  ∀ v w link, o.link? v w = some link → (g.node w).group = (g.node v).group

/-- What one end of a link knows of the other one puts both in the same group. -/
theorem Link.Sound.group_eq {g : TrustGraph} {survey : Survey} {mode : WalkMode} {v w : Nat}
    {link : Link} (sound : link.Sound g survey mode v w) (h : g.Partitioned) :
    (g.node w).group = (g.node v).group := by
  cases kind : link.isBacklink with
  | false =>
    exact (h.sharesGroup_iff sound.source_lt sound.target_lt).1 (sound.forward kind).member
  | true =>
    exact ((h.sharesGroup_iff sound.target_lt sound.source_lt).1 (sound.backlink kind).member).symm

namespace Construction

variable {σ : Type} [RandomSource σ] {g : TrustGraph} {survey : Survey} {v : Nat}

theorem grouped_run (h : g.Partitioned) (surveyed : survey.Sound g) (mode : WalkMode)
    (source : σ) : (run g survey mode source).1.overlay.Grouped g :=
  fun _ _ _ held => (sound_link_run surveyed mode source held).group_eq h

theorem exists_last {α : Type} {p : α → Bool} {l : List α} (some : ∃ x ∈ l, p x = true) :
    ∃ before x after, l = before ++ x :: after ∧ p x = true ∧ ∀ y ∈ after, p y = false := by
  have nonempty : (l.reverse.find? p).isSome = true := by
    rw [List.find?_isSome]
    simpa using some
  obtain ⟨x, found⟩ := Option.isSome_iff_exists.1 nonempty
  obtain ⟨hx, later, earlier, split, none⟩ := List.find?_eq_some_iff_append.1 found
  refine ⟨earlier.reverse, x, later.reverse, ?_, hx, fun y hy => ?_⟩
  · rw [← List.reverse_reverse l, split]
    simp
  · simpa using none y (List.mem_reverse.1 hy)

/-- Where two splits of a schedule agree on whose turn it is, the same nodes have later turns. -/
theorem later_eq {before before' after after' : List Outreach} {own own' : Outreach}
    (nodup : ((before ++ own :: after).map (·.node)).Nodup)
    (split : before ++ own :: after = before' ++ own' :: after') (same : own'.node = own.node) :
    after.map (·.node) = after'.map (·.node) := by
  have nodes := congrArg (List.map (·.node)) split
  rw [List.map_append, List.map_cons, List.map_append, List.map_cons, same] at nodes
  rw [List.map_append, List.map_cons, List.nodup_middle, List.nodup_cons, List.mem_append,
    not_or] at nodup
  obtain ⟨⟨earlier, fresh⟩, -⟩ := nodup
  exact ((List.append_cons_inj_of_notMem earlier fresh).1 nodes).2.2

/-- Nobody of its group has a later turn. -/
def LastTurn (g : TrustGraph) (schedule : List Outreach) (hub : Nat) : Prop :=
  ∀ before own after, schedule = before ++ own :: after → own.node = hub →
    ∀ q ∈ after.map (·.node), (g.node q).group ≠ (g.node hub).group

theorem exists_lastTurn {schedule : List Outreach} (nodup : (schedule.map (·.node)).Nodup)
    (hv : v ∈ schedule.map (·.node)) : ∃ hub ∈ schedule.map (·.node),
      (g.node hub).group = (g.node v).group ∧ LastTurn g schedule hub := by
  obtain ⟨own, scheduled, turn⟩ := List.mem_map.1 hv
  have member : decide ((g.node own.node).group = (g.node v).group) = true := by
    rw [turn, decide_eq_true_eq]
  obtain ⟨before, hub, after, rfl, same, none⟩ :=
    exists_last (p := fun o => decide ((g.node o.node).group = (g.node v).group))
      ⟨own, scheduled, member⟩
  rw [decide_eq_true_eq] at same
  refine ⟨hub.node, by simp, same, ?_⟩
  intro before' own' after' split node_eq q hq
  rw [← later_eq nodup split node_eq] at hq
  obtain ⟨late, ho, rfl⟩ := List.mem_map.1 hq
  rw [same]
  exact of_decide_eq_false (none late ho)

section

variable {τ : Type} [RandomSource τ] {mode : WalkMode} {source : σ} {source' : τ} {hub u : Nat}

theorem LastTurn.link_to (h : g.HonestGroups)
    (last : LastTurn g (Outreach.schedule g (Survey.conduct g source).1 mode source').1 hub)
    (hhub : hub < g.size) (hu : u < g.size) (other : u ≠ hub)
    (same : (g.node u).group = (g.node hub).group) :
    ((run g (Survey.conduct g source).1 mode source').1.overlay.link? hub u).isSome = true := by
  obtain ⟨before, own, after, split, rfl, sound, fates⟩ :=
    exists_fate (Survey.sound_conduct g source) mode source' hhub
  obtain ⟨p, hp, rfl⟩ := LocalView.exists_peer h source hhub hu other same
  rcases (fates p (sound.view p hp)).isSome_or_displaced with linked | displaced
  · exact linked
  · obtain ⟨between, back, later, late, linksBack, _⟩ := displaced.overtaken
    refine absurd same ?_
    rw [← linksBack.node_eq]
    exact last before own after split rfl back.node (by rw [late]; simp)

theorem LastTurn.link_from (h : g.HonestGroups)
    (last : LastTurn g (Outreach.schedule g (Survey.conduct g source).1 mode source').1 hub)
    (hhub : hub < g.size) (hu : u < g.size) (other : u ≠ hub)
    (same : (g.node u).group = (g.node hub).group) :
    ((run g (Survey.conduct g source).1 mode source').1.overlay.link? u hub).isSome = true := by
  have surveyed := Survey.sound_conduct g source
  obtain ⟨before, own, after, split, rfl, sound, fates⟩ := exists_fate surveyed mode source' hu
  obtain ⟨p, hp, rfl⟩ := LocalView.exists_peer h source hu hhub other.symm same.symm
  rcases (fates p (sound.view p hp)).isSome_or_displaced with linked | displaced
  · exact linked
  · -- Whoever overtook the hub is a member of the group with a still later turn.
    obtain ⟨between, back, later, late, linksBack, q, hq, _, latest⟩ := displaced.overtaken
    rw [late, ← List.cons_append, ← List.append_assoc] at split
    refine absurd ?_ (last _ back later split linksBack.node_eq q.node latest)
    rw [← same]
    exact grouped_run h.toPartitioned surveyed mode source' _ _ _ (Overlay.mem_backlinks.1 hq)

end

/-- Every group has a member whose links to and from all others are there in the end. -/
theorem exists_hub {τ : Type} [RandomSource τ] (h : g.HonestGroups) (mode : WalkMode) (source : σ)
    (source' : τ) (hv : v < g.size) :
    let overlay := (run g (Survey.conduct g source).1 mode source').1.overlay
    ∃ hub < g.size, (g.node hub).group = (g.node v).group ∧
      ∀ u < g.size, (g.node u).group = (g.node v).group → u ≠ hub →
        (overlay.link? hub u).isSome = true ∧ (overlay.link? u hub).isSome = true := by
  intro overlay
  have turns := Outreach.perm_schedule g (Survey.conduct g source).1 mode source'
  obtain ⟨hub, scheduled, same, last⟩ := exists_lastTurn (turns.nodup_iff.2 List.nodup_range)
    (turns.mem_iff.2 (List.mem_range.2 hv))
  have hub_lt := List.mem_range.1 (turns.mem_iff.1 scheduled)
  refine ⟨hub, hub_lt, same, fun u hu member other => ?_⟩
  have grouped := member.trans same.symm
  exact ⟨last.link_to h hub_lt hu other grouped, last.link_from h hub_lt hu other grouped⟩

end Construction

end SloppyGroup
