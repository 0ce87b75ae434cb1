import SloppyGroup.Proofs.Overlay.Refusals

/-!
Rivals. Whoever asks a node for a backlink is linked to in the end, or the node is linked to as many
others that asked it as it admits, none of them farther. This holds in whatever order they have
their turns: in its own turn a node may make forward links of its backlinks and so admit more, but
it loses none.
-/

namespace SloppyGroup

variable {g : TrustGraph} {survey : Survey} {schedule before : List Outreach} {next : Outreach}
  {o o' : Overlay} {v w hops : Nat} {rivals : List Nat}

/-- Nodes that `v` is linked to and that asked it for a backlink: at least as many as it admits, and
none of them farther than `w`. -/
structure Rivals (g : TrustGraph) (schedule : List Outreach) (o : Overlay) (v w : Nat)
    (rivals : List Nat) : Prop where
  nodup : rivals.Nodup
  enough : (g.node v).backlinkCapacity ≤ rivals.length
  linked : ∀ u ∈ rivals, (o.link? v u).isSome = true
  asked : ∀ u ∈ rivals, v ∈ Outreach.links schedule u
  near : ∀ u ∈ rivals, g.trust.edist v u ≤ g.trust.edist v w

/-- What has become of `w` since it asked `v` for a backlink. -/
inductive Heard (g : TrustGraph) (schedule : List Outreach) (o : Overlay) (v w : Nat) : Prop where
  | linked (link : (o.link? v w).isSome = true)
  | outdone (rivals : List Nat) (h : Rivals g schedule o v w rivals)

theorem Outreach.mem_links_concat {schedule : List Outreach} (h : v ∈ links schedule w)
    (next : Outreach) : v ∈ links (schedule ++ [next]) w := by
  obtain ⟨outreach, scheduled, own, target⟩ := mem_links.1 h
  exact mem_links.2 ⟨outreach, List.mem_append_left _ scheduled, own, target⟩

namespace Rivals

theorem keep (h : Rivals g schedule o v w rivals)
    (keeps : ∀ u ∈ rivals, (o.link? v u).isSome = true → (o'.link? v u).isSome = true)
    (next : Outreach) : Rivals g (schedule ++ [next]) o' v w rivals where
  nodup := h.nodup
  enough := h.enough
  linked u hu := keeps u hu (h.linked u hu)
  asked u hu := Outreach.mem_links_concat (h.asked u hu) next
  near := h.near

/-- A rival that gives way does so for a nearer one. -/
theorem exchange (h : Rivals g schedule o v w rivals) {old : Nat} (held : old ∈ rivals)
    (fresh : next.node ∉ schedule.map (·.node)) (target : v ∈ next.targets.map (·.node))
    (nearer : g.trust.edist v next.node ≤ g.trust.edist v old)
    (newcomer : (o'.link? v next.node).isSome = true)
    (keeps : ∀ u ∈ rivals, u ≠ old → (o.link? v u).isSome = true → (o'.link? v u).isSome = true) :
    Rivals g (schedule ++ [next]) o' v w (next.node :: rivals.erase old) where
  nodup := by
    refine List.nodup_cons.2 ⟨fun again => fresh ?_, h.nodup.erase _⟩
    exact Outreach.mem_node_of_mem_links (h.asked _ (List.mem_of_mem_erase again))
  enough := by
    rw [List.length_cons, List.length_erase_of_mem held]
    have := List.length_pos_of_mem held
    have := h.enough
    omega
  linked := by
    refine List.forall_mem_cons.2 ⟨newcomer, fun u hu => ?_⟩
    obtain ⟨other, hu⟩ := h.nodup.mem_erase_iff.1 hu
    exact keeps u hu other (h.linked u hu)
  asked := by
    refine List.forall_mem_cons.2 ⟨?_, fun u hu => ?_⟩
    · exact Outreach.mem_links.2 ⟨next, by simp, rfl, target⟩
    · exact Outreach.mem_links_concat (h.asked u (List.mem_of_mem_erase hu)) next
  near := by
    refine List.forall_mem_cons.2 ⟨nearer.trans (h.near old held), fun u hu => ?_⟩
    exact h.near u (List.mem_of_mem_erase hu)

end Rivals

theorem Heard.keep (h : Heard g schedule o v w)
    (keeps : ∀ u, (o.link? v u).isSome = true → (o'.link? v u).isSome = true) (next : Outreach) :
    Heard g (schedule ++ [next]) o' v w := by
  cases h with
  | linked link => exact .linked (keeps w link)
  | outdone rivals h => exact .outdone rivals (h.keep (fun u _ => keeps u) next)

namespace Construction

/-- Backlinks lead to nodes that asked for them, and say how far they are. -/
theorem asked_of_mem_backlinks (sound : ∀ outreach ∈ schedule, outreach.Sound g survey) {q : Peer}
    (hq : q ∈ (ofSchedule g schedule).overlay.backlinks v) :
    v ∈ Outreach.links schedule q.node ∧ g.trust.edist v q.node = q.hops := by
  cases stems_ofSchedule sound (Overlay.mem_backlinks.1 hq) with
  | forward outreach scheduled own target kind => cases kind
  | backlink outreach scheduled own target kind =>
    refine ⟨Outreach.mem_links.2 ⟨outreach, scheduled, own, List.mem_map_of_mem target⟩, ?_⟩
    rw [← own, SimpleGraph.edist_comm]
    exact (sound outreach scheduled).edist_eq target

theorem rivals_of_crowded (sound : ∀ outreach ∈ schedule, outreach.Sound g survey)
    (far : g.trust.edist v w = hops)
    (crowded : (ofSchedule g schedule).overlay.Crowded v (g.node v).backlinkCapacity hops) :
    Rivals g schedule (ofSchedule g schedule).overlay v w
      ((ofSchedule g schedule).overlay.backlinkNodes v) where
  nodup := Overlay.nodup_backlinkNodes _ v
  enough := by
    rw [Overlay.length_backlinkNodes]
    exact crowded.full
  linked u hu := by
    obtain ⟨hops, link⟩ := Overlay.mem_backlinkNodes.1 hu
    rw [link]
    rfl
  asked u hu := by
    obtain ⟨q, hq, rfl⟩ := List.mem_map.1 hu
    exact (asked_of_mem_backlinks sound hq).1
  near u hu := by
    obtain ⟨q, hq, rfl⟩ := List.mem_map.1 hu
    rw [(asked_of_mem_backlinks sound hq).2, far]
    exact_mod_cast crowded.near q hq

variable (sound : ∀ outreach ∈ before ++ [next], outreach.Sound g survey)
  (fresh : next.node ∉ before.map (·.node))

include sound fresh

theorem exists_rivals_of_granted {hops : Nat} {after : Overlay}
    (h : Rivals g before (ofSchedule g before).overlay v w rivals)
    (target : ⟨hops, v⟩ ∈ next.targets)
    (granted : (ofSchedule g before).overlay.Granted after v next.node hops
      (g.node v).backlinkCapacity) :
    ∃ rivals, Rivals g (before ++ [next]) after v w rivals := by
  have earlier : ∀ outreach ∈ before, outreach.Sound g survey :=
    fun outreach ho => sound outreach (List.mem_append_left _ ho)
  cases granted with
  | admitted room links =>
    refine ⟨rivals, h.keep (fun u _ held => ?_) next⟩
    rw [links]
    split
    · rfl
    · exact held
  | declined full far links =>
    refine ⟨rivals, h.keep (fun u _ held => ?_) next⟩
    rw [links]
    exact held
  | replaced farthest full last nearer links =>
    have stays (u : Nat) (other : u ≠ farthest.node)
        (held : ((ofSchedule g before).overlay.link? v u).isSome = true) :
        (after.link? v u).isSome = true := by
      rw [links, if_neg other]
      split
      · rfl
      · exact held
    by_cases rival : farthest.node ∈ rivals
    · refine ⟨next.node :: rivals.erase farthest.node,
        h.exchange rival fresh (List.mem_map_of_mem target) ?_ ?_ fun u _ => stays u⟩
      · have near := (sound next (by simp)).edist_eq target
        rw [SimpleGraph.edist_comm, near,
          (asked_of_mem_backlinks earlier (List.mem_of_getLast? last)).2]
        exact_mod_cast Nat.le_of_lt nearer
      · rw [links, if_pos rfl]
        rfl
    · exact ⟨rivals, h.keep (fun u hu => stays u fun same => rival (same ▸ hu)) next⟩

/-- A link that gives way to a nearer node leaves a crowd of backlinks that are no farther. -/
theorem heard_of_granted {hops : Nat} {link : Link}
    (linked : (ofSchedule g before).overlay.link? v w = some link)
    (granted : (ofSchedule g before).overlay.Granted (ofSchedule g (before ++ [next])).overlay v
      next.node hops (g.node v).backlinkCapacity) (other : w ≠ next.node) :
    Heard g (before ++ [next]) (ofSchedule g (before ++ [next])).overlay v w := by
  have earlier : ∀ outreach ∈ before, outreach.Sound g survey :=
    fun outreach ho => sound outreach (List.mem_append_left _ ho)
  have new : next.node ∉ (ofSchedule g before).overlay.backlinkNodes v :=
    fun old => fresh (backlinkNodes_subset earlier v old)
  obtain ⟨hops, kind⟩ := link
  cases kind with
  | false =>
    left
    rw [granted.forward_stays other linked]
    rfl
  | true =>
    have held : ⟨hops, w⟩ ∈ (ofSchedule g before).overlay.backlinks v :=
      Overlay.mem_backlinks.2 linked
    rcases granted.stays_or_yields held other with stays | ⟨crowded, _⟩
    · left
      rw [Overlay.mem_backlinks.1 stays]
      rfl
    · exact .outdone _ (rivals_of_crowded sound (asked_of_mem_backlinks earlier held).2
        (granted.crowded new crowded))

theorem heard_concat (h : Heard g before (ofSchedule g before).overlay v w) (other : w ≠ next.node) :
    Heard g (before ++ [next]) (ofSchedule g (before ++ [next])).overlay v w := by
  have turn := turn_ofSchedule (sound next (by simp)) before
  by_cases own : v = next.node
  · -- The node's own turn overwrites links, but leaves none out.
    subst own
    refine h.keep (fun u held => ?_) next
    by_cases target : u ∈ next.targets.map (·.node)
    · obtain ⟨p, hp, rfl⟩ := List.mem_map.1 target
      rw [turn.links p hp]
      rfl
    · rw [turn.keeps u target]
      exact held
  · rcases turn.spared_or_asked own with same | ⟨hops, target, granted⟩
    · refine h.keep (fun u held => ?_) next
      rw [Overlay.link?_congr same]
      exact held
    · cases h with
      | linked link =>
        obtain ⟨link, there⟩ := Option.isSome_iff_exists.1 link
        exact heard_of_granted sound fresh there granted other
      | outdone rivals h =>
        obtain ⟨rivals, h⟩ := exists_rivals_of_granted sound fresh h target granted
        exact .outdone rivals h

omit sound fresh

theorem heard_ofSchedule {after : List Outreach} {own : Outreach}
    (sound : ∀ outreach ∈ before ++ own :: after, outreach.Sound g survey)
    (nodup : ((before ++ own :: after).map (·.node)).Nodup) (target : ⟨hops, v⟩ ∈ own.targets) :
    Heard g (before ++ own :: after) (ofSchedule g (before ++ own :: after)).overlay v own.node := by
  induction after using List.reverseRecOn with
  | nil =>
    have earlier : ∀ b ∈ before, b.Sound g survey := fun b hb =>
      sound b (List.mem_append_left _ hb)
    have reaches := sound own (by simp)
    have far := reaches.edist_eq target
    rw [SimpleGraph.edist_comm] at far
    have granted := (turn_ofSchedule reaches before).asks _ target
    cases granted.met (fresh_ofSchedule earlier nodup v) with
    | granted link =>
      left
      rw [link]
      rfl
    | crowded h => exact .outdone _ (rivals_of_crowded sound far h)
  | append_singleton after next ih =>
    have split : before ++ own :: (after ++ [next]) = (before ++ own :: after) ++ [next] := by
      simp
    rw [split] at sound nodup ⊢
    rw [List.map_append, List.nodup_append] at nodup
    have fresh : next.node ∉ (before ++ own :: after).map (·.node) :=
      fun old => nodup.2.2 _ old _ List.mem_cons_self rfl
    apply heard_concat sound fresh
    · exact ih (fun b hb => sound b (List.mem_append_left _ hb)) nodup.1
    · exact fun same => fresh (same ▸ List.mem_map_of_mem (by simp))

/-- Every request is heard, whichever of the two nodes has its turn first. -/
theorem heard_run {σ : Type} [RandomSource σ] (surveyed : survey.Sound g) (mode : WalkMode)
    (source : σ) (asked : v ∈ Outreach.links (Outreach.schedule g survey mode source).1 w) :
    Heard g (Outreach.schedule g survey mode source).1 (run g survey mode source).1.overlay v w := by
  have sound := Outreach.sound_schedule surveyed mode source
  have turns := Outreach.perm_schedule g survey mode source
  have nodup := turns.nodup_iff.2 List.nodup_range
  have constructed : (run g survey mode source).1 =
      ofSchedule g (Outreach.schedule g survey mode source).1 := rfl
  obtain ⟨own, scheduled, rfl, reaches⟩ := Outreach.mem_links.1 asked
  obtain ⟨before, after, split⟩ := List.append_of_mem scheduled
  obtain ⟨⟨hops, _⟩, target, rfl⟩ := List.mem_map.1 reaches
  rw [constructed]
  rw [split] at sound nodup ⊢
  exact heard_ofSchedule sound nodup target

end Construction

end SloppyGroup
