import SloppyGroup.Proofs.Overlay.Nodes

/-!
How many backlinks a node holds: whoever asks, in whatever order, never more than it admits.
-/

namespace SloppyGroup

namespace Overlay

variable {o : Overlay} {v w source target requester hops : Nat} {capacity : Nat → Nat}

def backlinkNodes (o : Overlay) (v : Nat) : List Nat :=
  (o.backlinks v).map (·.node)

theorem length_backlinkNodes (o : Overlay) (v : Nat) :
    (o.backlinkNodes v).length = (o.backlinks v).length :=
  List.length_map _

theorem mem_backlinkNodes :
    w ∈ o.backlinkNodes v ↔ ∃ hops, o.link? v w = some ⟨hops, true⟩ := by
  simp only [backlinkNodes, List.mem_map, mem_backlinks]
  constructor
  · rintro ⟨peer, held, rfl⟩
    exact ⟨peer.hops, held⟩
  · rintro ⟨hops, held⟩
    exact ⟨⟨hops, w⟩, held, rfl⟩

theorem nodup_backlinkNodes (o : Overlay) (v : Nat) : (o.backlinkNodes v).Nodup := by
  rw [backlinkNodes, backlinks, ((List.mergeSort_perm _ _).map _).nodup_iff, List.Nodup,
    List.pairwise_map, List.pairwise_filterMap]
  apply Std.ExtTreeMap.distinct_keys_toList.imp
  rintro ⟨first, link⟩ ⟨second, link'⟩ distinct p hp q hq same
  simp only [Option.ite_none_right_eq_some, Option.some.injEq] at hp hq
  obtain ⟨-, rfl⟩ := hp
  obtain ⟨-, rfl⟩ := hq
  exact distinct (Std.LawfulEqCmp.compare_eq_iff_eq.2 same)

theorem mem_backlinkNodes_put {link : Link} :
    w ∈ (o.put source target link).backlinkNodes v ↔
      (v = source ∧ w = target ∧ link.isBacklink = true) ∨
      (¬(v = source ∧ w = target) ∧ w ∈ o.backlinkNodes v) := by
  simp only [mem_backlinkNodes, link?_put]
  by_cases h : v = source ∧ w = target
  · cases link
    simp [h]
  · simp only [h, ↓reduceIte, not_false_eq_true, true_and]
    grind

theorem mem_backlinkNodes_remove :
    w ∈ (o.remove source target).backlinkNodes v ↔
      ¬(v = source ∧ w = target) ∧ w ∈ o.backlinkNodes v := by
  simp only [mem_backlinkNodes, link?_remove]
  by_cases h : v = source ∧ w = target
  · simp [h]
  · simp [h]

theorem length_backlinks_le {o' : Overlay} {others : List Nat}
    (h : o'.backlinkNodes v ⊆ others) : (o'.backlinks v).length ≤ others.length := by
  rw [← length_backlinkNodes]
  exact (List.subperm_of_subset (o'.nodup_backlinkNodes v) h).length_le

theorem length_backlinks_put_forward (o : Overlay) (source target hops v : Nat) :
    ((o.put source target ⟨hops, false⟩).backlinks v).length ≤ (o.backlinks v).length := by
  rw [← length_backlinkNodes o]
  apply length_backlinks_le
  intro w hw
  rcases mem_backlinkNodes_put.1 hw with ⟨_, _, marked⟩ | ⟨_, held⟩
  · cases marked
  · exact held

theorem length_backlinks_put_backlink (o : Overlay) (source target hops v : Nat) :
    ((o.put source target ⟨hops, true⟩).backlinks v).length ≤
      (o.backlinks v).length + if v = source then 1 else 0 := by
  rw [← length_backlinkNodes o]
  split
  · change _ ≤ (target :: o.backlinkNodes v).length
    apply length_backlinks_le
    intro w hw
    rcases mem_backlinkNodes_put.1 hw with ⟨_, rfl, _⟩ | ⟨_, held⟩
    · exact List.mem_cons_self
    · exact List.mem_cons_of_mem _ held
  · rename_i other
    apply length_backlinks_le
    intro w hw
    rcases mem_backlinkNodes_put.1 hw with ⟨same, _⟩ | ⟨_, held⟩
    · exact absurd same other
    · exact held

theorem length_backlinks_remove (o : Overlay) (source target v : Nat) :
    ((o.remove source target).backlinks v).length ≤ (o.backlinks v).length := by
  rw [← length_backlinkNodes o]
  apply length_backlinks_le
  intro w hw
  exact (mem_backlinkNodes_remove.1 hw).2

theorem length_backlinks_remove_held (held : target ∈ o.backlinkNodes source) :
    ((o.remove source target).backlinks source).length + 1 ≤ (o.backlinks source).length := by
  have fewer : ((o.remove source target).backlinks source).length ≤
      ((o.backlinkNodes source).erase target).length := by
    apply length_backlinks_le
    intro w hw
    obtain ⟨other, still⟩ := mem_backlinkNodes_remove.1 hw
    exact (List.mem_erase_of_ne fun same => other ⟨rfl, same⟩).2 still
  have := List.length_pos_of_mem held
  rw [List.length_erase_of_mem held] at fewer
  rw [length_backlinkNodes] at fewer this
  omega

/-- Every node holds at most as many backlinks as its capacity says. -/
def Bounded (o : Overlay) (capacity : Nat → Nat) : Prop :=
  ∀ v, (o.backlinks v).length ≤ capacity v

theorem bounded_blank (count : Nat) (capacity : Nat → Nat) : (blank count).Bounded capacity := by
  intro v
  have none : (blank count).backlinkNodes v ⊆ [] := by
    intro w hw
    obtain ⟨hops, held⟩ := mem_backlinkNodes.1 hw
    simp at held
  exact Nat.le_trans (length_backlinks_le none) (Nat.zero_le _)

theorem Bounded.put_forward (h : o.Bounded capacity) (source target hops : Nat) :
    (o.put source target ⟨hops, false⟩).Bounded capacity :=
  fun v => Nat.le_trans (length_backlinks_put_forward o source target hops v) (h v)

theorem Bounded.put_backlink (h : o.Bounded capacity)
    (room : (o.backlinks target).length < capacity target) (requester hops : Nat) :
    (o.put target requester ⟨hops, true⟩).Bounded capacity := by
  intro v
  have more := length_backlinks_put_backlink o target requester hops v
  have bound := h v
  by_cases asked : v = target
  · rw [if_pos asked] at more
    rw [asked] at more ⊢
    omega
  · rw [if_neg asked] at more
    omega

theorem Bounded.remove (h : o.Bounded capacity) (source target : Nat) :
    (o.remove source target).Bounded capacity :=
  fun v => Nat.le_trans (length_backlinks_remove o source target v) (h v)

theorem Bounded.answered (h : o.Bounded capacity) {answer : BacklinkAnswer} {after : Overlay}
    (ha : o.Answered target requester hops (capacity target) answer after) :
    after.Bounded capacity := by
  cases ha with
  | selfLink => exact h
  | admitted other room => exact h.put_backlink room requester hops
  | replaced farthest other full last =>
    -- The farthest peer gives up its place first, so there is room for one more.
    apply (h.remove target farthest.node).put_backlink
    have held : farthest.node ∈ o.backlinkNodes target :=
      List.mem_map_of_mem (List.mem_of_getLast? last)
    exact Nat.lt_of_lt_of_le (length_backlinks_remove_held held) (h target)
  | declined => exact h

/-- Linking two nodes keeps the number of backlinks within the bounds. -/
theorem Bounded.connect (h : o.Bounded capacity) (source target hops : Nat) :
    (o.connect source target hops (capacity target)).2.Bounded capacity :=
  (h.put_forward source target hops).answered
    (answered_connect o source target hops (capacity target))

end Overlay

end SloppyGroup
