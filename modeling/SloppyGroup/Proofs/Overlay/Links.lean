import SloppyGroup.Proofs.Overlay.Nodes
import SloppyGroup.Proofs.Undirected.Adjacency

/-!
The links of an overlay as a list: whatever the overlay went through, its links come in the order of
their ends, and counting along the list gives the degrees of its nodes.
-/

namespace SloppyGroup

theorem tally_eq_sum {α : Type} (figure : α → Nat) (l : List α) :
    tally figure l = (l.map figure).sum := by
  induction l with
  | nil => rfl
  | cons a l ih => rw [tally, ih, List.map_cons, List.sum_cons]

namespace Overlay

variable {o o' : Overlay} {count v w : Nat}

/-- A change to an overlay: a link as it is given, or one that asks for a backlink. -/
inductive Edit where
  | put (source target : Nat) (link : Link)
  | connect (source target hops capacity : Nat)
deriving DecidableEq, Repr

def Edit.Within (count : Nat) : Edit → Prop
  | .put source target _ | .connect source target _ _ => source < count ∧ target < count

def edit (o : Overlay) : Edit → Overlay
  | .put source target link => o.put source target link
  | .connect source target hops capacity => (o.connect source target hops capacity).2

/-- What becomes of an overlay without links. -/
def edited (count : Nat) (edits : List Edit) : Overlay :=
  edits.foldl edit (blank count)

theorem Spans.edit (h : o.Spans count) {e : Edit} (he : e.Within count) :
    (o.edit e).Spans count := by
  cases e with
  | put source target link => exact h.put he.1 he.2 link
  | connect source target hops capacity => exact h.connect he.1 he.2 hops capacity

theorem Spans.foldl_edit (h : o.Spans count) {edits : List Edit}
    (inside : ∀ e ∈ edits, e.Within count) : (edits.foldl Overlay.edit o).Spans count := by
  induction edits generalizing o with
  | nil => exact h
  | cons e edits ih =>
    apply ih (h.edit (inside e List.mem_cons_self))
    exact fun f hf => inside f (List.mem_cons_of_mem e hf)

theorem length_links (o : Overlay) : o.links.length = o.linkCount := by
  rw [links, List.length_flatMap, linkCount, tally_eq_sum]
  simp only [List.length_map, Std.ExtTreeMap.length_toList]

theorem sorted_links (o : Overlay) :
    o.links.Pairwise fun e f => e.1 < f.1 ∨ e.1 = f.1 ∧ e.2.1 < f.2.1 := by
  rw [links, List.pairwise_flatMap]
  constructor
  · intro entry _
    rw [List.pairwise_map]
    apply Std.ExtTreeMap.ordered_keys_toList.imp
    intro e f before
    exact .inr ⟨rfl, Nat.compare_eq_lt.1 before⟩
  · apply Std.ExtTreeMap.ordered_keys_toList.imp
    intro e f before x hx y hy
    obtain ⟨_, _, rfl⟩ := List.mem_map.1 hx
    obtain ⟨_, _, rfl⟩ := List.mem_map.1 hy
    exact .inl (Nat.compare_eq_lt.1 before)

theorem nodup_links (o : Overlay) : o.links.Nodup := by
  apply o.sorted_links.imp
  intro e f before same
  rw [same] at before
  omega

/-- Sorted lists with the same members are equal, so the order of links comes from the links. -/
theorem links_congr (same : ∀ v w, o.link? v w = o'.link? v w) : o.links = o'.links := by
  apply List.Perm.eq_of_pairwise _ o.sorted_links o'.sorted_links
  · rw [List.perm_ext_iff_of_nodup o.nodup_links o'.nodup_links]
    intro ⟨source, target, link⟩
    rw [mem_links, mem_links, same]
  · intro e f _ _ before after
    omega

theorem mem_row_iff : w ∈ o.row v ↔ ∃ link, (v, w, link) ∈ o.links := by
  simp only [mem_links]
  rw [Std.ExtTreeMap.mem_iff_isSome_getElem?, Option.isSome_iff_exists]
  rfl

theorem perm_targets (o : Overlay) (v : Nat) :
    ((o.links.filter (·.1 == v)).map (·.2.1)).Perm (o.row v).keys := by
  have apart : ((o.links.filter (·.1 == v)).map (·.2.1)).Nodup := by
    rw [List.Nodup, List.pairwise_map]
    apply (o.sorted_links.filter _).imp_of_mem
    intro e f he hf before
    have first := beq_iff_eq.1 (List.mem_filter.1 he).2
    have second := beq_iff_eq.1 (List.mem_filter.1 hf).2
    omega
  rw [List.perm_ext_iff_of_nodup apart Std.ExtTreeMap.nodup_keys]
  intro w
  rw [Std.ExtTreeMap.mem_keys, mem_row_iff, List.mem_map]
  constructor
  · intro ⟨e, there, target⟩
    obtain ⟨listed, source⟩ := List.mem_filter.1 there
    rw [← target, ← beq_iff_eq.1 source]
    exact ⟨e.2.2, listed⟩
  · intro ⟨link, listed⟩
    exact ⟨(v, w, link), List.mem_filter.2 ⟨listed, beq_self_eq_true v⟩, rfl⟩

theorem count_sources (o : Overlay) (v : Nat) : (o.links.map (·.1)).count v = o.outDegree v := by
  rw [outDegree, ← Std.ExtTreeMap.length_keys, ← (o.perm_targets v).length_eq, List.length_map,
    ← List.countP_eq_length_filter, List.count_eq_countP, List.countP_map]
  rfl

/-- A row holds at most one link to `v`. -/
theorem count_targets (o : Overlay) (v : Nat) : (o.links.map (·.2.1)).count v = o.inDegree v := by
  have each (source : Nat) (row : LinkRow) :
      ((row.toList.map fun entry => (source, entry.1, entry.2)).map (·.2.1)).count v =
        if row.contains v then 1 else 0 := by
    have targets : (row.toList.map fun entry => (source, entry.1, entry.2)).map (·.2.1) =
        row.keys := by
      rw [List.map_map, ← Std.ExtTreeMap.map_fst_toList_eq_keys]
      rfl
    rw [targets, Std.ExtTreeMap.nodup_keys.count]
    simp only [Std.ExtTreeMap.mem_keys, Std.ExtTreeMap.mem_iff_contains]
  rw [links, inDegree]
  induction o.rows.toList with
  | nil => rfl
  | cons entry rows ih =>
    rw [List.flatMap_cons, List.map_append, List.count_append, ih, List.countP_cons, Nat.add_comm]
    exact congrArg _ (each entry.1 entry.2)

theorem Spans.sum_inDegree (h : o.Spans count) :
    ∑ v ∈ Finset.range count, o.inDegree v = o.linkCount := by
  simp only [← count_targets]
  rw [sum_count_map fun e he => h.target_lt (mem_links.1 he), length_links]

theorem Spans.sum_outDegree (h : o.Spans count) :
    ∑ v ∈ Finset.range count, o.outDegree v = o.linkCount := by
  simp only [← count_sources]
  rw [sum_count_map fun e he => h.source_lt (mem_links.1 he), length_links]

end Overlay

end SloppyGroup
