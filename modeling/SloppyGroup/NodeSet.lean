import Std.Data.ExtTreeSet

/-!
Sets of nodes, each named by its position.
-/

namespace SloppyGroup

/-- A finite set of nodes, listed in increasing order. -/
abbrev NodeSet := Std.ExtTreeSet Nat

namespace NodeSet

variable {set : NodeSet} {u v : Nat}

theorem mem_insert : u ∈ set.insert v ↔ u = v ∨ u ∈ set := by
  rw [Std.ExtTreeSet.mem_insert, Std.LawfulEqCmp.compare_eq_iff_eq, eq_comm]

theorem contains_eq_false : set.contains u = false ↔ u ∉ set := by
  rw [Std.ExtTreeSet.mem_iff_contains, Bool.not_eq_true]

theorem sorted_toList (set : NodeSet) : set.toList.Pairwise (· < ·) := by
  apply Std.ExtTreeSet.ordered_toList.imp
  intro a b before
  exact Nat.compare_eq_lt.1 before

end NodeSet

end SloppyGroup
