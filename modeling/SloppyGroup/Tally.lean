/-!
Adding up a figure over a list.
-/

namespace SloppyGroup

variable {α : Type}

def tally (figure : α → Nat) : List α → Nat
  | [] => 0
  | a :: rest => figure a + tally figure rest

theorem tally_append (figure : α → Nat) (l r : List α) :
    tally figure (l ++ r) = tally figure l + tally figure r := by
  induction l with
  | nil => simp [tally]
  | cons a l ih => simp [tally, ih, Nat.add_assoc]

theorem le_tally {figure : α → Nat} {l : List α} {a : α} (h : a ∈ l) :
    figure a ≤ tally figure l := by
  induction h with
  | head l => exact Nat.le_add_right _ _
  | tail b _ ih => exact Nat.le_trans ih (Nat.le_add_left _ _)

theorem tally_eq_zero_iff {figure : α → Nat} {l : List α} :
    tally figure l = 0 ↔ ∀ a ∈ l, figure a = 0 := by
  induction l with
  | nil => simp [tally]
  | cons a l ih => simp [tally, ih]

end SloppyGroup
