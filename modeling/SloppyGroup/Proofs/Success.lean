import Mathlib.Data.List.Forall2

/-!
When computations that can fail succeed: all their parts do, and the result comes of the results of
the parts.
-/

namespace SloppyGroup

variable {ε ε' α β : Type} {x : Except ε α}

theorem bind_eq_ok {f : α → Except ε β} {b : β} :
    x >>= f = .ok b ↔ ∃ a, x = .ok a ∧ f a = .ok b := by
  cases x with
  | error cause =>
    constructor
    · intro h
      cases h
    · rintro ⟨a, h, -⟩
      cases h
  | ok a =>
    constructor
    · intro h
      exact ⟨a, rfl, h⟩
    · rintro ⟨a', h, hb⟩
      cases h
      exact hb

theorem map_eq_ok {f : α → β} {b : β} : x.map f = .ok b ↔ ∃ a, x = .ok a ∧ f a = b := by
  cases x with
  | error cause =>
    constructor
    · intro h
      cases h
    · rintro ⟨a, h, -⟩
      cases h
  | ok a =>
    constructor
    · intro h
      exact ⟨a, rfl, Except.ok.inj h⟩
    · rintro ⟨a', h, rfl⟩
      cases h
      rfl

theorem mapError_eq_ok {f : ε → ε'} {a : α} : x.mapError f = .ok a ↔ x = .ok a := by
  cases x with
  | error cause =>
    constructor
    · intro h
      cases h
    · intro h
      cases h
  | ok a' =>
    rw [Except.mapError, Except.ok.injEq, Except.ok.injEq]

/-- A check refuses by raising an error, whatever would come after it. -/
theorem guard_eq_ok {c : Prop} [Decidable c] {cause : ε} {f : β → Except ε α} {a : α} :
    (if c then throw cause >>= f else x) = .ok a ↔ ¬c ∧ x = .ok a := by
  split
  · rename_i refused
    constructor
    · intro h
      cases h
    · rintro ⟨passed, -⟩
      exact absurd refused passed
  · rename_i passed
    exact (and_iff_right passed).symm

theorem mapM_eq_ok {f : α → Except ε β} {list : List α} {results : List β} :
    list.mapM f = .ok results ↔ List.Forall₂ (fun a b => f a = .ok b) list results := by
  induction list generalizing results with
  | nil =>
    rw [List.mapM_nil, List.forall₂_nil_left_iff]
    constructor
    · intro h
      cases h
      rfl
    · rintro rfl
      rfl
  | cons a list ih =>
    rw [List.mapM_cons, bind_eq_ok, List.forall₂_cons_left_iff]
    apply exists_congr
    intro b
    rw [bind_eq_ok]
    constructor
    · rintro ⟨first, rest, later, h⟩
      cases h
      exact ⟨rest, first, ih.1 later, rfl⟩
    · rintro ⟨rest, first, later, rfl⟩
      exact ⟨first, rest, ih.2 later, rfl⟩

theorem exists_forall₂_iff {R : α → β → Prop} {list : List α} :
    (∃ results, List.Forall₂ R list results) ↔ ∀ a ∈ list, ∃ b, R a b := by
  induction list with
  | nil => simp
  | cons a list ih =>
    rw [List.forall_mem_cons, ← ih]
    constructor
    · rintro ⟨results, related⟩
      cases related with
      | cons first rest => exact ⟨⟨_, first⟩, _, rest⟩
    · rintro ⟨⟨b, first⟩, results, rest⟩
      exact ⟨b :: results, .cons first rest⟩

end SloppyGroup
