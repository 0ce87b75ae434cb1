/-!
The exact value of a double: a sign, a whole number and a power of two.
-/

namespace SloppyGroup.Decimal

/-- The value `significand * 2 ^ exponent`, negated when `negative` holds. -/
structure Binary where
  negative : Bool
  significand : Nat
  exponent : Int
deriving DecidableEq, Repr

/-- What a double stands for. -/
inductive Reading where
  | finite (value : Binary)
  | infinite (negative : Bool)
  | undefined
deriving DecidableEq, Repr

/-- Reads a double from its bits: one sign bit, eleven exponent bits, fifty-two fraction bits. -/
def Reading.ofFloat (x : Float) : Reading :=
  let bits := x.toBits.toNat
  let negative := bits / Nat.pow 2 63 == 1
  let biased : Nat := bits / Nat.pow 2 52 % Nat.pow 2 11
  let fraction : Nat := bits % Nat.pow 2 52
  if biased = 2047 then
    if fraction = 0 then .infinite negative else .undefined
  else if biased = 0 then
    .finite ⟨negative, fraction, -1074⟩
  else
    .finite ⟨negative, Nat.pow 2 52 + fraction, biased - 1075⟩

/-- Whether the double below is only half as far away as the double above. -/
def Binary.narrowBelow (b : Binary) : Bool :=
  b.significand = Nat.pow 2 52 && b.exponent > -1074

/-- A power of an integer base as a quotient of two whole numbers. -/
def powerQuotient (base : Nat) (e : Int) : Nat × Nat :=
  if 0 ≤ e then (Nat.pow base e.toNat, 1) else (1, Nat.pow base (-e).toNat)

end SloppyGroup.Decimal
