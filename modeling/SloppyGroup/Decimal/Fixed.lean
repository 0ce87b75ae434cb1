import SloppyGroup.Decimal.Binary

/-!
Decimals with a fixed number of places: the exact value of a double, rounded, a half to the even
neighbour.
-/

namespace SloppyGroup.Decimal

/-- The whole number nearest to `num / den`; of two equally near ones, the even one. -/
def roundHalfEven (num den : Nat) : Nat :=
  let lower := num / den
  let twice := 2 * (num % den)
  if twice < den then lower
  else if den < twice then lower + 1
  else if lower % 2 = 0 then lower else lower + 1

/-- The decimal numeral of `n / 10 ^ places` with exactly `places` digits after the point. -/
def withPlaces (n places : Nat) : List Char :=
  let digits := (Nat.repr n).toList
  let padded := List.replicate (places + 1 - digits.length) '0' ++ digits
  let before := padded.length - places
  padded.take before ++ '.' :: padded.drop before

def fixed (places : Nat) (x : Float) : String :=
  match Reading.ofFloat x with
  | .undefined => "NaN"
  | .infinite negative => if negative then "-inf" else "inf"
  | .finite b =>
    let (num, den) := powerQuotient 2 b.exponent
    let body := withPlaces (roundHalfEven (b.significand * num * Nat.pow 10 places) den) places
    String.ofList (if b.negative then '-' :: body else body)

end SloppyGroup.Decimal
