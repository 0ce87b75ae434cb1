import SloppyGroup.Decimal.Binary

/-!
The shortest decimal that reads back as a given double, and the two ways of laying it out: always
positional, or positional only for moderate sizes.
-/

namespace SloppyGroup.Decimal

/-- The decimal `0.d₁d₂… * 10 ^ point` with digits `d₁d₂…`. -/
structure Digits where
  digits : List Char
  point : Int
deriving DecidableEq, Repr

def digitCount (n : Nat) : Nat :=
  (Nat.repr n).length

/-- The exponent `p` with `10 ^ (p - 1) ≤ x < 10 ^ p` for a positive double `x`. -/
def Binary.decimalPoint (b : Binary) : Int :=
  let (num, den) := powerQuotient 2 b.exponent
  (digitCount (b.significand * num * Nat.pow 10 340 / den) : Int) - 340

/-- A point of the grid of multiples of `10 ^ unit`, compared with a double in quarter units of its
last place: how far away it is, and whether it rounds to the double. -/
structure GridPoint where
  multiple : Nat
  distance : Nat
  readsBack : Bool

/-- Measures the grid point `multiple * 10 ^ unit` against a double. -/
def Binary.measure (b : Binary) (unit : Int) (multiple : Nat) : GridPoint :=
  let (twoNum, twoDen) := powerQuotient 2 (b.exponent - 2)
  let (tenNum, tenDen) := powerQuotient 10 unit
  let quarter := twoNum * tenDen
  let point := multiple * tenNum * twoDen
  let value := 4 * b.significand * quarter
  let above := 2 * quarter
  let below := if b.narrowBelow then quarter else 2 * quarter
  let closed := b.significand % 2 = 0
  if value ≤ point then
    ⟨multiple, point - value, point - value < above || (closed && point - value = above)⟩
  else
    ⟨multiple, value - point, value - point < below || (closed && value - point = below)⟩

/-- The best of the two neighbours of a double on the grid of multiples of `10 ^ unit`, if one of
them reads back; the even one of two equally near. -/
def Binary.onGrid (b : Binary) (unit : Int) : Option Nat :=
  let (twoNum, twoDen) := powerQuotient 2 b.exponent
  let (tenNum, tenDen) := powerQuotient 10 unit
  let lower := b.significand * twoNum * tenDen / (twoDen * tenNum)
  let down := b.measure unit lower
  let up := b.measure unit (lower + 1)
  match down.readsBack, up.readsBack with
  | true, true =>
    if down.distance < up.distance then some down.multiple
    else if up.distance < down.distance then some up.multiple
    else if down.multiple % 2 = 0 then some down.multiple else some up.multiple
  | true, false => some down.multiple
  | false, true => some up.multiple
  | false, false => none

/-- Tries ever finer grids, `count` digits first. -/
def Binary.shortestFrom (b : Binary) (point : Int) : (fuel count : Nat) → Nat × Int
  | 0, count => (0, point - count)
  | fuel + 1, count =>
    match b.onGrid (point - count) with
    | some multiple => (multiple, point - count)
    | none => b.shortestFrom point fuel (count + 1)

/-- The shortest digits that read back as a double; seventeen always do. -/
def Binary.shortest (b : Binary) : Digits :=
  if b.significand = 0 then ⟨['0'], 1⟩
  else
    let (multiple, unit) := b.shortestFrom b.decimalPoint 17 1
    let digits := (Nat.repr multiple).toList
    let kept := (digits.reverse.dropWhile (· == '0')).reverse
    ⟨kept, unit + digits.length⟩

def zeros (n : Nat) : List Char :=
  List.replicate n '0'

/-- Positional notation; a whole number ends in `whole`. -/
def Digits.positional (d : Digits) (whole : List Char) : List Char :=
  if d.point ≤ 0 then '0' :: '.' :: zeros (-d.point).toNat ++ d.digits
  else
    let before := d.point.toNat
    if d.digits.length ≤ before then
      d.digits ++ zeros (before - d.digits.length) ++ whole
    else
      d.digits.take before ++ '.' :: d.digits.drop before

def Digits.scientific (d : Digits) : List Char :=
  let exponent := d.point - 1
  let fraction := match d.digits.tail with
    | [] => []
    | rest => '.' :: rest
  let sign := if exponent < 0 then '-' else '+'
  d.digits.take 1 ++ fraction ++ 'e' :: sign :: (Nat.repr exponent.natAbs).toList

/-- How the texts of doubles are laid out. -/
structure Layout where
  /-- What follows a whole number. -/
  whole : List Char
  /-- Which decimal points are written positionally. -/
  positional : Int → Bool

/-- Positional notation throughout, whole numbers as such. -/
def Layout.plain : Layout := ⟨[], fun _ => true⟩

/-- Positional notation from `10 ^ -5` up to `10 ^ 16`, whole numbers with one decimal place. -/
def Layout.data : Layout := ⟨['.', '0'], fun point => -4 ≤ point && point ≤ 16⟩

def Layout.text (layout : Layout) (x : Float) : String :=
  match Reading.ofFloat x with
  | .undefined => "NaN"
  | .infinite negative => if negative then "-inf" else "inf"
  | .finite b =>
    let d := b.shortest
    let body := if layout.positional d.point then d.positional layout.whole else d.scientific
    String.ofList (if b.negative then '-' :: body else body)

end SloppyGroup.Decimal
