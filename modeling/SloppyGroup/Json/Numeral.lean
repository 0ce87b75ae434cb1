import SloppyGroup.Decimal.Reading

/-!
JSON numerals: their grammar and their values. A numeral without point and exponent is an integer if
64 bits can hold it. Any other is a double: as many of its digits as fit into 64 bits make up a
whole number, which is then multiplied with or divided by a power of ten.
-/

namespace SloppyGroup.Json

/-- A numeral as it is written: sign, whole digits, digits behind the point, exponent with its
sign. -/
structure Numeral where
  negative : Bool
  whole : List Char
  decimals : List Char
  exponent : Option (Bool × List Char)
deriving DecidableEq, Repr

/-- The value of a numeral. -/
inductive Number where
  | integer (value : Int)
  | double (value : Float)

namespace Numeral

/-- The exponent part that makes up the rest of a numeral, if it is well formed. -/
def exponentOf? : List Char → Option (Option (Bool × List Char))
  | [] => some none
  | c :: rest =>
    if c = 'e' ∨ c = 'E' then
      let (negative, digits) := Decimal.splitSign rest
      if digits.isEmpty || !digits.all Char.isDigit then none else some (some (negative, digits))
    else none

/-- The parts behind the whole digits: a point with at least one digit, and an exponent. -/
def tailOf? : List Char → Option (List Char × Option (Bool × List Char))
  | '.' :: rest =>
    let (decimals, rest) := Decimal.splitDigits rest
    if decimals.isEmpty then none else (exponentOf? rest).map fun exponent => (decimals, exponent)
  | rest => (exponentOf? rest).map fun exponent => ([], exponent)

/-- Reads a numeral; whole digits do not start with a zero unless it is the only one. -/
def ofChars? (cs : List Char) : Option Numeral :=
  let (negative, rest) := match cs with
    | '-' :: rest => (true, rest)
    | rest => (false, rest)
  let (whole, rest) := Decimal.splitDigits rest
  if whole.isEmpty || (whole.head? == some '0' && 1 < whole.length) then none
  else (tailOf? rest).map fun (decimals, exponent) => ⟨negative, whole, decimals, exponent⟩

/-- Appends digits to a whole number as long as 64 bits can hold it; also returns the digits that
are left over. -/
def absorb (n : Nat) : List Char → Nat × List Char
  | [] => (n, [])
  | c :: rest =>
    let next := 10 * n + (c.toNat - '0'.toNat)
    if next < UInt64.size then absorb next rest else (n, c :: rest)

/-- Divides by powers of ten that a double can hold, until nothing is left of the exponent or the
number. -/
def scaleDown : (fuel : Nat) → Float → Nat → Float
  | 0, _, _ => 0
  | fuel + 1, x, exponent =>
    if exponent ≤ 308 then x / Float.ofScientific 1 false exponent
    else if x == 0 then x
    else scaleDown fuel (x / Float.ofScientific 1 false 308) (exponent - 308)

/-- The double `digits * 10 ^ exponent`, unless it is out of range. -/
def scaled? (digits : Nat) (exponent : Int) : Option Float :=
  let x := digits.toUInt64.toFloat
  if exponent < 0 then some (scaleDown 4 x exponent.natAbs)
  else if 308 < exponent then if digits = 0 then some x else none
  else
    let y := x * Float.ofScientific 1 false exponent.toNat
    if y.isInf then none else some y

/-- The largest exponent that is read digit by digit. -/
def exponentLimit : Nat := 2147483647

/-- The magnitude of a numeral that has a point, an exponent or too many digits. -/
def magnitude? (n : Numeral) : Option Float :=
  let (digits, dropped) := absorb 0 n.whole
  let (digits, unread) := absorb digits n.decimals
  let shift : Int := (dropped.length : Int) - (n.decimals.length - unread.length : Nat)
  match n.exponent with
  | none => scaled? digits shift
  | some (negative, ds) =>
    let exponent := Decimal.wholeOf ds
    if exponentLimit < exponent then
      if digits = 0 ∨ negative then some 0 else none
    else scaled? digits (if negative then shift - exponent else shift + exponent)

/-- The value of a numeral, unless it is out of range. -/
def value? (n : Numeral) : Option Number :=
  let whole := Decimal.wholeOf n.whole
  let plain := n.decimals.isEmpty && n.exponent.isNone
  if plain && !n.negative && whole < UInt64.size then
    some (.integer whole)
  else if plain && n.negative && 0 < whole && whole ≤ Nat.pow 2 63 then
    some (.integer (-whole))
  else
    n.magnitude?.map fun x => .double (if n.negative then -x else x)

end Numeral

namespace Number

def natural? : Number → Option Nat
  | .integer (.ofNat n) => some n
  | _ => none

def toFloat : Number → Float
  | .integer n => Float.ofInt n
  | .double x => x

end Number

end SloppyGroup.Json
