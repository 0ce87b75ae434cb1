/-!
Decimal numerals read as doubles, correctly rounded.
-/

namespace SloppyGroup.Decimal

/-- The double nearest to `digits * 10 ^ exponent`, where `digits` has `size` digits. Beyond the
range of doubles nothing is computed. -/
def nearest (digits size : Nat) (exponent : Int) : Float :=
  if digits = 0 then 0
  else if exponent + size > 400 then 1.0 / 0.0
  else if exponent + size < -400 then 0
  else if 0 ≤ exponent then Float.ofScientific digits false exponent.toNat
  else Float.ofScientific digits true (-exponent).toNat

def wholeOf (digits : List Char) : Nat :=
  digits.foldl (fun n c => 10 * n + (c.toNat - '0'.toNat)) 0

def splitDigits (cs : List Char) : List Char × List Char :=
  (cs.takeWhile Char.isDigit, cs.dropWhile Char.isDigit)

/-- Splits off a leading sign; `true` stands for minus. -/
def splitSign : List Char → Bool × List Char
  | '-' :: rest => (true, rest)
  | '+' :: rest => (false, rest)
  | rest => (false, rest)

/-- An exponent part that takes up the whole rest, or nothing at all. -/
def exponentOf? : List Char → Option Int
  | [] => some 0
  | c :: rest =>
    if c = 'e' ∨ c = 'E' then
      let (negative, rest) := splitSign rest
      let (digits, rest) := splitDigits rest
      if digits.isEmpty || !rest.isEmpty then none
      else
        let size : Int := wholeOf digits
        some (if negative then -size else size)
    else none

/-- The magnitude of an unsigned numeral: a word for infinity or for no number in any case of
letters, or digits with an optional point and exponent, at least one digit before the exponent. -/
def magnitudeOf? (cs : List Char) : Option Float :=
  let word := String.ofList (cs.map Char.toLower)
  if word = "inf" ∨ word = "infinity" then some (1.0 / 0.0)
  else if word = "nan" then some (0.0 / 0.0)
  else
    let (before, rest) := splitDigits cs
    let (after, rest) := match rest with
      | '.' :: rest => splitDigits rest
      | rest => ([], rest)
    if before.isEmpty && after.isEmpty then none
    else (exponentOf? rest).map fun exponent =>
      let digits := (before ++ after).dropWhile (· == '0')
      nearest (wholeOf digits) digits.length (exponent - after.length)

def ofText? (text : String) : Option Float :=
  let (negative, rest) := splitSign text.toList
  (magnitudeOf? rest).map fun x => if negative then -x else x

end SloppyGroup.Decimal
