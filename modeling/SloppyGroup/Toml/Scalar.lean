import SloppyGroup.Decimal.Reading
import SloppyGroup.Toml.Text
import SloppyGroup.Toml.Value

/-!
Numbers, dates and times of TOML.
-/

namespace SloppyGroup.Toml.Parser

/-- Digits, with single underscores between them left out. -/
def digits (isDigit : Char → Bool) : Parser (List Char) := do
  let first ← satisfy isDigit
  let rest ← many (satisfy isDigit <|> (exactly "_" *> satisfy isDigit))
  return first :: rest

def sign : Parser (List Char) := do
  match ← optional (satisfy fun c => c == '+' || c == '-') with
  | some c => return [c]
  | none => return []

/-- A signed decimal integer without leading zeros. -/
def decimalInteger : Parser (List Char × List Char) := do
  let sign ← sign
  let magnitude ← (do
      exactly "0"
      return ['0']) <|> digits Char.isDigit
  return (sign, magnitude)

def exponent : Parser (List Char) := do
  let e ← satisfy fun c => c == 'e' || c == 'E'
  let sign ← sign
  return e :: sign ++ (← digits Char.isDigit)

def fraction : Parser (List Char) := do
  exactly "."
  return '.' :: (← digits Char.isDigit)

/-- A decimal numeral with a fraction or an exponent; it must not be too large for a double. -/
def decimalFloat : Parser Value := do
  let (sign, whole) ← decimalInteger
  let tail ← exponent <|> (do
    let fraction ← fraction
    return fraction ++ ((← optional exponent).getD []))
  match Decimal.ofText? (String.ofList (sign ++ whole ++ tail)) with
  | some x => if x == 1.0 / 0.0 then failure else return .float x
  | none => failure

def specialFloat : Parser Value := do
  let sign ← sign
  let magnitude : Float ← (do
      exactly "inf"
      return 1.0 / 0.0) <|> (do
      exactly "nan"
      return 0.0 / 0.0)
  return .float (if sign = ['-'] then -magnitude else magnitude)

def bounded (n : Int) : Parser Value :=
  if Int64.minValue.toInt ≤ n ∧ n ≤ Int64.maxValue.toInt then return .integer n else failure

def digitValue (c : Char) : Nat :=
  if c.isDigit then c.toNat - '0'.toNat else c.toLower.toNat - 'a'.toNat + 10

def basedInteger (mark : String) (base : Nat) : Parser Value := do
  exactly mark
  let isDigit (c : Char) : Bool :=
    (c.isDigit || ('a' ≤ c.toLower && c.toLower ≤ 'f')) && digitValue c < base
  let ds ← digits isDigit
  bounded (ds.foldl (fun n c => base * n + digitValue c) 0 : Nat)

def integer : Parser Value :=
  basedInteger "0x" 16 <|> basedInteger "0o" 8 <|> basedInteger "0b" 2 <|> do
    let (sign, magnitude) ← decimalInteger
    let n : Int := Decimal.wholeOf magnitude
    bounded (if sign = ['-'] then -n else n)

def numberIn (count low high : Nat) : Parser Nat := do
  let n := Decimal.wholeOf (← exactlyMany Char.isDigit count)
  if low ≤ n ∧ n ≤ high then return n else failure

def isLeapYear (year : Nat) : Bool :=
  (year % 4 == 0 && year % 100 != 0) || year % 400 == 0

def daysIn (year month : Nat) : Nat :=
  if month = 2 then if isLeapYear year then 29 else 28
  else if month ∈ [4, 6, 9, 11] then 30
  else 31

def date : Parser Unit := do
  let year ← numberIn 4 0 9999
  exactly "-"
  let month ← numberIn 2 1 12
  exactly "-"
  let _ ← numberIn 2 1 (daysIn year month)

/-- A time of day; a minute may have a leap second. -/
def timeOfDay : Parser Unit := do
  let _ ← numberIn 2 0 23
  exactly ":"
  let _ ← numberIn 2 0 59
  exactly ":"
  let _ ← numberIn 2 0 60
  let _ ← optional (exactly "." *> satisfy Char.isDigit *> many (satisfy Char.isDigit))

def offset : Parser Unit :=
  exactly "Z" <|> exactly "z" <|> do
    let _ ← satisfy fun c => c == '+' || c == '-'
    let _ ← numberIn 2 0 23
    exactly ":"
    let _ ← numberIn 2 0 59

def time : Parser Value :=
  (do
    date
    let _ ← optional (do
      let _ ← satisfy fun c => c == 'T' || c == 't' || c == ' '
      timeOfDay
      let _ ← optional offset)
    return .time) <|> (do
    timeOfDay
    return .time)

def bool : Parser Value :=
  (do
    exactly "true"
    return .bool true) <|> (do
    exactly "false"
    return .bool false)

/-- A value without parts. -/
def scalar : Parser Value :=
  (.string <$> string) <|> bool <|> time <|> decimalFloat <|> specialFloat <|> integer

end SloppyGroup.Toml.Parser
