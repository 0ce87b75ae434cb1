import SloppyGroup.Toml.Parser

/-!
Blanks, comments, line ends and strings of TOML.
-/

namespace SloppyGroup.Toml.Parser

def isBlank (c : Char) : Bool :=
  c == ' ' || c == '\t'

/-- Characters that may stand anywhere in a comment or a string: no controls except for the tab. -/
def isPlain (c : Char) : Bool :=
  c == '\t' || (0x20 ≤ c.toNat && c.toNat != 0x7F)

def blanks : Parser Unit := do
  let _ ← many (satisfy isBlank)

def newline : Parser Unit :=
  exactly "\n" <|> exactly "\r\n"

def comment : Parser Unit := do
  exactly "#"
  let _ ← many (satisfy isPlain)

def lineEnd : Parser Unit := do
  blanks
  let _ ← optional comment
  newline <|> atEnd

/-- Blanks, line ends and comments between the items of an array. -/
def arraySpace : Parser Unit := do
  let _ ← many ((do let _ ← satisfy isBlank) <|> (do let _ ← optional comment; newline))

def hexDigit : Parser Nat := do
  let c ← char
  if c.isDigit then return c.toNat - '0'.toNat
  else if 'a' ≤ c ∧ c ≤ 'f' then return c.toNat - 'a'.toNat + 10
  else if 'A' ≤ c ∧ c ≤ 'F' then return c.toNat - 'A'.toNat + 10
  else failure

def hexNumber : (count : Nat) → (before : Nat) → Parser Nat
  | 0, n => return n
  | count + 1, n => do
    let digit ← hexDigit
    hexNumber count (16 * n + digit)

/-- The character with a code point, unless there is none. -/
def codePoint (n : Nat) : Parser Char :=
  if n.isValidChar then return Char.ofNat n else failure

def escape : Parser Char := do
  exactly "\\"
  match ← char with
  | 'b' => return '\x08'
  | 't' => return '\t'
  | 'n' => return '\n'
  | 'f' => return '\x0c'
  | 'r' => return '\r'
  | '"' => return '"'
  | '\\' => return '\\'
  | 'u' => codePoint (← hexNumber 4 0)
  | 'U' => codePoint (← hexNumber 8 0)
  | _ => failure

/-- A backslash at the end of a line, which joins it with the next line that is not blank. -/
def joinedLines : Parser Unit := do
  exactly "\\"
  blanks
  newline
  let _ ← many ((do let _ ← satisfy isBlank) <|> newline)

def textOf (pieces : List (List Char)) : String :=
  String.ofList pieces.flatten

def basicString : Parser String := do
  exactly "\""
  let plain := satisfy fun c => isPlain c && c != '\\'
  let (cs, _) ← upTo (exactly "\"") (plain <|> escape)
  return String.ofList cs

def literalString : Parser String := do
  exactly "'"
  let (cs, _) ← upTo (exactly "'") (satisfy isPlain)
  return String.ofList cs

/-- The closing quotes of a multi-line string; up to two more in front of them belong to it. -/
def closing (quote : Char) : Parser (List Char) := do
  let _ ← exactlyMany (· == quote) 3
  let more ← atMost (satisfy (· == quote)) 2
  return more

/-- The inside of a multi-line string; a line end right after the opening quotes does not count. -/
def multiline (quote : Char) (piece : Parser (List Char)) : Parser String := do
  let _ ← exactlyMany (· == quote) 3
  let _ ← optional newline
  let lineBreak : Parser (List Char) := do
    newline
    return ['\n']
  let (pieces, quotes) ← upTo (closing quote) (lineBreak <|> piece)
  return textOf (pieces ++ [quotes])

def multilineBasicString : Parser String :=
  multiline '"' ((do joinedLines; return []) <|> (do return [← escape]) <|>
    (do return [← satisfy fun c => isPlain c && c != '\\']))

def multilineLiteralString : Parser String :=
  multiline '\'' (do return [← satisfy isPlain])

def string : Parser String := do
  multilineBasicString <|> basicString <|> multilineLiteralString <|> literalString

end SloppyGroup.Toml.Parser
