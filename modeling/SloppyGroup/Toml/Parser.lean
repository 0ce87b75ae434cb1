/-!
Parsers of character lists, and repetition bounded by the length of the input.
-/

namespace SloppyGroup.Toml

/-- A parser takes what it reads off the front of its input, or fails and takes nothing. -/
abbrev Parser := StateT (List Char) Option

namespace Parser

variable {α β : Type}

def char : Parser Char := fun
  | [] => none
  | c :: rest => some (c, rest)

def satisfy (p : Char → Bool) : Parser Char := do
  let c ← char
  guard (p c)
  return c

def exactly (text : String) : Parser Unit := fun cs =>
  if text.toList.isPrefixOf cs then some ((), cs.drop text.length) else none

def atEnd : Parser Unit := fun cs =>
  if cs.isEmpty then some ((), cs) else none

def optional (p : Parser α) : Parser (Option α) :=
  some <$> p <|> pure none

/-- Takes as many as there are, but at most `fuel`. -/
def atMost (p : Parser α) : (fuel : Nat) → Parser (List α)
  | 0 => pure []
  | fuel + 1 => do
    match ← optional p with
    | none => return []
    | some x => return x :: (← atMost p fuel)

/-- Takes as many as there are; each takes at least one character. -/
def many (p : Parser α) : Parser (List α) := fun cs => atMost p cs.length cs

/-- Takes as many as there are before the stop, which is tried first each time. -/
def upToFrom (stop : Parser β) (p : Parser α) : (fuel : Nat) → Parser (List α × β)
  | 0 => do return ([], ← stop)
  | fuel + 1 => do
    match ← optional stop with
    | some y => return ([], y)
    | none =>
      let x ← p
      let (xs, y) ← upToFrom stop p fuel
      return (x :: xs, y)

def upTo (stop : Parser β) (p : Parser α) : Parser (List α × β) := fun cs =>
  upToFrom stop p cs.length cs

/-- One or more, with separators between them. -/
def separated (separator : Parser β) (p : Parser α) : Parser (List α) := do
  let x ← p
  return x :: (← many (separator *> p))

def exactlyMany (p : Char → Bool) : (count : Nat) → Parser (List Char)
  | 0 => pure []
  | count + 1 => do
    let c ← satisfy p
    return c :: (← exactlyMany p count)

end Parser

end SloppyGroup.Toml
