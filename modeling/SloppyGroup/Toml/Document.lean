import SloppyGroup.Toml.Scalar
import SloppyGroup.Toml.Tables

/-!
TOML documents.
-/

namespace SloppyGroup.Toml

namespace Parser

/-- Arrays and inline tables are nested less deeply than this, and a key has fewer parts. -/
def depthLimit : Nat := 80

def isBareKey (c : Char) : Bool :=
  c.isAlphanum || c == '_' || c == '-'

def simpleKey : Parser String :=
  basicString <|> literalString <|> do
    let first ← satisfy isBareKey
    let rest ← many (satisfy isBareKey)
    return String.ofList (first :: rest)

/-- A key of one or more parts with points between them, blanks around each. -/
def path : Parser Path := do
  let parts ← separated (exactly ".") (blanks *> simpleKey <* blanks)
  guard (parts.length < depthLimit)
  match parts.getLast? with
  | some key => return ⟨parts.dropLast, key⟩
  | none => failure

def array (item : Parser Value) : Parser Value := do
  exactly "["
  let items ← optional (separated (exactly ",") (arraySpace *> item <* arraySpace))
  if items.isSome then
    let _ ← optional (exactly ",")
  arraySpace
  exactly "]"
  return .array (items.getD [])

def assignment (item : Parser Value) : Parser (Path × Value) := do
  let path ← path
  exactly "="
  blanks
  return (path, ← item)

def inlineTable (item : Parser Value) : Parser Value := do
  exactly "\x7b"
  let assignments ← optional (separated (exactly ",") (assignment item <* blanks))
  blanks
  exactly "\x7d"
  match inlineTable? (assignments.getD []) with
  | some table => return table
  | none => failure

/-- A value that is nested at most `depth` levels deep. -/
def value : (depth : Nat) → Parser Value
  | 0 => scalar
  | depth + 1 => scalar <|> array (value depth) <|> inlineTable (value depth)

def header : Parser Statement :=
  (do
    exactly "[["
    let path ← path
    exactly "]]"
    return .arrayTable path) <|> (do
    exactly "["
    let path ← path
    exactly "]"
    return .table path)

def statement : Parser Statement :=
  header <|> do
    let (path, value) ← assignment (value (depthLimit - 1))
    return .assign path value

/-- A line with at most one statement. -/
def line : Parser (Option Statement) := do
  blanks
  let statement ← optional statement
  lineEnd
  return statement

def lines : (fuel : Nat) → Parser (List (Option Statement))
  | 0 => do
    atEnd
    return []
  | fuel + 1 => do
    match ← optional atEnd with
    | some _ => return []
    | none =>
      let first ← line
      return first :: (← lines fuel)

/-- All statements of a text, which may start with a byte order mark. -/
def statements : Parser (List Statement) := fun cs =>
  (do
    let _ ← optional (exactly "\uFEFF")
    return (← lines cs.length).filterMap id : Parser (List Statement)) cs

end Parser

def ofText? (text : String) : Option (List (String × Value)) := do
  let (statements, _) ← Parser.statements text.toList
  tableOf? statements

end SloppyGroup.Toml
