import SloppyGroup.Decimal.Shortest
import SloppyGroup.Json.Tree
import SloppyGroup.Text.Quoted

/-!
JSON values: numbers are evaluated, and objects are sorted by key, without repetition. Values are
printed without spaces.
-/

namespace SloppyGroup.Json

inductive Value where
  | null
  | bool (value : Bool)
  | number (value : Number)
  | string (value : String)
  | array (items : List Value)
  | object (members : List (String × Value))
deriving Inhabited

namespace Value

/-- Adds a member in the order of keys; the last member with a key counts. -/
def insertMember (key : String) (value : Value) : List (String × Value) → List (String × Value)
  | [] => [(key, value)]
  | (k, v) :: rest =>
    if key < k then (key, value) :: (k, v) :: rest
    else if k < key then (k, v) :: insertMember key value rest
    else (key, value) :: rest

mutual

/-- Evaluates a tree that is nested at most `depth` levels deep and whose strings are texts and
whose numbers are in range. -/
def ofTree? (depth : Nat) : Tree → Option Value
  | .null => some .null
  | .bool b => some (.bool b)
  | .numeral n => n.value?.map .number
  | .string content => content.map .string
  | .array items =>
    if depth = 0 then none else (ofTrees? (depth - 1) items).map .array
  | .object members =>
    if depth = 0 then none else (ofMembers? (depth - 1) members []).map .object

def ofTrees? (depth : Nat) : List Tree → Option (List Value)
  | [] => some []
  | tree :: rest => do
    let value ← ofTree? depth tree
    let values ← ofTrees? depth rest
    return value :: values

def ofMembers? (depth : Nat) :
    List (Option String × Tree) → List (String × Value) → Option (List (String × Value))
  | [], sorted => some sorted
  | (key, tree) :: rest, sorted => do
    let key ← key
    let value ← ofTree? depth tree
    ofMembers? depth rest (insertMember key value sorted)

end

def escape (c : Char) : String :=
  match c with
  | '"' => "\\\""
  | '\\' => "\\\\"
  | '\x08' => "\\b"
  | '\x0c' => "\\f"
  | '\n' => "\\n"
  | '\r' => "\\r"
  | '\t' => "\\t"
  | c =>
    if c.toNat < 0x20 then
      (if c.toNat < 0x10 then "\\u000" else "\\u00") ++ Text.hexadecimal c.toNat
    else String.singleton c

def stringText (text : String) : String :=
  "\"" ++ String.join (text.toList.map escape) ++ "\""

def numberText : Number → String
  | .integer n => toString n
  | .double x => Decimal.Layout.data.text x

mutual

def text : Value → String
  | .null => "null"
  | .bool b => if b then "true" else "false"
  | .number n => numberText n
  | .string s => stringText s
  | .array items => "[" ++ String.intercalate "," (texts items) ++ "]"
  | .object members => "\x7b" ++ String.intercalate "," (memberTexts members) ++ "\x7d"

def texts : List Value → List String
  | [] => []
  | value :: rest => text value :: texts rest

def memberTexts : List (String × Value) → List String
  | [] => []
  | (key, value) :: rest => (stringText key ++ ":" ++ text value) :: memberTexts rest

end

end Value

end SloppyGroup.Json
