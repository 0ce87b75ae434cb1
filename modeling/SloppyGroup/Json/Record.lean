import SloppyGroup.Json.Value

/-!
Records in JSON: an object with known fields, or an array of their values in order. Unknown members
of an object are passed over; a known one must not be repeated, not even under another of its names.
-/

namespace SloppyGroup.Json

/-- What happens if a field has no value. -/
inductive Absence where
  /-- The record is refused. -/
  | refused
  /-- An object may leave the field out, an array may not. -/
  | inObject
  | allowed
deriving DecidableEq, Repr

/-- A field of a record with the names that it goes by. -/
structure Field where
  names : List String
  absence : Absence
deriving DecidableEq, Repr

namespace Record

/-- The values of the members with one of some names, in order. -/
def membersNamed (names : List String) (members : List (Option String × Tree)) : List Tree :=
  members.filterMap fun (key, value) => if key.any (· ∈ names) then some value else none

def fieldOf? (members : List (Option String × Tree)) (field : Field) : Option (Option Tree) :=
  match membersNamed field.names members with
  | [] => if field.absence = .refused then none else some none
  | [value] => some (some value)
  | _ => none

def listed? : List Field → List Tree → Option (List (Option Tree))
  | [], [] => some []
  | [], _ :: _ => none
  | field :: fields, [] =>
    if field.absence = .allowed then (listed? fields []).map (none :: ·) else none
  | _ :: fields, value :: values => (listed? fields values).map (some value :: ·)

def fields? (fields : List Field) : Tree → Option (List (Option Tree))
  | .object members =>
    if members.all fun (key, _) => key.isSome then fields.mapM (fieldOf? members) else none
  | .array items => listed? fields items
  | _ => none

end Record

namespace Tree

def bool? : Tree → Option Bool
  | .bool b => some b
  | _ => none

def string? : Tree → Option String
  | .string content => content
  | _ => none

def number? : Tree → Option Number
  | .numeral n => n.value?
  | _ => none

def natural? (tree : Tree) : Option Nat :=
  tree.number?.bind Number.natural?

def float? (tree : Tree) : Option Float :=
  tree.number?.map Number.toFloat

def nullable? {α : Type} (read : Tree → Option α) : Tree → Option (Option α)
  | .null => some none
  | tree => (read tree).map some

def list? {α : Type} (read : Tree → Option α) : Tree → Option (List α)
  | .array items => items.mapM read
  | _ => none

def orElse {α : Type} (read : Tree → Option α) (absent : α) : Option Tree → Option α
  | none => some absent
  | some tree => read tree

/-- Reads one of some words: as a string, or as the only key of an object, with the value null. -/
def word? {α : Type} (named? : String → Option α) : Tree → Option α
  | .string content => content.bind named?
  | .object [(key, .null)] => key.bind named?
  | _ => none

end Tree

end SloppyGroup.Json
