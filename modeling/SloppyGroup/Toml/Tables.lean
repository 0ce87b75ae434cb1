import SloppyGroup.Toml.Value

/-!
How statements define tables. Every table is defined once: by a header, by the dotted keys of one
table, or by both headers of its subtables and its own.
-/

namespace SloppyGroup.Toml

/-- How a table came to be. -/
inductive Origin where
  /-- It has been defined on its own. -/
  | explicit
  /-- It was named on the way to a subtable. -/
  | implied
  /-- It was named by a dotted key. -/
  | dotted
deriving DecidableEq, Repr

/-- A part of a document under construction; the tables of an array are kept newest first. -/
inductive Item where
  | value (value : Value)
  | table (origin : Origin) (members : List (String × Item))
  | tables (newest : List (List (String × Item)))
deriving Inhabited

/-- The members of a table under construction. -/
abbrev Members := List (String × Item)

namespace Members

def item? (members : Members) (key : String) : Option Item :=
  members.lookup key

def set (members : Members) (key : String) (item : Item) : Members :=
  if members.any (·.1 == key) then
    members.map fun (k, old) => if k == key then (k, item) else (k, old)
  else members ++ [(key, item)]

/-- Changes the table that a header is in: tables are made as needed, and of an array of tables the
last one is meant. -/
def within (change : Members → Option Members) : (parents : List String) → Members → Option Members
  | [], members => change members
  | parent :: rest, members => do
    match members.item? parent with
    | none => return members.set parent (.table .implied (← within change rest []))
    | some (.table origin inner) =>
      return members.set parent (.table origin (← within change rest inner))
    | some (.tables (last :: earlier)) =>
      return members.set parent (.tables ((← within change rest last) :: earlier))
    | some _ => none

/-- Defines a table, unless it has been defined before. -/
def openTable (key : String) (members : Members) : Option Members :=
  match members.item? key with
  | none => some (members.set key (.table .explicit []))
  | some (.table .implied inner) => some (members.set key (.table .explicit inner))
  | some _ => none

def appendTable (key : String) (members : Members) : Option Members :=
  match members.item? key with
  | none => some (members.set key (.tables [[]]))
  | some (.tables newest) => some (members.set key (.tables ([] :: newest)))
  | some _ => none

/-- Assigns to a key that must be new; the parents of a dotted key must be of its making. -/
def assign (key : String) (value : Value) : (parents : List String) → Members → Option Members
  | [], members =>
    if (members.item? key).isSome then none else some (members.set key (.value value))
  | parent :: rest, members => do
    match members.item? parent with
    | none => return members.set parent (.table .dotted (← assign key value rest []))
    | some (.table .dotted inner) =>
      return members.set parent (.table .dotted (← assign key value rest inner))
    | some (.table .implied inner) =>
      if rest.isEmpty then none
      else return members.set parent (.table .implied (← assign key value rest inner))
    | some (.tables (last :: earlier)) =>
      if rest.isEmpty then none
      else return members.set parent (.tables ((← assign key value rest last) :: earlier))
    | some _ => none

end Members

mutual

def Item.toValue : Item → Value
  | .value v => v
  | .table _ members => .table (membersToValues members)
  | .tables newest => .array (tablesToValues newest).reverse

def membersToValues : List (String × Item) → List (String × Value)
  | [] => []
  | (key, item) :: rest => (key, item.toValue) :: membersToValues rest

def tablesToValues : List (List (String × Item)) → List Value
  | [] => []
  | members :: rest => .table (membersToValues members) :: tablesToValues rest

end

/-- A document under construction, and the path to the table that its statements are about. -/
structure Draft where
  root : Members
  current : List String

namespace Draft

def apply (draft : Draft) : Statement → Option Draft
  | .table path => do
    return ⟨← draft.root.within (Members.openTable path.key) path.parents,
      path.parents ++ [path.key]⟩
  | .arrayTable path => do
    return ⟨← draft.root.within (Members.appendTable path.key) path.parents,
      path.parents ++ [path.key]⟩
  | .assign path value => do
    let root ← draft.root.within (Members.assign path.key value path.parents) draft.current
    return ⟨root, draft.current⟩

end Draft

def tableOf? (statements : List Statement) : Option (List (String × Value)) := do
  let draft ← statements.foldlM Draft.apply ⟨[], []⟩
  return membersToValues draft.root

def inlineTable? (assignments : List (Path × Value)) : Option Value := do
  let members ← assignments.foldlM (fun members (path, value) =>
    Members.assign path.key value path.parents members) ([] : Members)
  return .table (membersToValues members)

end SloppyGroup.Toml
