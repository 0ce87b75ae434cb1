import SloppyGroup.Json.Record

/-!
Node-link documents: the nodes and the links of a graph in JSON.
-/

namespace SloppyGroup

/-- A node of a document. The fields from `name` on are its identity attributes. -/
structure DocumentNode where
  id : Json.Value
  isSybil : Bool
  isLandmark : Bool
  community : Option String
  name : Option String
  group : Option String
  groupBits : Option Nat
  vicinitySize : Option Nat
  overlayDegree : Option Nat
  colorSize : Option Nat

/-- A link of a document between two node ids. -/
structure DocumentLink where
  source : Json.Value
  target : Json.Value

structure GraphDocument where
  nodes : List DocumentNode
  links : List DocumentLink

namespace GraphDocument

open Json (Tree Value Field Record.fields?)

/-- How deep an id may be nested: a document as a whole has at most 127 levels. -/
def idDepth : Nat := 124

def nodeFields : List Field :=
  [⟨["id"], .refused⟩, ⟨["sybil"], .allowed⟩, ⟨["landmark"], .allowed⟩, ⟨["community"], .inObject⟩,
   ⟨["name"], .inObject⟩, ⟨["group"], .inObject⟩, ⟨["group_bits"], .inObject⟩,
   ⟨["vicinity_size"], .inObject⟩, ⟨["sg_degree"], .inObject⟩, ⟨["cn_size"], .inObject⟩]

def linkFields : List Field :=
  [⟨["source"], .refused⟩, ⟨["target"], .refused⟩]

def documentFields : List Field :=
  [⟨["nodes"], .refused⟩, ⟨["links", "edges"], .allowed⟩]

def optionalText : Option Tree → Option (Option String) :=
  Tree.orElse (Tree.nullable? Tree.string?) none

def optionalNatural : Option Tree → Option (Option Nat) :=
  Tree.orElse (Tree.nullable? Tree.natural?) none

def node? (tree : Tree) : Option DocumentNode := do
  match ← Record.fields? nodeFields tree with
  | [some id, sybil, landmark, community, name, group, bits, vicinity, degree, colors] =>
    return {
      id := ← Value.ofTree? idDepth id
      isSybil := ← Tree.orElse Tree.bool? false sybil
      isLandmark := ← Tree.orElse Tree.bool? false landmark
      community := ← optionalText community
      name := ← optionalText name
      group := ← optionalText group
      groupBits := ← optionalNatural bits
      vicinitySize := ← optionalNatural vicinity
      overlayDegree := ← optionalNatural degree
      colorSize := ← optionalNatural colors
    }
  | _ => none

def link? (tree : Tree) : Option DocumentLink := do
  match ← Record.fields? linkFields tree with
  | [some source, some target] =>
    return ⟨← Value.ofTree? idDepth source, ← Value.ofTree? idDepth target⟩
  | _ => none

def ofTree? (tree : Tree) : Option GraphDocument := do
  match ← Record.fields? documentFields tree with
  | [some nodes, links] =>
    return ⟨← Tree.list? node? nodes, ← Tree.orElse (Tree.list? link?) [] links⟩
  | _ => none

def ofText? (text : String) : Option GraphDocument :=
  (Tree.ofText? text).bind ofTree?

end GraphDocument

end SloppyGroup
