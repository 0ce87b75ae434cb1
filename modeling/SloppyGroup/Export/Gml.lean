import SloppyGroup.Export.Graph

/-!
Exported graphs as GML text, and the names of the files that hold them.
-/

namespace SloppyGroup.Gml

/-- A character inside a quoted value: ampersands and quotes are written as entities. -/
def escapeChar : Char → List Char
  | '&' => "&amp;".toList
  | '"' => "&quot;".toList
  | c => [c]

def escape (text : String) : String :=
  String.ofList (text.toList.flatMap escapeChar)

def number (key : String) (n : Nat) : String :=
  key ++ " " ++ toString n

def quotation (key value : String) : String :=
  key ++ " \"" ++ escape value ++ "\""

/-- A key with a truth value, written as a digit. -/
def flag (key : String) (b : Bool) : String :=
  number key b.toNat

/-- A bracketed list of lines, indented by one level. -/
def record (key : String) (lines : List String) : List String :=
  ["  " ++ key ++ " ["] ++ lines.map ("    " ++ ·) ++ ["  ]"]

def nodeLines (position : Nat) (node : Node) : List String :=
  record "node" ([
    number "id" position,
    quotation "label" node.label,
    quotation "name" node.id.text,
    quotation "group" node.group.text,
    number "group_bits" node.group.length,
    flag "sybil" node.isSybil,
    flag "landmark" node.isLandmark,
    number "vicinity_size" node.vicinityCapacity,
    number "sg_degree" node.fanout,
    number "cn_size" node.bucketCapacity
  ] ++ (node.community.map (quotation "community")).toList)

def edgeLines (edge : ExportedEdge) : List String :=
  record "edge" ([number "source" edge.source, number "target" edge.target] ++
    (edge.hops.map (number "hops")).toList ++ (edge.backlink.map (flag "backlink")).toList)

/-- The lines of an exported graph with all nodes of its trust graph. -/
def lines (g : TrustGraph) (x : ExportedGraph) : List String :=
  ["graph [", "  " ++ flag "directed" x.kind.isDirected, "  " ++ quotation "label" x.kind.stem] ++
    (g.nodes.toList.zipIdx.flatMap fun (node, v) => nodeLines v node) ++
    x.edges.flatMap edgeLines ++ ["]"]

def text (g : TrustGraph) (x : ExportedGraph) : String :=
  String.join ((lines g x).map (· ++ "\n"))

/-- A number with at least three digits. -/
def threeDigits (n : Nat) : String :=
  let digits := (toString n).toList
  String.ofList (List.replicate (3 - digits.length) '0' ++ digits)

def fileName (kind : GraphKind) (iteration : Nat) : String :=
  kind.stem ++ threeDigits iteration ++ ".gml"

/-- The path of a file in a directory; no directory is the current one. -/
def pathIn (directory name : String) : String :=
  if directory.isEmpty then name
  else if directory.toList.getLast? = some '/' then directory ++ name
  else directory ++ "/" ++ name

def path (directory : String) (kind : GraphKind) (iteration : Nat) : String :=
  pathIn directory (fileName kind iteration)

end SloppyGroup.Gml
