import SloppyGroup.Loading.Document
import SloppyGroup.TrustGraph

/-!
Inputs of simulations, loaded from documents. Either all nodes of a document come with an identity,
or none does and the document is a topology whose members still need one.
-/

namespace SloppyGroup

inductive Input where
  | attributed (graph : TrustGraph)
  | raw (topology : Topology)

namespace Input

def size : Input → Nat
  | .attributed graph => graph.size
  | .raw topology => topology.size

def kind : Input → String
  | .attributed _ => "attributed"
  | .raw _ => "raw"

end Input

/-- The label of a node id: a text as it is, a number in decimal notation. -/
def Json.Value.label (id : Json.Value) : Except Misconfiguration String :=
  match id with
  | .string s => .ok s
  | .number n => .ok (Json.Value.numberText n)
  | other => .error (.unsupportedId other.text)

namespace DocumentNode

def isAttributed (r : DocumentNode) : Bool :=
  r.name.isSome || r.group.isSome || r.groupBits.isSome || r.vicinitySize.isSome ||
    r.overlayDegree.isSome || r.colorSize.isSome

def member (r : DocumentNode) (label : String) : Member :=
  ⟨label, r.isSybil, r.community⟩

/-- An attribute that a node must have. -/
def need {α : Type} (label key : String) : Option α → Except Misconfiguration α
  | some value => .ok value
  | none => .error (.missingAttribute label key)

/-- The identifier that the name shows. Without a name it comes of the label. -/
def identifier (r : DocumentNode) (label : String) : Except Misconfiguration Identifier :=
  match r.name with
  | some name => (Identifier.parse name).mapError (.inAttribute label "name")
  | none => .ok (Identifier.ofLabel label)

/-- The node with the identity that its attributes describe. -/
def node (r : DocumentNode) (label : String) : Except Misconfiguration Node := do
  let groupText ← need label "group" r.group
  let groupBits ← need label "group_bits" r.groupBits
  let id ← r.identifier label
  let group ← (GroupPrefix.parse groupText).mapError (.inAttribute label "group")
  if group.length ≠ groupBits then
    throw (.groupLength label groupText groupBits group.length)
  if !id.startsWith group then
    throw (.groupMismatch label groupText)
  let vicinityCapacity ← need label "vicinity_size" r.vicinitySize
  let fanout ← need label "sg_degree" r.overlayDegree
  let bucketCapacity ← need label "cn_size" r.colorSize
  return {
    label
    id
    group
    isSybil := r.isSybil
    isLandmark := r.isLandmark
    vicinityCapacity
    bucketCapacity
    fanout
    community := r.community
  }

end DocumentNode

namespace GraphDocument

/-- The labels of the nodes, which must differ. -/
def labelsFrom (seen : List String) : List DocumentNode → Except Misconfiguration (List String)
  | [] => .ok []
  | r :: rest => do
    let label ← r.id.label
    if label ∈ seen then throw (.duplicateId label)
    let labels ← labelsFrom (label :: seen) rest
    return label :: labels

def labels (d : GraphDocument) : Except Misconfiguration (List String) :=
  labelsFrom [] d.nodes

def endPosition (labels : List String) (id : Json.Value) : Except Misconfiguration Nat := do
  let label ← id.label
  match labels.findIdx? (· == label) with
  | some position => return position
  | none => throw (.unknownLinkEnd label)

def edges (d : GraphDocument) (labels : List String) :
    Except Misconfiguration (List Undirected.Edge) :=
  d.links.mapM fun link => do
    let source ← endPosition labels link.source
    let target ← endPosition labels link.target
    return (source, target)

def input (d : GraphDocument) : Except Misconfiguration Input := do
  let labels ← d.labels
  let edges ← d.edges labels
  let attributed := d.nodes.countP (·.isAttributed)
  if attributed = 0 then
    return .raw (.build ((d.nodes.zip labels).map fun (r, label) => r.member label) edges)
  if attributed ≠ d.nodes.length then
    throw (.mixedAttributes attributed d.nodes.length)
  let nodes ← (d.nodes.zip labels).mapM fun (r, label) => r.node label
  return .attributed (← TrustGraph.build nodes edges)

end GraphDocument

end SloppyGroup
