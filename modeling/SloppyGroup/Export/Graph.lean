import SloppyGroup.Simulation

/-!
Exported graphs: edge lists of the graphs that a run is made of, on the nodes of its trust graph.
-/

namespace SloppyGroup

inductive GraphKind where
  | vicinity
  | colorNeighbors
  | overlay
  | trust
deriving DecidableEq, Repr

namespace GraphKind

def all : List GraphKind := [.vicinity, .colorNeighbors, .overlay, .trust]

def name : GraphKind → String
  | .vicinity => "vicinity"
  | .colorNeighbors => "color-neighbors"
  | .overlay => "overlay"
  | .trust => "trust"

def stem : GraphKind → String
  | .vicinity => "vicinity"
  | .colorNeighbors => "cn"
  | .overlay => "group"
  | .trust => "trust"

def isDirected (kind : GraphKind) : Bool :=
  kind != .trust

def named? (text : String) : Option GraphKind :=
  all.find? (·.name == text)

end GraphKind

structure ExportedEdge where
  source : Nat
  target : Nat
  hops : Option Nat
  /-- Whether an overlay link is a backlink. -/
  backlink : Option Bool
deriving DecidableEq, Repr

structure ExportedGraph where
  kind : GraphKind
  edges : List ExportedEdge
deriving DecidableEq, Repr

namespace ExportedGraph

def edgesTo (v : Nat) (peers : List Peer) : List ExportedEdge :=
  peers.map fun peer => ⟨v, peer.node, some peer.hops, none⟩

def vicinity (survey : Survey) : ExportedGraph where
  kind := .vicinity
  edges := survey.surroundings.toList.zipIdx.flatMap fun (s, v) => edgesTo v s.vicinity.peers

def colorNeighbors (survey : Survey) : ExportedGraph where
  kind := .colorNeighbors
  edges := survey.surroundings.toList.zipIdx.flatMap fun (s, v) =>
    s.colors.toList.flatMap fun (_, bucket) => edgesTo v bucket.peers

def overlay (o : Overlay) : ExportedGraph where
  kind := .overlay
  edges := o.links.map fun (source, target, link) =>
    ⟨source, target, some link.hops, some link.isBacklink⟩

def trust (g : TrustGraph) : ExportedGraph where
  kind := .trust
  edges := g.edges.map fun (a, b) => ⟨a, b, none, none⟩

def ofKind (g : TrustGraph) (survey : Survey) (o : Overlay) : GraphKind → ExportedGraph
  | .vicinity => vicinity survey
  | .colorNeighbors => colorNeighbors survey
  | .overlay => overlay o
  | .trust => trust g

def edgeCount (x : ExportedGraph) : Nat :=
  x.edges.length

/-- How many edges arrive at a node; those of an undirected graph all count as leaving. -/
def inDegree (x : ExportedGraph) (v : Nat) : Nat :=
  if x.kind.isDirected then x.edges.countP (·.target == v) else 0

def outDegree (x : ExportedGraph) (v : Nat) : Nat :=
  let leaving := x.edges.countP (·.source == v)
  if x.kind.isDirected then leaving else leaving + x.edges.countP (·.target == v)

def degrees (x : ExportedGraph) (count : Nat) : List (Nat × Nat) :=
  (List.range count).map fun v => (x.inDegree v, x.outDegree v)

end ExportedGraph

def RunResult.exports (r : RunResult) (g : TrustGraph) : List ExportedGraph :=
  GraphKind.all.map (ExportedGraph.ofKind g r.network.survey r.network.overlay)

end SloppyGroup
