import SloppyGroup.Topology
import SloppyGroup.Undirected.Distance
import SloppyGroup.Undirected.Edges

/-!
Trust graphs: nodes with distinct labels and a simple undirected graph on their positions.
-/

namespace SloppyGroup

/-- The first member of a list that occurs again further on, seen from its second occurrence. -/
def firstRepeated? : (earlier rest : List String) → Option String
  | _, [] => none
  | earlier, x :: rest =>
    if x ∈ earlier then some x else firstRepeated? (x :: earlier) rest

theorem nodup_of_firstRepeated? {earlier rest : List String}
    (h : firstRepeated? earlier rest = none) : rest.Nodup ∧ ∀ x ∈ rest, x ∉ earlier := by
  induction rest generalizing earlier with
  | nil => simp
  | cons x rest ih =>
    rw [firstRepeated?] at h
    split at h
    · cases h
    · rename_i fresh
      obtain ⟨distinct, apart⟩ := ih h
      refine ⟨List.nodup_cons.2 ⟨fun hx => apart x hx List.mem_cons_self, distinct⟩, ?_⟩
      intro y hy
      rcases List.mem_cons.1 hy with rfl | hy
      · exact fresh
      · exact fun h => apart y hy (List.mem_cons_of_mem _ h)

/-- Nodes and the undirected trust between them. -/
structure TrustGraph where
  nodes : Array Node
  /-- The edges, newest first. -/
  newest : List Undirected.Edge
  neighborTable : Array (List Nat)
  labels_distinct : (nodes.toList.map Node.label).Nodup
  simple : Undirected.Simple nodes.size newest
  neighborTable_eq : neighborTable = Undirected.neighborTable nodes.size newest

namespace TrustGraph

def size (g : TrustGraph) : Nat :=
  g.nodes.size

/-- The node at a position; beyond the last one, a node without any capacity. -/
def node (g : TrustGraph) (v : Nat) : Node :=
  g.nodes.getD v default

def edges (g : TrustGraph) : List Undirected.Edge :=
  g.newest.reverse

/-- The neighbours of a node, each once. -/
def neighbors (g : TrustGraph) (v : Nat) : List Nat :=
  g.neighborTable.getD v []

def distancesFrom (g : TrustGraph) (source : Nat) : DistanceTable :=
  .build g.size g.neighbors source

def position? (g : TrustGraph) (label : String) : Option Nat :=
  g.nodes.findIdx? (·.label == label)

def sybilCount (g : TrustGraph) : Nat :=
  g.nodes.countP (·.isSybil)

/-- A trust graph on some nodes with edges between positions. Loops and repeated edges are dropped;
a repeated label and an edge to nowhere are refused. -/
def build (nodes : List Node) (pairs : List Undirected.Edge) : Except Misconfiguration TrustGraph :=
  let count := nodes.length
  match distinct : firstRepeated? [] (nodes.map Node.label) with
  | some label => .error (.duplicateLabel label)
  | none =>
    match inRange : pairs.find? fun (a, b) => count ≤ a || count ≤ b with
    | some (a, b) => .error (.edgeOutOfRange a b count)
    | none =>
      let newest := Undirected.newestFirst pairs
      .ok {
        nodes := nodes.toArray
        newest
        neighborTable := Undirected.neighborTable nodes.toArray.size newest
        labels_distinct := (nodup_of_firstRepeated? distinct).1
        simple := Undirected.simple_newestFirst fun e he => by
          have := List.find?_eq_none.1 inRange e he
          simp only [Bool.or_eq_true, decide_eq_true_eq, not_or, Nat.not_le] at this
          exact this
        neighborTable_eq := rfl
      }

theorem neighbors_eq {g : TrustGraph} {v : Nat} (hv : v < g.size) :
    g.neighbors v = Undirected.neighborsAlong g.newest v := by
  rw [neighbors, g.neighborTable_eq]
  exact Undirected.getD_neighborTable hv

/-- A fully connected group of honest nodes that share the empty prefix. -/
def complete (size capacity : Nat) : Except Misconfiguration TrustGraph := do
  let nodes ← (List.range size).mapM fun i => Node.inGroup s!"honest{i}" "" false capacity
  build nodes ((List.range size).flatMap fun a =>
    ((List.range size).filter (a < ·)).map fun b => (a, b))

end TrustGraph

end SloppyGroup
