import SloppyGroup.Export.Graph

/-!
Connected components of exported graphs and their diameters, regardless of the direction of edges.
-/

namespace SloppyGroup

/-- A partition of positions into classes: the representative of every position, and the rank of
every representative. -/
structure Partition where
  representative : Array Nat
  rank : Array Nat

namespace Partition

def discrete (count : Nat) : Partition :=
  ⟨(List.range count).toArray, Array.replicate count 0⟩

def find (p : Partition) (v : Nat) : Nat :=
  p.representative.getD v v

def absorb (p : Partition) (winner loser : Nat) : Partition :=
  { p with representative := p.representative.map fun r => if r = loser then winner else r }

/-- Joins the classes of two positions. The higher rank wins; of equal ranks the first wins and
rises. -/
def union (p : Partition) (v w : Nat) : Partition :=
  let a := p.find v
  let b := p.find w
  if a = b then p
  else
    let rankA := p.rank.getD a 0
    let rankB := p.rank.getD b 0
    if rankA < rankB then p.absorb b a
    else if rankB < rankA then p.absorb a b
    else { p.absorb a b with rank := p.rank.setIfInBounds a (rankA + 1) }

/-- The classes of the positions below `count`, by representative. -/
def classes (p : Partition) (count : Nat) : List (List Nat) :=
  let members := (List.range count).map fun r => (List.range count).filter fun v => p.find v = r
  members.filter fun c => !c.isEmpty

end Partition

/-- The size of a connected component and the largest distance in it. -/
structure Component where
  size : Nat
  diameter : Nat
deriving DecidableEq, Repr

namespace Component

def measure (count : Nat) (neighbors : Nat → List Nat) (members : List Nat) : Component where
  size := members.length
  diameter :=
    (members.map fun v => (DistanceTable.build count neighbors v).eccentricity).foldl max 0

def usableEdges (x : ExportedGraph) (count : Nat) : List Undirected.Edge :=
  (x.edges.map fun e => (e.source, e.target)).filter fun (v, w) =>
    v < count && w < count && v != w

/-- The components of an exported graph, largest first. -/
def ofExport (x : ExportedGraph) (count : Nat) : List Component :=
  let edges := usableEdges x count
  let table := Undirected.neighborTable count (Undirected.newestFirst edges)
  let partition := edges.foldl (fun p (v, w) => p.union v w) (Partition.discrete count)
  let components := (partition.classes count).map (measure count fun v => table.getD v [])
  components.mergeSort fun c d => d.size ≤ c.size

end Component

end SloppyGroup
