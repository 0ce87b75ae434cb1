/-!
Distances in a graph that is given by the neighbours of its positions, found layer by layer from one
source.
-/

namespace SloppyGroup

/-- Distances as far as they are known, and the positions of the layer that is being found, newest
first. -/
structure Layer where
  distances : Array (Option Nat)
  found : List Nat

namespace Layer

/-- Finds a position at a distance, unless it was found before. -/
def visit (hops : Nat) (layer : Layer) (v : Nat) : Layer :=
  if layer.distances[v]? = some none then
    ⟨layer.distances.setIfInBounds v (some hops), v :: layer.found⟩
  else layer

end Layer

/-- The distances from a source, and the positions in the order in which they were found. -/
structure DistanceTable where
  source : Nat
  distances : Array (Option Nat)
  order : List Nat

namespace DistanceTable

/-- The positions next to a frontier that were not found before, at a given distance. -/
def nextLayer (neighbors : Nat → List Nat) (hops : Nat) (distances : Array (Option Nat))
    (frontier : List Nat) : Layer :=
  (frontier.flatMap neighbors).foldl (Layer.visit hops) ⟨distances, []⟩

/-- Finds layer after layer until one is empty. -/
def sweep (neighbors : Nat → List Nat) :
    (fuel hops : Nat) → Array (Option Nat) → List Nat → Array (Option Nat) × List Nat
  | 0, _, distances, _ => (distances, [])
  | fuel + 1, hops, distances, frontier =>
    let layer := nextLayer neighbors hops distances frontier
    let found := layer.found.reverse
    if found.isEmpty then (layer.distances, [])
    else
      let (distances, further) := sweep neighbors fuel (hops + 1) layer.distances found
      (distances, found ++ further)

/-- The distances from a source among `count` positions; there are no more layers than positions. -/
def build (count : Nat) (neighbors : Nat → List Nat) (source : Nat) : DistanceTable :=
  let start := (Array.replicate count none).setIfInBounds source (some 0)
  let (distances, order) := sweep neighbors count 1 start [source]
  ⟨source, distances, order⟩

/-- The distance of a position, unless it cannot be reached. -/
def distance? (table : DistanceTable) (v : Nat) : Option Nat :=
  (table.distances[v]?).join

def eccentricity (table : DistanceTable) : Nat :=
  (table.distances.toList.filterMap id).foldl max 0

end DistanceTable

end SloppyGroup
