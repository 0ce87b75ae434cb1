import SloppyGroup.Proximity.Peer
import SloppyGroup.Random.Source
import SloppyGroup.TrustGraph

/-!
Vicinities: random samples of the nodes around a node. The sample grows from its source by expanding
random nodes of a frontier, so it is connected but need not hold the nearest nodes.
-/

namespace SloppyGroup

/-- Sampled peers in the order in which they were met. -/
structure Vicinity where
  peers : List Peer
deriving DecidableEq, Repr

/-- A sample under way: which nodes were met, which of them can still be expanded, and the peers so
far, newest first. -/
structure Sampling where
  met : Array Bool
  frontier : Array Nat
  newest : List Peer

namespace Sampling

def start (count source : Nat) : Sampling :=
  ⟨(Array.replicate count false).setIfInBounds source true, #[source], []⟩

def isFull (s : Sampling) (capacity : Nat) : Bool :=
  capacity ≤ s.newest.length

/-- Meets nodes in order until the sample is full; nodes met for the first time join the frontier,
except for the one that fills the sample. -/
def meet (table : DistanceTable) (capacity : Nat) : List Nat → Sampling → Sampling
  | [], s => s
  | v :: rest, s =>
    if s.met[v]? = some false then
      let s := { s with met := s.met.setIfInBounds v true }
      match table.distance? v with
      | none => meet table capacity rest s
      | some hops =>
        let s := { s with newest := ⟨hops, v⟩ :: s.newest }
        if s.isFull capacity then s
        else meet table capacity rest { s with frontier := s.frontier.push v }
    else meet table capacity rest s

/-- Takes one node out of the frontier; the last one moves into its place. -/
def take (s : Sampling) (place : Nat) : Nat × Sampling :=
  let last := s.frontier.back?.getD 0
  (s.frontier.getD place 0, { s with frontier := (s.frontier.setIfInBounds place last).pop })

variable {σ : Type} [RandomSource σ]

/-- Expands random nodes of the frontier until the sample is full or the frontier is empty. -/
def grow (g : TrustGraph) (table : DistanceTable) (capacity : Nat) :
    (fuel : Nat) → Sampling → σ → Sampling × σ
  | 0, s, source => (s, source)
  | fuel + 1, s, source =>
    if s.frontier.isEmpty || s.isFull capacity then (s, source)
    else
      let (place, source) := Random.below64 s.frontier.size source
      let (current, s) := s.take place
      grow g table capacity fuel (s.meet table capacity (g.neighbors current)) source

end Sampling

namespace Vicinity

def empty : Vicinity := ⟨[]⟩

variable {σ : Type} [RandomSource σ]

/-- Samples the vicinity of a table's source. Every node enters the frontier at most once, so there
are no more expansions than nodes. -/
def sample (g : TrustGraph) (table : DistanceTable) (source : σ) : Vicinity × σ :=
  let capacity := (g.node table.source).vicinityCapacity
  let (s, source) :=
    Sampling.grow g table capacity g.size (Sampling.start g.size table.source) source
  (⟨s.newest.reverse⟩, source)

end Vicinity

end SloppyGroup
