import SloppyGroup.Journal
import SloppyGroup.Proximity.Bucket
import SloppyGroup.Proximity.Vicinity
import SloppyGroup.Random.ChaCha
import SloppyGroup.Tally

/-!
Surveys: what every node knows about its surroundings. Every node explores with a stream of its own,
whose seed is drawn before any exploration starts.
-/

namespace SloppyGroup

/-- A node's vicinity and its color buckets. -/
structure Surroundings where
  vicinity : Vicinity
  colors : ColorTable

namespace Surroundings

def empty : Surroundings := ⟨.empty, ∅⟩

variable {σ : Type} [RandomSource σ]

/-- Explores the surroundings of one node: buckets first, then the vicinity. -/
def explore (g : TrustGraph) (v : Nat) (source : σ) : Surroundings × σ :=
  let table := g.distancesFrom v
  let (colors, source) := ColorTable.fill g table source
  let (vicinity, source) := Vicinity.sample g table source
  (⟨vicinity, colors⟩, source)

end Surroundings

/-- The surroundings of every node. -/
structure Survey where
  surroundings : Array Surroundings

namespace Survey

/-- A survey in which nobody knows anybody. -/
def blank (count : Nat) : Survey :=
  ⟨Array.replicate count .empty⟩

def size (survey : Survey) : Nat :=
  survey.surroundings.size

def of (survey : Survey) (v : Nat) : Surroundings :=
  survey.surroundings.getD v .empty

def vicinityCount (survey : Survey) : Nat :=
  tally (·.vicinity.peers.length) survey.surroundings.toList

def colorCount (survey : Survey) : Nat :=
  tally (fun s => ColorTable.peerCount s.colors) survey.surroundings.toList

variable {σ : Type} [RandomSource σ]

/-- Draws one seed per node. -/
def drawSeeds : (count : Nat) → σ → List UInt64 × σ
  | 0, source => ([], source)
  | count + 1, source =>
    let (seed, source) := RandomSource.word64 source
    let (seeds, source) := drawSeeds count source
    (seed :: seeds, source)

def conduct (g : TrustGraph) (source : σ) : Survey × σ :=
  let (seeds, source) := drawSeeds g.size source
  let explored := seeds.zipIdx.map fun (seed, v) =>
    (Surroundings.explore g v (Random.ChaCha.ofSeed seed)).1
  (⟨explored.toArray⟩, source)

def events (survey : Survey) : List Event :=
  [.surveyed survey.vicinityCount survey.colorCount, .surveyedAll survey.size]

/-- The buckets of a node that hold more peers than the node may keep, in order. -/
def overfull (capacity : Nat) (colors : ColorTable) : List (GroupPrefix × Bucket) :=
  colors.toList.filter fun (_, b) => capacity < b.size

/-- Refuses a bucket beyond its owner's capacity. -/
def check (g : TrustGraph) (survey : Survey) : Except SimulationError Unit :=
  survey.surroundings.toList.zipIdx.forM fun (s, v) =>
    let owner := g.node v
    match overfull owner.bucketCapacity s.colors with
    | [] => .ok ()
    | (p, b) :: _ =>
      .error (.violated (.bucketOverflow owner.label p.text b.size owner.bucketCapacity))

end Survey

end SloppyGroup
