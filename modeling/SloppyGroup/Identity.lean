import SloppyGroup.Journal
import SloppyGroup.Random.Source
import SloppyGroup.Settings
import SloppyGroup.TrustGraph

/-!
How the members of a topology get their identities: every member estimates the population and
derives its group and its capacities from the estimate.
-/

namespace SloppyGroup

/-- The size of a population, and the fraction of it by which an estimate may be off. -/
structure PopulationEstimate where
  population : Nat
  error : Float

namespace PopulationEstimate

def exact (population : Nat) : PopulationEstimate :=
  ⟨population, 0⟩

variable {σ : Type} [RandomSource σ]

/-- One estimate, uniform around the true size. -/
def sample (estimate : PopulationEstimate) (source : σ) : Float × σ :=
  let n := estimate.population.toFloat
  let (u, source) := Random.fraction source
  (n + 2 * (u - 0.5) * estimate.error * n, source)

end PopulationEstimate

/-- What a node derives from its estimate of the population. -/
structure Sizing where
  groupBits : Nat
  vicinityCapacity : Nat
  fanout : Nat
  bucketCapacity : Nat
  /-- How likely an honest node declares itself a landmark. -/
  landmarkProbability : Float

namespace Sizing

/-- The whole part of a double, within the range of capacities. -/
def wholePart (x : Float) : Nat :=
  x.toUInt64.toNat

/-- The sizes for a population of `n`: groups of about `√(n ln n)` nodes, vicinities as large, and
`ln n` links and bucket entries. -/
def ofPopulation (n : Float) : Except Misconfiguration Sizing :=
  if !n.isFinite || n ≤ 1 then .error (.populationEstimate n)
  else
    let ln := n.log
    let bits := (n / ln).sqrt.log2.floor
    let probability := (ln / n).sqrt
    .ok {
      groupBits := wholePart bits
      vicinityCapacity := wholePart (n * ln).sqrt
      fanout := wholePart ln
      bucketCapacity := wholePart ln
      landmarkProbability := if probability < 1 then probability else 1
    }

end Sizing

namespace Member

variable {σ : Type} [RandomSource σ]

/-- Gives a member its identity: one draw for its estimate, one for its election as a landmark. -/
def identify (settings : Settings) (estimate : PopulationEstimate) (member : Member) (source : σ) :
    Journaled SimulationError (Node × σ) := do
  let (n, source) := estimate.sample source
  match Sizing.ofPopulation n with
  | .error cause => throw (.misconfigured (.inNode member.label cause))
  | .ok sizing =>
    let id := Identifier.ofLabel member.label
    let group := id.leading sizing.groupBits
    let probability :=
      if member.isSybil then settings.sybilLandmarkProbability else sizing.landmarkProbability
    let (isLandmark, source) := Random.coin probability source
    Journaled.note
      (.identified member.label n group sizing.vicinityCapacity sizing.fanout)
    return ({
      label := member.label
      id
      group
      isSybil := member.isSybil
      isLandmark
      vicinityCapacity := sizing.vicinityCapacity
      bucketCapacity := sizing.bucketCapacity
      fanout := sizing.fanout
      community := member.community
    }, source)

/-- Gives members their identities, one after the other. -/
def identifyAll (settings : Settings) (estimate : PopulationEstimate) :
    List Member → σ → Journaled SimulationError (List Node × σ)
  | [], source => return ([], source)
  | member :: rest, source => do
    let (node, source) ← member.identify settings estimate source
    let (nodes, source) ← identifyAll settings estimate rest source
    return (node :: nodes, source)

end Member

namespace Topology

variable {σ : Type} [RandomSource σ]

/-- The trust graph of a topology whose members have been given identities. -/
def identified (t : Topology) (settings : Settings) (source : σ) :
    Journaled SimulationError (TrustGraph × σ) := do
  Journaled.ofExcept (settings.validate.mapError .misconfigured)
  let estimate : PopulationEstimate := ⟨t.size, settings.populationError⟩
  let (nodes, source) ← Member.identifyAll settings estimate t.members.toList source
  Journaled.note (.identifiedAll nodes.length (nodes.countP (·.isLandmark)))
  let graph ← Journaled.ofExcept ((TrustGraph.build nodes t.edges.toList).mapError .misconfigured)
  return (graph, source)

end Topology

end SloppyGroup
