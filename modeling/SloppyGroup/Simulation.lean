import SloppyGroup.Gossip.Dissemination
import SloppyGroup.Gossip.Verification
import SloppyGroup.Identity
import SloppyGroup.Overlay.Construction

/-!
Simulations: a survey of a trust graph, an overlay on it, gossip along the overlay and verification
of what was learned. Graph and settings determine the whole run.
-/

namespace SloppyGroup

/-- What a run builds before gossip starts. -/
structure Network where
  survey : Survey
  overlay : Overlay
  foreign : Array ForeignView

/-- Everything that a successful run produced. -/
structure RunResult where
  network : Network
  settlement : Settlement
  report : Report

/-- A trust graph with the settings of its run. -/
structure Simulation where
  graph : TrustGraph
  settings : Settings
  valid : settings.validate = .ok ()

namespace Simulation

/-- A simulation on a trust graph, unless the settings are refused. -/
def ofGraph (graph : TrustGraph) (settings : Settings) : Except SimulationError Simulation :=
  match valid : settings.validate with
  | .ok () => .ok ⟨graph, settings, valid⟩
  | .error cause => .error (.misconfigured cause)

/-- A simulation of a topology whose members get their identities from the seed. -/
def ofTopology (t : Topology) (settings : Settings) : Journaled SimulationError Simulation := do
  let (graph, _) ← t.identified settings (Random.ChaCha.ofSeed settings.seed)
  Journaled.ofExcept (ofGraph graph settings)

variable {σ : Type} [RandomSource σ]

/-- Surveys the graph and constructs the overlay, and checks the bounds of both. -/
def buildNetwork (s : Simulation) (source : σ) : Journaled SimulationError Network := do
  let (survey, source) := Survey.conduct s.graph source
  Journaled.notes survey.events
  Journaled.ofExcept (survey.check s.graph)
  let (construction, _) := Construction.run s.graph survey s.settings.walk source
  Journaled.notes construction.events
  Journaled.ofExcept (construction.overlay.check s.graph)
  return ⟨survey, construction.overlay, construction.foreign⟩

/-- Gossip along an overlay, every node starting with its own record. -/
def gossip (s : Simulation) (overlay : Overlay) : Journaled SimulationError Settlement :=
  (Gossip.standard s.graph overlay |>.withBudget (s.settings.roundBudget s.graph.size)).run
    (Records.initial s.graph.size)

def verify (s : Simulation) (records : Records) : Journaled SimulationError Report := do
  let report ← Journaled.ofExcept (records.verify s.graph)
  Journaled.notes report.events
  return report

def runWith (s : Simulation) (source : σ) : Journaled SimulationError RunResult := do
  Journaled.note (.simulating s.graph.size s.graph.sybilCount s.settings.walk.name)
  let network ← s.buildNetwork source
  let settlement ← s.gossip network.overlay
  let report ← s.verify settlement.records
  return ⟨network, settlement, report⟩

/-- The seed of a run, which differs from that of the identities. -/
def runSeed (seed : UInt64) : UInt64 :=
  seed + 1

def run (s : Simulation) : Journaled SimulationError RunResult :=
  s.runWith (Random.ChaCha.ofSeed (runSeed s.settings.seed))

end Simulation

end SloppyGroup
