import SloppyGroup.Export.Gml
import SloppyGroup.Host.Basic
import SloppyGroup.Loading.Input
import SloppyGroup.Plan
import SloppyGroup.Statistics.Components
import SloppyGroup.Statistics.Degrees

/-!
Series of simulations on one input: every iteration has a seed of its own, prints its mismatches and
stores its graphs as the plan says.
-/

namespace SloppyGroup

/-- What is kept of an iteration. -/
structure IterationResult where
  iteration : Nat
  seed : UInt64
  rounds : Nat
  mismatches : List Mismatch
  degrees : DegreeSummary
  diameters : List Component
  /-- The names of the files that were written. -/
  stored : List String

def mismatchedCount (results : List IterationResult) : Nat :=
  results.countP fun r => !r.mismatches.isEmpty

/-- A plan with at least one iteration and with valid settings. -/
structure Series where
  plan : Plan
  iterations_ne_zero : plan.iterations ≠ 0
  valid : plan.settings.validate = .ok ()

namespace Series

def ofPlan (plan : Plan) : Except Misconfiguration Series :=
  if empty : plan.iterations = 0 then .error .zeroIterations
  else
    match valid : plan.settings.validate with
    | .ok () => .ok ⟨plan, empty, valid⟩
    | .error cause => .error cause

/-- The seed of an iteration, counted from one. Consecutive seeds differ by two, as every iteration
uses its seed and the next number. -/
def seed (series : Series) (iteration : Nat) : UInt64 :=
  series.plan.settings.seed + (iteration - 1).toUInt64 * 2

def simulation (series : Series) (input : Input) (seed : UInt64) :
    Journaled SimulationError Simulation :=
  let settings := { series.plan.settings with seed }
  match input with
  | .attributed graph => Journaled.ofExcept (Simulation.ofGraph graph settings)
  | .raw topology => Simulation.ofTopology topology settings

def statisticsEvents (degrees : DegreeSummary) (diameters : List Component) : List Event :=
  [.degrees "in_degree" degrees.incoming.text, .degrees "out_degree" degrees.outgoing.text,
   .degrees "degree" degrees.total.text] ++ diameters.map fun c => .diameter c.diameter c.size

variable {m : Type → Type} [Monad m] [Host m]

/-- Writes one graph of an iteration and returns the name of its file. -/
def storeGraph (directory : String) (g : TrustGraph) (iteration : Nat) (x : ExportedGraph) :
    Hosted m String := do
  let path := Gml.path directory x.kind iteration
  Hosted.file (Host.write path (Gml.text g x))
  Hosted.report (.wrote x.edgeCount path)
  return Gml.fileName x.kind iteration

def storeAll (directory : String) (g : TrustGraph) (iteration : Nat)
    (exports : List ExportedGraph) : Hosted m (List String) := do
  Hosted.file (Host.makeDirectories directory)
  exports.mapM (storeGraph directory g iteration)

def runOnce (series : Series) (input : Input) (iteration : Nat) :
    Hosted m IterationResult := do
  let seed := series.seed iteration
  Hosted.report (.iteration iteration seed)
  let simulation ← Hosted.simulated (series.simulation input seed)
  let result ← Hosted.simulated simulation.run
  let g := simulation.graph
  let overlay := ExportedGraph.overlay result.network.overlay
  let degrees := DegreeSummary.ofExport overlay g.size
  let diameters := Component.ofExport overlay g.size
  (statisticsEvents degrees diameters).forM Hosted.report
  result.report.mismatches.forM fun mismatch => Hosted.print (mismatch.line ++ "\n")
  let mismatched := !result.report.isClean
  let stored ←
    if series.plan.store.stores mismatched then do
      if mismatched then Hosted.report (.storing iteration)
      storeAll series.plan.output g iteration (result.exports g)
    else pure []
  return {
    iteration
    seed
    rounds := result.settlement.rounds
    mismatches := result.report.mismatches
    degrees
    diameters
    stored
  }

/-- Runs a number of iterations, the first of which has a given number. -/
def runFrom (series : Series) (input : Input) (first : Nat) :
    Nat → Hosted m (List IterationResult)
  | 0 => return []
  | count + 1 => do
    let result ← series.runOnce input first
    return result :: (← series.runFrom input (first + 1) count)

def runOn (series : Series) (input : Input) : Hosted m (List IterationResult) := do
  let results ← series.runFrom input 1 series.plan.iterations
  Hosted.report (.finished results.length (mismatchedCount results))
  return results

def load (path : String) : Hosted m Input := do
  let text ← Hosted.file (Host.read path)
  match GraphDocument.ofText? text with
  | none => throw .malformedTopology
  | some document =>
    let input ← Hosted.ofExcept (document.input.mapError .ofMisconfiguration)
    Hosted.report (.loaded input.size path input.kind)
    return input

def run (series : Series) : Hosted m (List IterationResult) := do
  Hosted.ofExcept (series.plan.validate.mapError .ofMisconfiguration)
  match series.plan.input with
  | none => throw (.ofMisconfiguration .noInput)
  | some path => series.runOn (← load path)

end Series

end SloppyGroup
