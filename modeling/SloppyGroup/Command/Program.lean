import SloppyGroup.Command.Options
import SloppyGroup.Loading.PlanTable
import SloppyGroup.Series

/-!
The program behind the command line.
-/

namespace SloppyGroup

namespace Program

def versionLine : String := "sloppy-sim 0.1.0\n"

/-- The status that a program ends with. -/
inductive Status where
  | success
  /-- The run failed, for the reason that the message gives. -/
  | failure (message : String)
  | misuse
deriving DecidableEq, Repr

def Status.code : Status → Nat
  | .success => 0
  | .failure _ => 1
  | .misuse => 2

/-- Whether an event is shown: details are for verbose runs. -/
def isShown (verbose : Bool) (event : Event) : Bool :=
  verbose || event.level != .debug

variable {m : Type → Type} [Monad m] [Host m]

/-- The plan of a file, or the standard plan. -/
def basePlan (path : Option String) : ExceptT String m Plan :=
  match path with
  | none => return .standard
  | some path => do
    let refuse : ExceptT String m Plan := throw ("failed to read configuration " ++ path)
    let text : Except FileFault String ← (Host.read path : m _)
    match text with
    | .error _ => refuse
    | .ok text =>
      match Plan.ofText? text with
      | none => refuse
      | some plan => return plan

def explained {α : Type} (x : Hosted m α) : ExceptT String m α :=
  ExceptT.mk do return (← x.run).mapError (·.message)

def runOptions (options : Options) : ExceptT String m Unit := do
  let plan := options.override (← basePlan options.plan)
  explained (Hosted.ofExcept (plan.validate.mapError .ofMisconfiguration))
  explained (Hosted.report
    (.running plan.iterations plan.store.name plan.settings.walk.name))
  let series ← explained (Hosted.ofExcept ((Series.ofPlan plan).mapError .ofMisconfiguration))
  let results ← explained series.run
  explained (Hosted.report (.concluded (mismatchedCount results) results.length))

def perform (invocation : Invocation) : m Status :=
  match invocation with
  | .misused => return .misuse
  | .version => do
    Host.print versionLine
    return .success
  | .run options => do
    match ← (runOptions options).run with
    | .ok () => return .success
    | .error message => return .failure message

end Program

def Invocation.isVerbose : Invocation → Bool
  | .run options => options.verbose
  | _ => false

end SloppyGroup
