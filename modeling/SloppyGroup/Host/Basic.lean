import SloppyGroup.Journal

/-!
Hosts: where a run takes its files from and leaves its files, its output and its journal.
-/

namespace SloppyGroup

/-- Why a file operation failed. -/
inductive FileFault where
  | notFound
  | alreadyExists
  | notDirectory
  | isDirectory
  | nameTooLong
  | nulInName
  | other (description : String)
deriving DecidableEq, Repr

def FileFault.message : FileFault → String
  | .notFound => "No such file or directory (os error 2)"
  | .alreadyExists => "File exists (os error 17)"
  | .notDirectory => "Not a directory (os error 20)"
  | .isDirectory => "Is a directory (os error 21)"
  | .nameTooLong => "File name too long (os error 36)"
  | .nulInName => "file name contained an unexpected NUL byte"
  | .other description => description

/-- How a run can fail. -/
inductive RunError where
  | simulation (error : SimulationError)
  | file (fault : FileFault)
  | malformedTopology
  | malformedPlan

namespace RunError

def ofMisconfiguration (cause : Misconfiguration) : RunError :=
  .simulation (.misconfigured cause)

def message : RunError → String
  | .simulation error => error.message
  | .file fault => "I/O error: " ++ fault.message
  | .malformedTopology => "malformed topology"
  | .malformedPlan => "malformed configuration"

end RunError

/-- The operations that a run asks of its host. -/
class Host (m : Type → Type) where
  read : String → m (Except FileFault String)
  /-- Makes a directory and those that lead to it, as far as they are missing. -/
  makeDirectories : String → m (Except FileFault Unit)
  /-- Writes a file, in place of one that is there. -/
  write : String → String → m (Except FileFault Unit)
  print : String → m Unit
  report : Event → m Unit

/-- A computation on a host that may fail. -/
abbrev Hosted (m : Type → Type) (α : Type) := ExceptT RunError m α

namespace Hosted

variable {m : Type → Type} [Monad m] [Host m] {α : Type}

def ofExcept (outcome : Except RunError α) : Hosted m α :=
  match outcome with
  | .ok a => pure a
  | .error e => throw e

def file (operation : m (Except FileFault α)) : Hosted m α := do
  ofExcept ((← operation).mapError .file)

def print (text : String) : Hosted m Unit :=
  (Host.print text : m Unit)

def report (event : Event) : Hosted m Unit :=
  (Host.report event : m Unit)

/-- Reports the events of a simulation and goes on with its outcome. -/
def simulated (x : Journaled SimulationError α) : Hosted m α := do
  x.events.forM report
  ofExcept (x.outcome.mapError .simulation)

end Hosted

end SloppyGroup
