import SloppyGroup.Settings

/-!
Plans: what is simulated, how often, with which settings, and where results go.
-/

namespace SloppyGroup

/-- When the graphs of an iteration are stored. -/
inductive StorePolicy where
  | never
  | always
  | onMismatch
deriving DecidableEq, Repr

namespace StorePolicy

def all : List StorePolicy := [.never, .always, .onMismatch]

def name : StorePolicy → String
  | .never => "never"
  | .always => "always"
  | .onMismatch => "on-mismatch"

/-- Whether an iteration with or without mismatches is stored. -/
def stores (policy : StorePolicy) (mismatched : Bool) : Bool :=
  match policy with
  | .never => false
  | .always => true
  | .onMismatch => mismatched

def named? (text : String) : Option StorePolicy :=
  all.find? (·.name == text)

def parse (text : String) : Except Misconfiguration StorePolicy :=
  match named? text with
  | some policy => .ok policy
  | none => .error (.unknownStorePolicy text)

end StorePolicy

structure Plan where
  /-- The file that holds the input. -/
  input : Option String
  /-- The directory for stored graphs. -/
  output : String
  iterations : Nat
  store : StorePolicy
  settings : Settings

namespace Plan

def standard : Plan where
  input := none
  output := "."
  iterations := 1
  store := .onMismatch
  settings := .standard

/-- Refuses a plan without iterations, without input, or with invalid settings. -/
def validate (plan : Plan) : Except Misconfiguration Unit :=
  if plan.iterations = 0 then .error .zeroIterations
  else if plan.input = none then .error .noInput
  else plan.settings.validate

end Plan

end SloppyGroup
