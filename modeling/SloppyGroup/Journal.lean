import SloppyGroup.Decimal.Fixed
import SloppyGroup.Identifier
import SloppyGroup.Text.Inert

/-!
What a run reports while it is under way. A journaled computation keeps its events even when it
fails.
-/

namespace SloppyGroup

/-- How urgent an event is. -/
inductive Level where
  | debug
  | info
  | warn
deriving DecidableEq, Repr

def Level.name : Level → String
  | .debug => "DEBUG"
  | .info => "INFO"
  | .warn => "WARN"

/-- Something worth reporting. -/
inductive Event where
  | running (iterations : Nat) (store walk : String)
  | loaded (count : Nat) (path kind : String)
  | iteration (number : Nat) (seed : UInt64)
  | identified (label : String) (estimate : Float) (group : GroupPrefix) (vicinity fanout : Nat)
  | identifiedAll (count landmarks : Nat)
  | simulating (count sybils : Nat) (walk : String)
  | surveyed (vicinity colors : Nat)
  | surveyedAll (count : Nat)
  | refused (declined evicted : Nat)
  | built (edges backlinks : Nat)
  | round (number total : Nat)
  | settled (rounds : Nat)
  | unsettled (rounds : Nat)
  | mismatch (line : String)
  | verified (honest sybils mismatches : Nat)
  | degrees (kind figures : String)
  | diameter (hops count : Nat)
  | storing (number : Nat)
  | wrote (edges : Nat) (path : String)
  | finished (iterations mismatched : Nat)
  | concluded (mismatched iterations : Nat)

namespace Event

def level : Event → Level
  | .identified .. | .surveyed .. | .refused .. | .round .. | .wrote .. => .debug
  | .unsettled .. | .mismatch .. | .storing .. => .warn
  | _ => .info

def text : Event → String
  | .running iterations store walk =>
    s!"Running {iterations} iterations (store {store}, random walk {walk})"
  | .loaded count path kind => s!"Loaded {count} nodes from {path} ({kind})"
  | .iteration number seed => s!"iteration {number} (seed {seed})"
  | .identified label estimate group vicinity fanout =>
    let size := Decimal.fixed 1 estimate
    let bits := group.text
    s!"node {label} n_hat={size} group=[{bits}] vicinity={vicinity} fanout={fanout}"
  | .identifiedAll count landmarks =>
    s!"Assigned identities to {count} nodes ({landmarks} landmarks)"
  | .simulating count sybils walk =>
    s!"Simulating {count} nodes ({sybils} sybil), random walk {walk}"
  | .surveyed vicinity colors =>
    s!"vicinity entries: {vicinity}, color-neighbor entries: {colors}"
  | .surveyedAll count => s!"Indexed proximity of {count} nodes"
  | .refused declined evicted => s!"backlinks declined: {declined}, evicted: {evicted}"
  | .built edges backlinks => s!"Built overlay with {edges} edges ({backlinks} backlinks)"
  | .round number total => s!"round {number}: {total} records known"
  | .settled rounds => s!"Gossip converged after {rounds} rounds"
  | .unsettled rounds => s!"Gossip still changing after {rounds} rounds"
  | .mismatch line => line
  | .verified honest sybils mismatches =>
    s!"Verified {honest} honest and {sybils} sybil nodes, {mismatches} mismatches"
  | .degrees kind figures => s!"{kind} min/max/avg/std {figures}"
  | .diameter hops count => s!"diameter {hops} ({count} nodes)"
  | .storing number => s!"iteration {number} has mismatches, storing topology files"
  | .wrote edges path => s!"wrote {edges} edges to {path}"
  | .finished iterations mismatched =>
    s!"Finished {iterations} iterations, {mismatched} with mismatches"
  | .concluded mismatched iterations =>
    s!"{mismatched} of {iterations} iterations had mismatches"

/-- The line that is logged for an event. Labels and paths cannot steer the terminal that shows
it. -/
def line (event : Event) : String :=
  event.level.name ++ " " ++ Text.inert event.text

end Event

/-- The events of a computation and how it ended. -/
structure Journaled (ε α : Type) where
  events : List Event
  outcome : Except ε α

namespace Journaled

variable {ε ε' α β : Type}

instance : Monad (Journaled ε) where
  pure a := ⟨[], .ok a⟩
  bind x f :=
    match x.outcome with
    | .error e => ⟨x.events, .error e⟩
    | .ok a => ⟨x.events ++ (f a).events, (f a).outcome⟩

instance : MonadExceptOf ε (Journaled ε) where
  throw e := ⟨[], .error e⟩
  tryCatch x handle :=
    match x.outcome with
    | .error e => ⟨x.events ++ (handle e).events, (handle e).outcome⟩
    | .ok _ => x

def note (event : Event) : Journaled ε Unit :=
  ⟨[event], .ok ()⟩

def notes (events : List Event) : Journaled ε Unit :=
  ⟨events, .ok ()⟩

/-- A result without events. -/
def ofExcept (outcome : Except ε α) : Journaled ε α :=
  ⟨[], outcome⟩

def mapError (f : ε → ε') (x : Journaled ε α) : Journaled ε' α :=
  ⟨x.events, x.outcome.mapError f⟩

@[simp] theorem outcome_pure (a : α) : (pure a : Journaled ε α).outcome = .ok a :=
  rfl

@[simp] theorem outcome_bind (x : Journaled ε α) (f : α → Journaled ε β) :
    (x >>= f).outcome = x.outcome >>= fun a => (f a).outcome := by
  rcases x with ⟨events, _ | a⟩ <;> rfl

@[simp] theorem outcome_note (event : Event) : (note event : Journaled ε Unit).outcome = .ok () :=
  rfl

@[simp] theorem outcome_notes (events : List Event) :
    (notes events : Journaled ε Unit).outcome = .ok () :=
  rfl

@[simp] theorem outcome_ofExcept (outcome : Except ε α) : (ofExcept outcome).outcome = outcome :=
  rfl

@[simp] theorem outcome_throw (e : ε) : (throw e : Journaled ε α).outcome = .error e :=
  rfl

@[simp] theorem outcome_mapError (f : ε → ε') (x : Journaled ε α) :
    (x.mapError f).outcome = x.outcome.mapError f :=
  rfl

end Journaled

end SloppyGroup
