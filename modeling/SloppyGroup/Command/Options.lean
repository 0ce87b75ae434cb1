import SloppyGroup.Decimal.Reading
import SloppyGroup.Plan

/-!
Command line options. Words are read from left to right, and the first one that makes no sense ends
the reading.
-/

namespace SloppyGroup

/-- What the options of a command line ask for. Those that are not given leave the plan as it is. -/
structure Options where
  input : Option String
  plan : Option String
  output : Option String
  seed : Option UInt64
  iterations : Option Nat
  store : Option StorePolicy
  populationError : Option Float
  maxRounds : Option Nat
  walk : Option WalkMode
  verbose : Bool

/-- What a command line asks for. -/
inductive Invocation where
  | run (options : Options)
  | version
  | misused

namespace Options

def blank : Options :=
  ⟨none, none, none, none, none, none, none, none, none, false⟩

def override (options : Options) (plan : Plan) : Plan where
  input := options.input <|> plan.input
  output := options.output.getD plan.output
  iterations := options.iterations.getD plan.iterations
  store := options.store.getD plan.store
  settings := {
    seed := options.seed.getD plan.settings.seed
    populationError := options.populationError.getD plan.settings.populationError
    sybilLandmarkProbability := plan.settings.sybilLandmarkProbability
    maxRounds := options.maxRounds <|> plan.settings.maxRounds
    walk := options.walk.getD plan.settings.walk
  }

/-- A whole number of at most 64 bits, with an optional plus sign. -/
def natural? (text : String) : Option Nat :=
  let digits := match text.toList with
    | '+' :: rest => rest
    | rest => rest
  if digits.isEmpty || !digits.all Char.isDigit then none
  else
    let n := Decimal.wholeOf digits
    if n < UInt64.size then some n else none

end Options

/-- The options that may be given, each at most once. -/
inductive OptionName where
  | input
  | plan
  | output
  | seed
  | iterations
  | store
  | populationError
  | maxRounds
  | walk
  | verbose
  | version
deriving DecidableEq, Repr

namespace OptionName

def all : List OptionName :=
  [.input, .plan, .output, .seed, .iterations, .store, .populationError, .maxRounds, .walk,
   .verbose, .version]

def long : OptionName → String
  | .input => "input"
  | .plan => "config"
  | .output => "output"
  | .seed => "seed"
  | .iterations => "iterations"
  | .store => "store"
  | .populationError => "population-error"
  | .maxRounds => "max-rounds"
  | .walk => "random-walk"
  | .verbose => "verbose"
  | .version => "version"

def short? : OptionName → Option Char
  | .input => some 'i'
  | .plan => some 'c'
  | .output => some 'o'
  | .seed => some 's'
  | .iterations => some 'n'
  | .verbose => some 'v'
  | .version => some 'V'
  | _ => none

def takesValue : OptionName → Bool
  | .verbose | .version => false
  | _ => true

def ofLong? (text : String) : Option OptionName :=
  all.find? (·.long == text)

def ofShort? (c : Char) : Option OptionName :=
  all.find? (·.short? == some c)

def store? (name : OptionName) (text : String) (o : Options) : Option Options :=
  match name with
  | .input => some { o with input := some text }
  | .plan => some { o with plan := some text }
  | .output => some { o with output := some text }
  | .seed => (Options.natural? text).map fun n => { o with seed := some n.toUInt64 }
  | .iterations => (Options.natural? text).map fun n => { o with iterations := some n }
  | .store => (StorePolicy.named? text).map fun p => { o with store := some p }
  | .populationError => (Decimal.ofText? text).map fun x => { o with populationError := some x }
  | .maxRounds => (Options.natural? text).map fun n => { o with maxRounds := some n }
  | .walk => (WalkMode.named? text).map fun w => { o with walk := some w }
  | .verbose => some { o with verbose := true }
  | .version => some o

end OptionName

/-- A command line that is being read: the options so far, which ones were given, and one that still
waits for its value. -/
structure CommandLine where
  options : Options
  given : List OptionName
  waiting : Option OptionName

namespace CommandLine

/-- How the reading of a word ends: it goes on, or the command line is understood or refused. -/
abbrev Step := Except Invocation CommandLine

def start : CommandLine := ⟨.blank, [], none⟩

/-- Takes an option with its value, unless it was given before. -/
def take (line : CommandLine) (name : OptionName) (value : String) : Step :=
  if name ∈ line.given then .error .misused
  else
    match name.store? value line.options with
    | some options => .ok ⟨options, name :: line.given, none⟩
    | none => .error .misused

/-- Takes an option without a value. -/
def raise (line : CommandLine) (name : OptionName) : Step :=
  if name = .version then .error .version else line.take name ""

/-- Splits a long option from the value behind an equals sign. -/
def splitEquals (cs : List Char) : String × Option String :=
  let value := match cs.dropWhile (· ≠ '=') with
    | [] => none
    | _ :: value => some (String.ofList value)
  (String.ofList (cs.takeWhile (· ≠ '=')), value)

def longOption (line : CommandLine) (cs : List Char) : Step :=
  let (text, value) := splitEquals cs
  match OptionName.ofLong? text, value with
  | some name, some value => if name.takesValue then line.take name value else .error .misused
  | some name, none =>
    if name.takesValue then .ok { line with waiting := some name } else line.raise name
  | none, _ => .error .misused

/-- The letters of a word behind a single dash: flags, and at most one option, whose value is the
rest of the word. -/
def letters (line : CommandLine) : List Char → Step
  | [] => .ok line
  | c :: rest =>
    match OptionName.ofShort? c with
    | none => .error .misused
    | some name =>
      if name.takesValue then
        match rest with
        | [] => .ok { line with waiting := some name }
        | '=' :: value => line.take name (String.ofList value)
        | value => line.take name (String.ofList value)
      else (line.raise name).bind fun line => letters line rest

/-- A word that is no option: the value that is waited for. -/
def plainWord (line : CommandLine) (text : String) : Step :=
  match line.waiting with
  | some name => { line with waiting := none }.take name text
  | none => .error .misused

/-- Reads one word. An option that waits for its value takes no other option instead. -/
def word (line : CommandLine) (text : String) : Step :=
  match text.toList with
  | '-' :: '-' :: cs => if line.waiting.isSome then .error .misused else line.longOption cs
  | '-' :: c :: cs => if line.waiting.isSome then .error .misused else line.letters (c :: cs)
  | _ => line.plainWord text

/-- Reads all words; two dashes end the options, and nothing may follow them. -/
def words : List String → CommandLine → Invocation
  | [], line => if line.waiting.isSome then .misused else .run line.options
  | "--" :: rest, line =>
    if line.waiting.isSome || !rest.isEmpty then .misused else .run line.options
  | text :: rest, line =>
    match line.word text with
    | .ok line => words rest line
    | .error invocation => invocation

end CommandLine

def Invocation.ofWords (words : List String) : Invocation :=
  CommandLine.words words .start

end SloppyGroup
