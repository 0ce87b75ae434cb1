import SloppyGroup.Error

/-!
The settings of one simulation run and the values that they may take.
-/

namespace SloppyGroup

/-- What random walks are good for in a run. -/
inductive WalkMode where
  | off
  /-- Walks report whom they meet. -/
  | explore
  /-- Walks also lead to overlay links. -/
  | wire
deriving DecidableEq, Repr

namespace WalkMode

def all : List WalkMode := [.off, .explore, .wire]

def name : WalkMode → String
  | .off => "off"
  | .explore => "explore"
  | .wire => "wire"

def explores (mode : WalkMode) : Bool :=
  mode != .off

def wires (mode : WalkMode) : Bool :=
  mode == .wire

def named? (text : String) : Option WalkMode :=
  all.find? (·.name == text)

def parse (text : String) : Except Misconfiguration WalkMode :=
  match named? text with
  | some mode => .ok mode
  | none => .error (.unknownWalkMode text)

end WalkMode

structure Settings where
  seed : UInt64
  /-- How far, as a fraction, a node may misjudge the size of the population. -/
  populationError : Float
  /-- How likely a sybil node declares itself a landmark. -/
  sybilLandmarkProbability : Float
  /-- The number of gossip rounds, unless it follows from the size of the graph. -/
  maxRounds : Option Nat
  walk : WalkMode

namespace Settings

def standard : Settings where
  seed := 0
  populationError := 0
  sybilLandmarkProbability := 0.5
  maxRounds := none
  walk := .off

/-- How many rounds gossip may take among `count` nodes: one more than there are nodes, unless set,
and never none. -/
def roundBudget (settings : Settings) (count : Nat) : Nat :=
  max (settings.maxRounds.getD (count + 1)) 1

/-- Refuses fractions and probabilities out of range and a budget without rounds. -/
def validate (settings : Settings) : Except Misconfiguration Unit :=
  let error := settings.populationError
  let probability := settings.sybilLandmarkProbability
  if !(0 ≤ error && error < 1) then .error (.populationError error)
  else if !(0 ≤ probability && probability ≤ 1) then .error (.landmarkProbability probability)
  else if settings.maxRounds = some 0 then .error .zeroRounds
  else .ok ()

/-- Settings for trying things out: a plain run, an uncertain population, and the walks. -/
def samples : List Settings :=
  [{ standard with seed := 1 },
   { standard with seed := 2, populationError := 0.1 },
   { standard with seed := 3, walk := .explore },
   { standard with seed := 4, walk := .wire }]

end Settings

end SloppyGroup
