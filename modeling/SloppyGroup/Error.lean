import SloppyGroup.Decimal.Shortest
import SloppyGroup.Gossip.Records
import SloppyGroup.Text.Quoted

/-!
What can go wrong, by cause, and the message of each cause.
-/

namespace SloppyGroup

/-- The two kinds of bit strings. -/
inductive BitField where
  | identifier
  | groupPrefix
deriving DecidableEq, Repr

def BitField.name : BitField → String
  | .identifier => "identifier"
  | .groupPrefix => "group prefix"

/-- An input or a setting that a simulation cannot start from. -/
inductive Misconfiguration where
  | emptyIdentifier
  | nonBinary (field : BitField) (found : Char)
  | populationError (value : Float)
  | landmarkProbability (value : Float)
  | zeroRounds
  | populationEstimate (value : Float)
  | inNode (label : String) (cause : Misconfiguration)
  | duplicateLabel (label : String)
  | edgeOutOfRange (a b count : Nat)
  | unknownWalkMode (text : String)
  | unknownStorePolicy (text : String)
  | zeroIterations
  | noInput
  | overlayCoverage (records overlay graph : Nat)
  | recordCoverage (records graph : Nat)
  | unsupportedId (value : String)
  | duplicateId (label : String)
  | unknownLinkEnd (label : String)
  | mixedAttributes (attributed total : Nat)
  | missingAttribute (label key : String)
  | inAttribute (label key : String) (cause : Misconfiguration)
  | groupLength (label group : String) (declared actual : Nat)
  | groupMismatch (label group : String)

def Misconfiguration.announce (message : String) : String :=
  "configuration error: " ++ message

def Misconfiguration.message : Misconfiguration → String
  | .emptyIdentifier => "identifier must not be empty"
  | .nonBinary field found =>
    field.name ++ " contains non-binary character " ++ Text.quotedChar found
  | .populationError value =>
    "population error must be in [0, 1), got " ++ Decimal.Layout.plain.text value
  | .landmarkProbability value =>
    "sybil landmark probability must be in [0, 1], got " ++ Decimal.Layout.plain.text value
  | .zeroRounds => "gossip round budget must be positive"
  | .populationEstimate value =>
    "population estimate must exceed 1, got " ++ Decimal.Layout.plain.text value
  | .inNode label cause => "node " ++ label ++ ": " ++ announce cause.message
  | .duplicateLabel label => "duplicate node label " ++ label
  | .edgeOutOfRange a b count => s!"edge ({a}, {b}) references a node outside 0..{count}"
  | .unknownWalkMode text =>
    "unknown random walk mode " ++ Text.quoted text ++ " (expected off, explore or wire)"
  | .unknownStorePolicy text =>
    "unknown store policy " ++ Text.quoted text ++ " (expected never, always or on-mismatch)"
  | .zeroIterations => "iterations must be positive"
  | .noInput => "no input topology given"
  | .overlayCoverage records overlay graph =>
    s!"record sets cover {records} nodes, overlay has {overlay}, graph has {graph}"
  | .recordCoverage records graph => s!"record sets cover {records} nodes, graph has {graph}"
  | .unsupportedId value => "unsupported node id " ++ value
  | .duplicateId label => "duplicate node id " ++ label
  | .unknownLinkEnd label => "link references unknown node " ++ label
  | .mixedAttributes attributed total =>
    s!"{attributed} of {total} nodes carry identity attributes; either all or none must"
  | .missingAttribute label key => s!"node {label} is missing attribute {key}"
  | .inAttribute label key cause =>
    s!"node {label}: {key}: " ++ announce cause.message
  | .groupLength label group declared actual =>
    s!"node {label}: group_bits is {declared} but group [{group}] has {actual} bits"
  | .groupMismatch label group =>
    s!"node {label}: group [{group}] is not a prefix of its identifier"

/-- A bound or a rule that the simulated network broke. -/
inductive Violation where
  | sybilLearnedHonest (node record : String)
  | bucketOverflow (node bits : String) (size capacity : Nat)
  | backlinkOverflow (node : String) (count capacity : Nat)
deriving DecidableEq, Repr

def Violation.message : Violation → String
  | .sybilLearnedHonest node record => s!"sybil node {node} knows honest record {record}"
  | .bucketOverflow node bits size capacity =>
    s!"node {node} bucket [{bits}] holds {size} entries, capacity {capacity}"
  | .backlinkOverflow node count capacity =>
    s!"node {node} holds {count} backlinks, capacity {capacity}"

/-- How a simulation can fail. -/
inductive SimulationError where
  | misconfigured (cause : Misconfiguration)
  | violated (violation : Violation)
  /-- Gossip used up its rounds while records still moved. -/
  | unsettled (rounds : Nat) (snapshot : Records)

def SimulationError.message : SimulationError → String
  | .misconfigured cause => Misconfiguration.announce cause.message
  | .violated violation => "invariant violation: " ++ violation.message
  | .unsettled rounds snapshot =>
    let total := snapshot.total
    s!"gossip did not converge within {rounds} rounds ({total} records known)"

end SloppyGroup
