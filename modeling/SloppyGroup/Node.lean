import SloppyGroup.Identifier

/-!
The simulated nodes. Everywhere else a node is named by its position, counted from zero.
-/

namespace SloppyGroup

/-- A participant with everything that the phases of a simulation need to know about it. -/
structure Node where
  label : String
  id : Identifier
  group : GroupPrefix
  isSybil : Bool
  isLandmark : Bool
  /-- How many nearby nodes it samples. -/
  vicinityCapacity : Nat
  /-- How many nodes it keeps per color bucket. -/
  bucketCapacity : Nat
  /-- Its degree in the overlay. -/
  fanout : Nat
  community : Option String
deriving DecidableEq, Inhabited

namespace Node

def capacityLimit : Nat := UInt64.size - 1

/-- How many backlinks the node admits: the square of its fanout, or the capacity limit if that is
less. -/
def backlinkCapacity (node : Node) : Nat :=
  min (node.fanout * node.fanout) capacityLimit

def sharesGroup (node other : Node) : Bool :=
  other.id.startsWith node.group

/-- Whether records travel from this node to `other`: honest nodes tell sybil nodes nothing. -/
def tells (node other : Node) : Bool :=
  node.isSybil || !other.isSybil

def communityOf (isSybil : Bool) : String :=
  if isSybil then "sybil" else "honest"

/-- A node in a given group: its identifier is the group prefix followed by the bits of its label's
hash from there on, and all its capacities are equal. -/
def inGroup (label group : String) (isSybil : Bool) (capacity : Nat) :
    Except Misconfiguration Node := do
  let groupPrefix ← GroupPrefix.parse group
  let hash := (Identifier.ofLabel label).text
  let id ← Identifier.parse (group ++ String.ofList (hash.toList.drop group.length))
  return {
    label
    id
    group := groupPrefix
    isSybil
    isLandmark := false
    vicinityCapacity := capacity
    bucketCapacity := capacity
    fanout := capacity
    community := some (communityOf isSybil)
  }

end Node

end SloppyGroup
