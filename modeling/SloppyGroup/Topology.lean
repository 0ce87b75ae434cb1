import SloppyGroup.Node

/-!
Topologies: who is there and who trusts whom, before anyone has an identity.
-/

namespace SloppyGroup

/-- A participant that has no identity yet. -/
structure Member where
  label : String
  isSybil : Bool
  community : Option String
deriving DecidableEq, Repr

/-- Members in the order in which they joined, and the trust between them by position. -/
structure Topology where
  members : Array Member
  edges : Array (Nat × Nat)
deriving DecidableEq, Repr

namespace Topology

def empty : Topology := ⟨#[], #[]⟩

def size (t : Topology) : Nat :=
  t.members.size

def position? (t : Topology) (label : String) : Option Nat :=
  t.members.findIdx? (·.label == label)

/-- Lets a member join and returns its position; a label that is already there keeps its place and
everything it came with. -/
def join (t : Topology) (member : Member) : Nat × Topology :=
  match t.position? member.label with
  | some position => (position, t)
  | none => (t.size, { t with members := t.members.push member })

def connect (t : Topology) (a b : Nat) : Topology :=
  { t with edges := t.edges.push (a, b) }

/-- A topology of members and edges, in order. -/
def build (members : List Member) (edges : List (Nat × Nat)) : Topology :=
  let joined := members.foldl (fun t member => (t.join member).2) empty
  edges.foldl (fun t (a, b) => t.connect a b) joined

/-- The member of a ring at a position: sybil at every multiple of `sybilEvery`. -/
def ringMember (sybilEvery : Option Nat) (position : Nat) : Member :=
  let isSybil := sybilEvery.any fun step => 0 < step && position % step == 0
  let community := Node.communityOf isSybil
  ⟨s!"{community}{position}", isSybil, some community⟩

/-- A ring of `size` members, each connected with the next. -/
def ring (size : Nat) (sybilEvery : Option Nat) : Topology :=
  build ((List.range size).map (ringMember sybilEvery))
    ((List.range size).map fun i => (i, (i + 1) % size))

end Topology

end SloppyGroup
