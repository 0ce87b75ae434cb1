import SloppyGroup.NodeSet
import SloppyGroup.Tally

/-!
Record sets: which nodes' records each node knows. Nodes are named by their positions.
-/

namespace SloppyGroup

/-- The set of known records of every node. -/
structure Records where
  sets : Array NodeSet

namespace Records

/-- Every node knows its own record and no other. -/
def initial (count : Nat) : Records :=
  ⟨((List.range count).map fun v => (∅ : NodeSet).insert v).toArray⟩

def ofSets (sets : List NodeSet) : Records :=
  ⟨sets.toArray⟩

def size (records : Records) : Nat :=
  records.sets.size

/-- The records of a node; a node that is not covered knows nothing. -/
def of (records : Records) (node : Nat) : NodeSet :=
  records.sets.getD node ∅

@[simp] theorem size_initial (count : Nat) : (initial count).size = count := by
  simp [initial, size]

theorem of_initial {count v : Nat} (hv : v < count) :
    (initial count).of v = (∅ : NodeSet).insert v := by
  simp [initial, of, Array.getD, hv]

def knows (records : Records) (node record : Nat) : Bool :=
  (records.of node).contains record

/-- How many records are known, counted once for every node that knows them. -/
def total (records : Records) : Nat :=
  tally (·.size) records.sets.toList

/-- Tells a node one record; also says whether it is news. -/
def learn (records : Records) (node record : Nat) : Records × Bool :=
  let (known, set) := (records.of node).containsThenInsert record
  (⟨records.sets.setIfInBounds node set⟩, !known)

@[simp] theorem size_learn (records : Records) (node record : Nat) :
    (records.learn node record).1.size = records.size := by
  simp [learn, size]

theorem of_learn {records : Records} {node : Nat} (hn : node < records.size) (record v : Nat) :
    (records.learn node record).1.of v =
      if v = node then (records.of node).insert record else records.of v := by
  have bound : node < records.sets.size := hn
  simp only [learn, of, Std.ExtTreeSet.containsThenInsert_snd, Array.getD_eq_getD_getElem?,
    Array.getElem?_setIfInBounds]
  by_cases h : v = node
  · simp [h, bound]
  · simp [h, Ne.symm h]

/-- A record is news to a node that does not know it. -/
theorem learn_snd (records : Records) (node record : Nat) :
    (records.learn node record).2 = !records.knows node record := by
  simp [learn, knows]

def toLists (records : Records) : List (List Nat) :=
  records.sets.toList.map (·.toList)

end Records

end SloppyGroup
