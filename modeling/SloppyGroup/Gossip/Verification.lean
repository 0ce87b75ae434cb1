import SloppyGroup.Journal
import SloppyGroup.TrustGraph

/-!
Verification of settled records: sybil nodes know sybil nodes only, and honest nodes know the honest
members of their group.
-/

namespace SloppyGroup

/-- An honest node that does not know all honest members of its group. -/
structure Mismatch where
  node : Nat
  label : String
  group : GroupPrefix
  known : Nat
  all : Nat
deriving DecidableEq, Repr

namespace Mismatch

def ratio (m : Mismatch) : Float :=
  if m.all = 0 then 1 else m.known.toFloat / m.all.toFloat

def line (m : Mismatch) : String :=
  let group := m.group.text
  let ratio := Decimal.fixed 2 m.ratio
  m.label ++ s!" [{group}] knows " ++ toString m.known ++ "/" ++ toString m.all ++ s!" ({ratio})"

end Mismatch

/-- How many nodes were checked, and where honest nodes miss members of their group. -/
structure Report where
  mismatches : List Mismatch
  honestCount : Nat
  sybilCount : Nat
deriving DecidableEq, Repr

namespace Report

def isClean (report : Report) : Bool :=
  report.mismatches.isEmpty

def events (report : Report) : List Event :=
  report.mismatches.map (fun m => .mismatch m.line) ++
    [.verified report.honestCount report.sybilCount report.mismatches.length]

end Report

namespace TrustGraph

def sybils (g : TrustGraph) : List Nat :=
  (List.range g.size).filter fun v => (g.node v).isSybil

def honest (g : TrustGraph) : List Nat :=
  (List.range g.size).filter fun v => !(g.node v).isSybil

def honestGroup (g : TrustGraph) (v : Nat) : List Nat :=
  g.honest.filter fun w => (g.node w).group = (g.node v).group

theorem mem_honest {g : TrustGraph} {v : Nat} :
    v ∈ g.honest ↔ v < g.size ∧ (g.node v).isSybil = false := by
  simp [honest]

theorem mem_honestGroup {g : TrustGraph} {v w : Nat} :
    w ∈ g.honestGroup v ↔ w ∈ g.honest ∧ (g.node w).group = (g.node v).group := by
  rw [honestGroup, List.mem_filter, decide_eq_true_eq]

end TrustGraph

namespace Records

def honestRecord? (records : Records) (g : TrustGraph) (v : Nat) : Option Nat :=
  (records.of v).toList.find? fun record => !(g.node record).isSybil

/-- The first sybil node with an honest record, and that record. -/
def leak? (records : Records) (g : TrustGraph) : Option (Nat × Nat) :=
  g.sybils.findSome? fun v => (records.honestRecord? g v).map fun record => (v, record)

def mismatch? (records : Records) (g : TrustGraph) (v : Nat) : Option Mismatch :=
  let group := g.honestGroup v
  let known := group.countP (records.knows v ·)
  let node := g.node v
  if known = group.length then none
  else some ⟨v, node.label, node.group, known, group.length⟩

def verify (records : Records) (g : TrustGraph) : Except SimulationError Report :=
  if records.size ≠ g.size then .error (.misconfigured (.recordCoverage records.size g.size))
  else
    match records.leak? g with
    | some (v, record) =>
      .error (.violated (.sybilLearnedHonest (g.node v).label (g.node record).label))
    | none =>
      .ok {
        mismatches := g.honest.filterMap (records.mismatch? g)
        honestCount := g.honest.length
        sybilCount := g.sybils.length
      }

/-- Whether sybil nodes know sybil nodes only. -/
def arePure (records : Records) (g : TrustGraph) : Bool :=
  g.sybils.all fun v => (records.of v).toList.all fun record => (g.node record).isSybil

/-- Whether the records pass verification without a mismatch. -/
def areComplete (records : Records) (g : TrustGraph) : Bool :=
  match records.verify g with
  | .ok report => report.isClean
  | .error _ => false

end Records

end SloppyGroup
