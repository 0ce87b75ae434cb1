import SloppyGroup.Journal
import SloppyGroup.Overlay.Graph

/-!
Gossip: in every round each node tells its overlay successors all records that it knew when the
round began. Gossip is settled after a round that was news to nobody.
-/

namespace SloppyGroup

/-- Gossip among the nodes of a trust graph along the links of an overlay, for at most `budget`
rounds. -/
structure Gossip where
  graph : TrustGraph
  overlay : Overlay
  budget : Nat

/-- Settled records, and how many rounds it took to see that they are. -/
structure Settlement where
  records : Records
  rounds : Nat

namespace Gossip

/-- Gossip with a budget of one round more than there are nodes. -/
def standard (graph : TrustGraph) (overlay : Overlay) : Gossip :=
  ⟨graph, overlay, graph.size + 1⟩

/-- Changes the budget; there is at least one round. -/
def withBudget (gossip : Gossip) (budget : Nat) : Gossip :=
  { gossip with budget := max budget 1 }

def audience (gossip : Gossip) (v : Nat) : List Nat :=
  (gossip.overlay.successors v).filter fun w => (gossip.graph.node v).tells (gossip.graph.node w)

/-- What is said in a round: each listener with each record that it is told. -/
def messages (gossip : Gossip) (current : Records) : List (Nat × Nat) :=
  (List.range current.size).flatMap fun v =>
    (gossip.audience v).flatMap fun w => (current.of v).toList.map fun record => (w, record)

/-- Hears one message; the flag says whether anything has been news so far. -/
def hear (state : Records × Bool) (message : Nat × Nat) : Records × Bool :=
  let (records, isNews) := state.1.learn message.1 message.2
  (records, state.2 || isNews)

/-- One round; also says whether anything was news. -/
def round (gossip : Gossip) (current : Records) : Records × Bool :=
  (gossip.messages current).foldl hear (current, false)

/-- Rounds until one is news to nobody, counted on from `done`. -/
def settle (gossip : Gossip) :
    (fuel done : Nat) → Records → Journaled SimulationError Settlement
  | 0, done, records => do
    Journaled.note (.unsettled done)
    throw (.unsettled done records)
  | fuel + 1, done, records => do
    let (next, isNews) := gossip.round records
    Journaled.note (.round (done + 1) next.total)
    if isNews then gossip.settle fuel (done + 1) next
    else
      Journaled.note (.settled (done + 1))
      return ⟨next, done + 1⟩

/-- Gossip from initial records, which must cover the nodes of the graph and the overlay. -/
def run (gossip : Gossip) (initial : Records) : Journaled SimulationError Settlement :=
  let count := gossip.graph.size
  if initial.size ≠ count ∨ gossip.overlay.size ≠ count then
    throw (.misconfigured (.overlayCoverage initial.size gossip.overlay.size count))
  else gossip.settle gossip.budget 0 initial

end Gossip

end SloppyGroup
