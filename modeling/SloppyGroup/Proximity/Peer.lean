/-!
Peers: nodes as one node sees them.
-/

namespace SloppyGroup

/-- A node and how many hops away it is. -/
structure Peer where
  hops : Nat
  node : Nat
deriving DecidableEq, Repr

namespace Peer

/-- Nearer peers come first; of equally near ones, the one with the smaller position. -/
def before (p q : Peer) : Bool :=
  p.hops < q.hops || (p.hops == q.hops && p.node ≤ q.node)

/-- The largest distance among some peers, zero for none. -/
def farthest (peers : List Peer) : Nat :=
  (peers.map (·.hops)).foldl max 0

end Peer

end SloppyGroup
