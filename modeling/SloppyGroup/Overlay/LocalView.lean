import SloppyGroup.NodeSet
import SloppyGroup.Proximity.Survey

/-!
Local views: the members of its group that a node knows from its own surroundings.
-/

namespace SloppyGroup

/-- Peers in the order in which they were noticed, and everyone who is known: the owner and the
peers. -/
structure LocalView where
  peers : List Peer
  known : NodeSet

namespace LocalView

def notice (view : LocalView) (peer : Peer) : LocalView :=
  if view.known.contains peer.node then view
  else ⟨view.peers ++ [peer], view.known.insert peer.node⟩

/-- The view of a node: members of its group in its vicinity, then those in the bucket of its
prefix. -/
def of (g : TrustGraph) (v : Nat) (surroundings : Surroundings) : LocalView :=
  let owner := g.node v
  let near := surroundings.vicinity.peers.filter fun peer => owner.sharesGroup (g.node peer.node)
  let colored := (ColorTable.bucket surroundings.colors owner.group).peers
  (near ++ colored).foldl notice ⟨[], (∅ : NodeSet).insert v⟩

def radius (view : LocalView) : Nat :=
  Peer.farthest view.peers

end LocalView

end SloppyGroup
