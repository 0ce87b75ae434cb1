import SloppyGroup.NodeSet
import SloppyGroup.Proximity.Peer
import SloppyGroup.Random.Source
import SloppyGroup.TrustGraph

/-!
Random walks: a node sends walkers through the trust graph to find members of its group beyond its
local view.
-/

namespace SloppyGroup

/-- The members of a node's group that its walkers found, in order. -/
structure ForeignView where
  peers : List Peer
deriving DecidableEq, Repr, Inhabited

namespace ForeignView

def empty : ForeignView := ⟨[]⟩

variable {σ : Type} [RandomSource σ]

/-- Keeps one peer per distance, the last one, until `limit` distances are held. -/
def perDistance (limit : Nat) : List Peer → Std.ExtTreeMap Nat Nat → Std.ExtTreeMap Nat Nat
  | [], held => held
  | peer :: rest, held =>
    let held := held.insert peer.hops peer.node
    if limit ≤ held.size then held else perDistance limit rest held

/-- Picks at most `fanout` peers at different distances, in order of distance. -/
def longLinks (view : ForeignView) (fanout : Nat) (source : σ) : List Peer × σ :=
  if fanout = 0 then ([], source)
  else
    let (shuffled, source) := Random.shuffle view.peers source
    ((perDistance fanout shuffled ∅).toList.map fun (hops, node) => ⟨hops, node⟩, source)

end ForeignView

/-- What walkers have found: who is known, and the peers that were new, newest first. -/
structure Exploration where
  known : NodeSet
  newest : List Peer

namespace Exploration

/-- Looks at a node: a member of the origin's group that is not known yet is a find. -/
def look (g : TrustGraph) (table : DistanceTable) (e : Exploration) (v : Nat) : Exploration :=
  if !e.known.contains v && (g.node table.source).sharesGroup (g.node v) then
    let newest := match table.distance? v with
      | some hops => ⟨hops, v⟩ :: e.newest
      | none => e.newest
    ⟨e.known.insert v, newest⟩
  else e

variable {σ : Type} [RandomSource σ]

/-- The nodes on a walk of at most `steps` steps. Each step goes to a random neighbour that has not
been visited, and the walk ends early where there is none. -/
def trail (neighbors : Nat → List Nat) :
    (steps : Nat) → (visited : NodeSet) → (current : Nat) → σ → List Nat × σ
  | 0, _, current, source => ([current], source)
  | steps + 1, visited, current, source =>
    let visited := visited.insert current
    let ahead := (neighbors current).filter fun v => !visited.contains v
    match Random.pick? ahead source with
    | (none, source) => ([current], source)
    | (some next, source) =>
      let (further, source) := trail neighbors steps visited next source
      (current :: further, source)

/-- Sends out walkers one after the other; each looks at all nodes on its way. -/
def walks (g : TrustGraph) (table : DistanceTable) (steps : Nat) :
    (walkers : Nat) → Exploration → σ → Exploration × σ
  | 0, e, source => (e, source)
  | walkers + 1, e, source =>
    let (way, source) := trail g.neighbors steps ∅ table.source source
    walks g table steps walkers (way.foldl (look g table) e) source

/-- The foreign view of a table's source, which sends out as many walkers as its fanout, and
everyone who is known afterwards. -/
def run (g : TrustGraph) (table : DistanceTable) (steps : Nat) (known : NodeSet) (source : σ) :
    (ForeignView × NodeSet) × σ :=
  let (e, source) := walks g table steps (g.node table.source).fanout ⟨known, []⟩ source
  ((⟨e.newest.reverse⟩, e.known), source)

/-- How far walkers go for a local view of a given radius: half as far again, a half step counting
as one. -/
def reach (radius : Nat) : Nat :=
  (3 * radius + 1) / 2

end Exploration

end SloppyGroup
