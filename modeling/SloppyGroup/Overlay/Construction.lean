import SloppyGroup.Overlay.Graph
import SloppyGroup.Overlay.LocalView
import SloppyGroup.Overlay.Walk
import SloppyGroup.Settings

/-!
Construction of the overlay: in random order, every node links to the peers of its local view and,
if walks are wired in, to some of those that its walkers found.
-/

namespace SloppyGroup

/-- Whom a node links to, and what its walkers found. -/
structure Outreach where
  node : Nat
  targets : List Peer
  foreign : ForeignView

namespace Outreach

variable {σ : Type} [RandomSource σ]

/-- Decides whom a node links to. The links of other nodes have no say in it. -/
def decide (g : TrustGraph) (survey : Survey) (mode : WalkMode) (v : Nat) (source : σ) :
    Outreach × σ :=
  let view := LocalView.of g v (survey.of v)
  if mode.explores then
    let table := g.distancesFrom v
    let steps := Exploration.reach view.radius
    let ((foreign, _), source) := Exploration.run g table steps view.known source
    if mode.wires then
      let (long, source) := foreign.longLinks (g.node v).fanout source
      (⟨v, view.peers ++ long, foreign⟩, source)
    else (⟨v, view.peers, foreign⟩, source)
  else (⟨v, view.peers, .empty⟩, source)

def decideAll (g : TrustGraph) (survey : Survey) (mode : WalkMode) :
    List Nat → σ → List Outreach × σ
  | [], source => ([], source)
  | v :: rest, source =>
    let (outreach, source) := decide g survey mode v source
    let (others, source) := decideAll g survey mode rest source
    (outreach :: others, source)

def schedule (g : TrustGraph) (survey : Survey) (mode : WalkMode) (source : σ) :
    List Outreach × σ :=
  let (order, source) := Random.shuffle (List.range g.size) source
  decideAll g survey mode order source

end Outreach

/-- An overlay under construction, with the foreign views so far and the number of requests for
backlinks that were declined or cost another backlink its place. -/
structure Construction where
  overlay : Overlay
  foreign : Array ForeignView
  declined : Nat
  evicted : Nat

namespace Construction

def start (count : Nat) : Construction :=
  ⟨.blank count, Array.replicate count .empty, 0, 0⟩

def link (g : TrustGraph) (v : Nat) (c : Construction) (peer : Peer) : Construction :=
  let capacity := (g.node peer.node).backlinkCapacity
  let (answer, overlay) := c.overlay.connect v peer.node peer.hops capacity
  match answer with
  | .declined => { c with overlay, declined := c.declined + 1 }
  | .replaced _ => { c with overlay, evicted := c.evicted + 1 }
  | _ => { c with overlay }

def serve (g : TrustGraph) (c : Construction) (outreach : Outreach) : Construction :=
  let c := { c with foreign := c.foreign.setIfInBounds outreach.node outreach.foreign }
  outreach.targets.foldl (link g outreach.node) c

def ofSchedule (g : TrustGraph) (schedule : List Outreach) : Construction :=
  schedule.foldl (serve g) (start g.size)

variable {σ : Type} [RandomSource σ]

def run (g : TrustGraph) (survey : Survey) (mode : WalkMode) (source : σ) : Construction × σ :=
  let (schedule, source) := Outreach.schedule g survey mode source
  (ofSchedule g schedule, source)

def events (c : Construction) : List Event :=
  [.refused c.declined c.evicted, .built c.overlay.linkCount c.overlay.backlinkCount]

end Construction

end SloppyGroup
