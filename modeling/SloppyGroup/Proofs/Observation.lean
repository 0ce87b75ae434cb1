import SloppyGroup.Proofs.Simulation

/-!
Observation: walks that are not wired in report whom they meet, and that is all they do. Whom nodes
link to is decided without them, and nothing that is drawn after them matters to the overlay.
-/

namespace SloppyGroup

variable {σ : Type} [RandomSource σ] {g : TrustGraph} {survey : Survey}

namespace Outreach

def unwalked (outreach : Outreach) : Outreach :=
  { outreach with foreign := .empty }

/-- Walkers take draws from the source, but not from the targets. -/
theorem decideAll_off (order : List Nat) (source source' : σ) :
    (decideAll g survey .off order source).1 =
      (decideAll g survey .explore order source').1.map unwalked := by
  induction order generalizing source source' with
  | nil => rfl
  | cons v rest ih =>
    rw [decideAll, decideAll, List.map_cons]
    exact congrArg₂ List.cons rfl (ih _ _)

/-- The order of the turns is drawn before the first walk. -/
theorem schedule_off (source : σ) :
    (schedule g survey .off source).1 = (schedule g survey .explore source).1.map unwalked := by
  rw [schedule, schedule]
  exact decideAll_off _ _ _

end Outreach

namespace Construction

def unwalked (c : Construction) : Construction :=
  { c with foreign := c.foreign.map fun _ => .empty }

theorem unwalked_start (count : Nat) : (start count).unwalked = start count := by
  simp [unwalked, start]

theorem link_unwalked (v : Nat) (c : Construction) (peer : Peer) :
    link g v c.unwalked peer = (link g v c peer).unwalked := by
  have same : c.unwalked.overlay = c.overlay := rfl
  rw [link, link, same]
  generalize c.overlay.connect v peer.node peer.hops (g.node peer.node).backlinkCapacity = result
  obtain ⟨answer, overlay⟩ := result
  cases answer with
  | admitted => rfl
  | replaced evicted => rfl
  | declined => rfl
  | selfLink => rfl

theorem serve_unwalked (c : Construction) (outreach : Outreach) :
    serve g c.unwalked outreach.unwalked = (serve g c outreach).unwalked := by
  have noted : { c.unwalked with
      foreign := c.unwalked.foreign.setIfInBounds outreach.node .empty } =
      ({ c with foreign := c.foreign.setIfInBounds outreach.node outreach.foreign } :
        Construction).unwalked := by
    simp only [unwalked, Array.map_setIfInBounds]
  rw [serve, serve]
  change outreach.targets.foldl (link g outreach.node) { c.unwalked with
    foreign := c.unwalked.foreign.setIfInBounds outreach.node .empty } = _
  rw [noted]
  exact List.foldl_hom unwalked (link_unwalked outreach.node)

theorem ofSchedule_unwalked (schedule : List Outreach) :
    ofSchedule g (schedule.map Outreach.unwalked) = (ofSchedule g schedule).unwalked := by
  rw [ofSchedule, ofSchedule, List.foldl_map]
  conv_lhs => rw [← unwalked_start]
  exact List.foldl_hom unwalked serve_unwalked

theorem run_off (g : TrustGraph) (survey : Survey) (source : σ) :
    (run g survey .off source).1 = (run g survey .explore source).1.unwalked := by
  have scheduled (mode : WalkMode) : (run g survey mode source).1 =
      ofSchedule g (Outreach.schedule g survey mode source).1 := rfl
  rw [scheduled, scheduled, Outreach.schedule_off, ofSchedule_unwalked]

end Construction

/-- The same network, in which nobody knows of anyone from walkers. -/
def Network.unwalked (network : Network) : Network :=
  { network with foreign := network.foreign.map fun _ => .empty }

def RunResult.unwalked (result : RunResult) : RunResult :=
  { result with network := result.network.unwalked }

namespace Simulation

open Journaled

/-- The same simulation but for what random walks are good for. -/
def withWalk (s : Simulation) (mode : WalkMode) : Simulation where
  graph := s.graph
  settings := { s.settings with walk := mode }
  valid := s.valid

theorem network_off (s : Simulation) (source : σ) :
    (s.withWalk .off).network source = ((s.withWalk .explore).network source).unwalked := by
  have constructed := Construction.run_off s.graph (Survey.conduct s.graph source).1
    (Survey.conduct s.graph source).2
  exact congrArg (fun c : Construction => (⟨_, c.overlay, c.foreign⟩ : Network)) constructed

/-- What follows the construction of the overlay depends on the overlay alone. -/
theorem outcome_runWith (s : Simulation) (source : σ) :
    (s.runWith source).outcome = (do
      let settlement ← (s.gossip (s.network source).overlay).outcome
      let report ← (s.verify settlement.records).outcome
      .ok ⟨s.network source, settlement, report⟩) := by
  rw [runWith, outcome_bind_of_ok (outcome_note _),
    outcome_bind_of_ok (s.outcome_buildNetwork source), outcome_bind]
  simp only [outcome_bind]
  rfl

theorem outcome_runWith_off (s : Simulation) (source : σ) :
    ((s.withWalk .off).runWith source).outcome =
      ((s.withWalk .explore).runWith source).outcome.map RunResult.unwalked := by
  have gossip (mode : WalkMode) (o : Overlay) : (s.withWalk mode).gossip o = s.gossip o := rfl
  have verify (mode : WalkMode) (r : Records) : (s.withWalk mode).verify r = s.verify r := rfl
  have overlay (network : Network) : network.unwalked.overlay = network.overlay := rfl
  simp only [outcome_runWith, network_off, gossip, verify, overlay]
  generalize (s.withWalk .explore).network source = network
  cases (s.gossip network.overlay).outcome with
  | error cause => rfl
  | ok settlement =>
    cases verified : (s.verify settlement.records).outcome with
    | error cause => simp [bind, Except.bind, Except.map, verified]
    | ok report => simp [bind, Except.bind, Except.map, verified, RunResult.unwalked]

/-- A run with walks that are not wired in is a run without walks: it surveys the graph and
constructs the overlay in the same way, and gossip and verification end in the same way. -/
theorem run_only_observes (s : Simulation) :
    (∀ (σ : Type) [RandomSource σ] (source : σ),
      (∃ network, ((s.withWalk .explore).buildNetwork source).outcome = .ok network ∧
        ((s.withWalk .off).buildNetwork source).outcome = .ok network.unwalked) ∧
      ((s.withWalk .off).runWith source).outcome =
        ((s.withWalk .explore).runWith source).outcome.map RunResult.unwalked) ∧
    (s.withWalk .off).run.outcome = (s.withWalk .explore).run.outcome.map RunResult.unwalked := by
  refine ⟨fun σ _ source => ⟨?_, outcome_runWith_off s source⟩, outcome_runWith_off s _⟩
  refine ⟨(s.withWalk .explore).network source, outcome_buildNetwork _ source, ?_⟩
  rw [outcome_buildNetwork, network_off]

end Simulation

end SloppyGroup
