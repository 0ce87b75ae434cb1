import SloppyGroup.Proofs.Overlay.Hubs
import SloppyGroup.Proofs.Simulation

/-!
Convergence: where everyone is honest and local views are complete, groups learn all about
themselves and nothing else within two rounds, and a third one shows that there is nothing more to
learn. Hubs see to it, whatever the fanout.
-/

namespace SloppyGroup

namespace Gossip

variable {g : TrustGraph} {o : Overlay} {v u : Nat}

/-- Links stay within groups, and every group has a member that is linked to and from all others. -/
structure Hubbed (g : TrustGraph) (o : Overlay) : Prop where
  spans : o.Spans g.size
  honest : ∀ v < g.size, (g.node v).isSybil = false
  grouped : o.Grouped g
  exists_hub : ∀ v < g.size, ∃ hub < g.size, (g.node hub).group = (g.node v).group ∧
    ∀ u < g.size, (g.node u).group = (g.node v).group → u ≠ hub →
      (o.link? hub u).isSome = true ∧ (o.link? u hub).isSome = true

namespace Hubbed

theorem passes (h : Hubbed g o) (hu : u < g.size) (linked : (o.link? v u).isSome = true) :
    (standard g o).Passes v u := by
  refine ⟨linked, ?_⟩
  change ((g.node v).isSybil || !(g.node u).isSybil) = true
  rw [h.honest u hu]
  simp

theorem group_eq_of_route (h : Hubbed g o) {k : Nat} (way : Route (standard g o).Passes k u v) :
    (g.node v).group = (g.node u).group := by
  induction way with
  | here => rfl
  | step way last ih =>
    obtain ⟨link, held⟩ := Option.isSome_iff_exists.1 last.1
    exact (h.grouped _ _ link held).trans ih

/-- Any two members of a group are at most two steps apart: one to the hub and one from it. -/
theorem exists_route (h : Hubbed g o) (hv : v < g.size) (hu : u < g.size)
    (same : (g.node u).group = (g.node v).group) :
    ∃ k ≤ 2, Route (standard g o).Passes k u v := by
  obtain ⟨hub, hub_lt, _, linked⟩ := h.exists_hub v hv
  by_cases from_hub : u = hub
  · by_cases to_hub : v = hub
    · rw [from_hub, to_hub]
      exact ⟨0, by omega, .here hub⟩
    · rw [from_hub]
      exact ⟨1, by omega, (Route.here hub).step (h.passes hv (linked v hv rfl to_hub).1)⟩
  · have first := (Route.here u).step (h.passes hub_lt (linked u hu same from_hub).2)
    by_cases to_hub : v = hub
    · rw [to_hub]
      exact ⟨1, by omega, first⟩
    · exact ⟨2, by omega, first.step (h.passes hv (linked v hv rfl to_hub).1)⟩

theorem hears_iff (h : Hubbed g o) {k : Nat} (hk : 2 ≤ k) (hv : v < g.size) :
    (standard g o).Hears (Records.initial g.size) k v u ↔
      u < g.size ∧ (g.node u).group = (g.node v).group := by
  constructor
  · rintro ⟨w, known, m, _, way⟩
    obtain ⟨hw, rfl⟩ := Records.knows_initial.1 known
    exact ⟨hw, (h.group_eq_of_route way).symm⟩
  · rintro ⟨hu, same⟩
    obtain ⟨m, hm, way⟩ := h.exists_route hv hu same
    exact (hears_initial_iff hv h.spans).2 ⟨m, hm.trans hk, way⟩

theorem settled (h : Hubbed g o) : (standard g o).Settled (Records.initial g.size) 2 := by
  intro v u
  by_cases hv : v < g.size
  · rw [h.hears_iff (Nat.le_refl 2) hv, h.hears_iff (Nat.le_succ 2) hv]
  · have outside (k : Nat) : ¬(standard g o).Hears (Records.initial g.size) k v u := by
      intro heard
      have inside := heard.lt (spans_initial h.spans)
      rw [Records.size_initial] at inside
      exact hv inside
    exact ⟨fun heard => absurd heard (outside 2), fun heard => absurd heard (outside 3)⟩

end Hubbed

end Gossip

namespace Simulation

variable {σ : Type} [RandomSource σ]

/-- Every node knows exactly its group after at most three rounds, and the report is clean. -/
structure Converged (s : Simulation) (result : RunResult) : Prop where
  clean : result.report.mismatches = []
  rounds_le : result.settlement.rounds ≤ 3
  covers : result.settlement.records.size = s.graph.size
  knows_iff : ∀ v < s.graph.size, ∀ u, result.settlement.records.knows v u = true ↔
    u < s.graph.size ∧ (s.graph.node u).group = (s.graph.node v).group

theorem hubbed_network (s : Simulation) (h : s.graph.HonestGroups) (source : σ) :
    Gossip.Hubbed s.graph (s.network source).overlay where
  spans := s.spans_network source
  honest := h.honest
  grouped := Construction.grouped_run h.toPartitioned (Survey.sound_conduct s.graph source)
    s.settings.walk _
  exists_hub _ hv := Construction.exists_hub h s.settings.walk source _ hv

theorem gossip_converges (s : Simulation) {o : Overlay} (h : Gossip.Hubbed s.graph o)
    (unset : s.settings.maxRounds = none) :
    ∃ settlement, (s.gossip o).outcome = .ok settlement ∧ settlement.rounds ≤ 3 ∧
      settlement.records.size = s.graph.size ∧ settlement.records.Pure s.graph ∧
      ∀ v < s.graph.size, ∀ u, settlement.records.knows v u = true ↔
        u < s.graph.size ∧ (s.graph.node u).group = (s.graph.node v).group := by
  obtain ⟨d, least, early⟩ := Gossip.exists_isLeast_settled (Gossip.spans_initial h.spans)
  rw [Records.size_initial] at early
  have quick : d ≤ 2 := least.2 h.settled
  have outcome := (s.outcome_gossip h.spans least).trans (if_pos (lt_roundBudget unset early))
  refine ⟨_, outcome, Nat.succ_le_succ quick, ?_, ?_, ?_⟩
  · exact (Gossip.size_afterRounds d).trans (Records.size_initial _)
  · exact Gossip.pure_afterRounds_initial s.graph o d
  · intro v hv u
    rw [Gossip.knows_afterRounds (Gossip.spans_initial h.spans), ← least.1.hears_iff quick]
    exact h.hears_iff (Nat.le_refl 2) hv

/-- Complete views of honest groups converge within three rounds, whatever the capacities, the walks
and the seed. -/
theorem run_converges (s : Simulation) (h : s.graph.HonestGroups)
    (unset : s.settings.maxRounds = none) :
    (∀ (σ : Type) [RandomSource σ] (source : σ),
      ∃ result, (s.runWith source).outcome = .ok result ∧ s.Converged result) ∧
    ∃ result, s.run.outcome = .ok result ∧ s.Converged result := by
  have ends (σ : Type) [RandomSource σ] (source : σ) :
      ∃ result, (s.runWith source).outcome = .ok result ∧ s.Converged result := by
    obtain ⟨settlement, settled, quick, covers, pure, knows⟩ :=
      s.gossip_converges (s.hubbed_network h source) unset
    refine ⟨_, outcome_runWith_of_settled settled (pure.verify_eq covers), ?_, quick, covers, knows⟩
    rw [List.filterMap_eq_nil_iff]
    intro v hv
    rw [Records.mismatch?_eq_none_iff]
    intro u hu
    obtain ⟨member, same⟩ := TrustGraph.mem_honestGroup.1 hu
    exact (knows v (TrustGraph.mem_honest.1 hv).1 u).2 ⟨(TrustGraph.mem_honest.1 member).1, same⟩
  exact ⟨ends, ends _ _⟩

/-- A row of nodes that belong to two groups by turns and admit no backlinks. -/
def stripes : TrustGraph where
  nodes := #[ColorTable.shortNamed "a" false [], ColorTable.shortNamed "b" true [],
    ColorTable.shortNamed "c" false [], ColorTable.shortNamed "d" true []]
  newest := [(2, 3), (1, 2), (0, 1)]
  neighborTable := Undirected.neighborTable 4 [(2, 3), (1, 2), (0, 1)]
  labels_distinct := by decide
  simple := ⟨by decide, by decide, by decide⟩
  neighborTable_eq := rfl

theorem honestGroups_stripes : stripes.HonestGroups where
  equallyLong := by decide
  startsWith := by decide
  reachable := by
    have step (v : Nat) (hv : v < 3) : stripes.trust.Reachable v (v + 1) := by
      have adj : ∀ v < 3, v + 1 ∈ stripes.neighbors v := by decide
      exact SimpleGraph.Adj.reachable (adj v hv)
    have first (v : Nat) (hv : v < 4) : stripes.trust.Reachable 0 v := by
      induction v with
      | zero => exact .refl 0
      | succ v ih => exact (ih (by omega)).trans (step v (by omega))
    exact fun v hv w hw => (first v hv).symm.trans (first w hw)
  honest := by decide
  roomy := by decide

def ofStripes : Simulation :=
  ⟨stripes, { Settings.standard with walk := .wire }, rfl⟩

theorem run_converges_stripes : ofStripes.graph.HonestGroups ∧
    ofStripes.settings.maxRounds = none ∧
    ∃ result, ofStripes.run.outcome = .ok result ∧ ofStripes.Converged result :=
  ⟨honestGroups_stripes, rfl, (run_converges ofStripes honestGroups_stripes rfl).2⟩

end Simulation

end SloppyGroup
