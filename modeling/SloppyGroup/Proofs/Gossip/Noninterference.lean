import SloppyGroup.Proofs.Gossip.Purity

/-!
Sybil nodes have no influence on what honest nodes learn of each other: a record of an honest node
reaches honest nodes on links between honest nodes only, whatever links there are besides.
-/

namespace SloppyGroup

/-- Records that agree on what honest nodes know of each other get the same verdict. -/
theorem Records.verify_congr {g : TrustGraph} {first second : Records} (pure : first.Pure g) (pure' : second.Pure g)
    (covers : first.size = g.size) (covers' : second.size = g.size)
    (same : ∀ v ∈ g.honest, ∀ u ∈ g.honest, first.knows v u = second.knows v u) :
    first.verify g = second.verify g := by
  rw [pure.verify_eq covers, pure'.verify_eq covers']
  have mismatches : g.honest.filterMap (first.mismatch? g) =
      g.honest.filterMap (second.mismatch? g) := by
    apply List.filterMap_congr
    intro v hv
    have counts : (g.honestGroup v).countP (first.knows v ·) =
        (g.honestGroup v).countP (second.knows v ·) := by
      apply List.countP_congr
      intro u hu
      rw [same v hv u (List.mem_of_mem_filter hu)]
    rw [Records.mismatch?, Records.mismatch?, counts]
  rw [mismatches]

namespace Gossip

variable {g : TrustGraph} {o o' : Overlay} {u v : Nat}

/-- Gossip from their own records succeeds, and every node ends up with the records of everyone
from whom records pass to it. -/
theorem exists_settlement (spans : o.Spans g.size) : ∃ settlement,
    ((standard g o).run (Records.initial g.size)).outcome = .ok settlement ∧
      settlement.records.size = g.size ∧ settlement.records.Pure g ∧
      ∀ v < g.size, ∀ u, settlement.records.knows v u = true ↔
        Relation.ReflTransGen (standard g o).Passes u v := by
  obtain ⟨d, least, early⟩ := exists_isLeast_settled (spans_initial spans)
  rw [Records.size_initial] at early
  have inTime : d < (standard g o).budget := by
    change d < g.size + 1
    omega
  have outcome : ((standard g o).run (Records.initial g.size)).outcome = _ :=
    outcome_run spans (Records.size_initial g.size) least
  rw [if_pos inTime] at outcome
  refine ⟨_, outcome, ?_, ?_, ?_⟩
  · exact (size_afterRounds d).trans (Records.size_initial g.size)
  · exact pure_afterRounds_initial g o d
  · intro v hv u
    exact (knows_afterRounds (spans_initial spans)).trans (least.1.hears_initial_iff hv spans)

/-- The overlays have the same links between honest nodes. -/
def AgreeOnHonest (g : TrustGraph) (o o' : Overlay) : Prop :=
  ∀ v ∈ g.honest, ∀ w ∈ g.honest, (o.link? v w).isSome = (o'.link? v w).isSome

theorem AgreeOnHonest.symm (h : AgreeOnHonest g o o') : AgreeOnHonest g o' o :=
  fun v hv w hw => (h v hv w hw).symm

theorem AgreeOnHonest.passes (h : AgreeOnHonest g o o') (spans : o.Spans g.size)
    (honest : (g.node u).isSybil = false) (passes : (standard g o).Passes u v) :
    (g.node v).isSybil = false ∧ (standard g o').Passes u v := by
  obtain ⟨hu, hv⟩ := passes.lt spans
  have honest' : (g.node v).isSybil = false := by
    by_contra sybil
    rw [Bool.not_eq_false] at sybil
    have known : (g.node u).isSybil = true := passes.isSybil sybil
    rw [known] at honest
    cases honest
  refine ⟨honest', ?_, passes.2⟩
  have linked := h u (TrustGraph.mem_honest.2 ⟨hu, honest⟩) v
    (TrustGraph.mem_honest.2 ⟨hv, honest'⟩)
  exact linked ▸ passes.1

/-- Records of honest nodes take the same ways in both overlays. -/
theorem AgreeOnHonest.reflTransGen (h : AgreeOnHonest g o o') (spans : o.Spans g.size)
    (honest : (g.node u).isSybil = false)
    (way : Relation.ReflTransGen (standard g o).Passes u v) :
    (g.node v).isSybil = false ∧ Relation.ReflTransGen (standard g o').Passes u v := by
  induction way with
  | refl => exact ⟨honest, .refl⟩
  | tail _ passes ih =>
    obtain ⟨honest', passes'⟩ := h.passes spans ih.1 passes
    exact ⟨honest', ih.2.tail passes'⟩

/-- Gossip along overlays with the same links between honest nodes leads honest nodes to the same
knowledge of each other and to the same verdict. -/
theorem run_ignores_sybils (g : TrustGraph) (o o' : Overlay) (spans : o.Spans g.size)
    (spans' : o'.Spans g.size) (agree : AgreeOnHonest g o o') :
    ∃ settlement settlement',
      ((standard g o).run (Records.initial g.size)).outcome = .ok settlement ∧
      ((standard g o').run (Records.initial g.size)).outcome = .ok settlement' ∧
      (∀ v ∈ g.honest, ∀ u ∈ g.honest,
        settlement.records.knows v u = settlement'.records.knows v u) ∧
      ∃ report, settlement.records.verify g = .ok report ∧
        settlement'.records.verify g = .ok report := by
  obtain ⟨settlement, settled, covers, pure, reached⟩ := exists_settlement spans
  obtain ⟨settlement', settled', covers', pure', reached'⟩ := exists_settlement spans'
  have same : ∀ v ∈ g.honest, ∀ u ∈ g.honest,
      settlement.records.knows v u = settlement'.records.knows v u := by
    intro v hv u hu
    have honest := (TrustGraph.mem_honest.1 hu).2
    have inside := (TrustGraph.mem_honest.1 hv).1
    rw [Bool.eq_iff_iff, reached v inside, reached' v inside]
    constructor
    · exact fun way => (agree.reflTransGen spans honest way).2
    · exact fun way => (agree.symm.reflTransGen spans' honest way).2
  refine ⟨settlement, settlement', settled, settled', same, ?_⟩
  obtain ⟨report, verified⟩ := pure.exists_verify covers
  refine ⟨report, verified, ?_⟩
  rw [← Records.verify_congr pure pure' covers covers' same, verified]

/-- Overlays that differ in the links of the sybil node and in how they describe the others. -/
def quietOverlay : Overlay :=
  ((Overlay.blank 3).put 2 0 ⟨5, false⟩).put 2 1 ⟨1, false⟩

theorem spans_quietOverlay : quietOverlay.Spans trio.size :=
  ((Overlay.spans_blank 3).put (by decide) (by decide) _).put (by decide) (by decide) _

theorem run_ignores_sybils_trio : AgreeOnHonest trio trioOverlay quietOverlay ∧
    ∃ settlement settlement',
      ((standard trio trioOverlay).run (Records.initial 3)).outcome = .ok settlement ∧
      ((standard trio quietOverlay).run (Records.initial 3)).outcome = .ok settlement' ∧
      settlement.records.knows 0 2 = settlement'.records.knows 0 2 := by
  have agree : AgreeOnHonest trio trioOverlay quietOverlay := by
    unfold AgreeOnHonest
    decide +kernel
  obtain ⟨settlement, settlement', settled, settled', same, _⟩ :=
    run_ignores_sybils trio trioOverlay quietOverlay spans_trioOverlay spans_quietOverlay agree
  exact ⟨agree, settlement, settlement', settled, settled', same 0 (by decide) 2 (by decide)⟩

end Gossip

end SloppyGroup
