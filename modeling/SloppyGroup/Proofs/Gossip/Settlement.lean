import SloppyGroup.Proofs.Gossip.Flooding

/-!
How gossip ends: within its budget it settles one round after flooding does, and otherwise it leaves
the records that flooding has brought by then. A budget of as many rounds as there are nodes always
suffices.
-/

namespace SloppyGroup

namespace Gossip

variable {gossip : Gossip} {initial records : Records}

theorem afterRounds_round (k : Nat) :
    gossip.afterRounds k (gossip.round records).1 = gossip.afterRounds (k + 1) records :=
  (Function.iterate_succ_apply _ _ _).symm

theorem outcome_settle_zero (done : Nat) :
    (gossip.settle 0 done records).outcome = .error (.unsettled done records) :=
  rfl

theorem outcome_settle_succ (fuel done : Nat) :
    (gossip.settle (fuel + 1) done records).outcome =
      if (gossip.round records).2 = true then
        (gossip.settle fuel (done + 1) (gossip.round records).1).outcome
      else .ok ⟨(gossip.round records).1, done + 1⟩ := by
  rcases said : gossip.round records with ⟨next, _ | _⟩
  · simp only [settle, said]
    rfl
  · simp only [settle, said]
    rfl

theorem outcome_settle_of_news {fuel done : Nat}
    (news : ∀ k < fuel, (gossip.round (gossip.afterRounds k records)).2 = true) :
    (gossip.settle fuel done records).outcome =
      .error (.unsettled (done + fuel) (gossip.afterRounds fuel records)) := by
  induction fuel generalizing done records with
  | zero => exact outcome_settle_zero done
  | succ fuel ih =>
    have first : (gossip.round records).2 = true := news 0 (Nat.succ_pos fuel)
    rw [outcome_settle_succ, if_pos first, ih, afterRounds_round, Nat.add_right_comm, Nat.add_assoc]
    intro k hk
    rw [afterRounds_round]
    exact news (k + 1) (Nat.succ_lt_succ hk)

theorem outcome_settle_of_quiet {fuel done k : Nat} (hk : k < fuel)
    (quiet : (gossip.round (gossip.afterRounds k records)).2 = false)
    (news : ∀ j < k, (gossip.round (gossip.afterRounds j records)).2 = true) :
    (gossip.settle fuel done records).outcome =
      .ok ⟨gossip.afterRounds (k + 1) records, done + k + 1⟩ := by
  induction fuel generalizing done records k with
  | zero => omega
  | succ fuel ih =>
    rw [outcome_settle_succ]
    cases k with
    | zero =>
      have still : ¬(gossip.round records).2 = true := by
        change (gossip.round records).2 = false at quiet
        simp [quiet]
      rw [if_neg still]
      rfl
    | succ k =>
      have first : (gossip.round records).2 = true := news 0 (Nat.succ_pos k)
      rw [if_pos first, ih (k := k) (Nat.lt_of_succ_lt_succ hk)]
      · rw [afterRounds_round, Nat.add_right_comm done 1 k, Nat.add_assoc done k 1]
      · rw [afterRounds_round]
        exact quiet
      · intro j hj
        rw [afterRounds_round]
        exact news (j + 1) (Nat.succ_lt_succ hj)

/-- Gossip ends after some number of rounds, settled or with its fuel used up. -/
theorem settle_endings (fuel done : Nat) (records : Records) :
    (∃ k, (gossip.settle fuel done records).outcome =
      .ok ⟨gossip.afterRounds k records, done + k⟩) ∨
    (gossip.settle fuel done records).outcome =
      .error (.unsettled (done + fuel) (gossip.afterRounds fuel records)) := by
  induction fuel generalizing done records with
  | zero => exact .inr (outcome_settle_zero done)
  | succ fuel ih =>
    rw [outcome_settle_succ]
    split
    · rcases ih (done + 1) (gossip.round records).1 with ⟨k, settled⟩ | unsettled
      · refine .inl ⟨k + 1, ?_⟩
        rw [settled, afterRounds_round, Nat.add_right_comm, Nat.add_assoc]
      · right
        rw [unsettled, afterRounds_round, Nat.add_right_comm, Nat.add_assoc]
    · exact .inl ⟨1, rfl⟩

theorem run_endings (gossip : Gossip) (initial : Records) :
    (∃ cause, (gossip.run initial).outcome = .error (.misconfigured cause)) ∨
    initial.size = gossip.graph.size ∧
      ((∃ k, (gossip.run initial).outcome = .ok ⟨gossip.afterRounds k initial, k⟩) ∨
      (gossip.run initial).outcome =
        .error (.unsettled gossip.budget (gossip.afterRounds gossip.budget initial))) := by
  rw [run]
  split
  · exact .inl ⟨_, rfl⟩
  · rename_i covered
    rw [not_or, ne_eq, not_not] at covered
    have ends := gossip.settle_endings gossip.budget 0 initial
    simp only [Nat.zero_add] at ends
    exact .inr ⟨covered.1, ends⟩

/-- The outcome of gossip in terms of the step `d` with which flooding settles. -/
theorem outcome_run (spans : gossip.overlay.Spans gossip.graph.size)
    (covers : initial.size = gossip.graph.size) {d : Nat}
    (hd : IsLeast {k | gossip.Settled initial k} d) :
    (gossip.run initial).outcome =
      if d < gossip.budget then .ok ⟨gossip.afterRounds d initial, d + 1⟩
      else .error (.unsettled gossip.budget (gossip.afterRounds gossip.budget initial)) := by
  rw [← covers] at spans
  have covered : ¬(initial.size ≠ gossip.graph.size ∨
      gossip.overlay.size ≠ gossip.graph.size) := by
    rw [spans.size, covers]
    simp
  have news (k : Nat) (hk : k < d) : (gossip.round (gossip.afterRounds k initial)).2 = true := by
    by_contra quiet
    have settled := (settled_iff_quiet spans).2 (Bool.eq_false_of_not_eq_true quiet)
    exact absurd (hd.2 settled) (Nat.not_le.2 hk)
  rw [run]
  simp only [if_neg covered]
  split
  · rename_i inTime
    have quiet := (settled_iff_quiet spans).1 hd.1
    have same : gossip.afterRounds (d + 1) initial = gossip.afterRounds d initial := by
      rw [afterRounds_succ]
      exact (round_quiet_iff (spans_afterRounds spans d)).1 quiet
    rw [outcome_settle_of_quiet inTime quiet news, same, Nat.zero_add]
  · rename_i tooLate
    rw [outcome_settle_of_news, Nat.zero_add]
    intro k hk
    exact news k (Nat.lt_of_lt_of_le hk (Nat.le_of_not_lt tooLate))

theorem outcome_run_withBudget {g : TrustGraph} {o : Overlay} (spans : o.Spans g.size)
    (covers : initial.size = g.size) {d b : Nat}
    (hd : IsLeast {k | (standard g o).Settled initial k} d) (hb : 1 ≤ b) :
    (((standard g o).withBudget b).run initial).outcome =
      if d < b then .ok ⟨(standard g o).afterRounds d initial, d + 1⟩
      else .error (.unsettled b ((standard g o).afterRounds b initial)) := by
  have budget : ((standard g o).withBudget b).budget = b := Nat.max_eq_left hb
  have outcome : (((standard g o).withBudget b).run initial).outcome = _ :=
    outcome_run spans covers hd
  rw [budget] at outcome
  exact outcome

theorem spans_initial {g : TrustGraph} {o : Overlay} (spans : o.Spans g.size) :
    (standard g o).overlay.Spans (Records.initial g.size).size := by
  rw [Records.size_initial]
  exact spans

/-- The records are those that flooding brings within `k` steps. -/
def IsFlooded (gossip : Gossip) (initial : Records) (k : Nat) (records : Records) : Prop :=
  records.size = initial.size ∧ ∀ v r, records.knows v r = true ↔ gossip.Hears initial k v r

theorem isFlooded_afterRounds (spans : gossip.overlay.Spans initial.size) (k : Nat) :
    gossip.IsFlooded initial k (gossip.afterRounds k initial) :=
  ⟨size_afterRounds k, fun _ _ => knows_afterRounds spans⟩

theorem Settled.isFlooded {d k : Nat} (h : gossip.Settled initial d) (hk : d ≤ k)
    (flooded : gossip.IsFlooded initial d records) : gossip.IsFlooded initial k records :=
  ⟨flooded.1, fun v r => (flooded.2 v r).trans (h.hears_iff hk).symm⟩

theorem hears_initial_iff {count k v u : Nat} (hv : v < count)
    (spans : gossip.overlay.Spans count) :
    gossip.Hears (Records.initial count) k v u ↔ ∃ m ≤ k, Route gossip.Passes m u v := by
  constructor
  · rintro ⟨w, known, way⟩
    rw [(Records.knows_initial.1 known).2]
    exact way
  · rintro ⟨m, hm, way⟩
    refine ⟨u, Records.knows_initial.2 ⟨?_, rfl⟩, m, hm, way⟩
    have route := route_iff_reflTransGen.1 ⟨m, way⟩
    rcases Relation.ReflTransGen.cases_head route with same | ⟨w, passes, _⟩
    · rw [same]
      exact hv
    · exact (passes.lt spans).1

/-- Once flooding from their own records has settled, nodes have heard of everyone from whom
records pass to them on any way at all. -/
theorem Settled.hears_initial_iff {count d v u : Nat} (hv : v < count)
    (spans : gossip.overlay.Spans count) (settled : gossip.Settled (Records.initial count) d) :
    gossip.Hears (Records.initial count) d v u ↔ Relation.ReflTransGen gossip.Passes u v := by
  rw [← route_iff_reflTransGen]
  constructor
  · intro heard
    obtain ⟨m, _, way⟩ := (Gossip.hears_initial_iff hv spans).1 heard
    exact ⟨m, way⟩
  · rintro ⟨m, way⟩
    rw [← settled.hears_iff (Nat.le_add_right d m)]
    exact (Gossip.hears_initial_iff hv spans).2 ⟨m, Nat.le_add_left m d, way⟩

/-- Gossip settles one round after flooding does if the budget allows for it, with the records that
flooding brings, and otherwise leaves those that flooding has brought by then. From their own
records on, nodes end up with those of everyone from whom records pass to them. -/
theorem run_floods (g : TrustGraph) (o : Overlay) (spans : o.Spans g.size) :
    (∀ initial : Records, initial.size = g.size →
      ∃ d, IsLeast {k | (standard g o).Settled initial k} d ∧
        ∀ b, 1 ≤ b →
          (d + 1 ≤ b → ∃ records,
            (((standard g o).withBudget b).run initial).outcome = .ok ⟨records, d + 1⟩ ∧
              ∀ k, d ≤ k → (standard g o).IsFlooded initial k records) ∧
          (b < d + 1 → ∃ snapshot,
            (((standard g o).withBudget b).run initial).outcome = .error (.unsettled b snapshot) ∧
              (standard g o).IsFlooded initial b snapshot)) ∧
    ∀ b, 1 ≤ b →
      (∀ rounds snapshot,
        (((standard g o).withBudget b).run (Records.initial g.size)).outcome =
            .error (.unsettled rounds snapshot) →
          ∀ v < g.size, snapshot.knows v v = true) ∧
      ∀ settlement,
        (((standard g o).withBudget b).run (Records.initial g.size)).outcome = .ok settlement →
          ∀ v < g.size, settlement.records.knows v v = true ∧
            ∀ u, settlement.records.knows v u = true ↔
              Relation.ReflTransGen (standard g o).Passes u v := by
  have covers : (Records.initial g.size).size = g.size := Records.size_initial g.size
  constructor
  · intro initial covers
    have spans' : (standard g o).overlay.Spans initial.size := covers.symm ▸ spans
    obtain ⟨d, least, _⟩ := exists_isLeast_settled spans'
    refine ⟨d, least, fun b hb => ⟨fun inTime => ?_, fun tooLate => ?_⟩⟩
    · refine ⟨_, (outcome_run_withBudget spans covers least hb).trans (if_pos inTime), ?_⟩
      intro k hk
      exact least.1.isFlooded hk (isFlooded_afterRounds spans' d)
    · refine ⟨_, (outcome_run_withBudget spans covers least hb).trans (if_neg (by omega)), ?_⟩
      exact isFlooded_afterRounds spans' b
  · intro b hb
    have spans' : (standard g o).overlay.Spans (Records.initial g.size).size :=
      covers.symm ▸ spans
    obtain ⟨d, least, _⟩ := exists_isLeast_settled spans'
    have outcome := outcome_run_withBudget spans covers least hb
    constructor
    · intro rounds snapshot unsettled v hv
      rw [unsettled] at outcome
      split at outcome
      · cases outcome
      · cases outcome
        rw [knows_afterRounds spans', hears_initial_iff hv spans]
        exact ⟨0, Nat.zero_le b, .here v⟩
    · intro settlement settled v hv
      rw [settled] at outcome
      split at outcome
      · cases outcome
        have reached (u : Nat) := (knows_afterRounds spans' (k := d) (v := v) (r := u)).trans
          (least.1.hears_initial_iff hv spans)
        exact ⟨(reached v).2 .refl, reached⟩
      · cases outcome

def trio : TrustGraph where
  nodes := #[⟨"a", ⟨[false], by decide⟩, ⟨[]⟩, false, false, 1, 1, 1, none⟩,
    ⟨"b", ⟨[true], by decide⟩, ⟨[]⟩, true, false, 1, 1, 1, none⟩,
    ⟨"c", ⟨[false], by decide⟩, ⟨[]⟩, false, false, 1, 1, 1, none⟩]
  newest := [(1, 2), (0, 1)]
  neighborTable := Undirected.neighborTable 3 [(1, 2), (0, 1)]
  labels_distinct := by decide
  simple := ⟨by decide, by decide, by decide⟩
  neighborTable_eq := rfl

/-- Links around the row; honest nodes keep their records from the sybil one. -/
def trioOverlay : Overlay :=
  (((Overlay.blank 3).put 0 1 ⟨1, false⟩).put 1 2 ⟨1, false⟩).put 2 0 ⟨2, true⟩

theorem spans_trioOverlay : trioOverlay.Spans trio.size :=
  (((Overlay.spans_blank 3).put (by decide) (by decide) _).put (by decide) (by decide) _).put
    (by decide) (by decide) _

theorem passes_trio :
    (standard trio trioOverlay).Passes 1 2 ∧ (standard trio trioOverlay).Passes 2 0 := by
  constructor
  · exact ⟨by simp [standard, trioOverlay, Overlay.link?_put], rfl⟩
  · exact ⟨by simp [standard, trioOverlay, Overlay.link?_put], rfl⟩

theorem run_floods_trio :
    trioOverlay.Spans trio.size ∧ ∃ d records,
      (((standard trio trioOverlay).withBudget (d + 1)).run (Records.initial 3)).outcome =
        .ok ⟨records, d + 1⟩ ∧ records.knows 0 1 = true := by
  refine ⟨spans_trioOverlay, ?_⟩
  obtain ⟨all, own⟩ := run_floods trio trioOverlay spans_trioOverlay
  obtain ⟨d, _, within⟩ := all (Records.initial 3) rfl
  obtain ⟨records, settled, _⟩ := (within (d + 1) (by omega)).1 (Nat.le_refl _)
  refine ⟨d, records, settled, ?_⟩
  have known := ((own (d + 1) (by omega)).2 _ settled 0 (by decide)).2 1
  exact known.2 ((Relation.ReflTransGen.single passes_trio.1).tail passes_trio.2)

/-- As many rounds as there are nodes suffice, whatever is known at first. -/
theorem run_settles_within_size (g : TrustGraph) (o : Overlay) (initial : Records)
    (spans : o.Spans g.size) (covers : initial.size = g.size) :
    (∀ b, max g.size 1 ≤ b → ∃ settlement,
      (((standard g o).withBudget b).run initial).outcome = .ok settlement ∧
        settlement.rounds ≤ max g.size 1) ∧
    ∃ settlement, ((standard g o).run initial).outcome = .ok settlement ∧
      settlement.rounds ≤ max g.size 1 := by
  have spans' : (standard g o).overlay.Spans initial.size := covers.symm ▸ spans
  obtain ⟨d, least, early⟩ := exists_isLeast_settled spans'
  rw [covers] at early
  constructor
  · intro b hb
    have outcome := outcome_run_withBudget spans covers least (by omega : 1 ≤ b)
    exact ⟨_, outcome.trans (if_pos (by omega)), early⟩
  · have inTime : d < (standard g o).budget := by
      change d < g.size + 1
      omega
    have outcome : ((standard g o).run initial).outcome = _ := outcome_run spans covers least
    exact ⟨_, outcome.trans (if_pos inTime), early⟩

theorem run_settles_trio :
    trioOverlay.Spans trio.size ∧ (Records.initial 3).size = trio.size ∧ ∃ settlement,
      (((standard trio trioOverlay).withBudget 3).run (Records.initial 3)).outcome =
        .ok settlement ∧ settlement.rounds ≤ 3 :=
  ⟨spans_trioOverlay, rfl,
    (run_settles_within_size trio trioOverlay _ spans_trioOverlay rfl).1 3 (by decide)⟩

end Gossip

end SloppyGroup
