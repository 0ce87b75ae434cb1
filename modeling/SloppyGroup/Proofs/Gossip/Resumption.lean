import SloppyGroup.Proofs.Gossip.Settlement

/-!
Gossip that is cut short and taken up again: running on from the records that a spent budget leaves
ends as one run with both budgets does, but for the rounds that are counted anew. Settled gossip
stays settled.
-/

namespace SloppyGroup

namespace Gossip

variable {gossip : Gossip} {initial records snapshot : Records} {rounds : Nat}

/-- An ending that is preceded by `k` more rounds. -/
def delayed (k : Nat) : Except SimulationError Settlement → Except SimulationError Settlement
  | .ok settlement => .ok ⟨settlement.records, k + settlement.rounds⟩
  | .error (.unsettled rounds snapshot) => .error (.unsettled (k + rounds) snapshot)
  | .error e => .error e

theorem delayed_injective (k : Nat) : Function.Injective (delayed k) := by
  rintro ((cause | violation | ⟨rounds, snapshot⟩) | ⟨records, rounds⟩)
    ((cause' | violation' | ⟨rounds', snapshot'⟩) | ⟨records', rounds'⟩) same
  all_goals grind [delayed]

theorem outcome_settle_delayed (k fuel done : Nat) (records : Records) :
    (gossip.settle fuel (k + done) records).outcome =
      delayed k (gossip.settle fuel done records).outcome := by
  induction fuel generalizing done records with
  | zero => rfl
  | succ fuel ih =>
    rw [outcome_settle_succ, outcome_settle_succ, Nat.add_assoc, ih]
    split
    · rfl
    · rfl

theorem run_unsettled (cut : (gossip.run initial).outcome = .error (.unsettled rounds snapshot)) :
    rounds = gossip.budget ∧ snapshot = gossip.afterRounds gossip.budget initial := by
  rcases gossip.run_endings initial with ⟨cause, refused⟩ | ⟨_, ⟨k, settled⟩ | unsettled⟩
  · rw [refused] at cut
    cases cut
  · rw [settled] at cut
    cases cut
  · rw [unsettled] at cut
    cases cut
    exact ⟨rfl, rfl⟩

/-- After its fuel is used up, gossip goes on with more fuel from where it was left. -/
theorem outcome_settle_add {a b done : Nat}
    (cut : (gossip.settle a done records).outcome = .error (.unsettled rounds snapshot)) :
    (gossip.settle (a + b) done records).outcome =
      (gossip.settle b (done + a) snapshot).outcome := by
  induction a generalizing done records with
  | zero =>
    rw [outcome_settle_zero] at cut
    cases cut
    rw [Nat.zero_add]
    rfl
  | succ a ih =>
    rw [outcome_settle_succ] at cut
    rw [Nat.add_right_comm, outcome_settle_succ]
    split at cut
    · rename_i news
      rw [if_pos news, ih cut, Nat.add_assoc, Nat.add_comm 1 a]
    · cases cut

theorem settle_withBudget (b fuel done : Nat) (records : Records) :
    (gossip.withBudget b).settle fuel done records = gossip.settle fuel done records := by
  induction fuel generalizing done records with
  | zero => rfl
  | succ fuel ih =>
    rw [settle, settle]
    simp only [ih]
    rfl

theorem run_withBudget (spans : gossip.overlay.size = gossip.graph.size)
    (covers : initial.size = gossip.graph.size) {b : Nat} (hb : 1 ≤ b) :
    (gossip.withBudget b).run initial = gossip.settle b 0 initial := by
  have covered : ¬(initial.size ≠ (gossip.withBudget b).graph.size ∨
      (gossip.withBudget b).overlay.size ≠ (gossip.withBudget b).graph.size) := by
    rintro (short | short)
    · exact short covers
    · exact short spans
  have budget : (gossip.withBudget b).budget = b := Nat.max_eq_left hb
  rw [run]
  simp only [if_neg covered]
  rw [settle_withBudget, budget]

/-- Running on from the records that a spent budget left is as good as a larger budget, but for the
rounds. -/
theorem outcome_run_resumed (gossip : Gossip)
    (spans : gossip.overlay.size = gossip.graph.size) (covers : initial.size = gossip.graph.size)
    {a b : Nat} (ha : 1 ≤ a) (hb : 1 ≤ b)
    (cut : ((gossip.withBudget a).run initial).outcome = .error (.unsettled rounds snapshot)) :
    ((gossip.withBudget (a + b)).run initial).outcome =
      delayed a ((gossip.withBudget b).run snapshot).outcome := by
  have left : snapshot.size = gossip.graph.size := by
    rw [(run_unsettled cut).2, size_afterRounds, covers]
  rw [run_withBudget spans covers ha] at cut
  calc ((gossip.withBudget (a + b)).run initial).outcome
    _ = (gossip.settle (a + b) 0 initial).outcome := by
      rw [run_withBudget spans covers (Nat.le_add_right_of_le ha)]
    _ = (gossip.settle b (a + 0) snapshot).outcome := by
      rw [outcome_settle_add cut, Nat.add_comm]
    _ = delayed a ((gossip.withBudget b).run snapshot).outcome := by
      rw [outcome_settle_delayed, run_withBudget spans left hb]

/-- Settled records stay as they are, and it takes one round to see that. -/
theorem outcome_run_of_quiet (spans : gossip.overlay.Spans gossip.graph.size)
    (covers : records.size = gossip.graph.size) (quiet : (gossip.round records).2 = false)
    (b : Nat) :
    ((gossip.withBudget b).run records).outcome = .ok ⟨records, 1⟩ := by
  have same : gossip.afterRounds 1 records = records :=
    (round_quiet_iff (covers ▸ spans)).1 quiet
  have clamped : gossip.withBudget b = gossip.withBudget (max b 1) := by
    simp only [withBudget, max_assoc, max_self]
  have hb : 0 < max b 1 := Nat.le_max_right b 1
  rw [clamped, run_withBudget spans.size covers hb,
    outcome_settle_of_quiet hb quiet (fun j hj => absurd hj (Nat.not_lt_zero j)), same]

/-- Gossip can be cut short and taken up again: where the budget `a` is spent, a further budget `b`
takes the records that were left to the same end as both budgets do at once. Once gossip has settled,
there is nothing left to say, whatever the budget. -/
theorem run_resumes (g : TrustGraph) (o : Overlay) (initial : Records) (spans : o.Spans g.size)
    (covers : initial.size = g.size) (a b : Nat) (ha : 1 ≤ a) (hb : 1 ≤ b) :
    (∀ rounds snapshot,
      (((standard g o).withBudget a).run initial).outcome = .error (.unsettled rounds snapshot) →
        (∀ records r,
          (((standard g o).withBudget (a + b)).run initial).outcome = .ok ⟨records, a + r⟩ ↔
            (((standard g o).withBudget b).run snapshot).outcome = .ok ⟨records, r⟩) ∧
        ∀ last,
          (((standard g o).withBudget (a + b)).run initial).outcome =
              .error (.unsettled (a + b) last) ↔
            ∃ more, (((standard g o).withBudget b).run snapshot).outcome =
              .error (.unsettled more last)) ∧
    ∀ settlement, (((standard g o).withBudget a).run initial).outcome = .ok settlement →
      ∀ c, (((standard g o).withBudget c).run settlement.records).outcome =
        .ok ⟨settlement.records, 1⟩ := by
  constructor
  · intro rounds snapshot cut
    have resumed := outcome_run_resumed (standard g o) spans.size covers ha hb cut
    refine ⟨fun records r => ?_, fun last => ⟨fun unsettled => ⟨b, ?_⟩, ?_⟩⟩
    · rw [resumed]
      exact (delayed_injective a).eq_iff (b := .ok ⟨records, r⟩)
    · rw [resumed] at unsettled
      exact delayed_injective a unsettled
    · rintro ⟨more, unsettled⟩
      have spent : more = b := (run_unsettled unsettled).1.trans (Nat.max_eq_left hb)
      rw [resumed, unsettled, spent]
      rfl
  · intro settlement settled c
    have spans' : (standard g o).overlay.Spans initial.size := covers.symm ▸ spans
    obtain ⟨d, least, _⟩ := exists_isLeast_settled spans'
    have outcome := outcome_run_withBudget spans covers least ha
    rw [settled] at outcome
    split at outcome
    · cases outcome
      apply outcome_run_of_quiet spans ((size_afterRounds d).trans covers)
      exact (settled_iff_quiet spans').1 least.1
    · cases outcome

theorem run_resumes_trio :
    trioOverlay.Spans trio.size ∧ (Records.initial 3).size = trio.size ∧
    ∃ snapshot records r,
      (((standard trio trioOverlay).withBudget 1).run (Records.initial 3)).outcome =
        .error (.unsettled 1 snapshot) ∧
      (((standard trio trioOverlay).withBudget 2).run snapshot).outcome = .ok ⟨records, r⟩ ∧
      (((standard trio trioOverlay).withBudget (1 + 2)).run (Records.initial 3)).outcome =
        .ok ⟨records, 1 + r⟩ ∧
      (((standard trio trioOverlay).withBudget 0).run records).outcome = .ok ⟨records, 1⟩ := by
  have spans := spans_trioOverlay
  have covers : (Records.initial 3).size = trio.size := rfl
  obtain ⟨d, least, early⟩ := exists_isLeast_settled (spans_initial spans)
  have news : ((standard trio trioOverlay).round (Records.initial 3)).2 = true := by
    decide +kernel
  have late : 1 ≤ d := by
    rw [Nat.one_le_iff_ne_zero]
    rintro rfl
    have quiet := (settled_iff_quiet (spans_initial spans)).1 least.1
    exact Bool.false_ne_true (quiet.symm.trans news)
  have cut := (outcome_run_withBudget spans covers least (Nat.le_refl 1)).trans
    (if_neg (Nat.not_lt.2 late))
  have settled := (outcome_run_withBudget spans covers least (by decide : 1 ≤ 1 + 2)).trans
    (if_pos (early : d + 1 ≤ 3))
  obtain ⟨resumes, _⟩ := run_resumes trio trioOverlay _ spans covers 1 2 (by decide) (by decide)
  obtain ⟨_, again⟩ := run_resumes trio trioOverlay _ spans covers (1 + 2) 1 (by decide) (by decide)
  rw [Nat.add_comm d 1] at settled
  have rest := ((resumes _ _ cut).1 _ _).1 settled
  exact ⟨spans, covers, _, _, d, cut, rest, settled, again _ settled 0⟩

end Gossip

end SloppyGroup
