import SloppyGroup.Gossip.Verification
import SloppyGroup.Proofs.Gossip.Settlement

/-!
Sybil nodes learn nothing of honest ones: what they know at first is all about sybil nodes, and
gossip brings them nothing else.
-/

namespace SloppyGroup

/-- Beyond the last position there are no sybil nodes. -/
theorem TrustGraph.lt_size_of_isSybil {g : TrustGraph} {v : Nat}
    (sybil : (g.node v).isSybil = true) : v < g.size := by
  by_contra beyond
  have out : ¬v < g.nodes.size := beyond
  have absent : g.node v = default := by simp [node, Array.getD, out]
  rw [absent] at sybil
  cases sybil

namespace Records

variable {g : TrustGraph} {records : Records}

/-- Sybil nodes know sybil nodes only. -/
def Pure (g : TrustGraph) (records : Records) : Prop :=
  ∀ v r, (g.node v).isSybil = true → records.knows v r = true → (g.node r).isSybil = true

theorem pure_initial (g : TrustGraph) (count : Nat) : Pure g (initial count) := by
  intro v r sybil known
  rw [(knows_initial.1 known).2]
  exact sybil

theorem arePure_iff : records.arePure g = true ↔ Pure g records := by
  rw [arePure, List.all_eq_true]
  simp only [TrustGraph.sybils, List.mem_filter, List.mem_range, List.all_eq_true,
    Std.ExtTreeSet.mem_toList]
  constructor
  · intro checked v r sybil known
    exact checked v ⟨TrustGraph.lt_size_of_isSybil sybil, sybil⟩ r known
  · rintro h v ⟨_, sybil⟩ r known
    exact h v r sybil known

theorem learn_of_size_le {v r : Nat} (out : records.size ≤ v) :
    (records.learn v r).1 = records := by
  rw [learn]
  simp only
  rw [Array.setIfInBounds_eq_of_size_le out]

theorem Pure.learn (h : Pure g records) {w s : Nat}
    (harmless : (g.node w).isSybil = true → (g.node s).isSybil = true) :
    Pure g (records.learn w s).1 := by
  by_cases hw : w < records.size
  · intro v r sybil known
    rcases (knows_learn hw).1 known with ⟨rfl, rfl⟩ | known
    · exact harmless sybil
    · exact h v r sybil known
  · rw [learn_of_size_le (Nat.le_of_not_lt hw)]
    exact h

theorem honestRecord?_eq_some {v r : Nat} (h : records.honestRecord? g v = some r) :
    records.knows v r = true ∧ (g.node r).isSybil = false := by
  have known := List.mem_of_find?_eq_some h
  have honest := List.find?_some h
  rw [Std.ExtTreeSet.mem_toList] at known
  exact ⟨known, by simpa using honest⟩

theorem Pure.leak?_eq_none (h : Pure g records) : records.leak? g = none := by
  rw [leak?, List.findSome?_eq_none_iff]
  intro v hv
  have sybil : (g.node v).isSybil = true := (List.mem_filter.1 hv).2
  cases found : records.honestRecord? g v with
  | none => rfl
  | some r =>
    obtain ⟨known, honest⟩ := honestRecord?_eq_some found
    rw [h v r sybil known] at honest
    cases honest

/-- The verdict on pure records says where honest nodes miss members of their group. -/
theorem Pure.verify_eq (h : Pure g records) (covers : records.size = g.size) :
    records.verify g =
      .ok ⟨g.honest.filterMap (records.mismatch? g), g.honest.length, g.sybils.length⟩ := by
  rw [verify, if_neg (not_not_intro covers), h.leak?_eq_none]

theorem mismatch?_eq_none_iff {v : Nat} :
    records.mismatch? g v = none ↔ ∀ u ∈ g.honestGroup v, records.knows v u = true := by
  rw [mismatch?]
  simp only [ite_eq_left_iff, reduceCtorEq, imp_false, not_not]
  exact List.countP_eq_length

theorem Pure.exists_verify (h : Pure g records) (covers : records.size = g.size) :
    ∃ report, records.verify g = .ok report :=
  ⟨_, h.verify_eq covers⟩

end Records

namespace Gossip

variable {gossip : Gossip} {current : Records}

theorem Passes.isSybil {v w : Nat} (h : gossip.Passes v w)
    (sybil : (gossip.graph.node w).isSybil = true) : (gossip.graph.node v).isSybil = true := by
  have told := h.2
  rw [Node.tells, sybil] at told
  simpa using told

theorem pure_foldl_hear {g : TrustGraph} {messages : List (Nat × Nat)} {state : Records × Bool}
    (harmless : ∀ m ∈ messages, (g.node m.1).isSybil = true → (g.node m.2).isSybil = true)
    (h : state.1.Pure g) : (messages.foldl hear state).1.Pure g := by
  induction messages generalizing state with
  | nil => exact h
  | cons message messages ih =>
    apply ih (fun m hm => harmless m (List.mem_cons_of_mem _ hm))
    exact h.learn (harmless message List.mem_cons_self)

/-- No message brings a record of an honest node to a sybil one. -/
theorem pure_round (h : current.Pure gossip.graph) :
    (gossip.round current).1.Pure gossip.graph := by
  apply pure_foldl_hear _ h
  rintro ⟨w, r⟩ hm sybil
  obtain ⟨v, passes, known⟩ := mem_messages.1 hm
  exact h v r (passes.isSybil sybil) known

theorem pure_afterRounds (h : current.Pure gossip.graph) (k : Nat) :
    (gossip.afterRounds k current).Pure gossip.graph := by
  induction k with
  | zero => exact h
  | succ k ih =>
    rw [afterRounds_succ]
    exact pure_round ih

theorem pure_afterRounds_initial (g : TrustGraph) (o : Overlay) (k : Nat) :
    ((standard g o).afterRounds k (Records.initial g.size)).Pure g :=
  pure_afterRounds (Records.pure_initial (standard g o).graph g.size) k

/-- Pure records stay pure round by round, so neither those with which gossip settles nor those
that it leaves unsettled fail verification. -/
theorem run_stays_pure (gossip : Gossip) (initial : Records) (h : initial.Pure gossip.graph) :
    (∀ k, (gossip.afterRounds k initial).Pure gossip.graph) ∧
    (∀ settlement, (gossip.run initial).outcome = .ok settlement →
      settlement.records.Pure gossip.graph ∧
        ∃ report, settlement.records.verify gossip.graph = .ok report) ∧
    ∀ rounds snapshot, (gossip.run initial).outcome = .error (.unsettled rounds snapshot) →
      snapshot.Pure gossip.graph ∧ ∃ report, snapshot.verify gossip.graph = .ok report := by
  have pure := fun k => pure_afterRounds h k
  have verified (k : Nat) (covers : initial.size = gossip.graph.size) :
      ∃ report, (gossip.afterRounds k initial).verify gossip.graph = .ok report := by
    apply (pure k).exists_verify
    rw [size_afterRounds]
    exact covers
  refine ⟨pure, ?_, ?_⟩
  · intro settlement settled
    rcases gossip.run_endings initial with ⟨cause, refused⟩ | ⟨covers, ⟨k, ended⟩ | ended⟩
    · rw [refused] at settled
      cases settled
    · rw [ended] at settled
      cases settled
      exact ⟨pure k, verified k covers⟩
    · rw [ended] at settled
      cases settled
  · intro rounds snapshot unsettled
    rcases gossip.run_endings initial with ⟨cause, refused⟩ | ⟨covers, ⟨k, ended⟩ | ended⟩
    · rw [refused] at unsettled
      cases unsettled
    · rw [ended] at unsettled
      cases unsettled
    · rw [ended] at unsettled
      cases unsettled
      exact ⟨pure _, verified _ covers⟩

/-- Records with which an honest node knows everyone and the sybil one itself. -/
def trioRecords : Records :=
  .ofSets [((∅ : NodeSet).insert 0).insert 1 |>.insert 2, (∅ : NodeSet).insert 1, ∅]

theorem run_stays_pure_trio : trioRecords.Pure trio ∧
    ∃ snapshot, (((standard trio trioOverlay).withBudget 1).run trioRecords).outcome =
      .error (.unsettled 1 snapshot) ∧ ∃ report, snapshot.verify trio = .ok report := by
  have pure : trioRecords.Pure trio := Records.arePure_iff.1 (by decide +kernel)
  obtain ⟨_, _, unsettled⟩ :=
    run_stays_pure ((standard trio trioOverlay).withBudget 1) trioRecords pure
  exact ⟨pure, _, rfl, (unsettled 1 _ rfl).2⟩

end Gossip

end SloppyGroup
