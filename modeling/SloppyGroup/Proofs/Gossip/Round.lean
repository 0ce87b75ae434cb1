import SloppyGroup.Gossip.Dissemination
import SloppyGroup.Proofs.Overlay.Nodes

/-!
One round of gossip: a node knows afterwards what it knew before and what was known where records
pass on to it, and a round is news exactly if it changes the records.
-/

namespace SloppyGroup

namespace Records

theorem lt_size_of_knows {records : Records} {v r : Nat} (h : records.knows v r = true) :
    v < records.size := by
  by_contra out
  have absent : ¬v < records.sets.size := out
  simp [knows, of, Array.getD, absent] at h

theorem knows_learn {records : Records} {v r w s : Nat} (hw : w < records.size) :
    (records.learn w s).1.knows v r = true ↔ (v = w ∧ r = s) ∨ records.knows v r = true := by
  rw [knows, of_learn hw]
  split
  · rename_i he
    rw [knows, he, Std.ExtTreeSet.contains_insert, Bool.or_eq_true, beq_iff_eq,
      Std.LawfulEqCmp.compare_eq_iff_eq]
    grind
  · rename_i he
    simp [knows, he]

theorem knows_initial {count v r : Nat} :
    (initial count).knows v r = true ↔ v < count ∧ r = v := by
  constructor
  · intro h
    have hv := lt_size_of_knows h
    rw [size_initial] at hv
    refine ⟨hv, ?_⟩
    rw [knows, of_initial hv, Std.ExtTreeSet.contains_insert, Bool.or_eq_true, beq_iff_eq,
      Std.LawfulEqCmp.compare_eq_iff_eq] at h
    rcases h with h | h
    · exact h.symm
    · simp at h
  · rintro ⟨hv, rfl⟩
    rw [knows, of_initial hv]
    simp

theorem eq_of_knows {first second : Records} (size : first.size = second.size)
    (same : ∀ v r, first.knows v r = true ↔ second.knows v r = true) : first = second := by
  cases first with
  | mk sets =>
    cases second with
    | mk others =>
      congr 1
      apply Array.ext size
      intro v hv hv'
      apply Std.ExtTreeSet.ext_mem
      intro r
      have := same v r
      simpa [knows, of, Array.getD, hv, hv'] using this

end Records

namespace Gossip

variable {gossip : Gossip} {current : Records}

/-- Records pass from a node to another if it links to it and tells it what it knows. -/
def Passes (gossip : Gossip) (v w : Nat) : Prop :=
  (gossip.overlay.link? v w).isSome = true ∧
    (gossip.graph.node v).tells (gossip.graph.node w) = true

theorem mem_audience {v w : Nat} : w ∈ gossip.audience v ↔ gossip.Passes v w := by
  rw [audience, List.mem_filter, Passes, Overlay.successors, Std.ExtTreeMap.mem_keys,
    Std.ExtTreeMap.mem_iff_isSome_getElem?, Overlay.link?]

theorem mem_messages {w r : Nat} :
    (w, r) ∈ gossip.messages current ↔ ∃ v, gossip.Passes v w ∧ current.knows v r = true := by
  simp only [messages, List.mem_flatMap, List.mem_map, List.mem_range, mem_audience,
    Std.ExtTreeSet.mem_toList, Prod.mk.injEq]
  constructor
  · rintro ⟨v, _, w', hw', r', hr', rfl, rfl⟩
    exact ⟨v, hw', hr'⟩
  · rintro ⟨v, hp, hr⟩
    exact ⟨v, Records.lt_size_of_knows hr, w, hp, r, hr, rfl, rfl⟩

theorem Passes.lt {v w : Nat} (h : gossip.Passes v w) {count : Nat}
    (spans : gossip.overlay.Spans count) : v < count ∧ w < count := by
  obtain ⟨link, hl⟩ := Option.isSome_iff_exists.1 h.1
  exact ⟨spans.source_lt hl, spans.target_lt hl⟩

theorem size_hear (state : Records × Bool) (message : Nat × Nat) :
    (hear state message).1.size = state.1.size := by
  rw [hear]
  exact Records.size_learn _ _ _

theorem size_foldl_hear (messages : List (Nat × Nat)) (state : Records × Bool) :
    (messages.foldl hear state).1.size = state.1.size := by
  induction messages generalizing state with
  | nil => rfl
  | cons message messages ih =>
    rw [List.foldl_cons, ih, size_hear]

theorem knows_foldl_hear {messages : List (Nat × Nat)} {state : Records × Bool}
    (inside : ∀ m ∈ messages, m.1 < state.1.size) {v r : Nat} :
    (messages.foldl hear state).1.knows v r = true ↔
      (v, r) ∈ messages ∨ state.1.knows v r = true := by
  induction messages generalizing state with
  | nil => simp
  | cons message messages ih =>
    have hm := inside message List.mem_cons_self
    rw [List.foldl_cons, ih]
    · rw [hear, Records.knows_learn hm, List.mem_cons]
      grind
    · intro m h
      rw [size_hear]
      exact inside m (List.mem_cons_of_mem _ h)

/-- Whether anything is news depends on what was known before the first message only: a message
that repeats an earlier one is no news, but then the earlier one was. -/
theorem news_foldl_hear {messages : List (Nat × Nat)} {state : Records × Bool}
    (inside : ∀ m ∈ messages, m.1 < state.1.size) :
    (messages.foldl hear state).2 = true ↔
      state.2 = true ∨ ∃ m ∈ messages, state.1.knows m.1 m.2 = false := by
  induction messages generalizing state with
  | nil => simp
  | cons message messages ih =>
    have hm := inside message List.mem_cons_self
    have later : ∀ m ∈ messages, m.1 < (hear state message).1.size := by
      intro m h
      rw [size_hear]
      exact inside m (List.mem_cons_of_mem _ h)
    have heard (v r : Nat) : (hear state message).1.knows v r = false ↔
        ¬(v = message.1 ∧ r = message.2) ∧ state.1.knows v r = false := by
      rw [← Bool.not_eq_true, ← Bool.not_eq_true, hear, Records.knows_learn hm]
      grind
    rw [List.foldl_cons, ih later]
    simp only [heard, List.mem_cons, exists_eq_or_imp]
    rw [hear, Bool.or_eq_true, Records.learn_snd, Bool.not_eq_true']
    by_cases known : state.1.knows message.1 message.2 = true
    · grind
    · grind

theorem mem_messages_lt (spans : gossip.overlay.Spans current.size) :
    ∀ m ∈ gossip.messages current, m.1 < current.size := by
  rintro ⟨w, r⟩ hm
  obtain ⟨v, passes, _⟩ := mem_messages.1 hm
  exact (passes.lt spans).2

@[simp] theorem size_round : (gossip.round current).1.size = current.size :=
  size_foldl_hear _ _

theorem knows_round (spans : gossip.overlay.Spans current.size) {w r : Nat} :
    (gossip.round current).1.knows w r = true ↔
      current.knows w r = true ∨ ∃ v, gossip.Passes v w ∧ current.knows v r = true := by
  rw [round, knows_foldl_hear (mem_messages_lt spans), mem_messages, or_comm]

/-- A round that is news to nobody leaves the records as they are, and no other round does. -/
theorem round_quiet_iff (spans : gossip.overlay.Spans current.size) :
    (gossip.round current).2 = false ↔ (gossip.round current).1 = current := by
  rw [← Bool.not_eq_true, round, news_foldl_hear (mem_messages_lt spans)]
  constructor
  · intro quiet
    apply Records.eq_of_knows (size_foldl_hear _ _)
    intro v r
    rw [knows_foldl_hear (mem_messages_lt spans)]
    constructor
    · rintro (hm | known)
      · by_contra unknown
        exact quiet (.inr ⟨(v, r), hm, Bool.eq_false_of_not_eq_true unknown⟩)
      · exact known
    · exact .inr
  · rintro same (h | ⟨⟨v, r⟩, hm, unknown⟩)
    · cases h
    · have known : (gossip.round current).1.knows v r = true :=
        (knows_foldl_hear (mem_messages_lt spans)).2 (.inl hm)
      rw [round, same] at known
      rw [known] at unknown
      cases unknown

end Gossip

end SloppyGroup
