import SloppyGroup.Proofs.Gossip.Settlement

/-!
Rounds are synchronous: in whatever order nodes speak, a node knows after a round what it knew and
what those who tell it knew, all before the round, and a round is news exactly if it changes the
records.
-/

namespace SloppyGroup

theorem Records.knows_iff_mem {records : Records} {v r : Nat} :
    records.knows v r = true ↔ r ∈ records.of v := by
  rw [knows, Std.ExtTreeSet.mem_iff_contains]

namespace Gossip

variable {gossip : Gossip} {current : Records} {state : Records × Bool}
  {messages told : List (Nat × Nat)} {order : List Nat} {audience records : Nat → List Nat}

/-- What is said when nodes speak in some order, each to some listeners about some records. -/
def said (order : List Nat) (audience records : Nat → List Nat) : List (Nat × Nat) :=
  order.flatMap fun v => (audience v).flatMap fun w => (records v).map fun record => (w, record)

theorem mem_said {w r : Nat} :
    (w, r) ∈ said order audience records ↔ ∃ v ∈ order, w ∈ audience v ∧ r ∈ records v := by
  simp only [said, List.mem_flatMap, List.mem_map, Prod.mk.injEq]
  constructor
  · intro ⟨v, hv, _, hw, _, hr, same, same'⟩
    rw [same] at hw
    rw [same'] at hr
    exact ⟨v, hv, hw, hr⟩
  · intro ⟨v, hv, hw, hr⟩
    exact ⟨v, hv, w, hw, r, hr, rfl, rfl⟩

/-- Neither the order of messages matters nor how often one is heard. -/
theorem foldl_hear_congr (inside : ∀ m ∈ messages, m.1 < state.1.size)
    (same : ∀ m, m ∈ told ↔ m ∈ messages) :
    told.foldl hear state = messages.foldl hear state := by
  have inside' : ∀ m ∈ told, m.1 < state.1.size := fun m hm => inside m ((same m).1 hm)
  apply Prod.ext
  · apply Records.eq_of_knows ((size_foldl_hear told state).trans (size_foldl_hear _ state).symm)
    intro v r
    rw [knows_foldl_hear inside', knows_foldl_hear inside, same]
  · apply Bool.eq_iff_iff.2
    rw [news_foldl_hear inside', news_foldl_hear inside]
    simp only [same]

/-- A round takes any order of nodes, listeners and records. -/
theorem foldl_hear_said (spans : gossip.overlay.Spans current.size)
    (nodes : order.Perm (List.range current.size))
    (listeners : ∀ v < current.size, (audience v).Perm (gossip.audience v))
    (listed : ∀ v < current.size, (records v).Perm (current.of v).toList) :
    (said order audience records).foldl hear (current, false) = gossip.round current := by
  have messages : gossip.messages current =
      said (List.range current.size) gossip.audience fun v => (current.of v).toList := rfl
  apply foldl_hear_congr (mem_messages_lt spans)
  intro ⟨w, r⟩
  rw [messages, mem_said, mem_said]
  apply exists_congr
  intro v
  rw [nodes.mem_iff, List.mem_range]
  apply and_congr_right
  intro hv
  rw [(listeners v hv).mem_iff, (listed v hv).mem_iff]

theorem round_unites (gossip : Gossip) (current : Records)
    (spans : gossip.overlay.Spans gossip.graph.size) (covers : current.size = gossip.graph.size) :
    let next := (gossip.round current).1
    next.size = gossip.graph.size ∧
    (∀ v r, r ∈ next.of v ↔ r ∈ current.of v ∨ ∃ u, gossip.Passes u v ∧ r ∈ current.of u) ∧
    (∀ (order : List Nat) (audience records : Nat → List Nat),
      order.Perm (List.range gossip.graph.size) →
      (∀ v < gossip.graph.size, (audience v).Perm (gossip.audience v)) →
      (∀ v < gossip.graph.size, (records v).Perm (current.of v).toList) →
        (said order audience records).foldl hear (current, false) = gossip.round current) ∧
    ((gossip.round current).2 = true ↔ next ≠ current) := by
  intro next
  rw [← covers] at spans ⊢
  refine ⟨size_round, fun v r => ?_, fun _ _ _ => foldl_hear_said spans, ?_⟩
  · simp only [← Records.knows_iff_mem]
    exact knows_round spans
  · rw [← Bool.not_eq_false, ne_eq, ← round_quiet_iff spans]

/-- The record of the sybil node reaches node 2, but does not go on to node 0 in the same round. -/
theorem round_unites_trio :
    let gossip := standard trio trioOverlay
    let initial := Records.initial 3
    let next := (gossip.round initial).1
    trioOverlay.Spans trio.size ∧ initial.size = trio.size ∧
    1 ∈ next.of 2 ∧ 1 ∉ next.of 0 ∧ next ≠ initial ∧
    (said [2, 0, 1] gossip.audience fun v => (initial.of v).toList).foldl hear (initial, false) =
      gossip.round initial := by
  intro gossip initial next
  obtain ⟨_, unites, ordered, news⟩ := round_unites gossip initial spans_trioOverlay rfl
  have own (v : Nat) : 1 ∈ initial.of v ↔ v < 3 ∧ 1 = v :=
    Records.knows_iff_mem.symm.trans Records.knows_initial
  refine ⟨spans_trioOverlay, rfl, ?arrives, ?stops, news.1 (by decide +kernel), ?reordered⟩
  case arrives =>
    exact (unites 2 1).2 (.inr ⟨1, passes_trio.1, (own 1).2 ⟨by decide, rfl⟩⟩)
  case stops =>
    intro there
    rcases (unites 0 1).1 there with known | ⟨u, passes, known⟩
    · cases ((own 0).1 known).2
    · obtain ⟨_, rfl⟩ := (own u).1 known
      have unlinked : (trioOverlay.link? 1 0).isSome = false := by decide +kernel
      exact Bool.false_ne_true (unlinked.symm.trans passes.1)
  case reordered =>
    exact ordered [2, 0, 1] _ _ (by decide) (fun _ _ => .refl _) (fun _ _ => .refl _)

end Gossip

end SloppyGroup
