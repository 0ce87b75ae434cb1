import SloppyGroup.Proofs.Gossip.Round

/-!
Gossip as flooding: after some number of rounds a node knows exactly the records that reach it along
routes of at most that many steps. Which records these are no longer changes after fewer rounds than
there are nodes.
-/

namespace SloppyGroup

namespace Gossip

variable {gossip : Gossip} {initial : Records} {count : Nat}

/-- A way of a number of steps from one node to another. -/
inductive Route (passes : Nat → Nat → Prop) : Nat → Nat → Nat → Prop where
  | here (v : Nat) : Route passes 0 v v
  | step {k u v w : Nat} (way : Route passes k u v) (last : passes v w) : Route passes (k + 1) u w

/-- A node hears of a record within `k` steps if someone who knows it at first is that near. -/
def Hears (gossip : Gossip) (initial : Records) (k v r : Nat) : Prop :=
  ∃ u, initial.knows u r = true ∧ ∃ m ≤ k, Route gossip.Passes m u v

/-- One more step brings no record to anyone who has not heard of it. -/
def Settled (gossip : Gossip) (initial : Records) (k : Nat) : Prop :=
  ∀ v r, gossip.Hears initial k v r ↔ gossip.Hears initial (k + 1) v r

def afterRounds (gossip : Gossip) (k : Nat) (initial : Records) : Records :=
  (fun records => (gossip.round records).1)^[k] initial

theorem route_iff_reflTransGen {u v : Nat} :
    (∃ k, Route gossip.Passes k u v) ↔ Relation.ReflTransGen gossip.Passes u v := by
  constructor
  · rintro ⟨k, way⟩
    induction way with
    | here => exact .refl
    | step _ passes ih => exact ih.tail passes
  · intro h
    induction h with
    | refl => exact ⟨0, .here u⟩
    | tail _ passes ih =>
      obtain ⟨k, way⟩ := ih
      exact ⟨k + 1, way.step passes⟩

theorem Hears.mono {k m v r : Nat} (h : gossip.Hears initial k v r) (hk : k ≤ m) :
    gossip.Hears initial m v r := by
  obtain ⟨u, known, n, hn, way⟩ := h
  exact ⟨u, known, n, hn.trans hk, way⟩

theorem hears_zero {v r : Nat} : gossip.Hears initial 0 v r ↔ initial.knows v r = true := by
  constructor
  · rintro ⟨u, known, m, hm, way⟩
    cases way with
    | here => exact known
    | step => omega
  · intro known
    exact ⟨v, known, 0, Nat.le_refl 0, .here v⟩

theorem hears_succ {k w r : Nat} :
    gossip.Hears initial (k + 1) w r ↔
      gossip.Hears initial k w r ∨ ∃ v, gossip.Passes v w ∧ gossip.Hears initial k v r := by
  constructor
  · rintro ⟨u, known, m, hm, way⟩
    cases way with
    | here => exact .inl ⟨w, known, 0, Nat.zero_le k, .here w⟩
    | @step m _ v _ way passes =>
      exact .inr ⟨v, passes, u, known, m, Nat.le_of_succ_le_succ hm, way⟩
  · rintro (h | ⟨v, passes, u, known, m, hm, way⟩)
    · exact h.mono (Nat.le_succ k)
    · exact ⟨u, known, m + 1, Nat.succ_le_succ hm, way.step passes⟩

theorem Hears.lt {k v r : Nat} (h : gossip.Hears initial k v r)
    (spans : gossip.overlay.Spans initial.size) : v < initial.size := by
  obtain ⟨u, known, m, _, way⟩ := h
  cases way with
  | here => exact Records.lt_size_of_knows known
  | step _ passes => exact (passes.lt spans).2

theorem afterRounds_succ (k : Nat) :
    gossip.afterRounds (k + 1) initial = (gossip.round (gossip.afterRounds k initial)).1 :=
  Function.iterate_succ_apply' _ _ _

@[simp] theorem size_afterRounds (k : Nat) :
    (gossip.afterRounds k initial).size = initial.size := by
  induction k with
  | zero => rfl
  | succ k ih => rw [afterRounds_succ, size_round, ih]

theorem spans_afterRounds (spans : gossip.overlay.Spans initial.size) (k : Nat) :
    gossip.overlay.Spans (gossip.afterRounds k initial).size := by
  rw [size_afterRounds]
  exact spans

/-- Rounds of gossip are steps of flooding. -/
theorem knows_afterRounds (spans : gossip.overlay.Spans initial.size) {k v r : Nat} :
    (gossip.afterRounds k initial).knows v r = true ↔ gossip.Hears initial k v r := by
  induction k generalizing v with
  | zero => exact hears_zero.symm
  | succ k ih =>
    rw [afterRounds_succ, knows_round (spans_afterRounds spans k), hears_succ, ih]
    simp only [ih]

theorem settled_iff_quiet (spans : gossip.overlay.Spans initial.size) {k : Nat} :
    gossip.Settled initial k ↔ (gossip.round (gossip.afterRounds k initial)).2 = false := by
  rw [round_quiet_iff (spans_afterRounds spans k), ← afterRounds_succ]
  constructor
  · intro settled
    apply Records.eq_of_knows (by simp)
    intro v r
    rw [knows_afterRounds spans, knows_afterRounds spans]
    exact (settled v r).symm
  · intro same v r
    rw [← knows_afterRounds spans, ← knows_afterRounds spans, same]

theorem Settled.succ {k : Nat} (h : gossip.Settled initial k) :
    gossip.Settled initial (k + 1) := by
  intro v r
  rw [hears_succ (k := k + 1)]
  constructor
  · exact .inl
  · rintro (heard | ⟨u, passes, heard⟩)
    · exact heard
    · exact hears_succ.2 (.inr ⟨u, passes, (h u r).2 heard⟩)

theorem Settled.hears_iff {k m v r : Nat} (h : gossip.Settled initial k) (hk : k ≤ m) :
    gossip.Hears initial m v r ↔ gossip.Hears initial k v r := by
  have later : gossip.Settled initial m ∧
      (gossip.Hears initial m v r ↔ gossip.Hears initial k v r) := by
    induction m, hk using Nat.le_induction with
    | base => exact ⟨h, Iff.rfl⟩
    | succ m _ ih => exact ⟨ih.1.succ, (ih.1 v r).symm.trans ih.2⟩
  exact later.2

open Classical in
noncomputable def hearers (gossip : Gossip) (initial : Records) (r k : Nat) : Finset Nat :=
  (Finset.range initial.size).filter fun v => gossip.Hears initial k v r

theorem mem_hearers (spans : gossip.overlay.Spans initial.size) {r k v : Nat} :
    v ∈ gossip.hearers initial r k ↔ gossip.Hears initial k v r := by
  simp only [hearers, Finset.mem_filter, Finset.mem_range]
  exact ⟨fun h => h.2, fun h => ⟨h.lt spans, h⟩⟩

/-- A record is settled with step `k`, or every step up to then brought it to someone new. -/
theorem hearers_settled_or_grow (spans : gossip.overlay.Spans initial.size) (r k : Nat) :
    gossip.hearers initial r (k + 1) = gossip.hearers initial r k ∨
      (gossip.hearers initial r 0).card + k + 1 ≤ (gossip.hearers initial r (k + 1)).card := by
  have grow (j : Nat) : gossip.hearers initial r j ⊆ gossip.hearers initial r (j + 1) := by
    intro v hv
    rw [mem_hearers spans] at hv ⊢
    exact hv.mono (Nat.le_succ j)
  induction k with
  | zero =>
    by_cases same : gossip.hearers initial r 1 = gossip.hearers initial r 0
    · exact .inl same
    · exact .inr (Finset.card_lt_card ((grow 0).ssubset_of_ne (Ne.symm same)))
  | succ k ih =>
    by_cases same : gossip.hearers initial r (k + 2) = gossip.hearers initial r (k + 1)
    · exact .inl same
    · have more := Finset.card_lt_card ((grow (k + 1)).ssubset_of_ne (Ne.symm same))
      rcases ih with settled | many
      · refine absurd ?_ same
        ext v
        have before (u : Nat) : gossip.Hears initial (k + 1) u r ↔ gossip.Hears initial k u r := by
          rw [← mem_hearers spans, settled, mem_hearers spans]
        rw [mem_hearers spans, mem_hearers spans, hears_succ (k := k + 1), hears_succ (k := k)]
        simp only [before]
        tauto
      · right
        omega

theorem settled_of_size_le (spans : gossip.overlay.Spans initial.size) {k : Nat}
    (hk : initial.size ≤ k + 1) : gossip.Settled initial k := by
  intro v r
  constructor
  · exact fun h => h.mono (Nat.le_succ k)
  · intro h
    obtain ⟨u, known, _⟩ := id h
    have first : u ∈ gossip.hearers initial r 0 := by
      rw [mem_hearers spans, hears_zero]
      exact known
    have some := Finset.card_pos.2 ⟨u, first⟩
    have inside : gossip.hearers initial r (k + 1) ⊆ Finset.range initial.size := by
      intro w hw
      exact Finset.mem_range.2 (((mem_hearers spans).1 hw).lt spans)
    have all := Finset.card_le_card inside
    rw [Finset.card_range] at all
    rcases gossip.hearers_settled_or_grow spans r k with same | many
    · rw [← mem_hearers spans, ← same, mem_hearers spans]
      exact h
    · omega

/-- Flooding settles after fewer steps than there are nodes: a shortest route visits no node
twice. -/
theorem exists_isLeast_settled (spans : gossip.overlay.Spans initial.size) :
    ∃ d, IsLeast {k | gossip.Settled initial k} d ∧ d + 1 ≤ max initial.size 1 := by
  classical
  have bound : gossip.Settled initial (initial.size - 1) :=
    settled_of_size_le spans (by omega)
  have settles : ∃ k, gossip.Settled initial k := ⟨_, bound⟩
  refine ⟨Nat.find settles, ⟨Nat.find_spec settles, ?_⟩, ?_⟩
  · intro k hk
    exact Nat.find_min' settles hk
  · have := Nat.find_min' settles bound
    omega

end Gossip

end SloppyGroup
