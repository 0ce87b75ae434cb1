import Mathlib
import SloppyGroup.Proximity.Bucket

/-!
Offers to a bucket: every way in which one can end, and what they all have in common. Whatever the
coin shows, a bucket keeps the smallest distances of those that it held and the one it was offered.
-/

namespace SloppyGroup

namespace Random

variable {σ : Type} [RandomSource σ]

/-- A fair coin takes one word. -/
def toss (source : σ) : σ :=
  (RandomSource.word64 source).2

theorem source_fairCoin (source : σ) : (coin 0.5 source).2 = toss source := by
  have fair : ((0.5 : Float) == 1) = false := by decide
  rw [coin, fair]
  rfl

end Random

namespace Bucket

def hops (b : Bucket) : List Nat :=
  b.peers.map (·.hops)

variable {σ : Type} [RandomSource σ] {b : Bucket} {capacity : Nat} {peer : Peer} {source : σ}

/-- How an offer ends: the admission, the bucket and the source after it. -/
inductive Offered (b : Bucket) (capacity : Nat) (peer : Peer) (source : σ) :
    Admission → Bucket → σ → Prop where
  | appended (room : b.size < capacity) :
      Offered b capacity peer source .appended (b.insert peer) source
  | nearer (farthest : Peer) (full : capacity ≤ b.size) (last : b.farthest? = some farthest)
      (near : peer.hops < farthest.hops) :
      Offered b capacity peer source (.replaced farthest.node) (b.replaceFarthest peer) source
  | accepted (farthest : Peer) (full : capacity ≤ b.size) (last : b.farthest? = some farthest)
      (tie : peer.hops = farthest.hops) (toss : (Random.coin 0.5 source).1 = true) :
      Offered b capacity peer source (.replaced farthest.node) (b.replaceFarthest peer)
        (Random.coin 0.5 source).2
  | rejected (farthest : Peer) (full : capacity ≤ b.size) (last : b.farthest? = some farthest)
      (tie : peer.hops = farthest.hops) (toss : (Random.coin 0.5 source).1 = false) :
      Offered b capacity peer source .rejected b (Random.coin 0.5 source).2
  | saturated (full : capacity ≤ b.size)
      (far : ∀ farthest ∈ b.farthest?, farthest.hops < peer.hops) :
      Offered b capacity peer source .saturated b source

theorem offered_offer (b : Bucket) (capacity : Nat) (peer : Peer) (source : σ) :
    Offered b capacity peer source (b.offer capacity peer source).1
      (b.offer capacity peer source).2.1 (b.offer capacity peer source).2.2 := by
  rw [offer]
  by_cases room : b.size < capacity
  · rw [if_pos room]
    exact .appended room
  rw [if_neg room]
  have full : capacity ≤ b.size := Nat.le_of_not_lt room
  cases last : b.farthest? with
  | none => exact .saturated full (by simp [last])
  | some farthest =>
    by_cases near : peer.hops < farthest.hops
    · simp only [near, ↓reduceIte]
      exact .nearer farthest full last near
    · by_cases tie : peer.hops = farthest.hops
      · cases toss : (Random.coin 0.5 source).1 with
        | true =>
          simp only [tie, toss, Nat.lt_irrefl, ↓reduceIte]
          exact .accepted farthest full last tie toss
        | false =>
          simp only [tie, toss, Nat.lt_irrefl, ↓reduceIte, Bool.false_eq_true]
          exact .rejected farthest full last tie toss
      · simp only [near, tie, ↓reduceIte]
        apply Offered.saturated full
        intro p hp
        rw [last, Option.mem_some_iff] at hp
        rw [← hp]
        omega

theorem length_hops (b : Bucket) : b.hops.length = b.size :=
  List.length_map _

theorem sorted_iff_hops : Sorted b.peers ↔ b.hops.Pairwise (· ≤ ·) :=
  List.pairwise_map.symm

theorem eq_of_perm_sorted {first second : List Nat} (h : first.Perm second)
    (hf : first.Pairwise (· ≤ ·)) (hs : second.Pairwise (· ≤ ·)) : first = second :=
  h.eq_of_pairwise (fun _ _ _ _ => Nat.le_antisymm) hf hs

theorem hops_place {peers : List Peer} (h : Sorted peers) :
    (place peer peers).map (·.hops) =
      (peers.map (·.hops)).orderedInsert (· ≤ ·) peer.hops := by
  apply eq_of_perm_sorted
  · exact ((perm_place peer peers).map _).trans (List.perm_orderedInsert _ _ _).symm
  · exact List.pairwise_map.2 h.place
  · exact (List.pairwise_map.2 h).orderedInsert _ _

theorem orderedInsert_of_forall_le {l : List Nat} {a : Nat} (h : l.Pairwise (· ≤ ·))
    (ha : ∀ x ∈ l, x ≤ a) : l.orderedInsert (· ≤ ·) a = l ++ [a] := by
  apply eq_of_perm_sorted
  · exact (List.perm_orderedInsert _ _ _).trans (List.perm_append_singleton a l).symm
  · exact h.orderedInsert _ _
  · rw [List.pairwise_append]
    exact ⟨h, by simp, fun x hx y hy => (List.mem_singleton.1 hy) ▸ ha x hx⟩

theorem orderedInsert_concat {l : List Nat} {a z : Nat} (h : (l ++ [z]).Pairwise (· ≤ ·))
    (ha : a ≤ z) :
    (l ++ [z]).orderedInsert (· ≤ ·) a = l.orderedInsert (· ≤ ·) a ++ [z] := by
  obtain ⟨sorted, -, below⟩ := List.pairwise_append.1 h
  apply eq_of_perm_sorted
  · have inner := (List.perm_orderedInsert (· ≤ ·) a l).symm.append_right [z]
    exact (List.perm_orderedInsert _ _ _).trans inner
  · exact h.orderedInsert _ _
  · rw [List.pairwise_append]
    refine ⟨sorted.orderedInsert _ _, by simp, fun x hx y hy => ?_⟩
    rw [List.mem_singleton.1 hy]
    rcases (List.mem_orderedInsert _).1 hx with rfl | hx
    · exact ha
    · exact below x hx z (by simp)

/-- What lies beyond the first `c` distances has no say in which come first after an insertion. -/
theorem take_orderedInsert (a c : Nat) (l : List Nat) :
    (l.orderedInsert (· ≤ ·) a).take c = ((l.take c).orderedInsert (· ≤ ·) a).take c := by
  induction l generalizing c with
  | nil => simp
  | cons x l ih =>
    cases c with
    | zero => simp
    | succ c =>
      by_cases h : a ≤ x
      · cases c with
        | zero => simp [h]
        | succ c => simp [h, List.take_take]
      · simp [h, ih c]

theorem peers_of_farthest? {farthest : Peer} (last : b.farthest? = some farthest) :
    b.peers = b.peers.dropLast ++ [farthest] :=
  (List.dropLast_append_getLast? farthest last).symm

theorem hops_of_farthest? {farthest : Peer} (last : b.farthest? = some farthest) :
    b.hops = b.peers.dropLast.map (·.hops) ++ [farthest.hops] := by
  rw [hops, peers_of_farthest? last]
  simp

theorem hops_insert (h : Sorted b.peers) :
    (b.insert peer).hops = b.hops.orderedInsert (· ≤ ·) peer.hops :=
  hops_place h

/-- A peer that is not farther than the farthest one takes its place. -/
theorem hops_replaceFarthest (h : Sorted b.peers) {farthest : Peer}
    (last : b.farthest? = some farthest) (near : peer.hops ≤ farthest.hops) :
    (b.replaceFarthest peer).hops =
      (b.hops.orderedInsert (· ≤ ·) peer.hops).take b.size := by
  have inner : Sorted b.peers.dropLast := h.sublist (List.dropLast_sublist _)
  have sorted := sorted_iff_hops.1 h
  have split := hops_of_farthest? last
  rw [split] at sorted
  have length : b.size = (b.peers.dropLast.map (·.hops)).length + 1 := by
    rw [← length_hops, split, List.length_append]
    rfl
  rw [split, orderedInsert_concat sorted near, length, List.take_left']
  · exact hops_place inner
  · rw [List.orderedInsert_length]

theorem le_farthest (h : Sorted b.peers) {farthest : Peer}
    (last : b.farthest? = some farthest) {x : Nat} (hx : x ∈ b.hops) : x ≤ farthest.hops := by
  have sorted := sorted_iff_hops.1 h
  rw [hops_of_farthest? last] at sorted hx
  rcases List.mem_append.1 hx with hx | hx
  · exact (List.pairwise_append.1 sorted).2.2 x hx _ (by simp)
  · exact Nat.le_of_eq (List.mem_singleton.1 hx)

theorem hops_eq_take_of_full (h : Sorted b.peers) (size : b.size = capacity)
    (far : ∀ x ∈ b.hops, x ≤ peer.hops) :
    b.hops = (b.hops.orderedInsert (· ≤ ·) peer.hops).take capacity := by
  rw [orderedInsert_of_forall_le (sorted_iff_hops.1 h) far, List.take_left']
  rw [length_hops]
  exact size

theorem lt_of_saturated (h : Sorted b.peers)
    (far : ∀ farthest ∈ b.farthest?, farthest.hops < peer.hops) {x : Nat} (hx : x ∈ b.hops) :
    x < peer.hops := by
  cases last : b.farthest? with
  | none =>
    rw [farthest?, List.getLast?_eq_none_iff] at last
    rw [hops, last] at hx
    cases hx
  | some farthest =>
    have near := far farthest last
    have := le_farthest h last hx
    omega

/-- An offer leaves the smallest distances among those held before and the new one, as many as fit,
whatever the coin shows. -/
theorem Offered.hops_eq {admission : Admission} {after : Bucket} {rest : σ}
    (offered : Offered b capacity peer source admission after rest) (h : Sorted b.peers)
    (bounded : b.size ≤ capacity) :
    after.hops = (b.hops.orderedInsert (· ≤ ·) peer.hops).take capacity := by
  induction offered with
  | appended room =>
    rw [hops_insert h, List.take_of_length_le]
    rw [List.orderedInsert_length, length_hops]
    exact room
  | nearer farthest full last near =>
    rw [hops_replaceFarthest h last (Nat.le_of_lt near), Nat.le_antisymm bounded full]
  | accepted farthest full last tie =>
    rw [hops_replaceFarthest h last (Nat.le_of_eq tie), Nat.le_antisymm bounded full]
  | rejected farthest full last tie =>
    apply hops_eq_take_of_full h (Nat.le_antisymm bounded full)
    intro x hx
    rw [tie]
    exact le_farthest h last hx
  | saturated full far =>
    apply hops_eq_take_of_full h (Nat.le_antisymm bounded full)
    exact fun x hx => Nat.le_of_lt (lt_of_saturated h far hx)

theorem mem_of_mem_replaceFarthest {p : Peer} (hp : p ∈ (b.replaceFarthest peer).peers) :
    p = peer ∨ p ∈ b.peers := by
  rcases List.mem_cons.1 ((perm_place _ _).mem_iff.1 hp) with same | hp
  · exact .inl same
  · exact .inr (List.mem_of_mem_dropLast hp)

theorem Offered.subset {admission : Admission} {after : Bucket} {rest : σ}
    (offered : Offered b capacity peer source admission after rest) {p : Peer}
    (hp : p ∈ after.peers) : p = peer ∨ p ∈ b.peers := by
  induction offered with
  | appended => exact List.mem_cons.1 ((perm_place _ _).mem_iff.1 hp)
  | nearer => exact mem_of_mem_replaceFarthest hp
  | accepted => exact mem_of_mem_replaceFarthest hp
  | rejected => exact .inr hp
  | saturated => exact .inr hp

/-- A full bucket of nearer peers refuses a candidate without a toss. -/
theorem offer_eq_of_far (full : capacity ≤ b.size) (far : ∀ x ∈ b.hops, x < peer.hops) :
    b.offer capacity peer source = (.saturated, b, source) := by
  rw [offer, if_neg (Nat.not_lt.2 full)]
  cases last : b.farthest? with
  | none => rfl
  | some farthest =>
    have below : farthest.hops < peer.hops := by
      apply far
      rw [hops_of_farthest? last]
      simp
    simp only [Nat.lt_asymm below, Nat.ne_of_gt below, ↓reduceIte]

theorem Offered.far_of_saturated {admission : Admission} {after : Bucket} {rest : σ}
    (offered : Offered b capacity peer source admission after rest) (h : Sorted b.peers)
    (saturated : admission = .saturated) :
    capacity ≤ b.size ∧ ∀ x ∈ b.hops, x < peer.hops := by
  induction offered with
  | saturated full far => exact ⟨full, fun x hx => lt_of_saturated h far hx⟩
  | _ => cases saturated

end Bucket

end SloppyGroup
