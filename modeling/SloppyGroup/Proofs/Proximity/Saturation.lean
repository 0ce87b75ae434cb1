import SloppyGroup.Proofs.Proximity.Filling

/-!
Saturated prefixes: a candidate is crowded if a bucket's worth of candidates of its prefix is
strictly nearer. Offered in the order of their distances, exactly the crowded ones find their bucket
full of nearer peers, and offering them changes nothing and tosses no coin.
-/

namespace SloppyGroup

namespace ColorTable

/-- Candidates in the order of their distances, and the buckets that they are offered to. -/
structure Offering where
  capacity : Nat
  bits : Nat
  prefixOf : Nat → GroupPrefix
  peers : List Peer
  positive : 0 < capacity
  sorted : Bucket.Sorted peers

namespace Offering

variable {o : Offering}

/-- As many candidates of its prefix as a bucket holds are strictly nearer. -/
def Crowded (o : Offering) (w : Peer) : Prop :=
  o.capacity ≤ o.peers.countP fun u => o.prefixOf u.node = o.prefixOf w.node ∧ u.hops < w.hops

instance (w : Peer) : Decidable (o.Crowded w) :=
  inferInstanceAs (Decidable (_ ≤ _))

theorem Crowded.farther {u w : Peer} (h : o.Crowded u)
    (same : o.prefixOf u.node = o.prefixOf w.node) (far : u.hops ≤ w.hops) : o.Crowded w := by
  apply Nat.le_trans h
  apply List.countP_mono_left
  intro x _ hx
  simp only [decide_eq_true_eq] at hx ⊢
  exact ⟨hx.1.trans same, Nat.lt_of_lt_of_le hx.2 far⟩

def distances (o : Offering) (part : List Peer) (p : GroupPrefix) : List Nat :=
  (part.filter fun u => o.prefixOf u.node = p).map (·.hops)

theorem sorted_distances {part : List Peer} (h : Bucket.Sorted part) (p : GroupPrefix) :
    (o.distances part p).Pairwise (· ≤ ·) :=
  List.pairwise_map.2 (List.Pairwise.sublist List.filter_sublist h)

theorem sorted_split {before after : List Peer} {w : Peer}
    (split : o.peers = before ++ w :: after) :
    Bucket.Sorted before ∧ (∀ u ∈ before, u.hops ≤ w.hops) ∧ ∀ u ∈ after, w.hops ≤ u.hops := by
  have sorted := o.sorted
  rw [split, Bucket.Sorted, List.pairwise_append] at sorted
  obtain ⟨first, second, across⟩ := sorted
  exact ⟨first, fun u hu => across u hu w List.mem_cons_self,
    (List.pairwise_cons.1 second).1⟩

/-- Only those that come earlier can be strictly nearer. -/
theorem crowded_iff_countP {before after : List Peer} {w : Peer}
    (split : o.peers = before ++ w :: after) :
    o.Crowded w ↔ o.capacity ≤ (o.distances before (o.prefixOf w.node)).countP (· < w.hops) := by
  have none : after.countP (fun u => o.prefixOf u.node = o.prefixOf w.node ∧ u.hops < w.hops) =
      0 := by
    rw [List.countP_eq_zero]
    intro u hu
    have := (sorted_split split).2.2 u hu
    simp only [decide_eq_true_eq]
    omega
  rw [Crowded, split, List.countP_append, List.countP_cons, none, distances, List.countP_map,
    List.countP_filter]
  simp [and_comm]

theorem le_countP_lt_iff {l : List Nat} (h : l.Pairwise (· ≤ ·)) (c k : Nat) :
    c ≤ l.countP (· < k) ↔ c ≤ l.length ∧ ∀ x ∈ l.take c, x < k := by
  have split : l.countP (· < k) = (l.take c).countP (· < k) + (l.drop c).countP (· < k) := by
    rw [← List.countP_append, List.take_append_drop]
  constructor
  · intro many
    refine ⟨Nat.le_trans many List.countP_le_length, fun x hx => ?_⟩
    by_contra far
    have later : (l.drop c).countP (· < k) = 0 := by
      rw [List.countP_eq_zero]
      intro y hy
      have := List.pairwise_append.1 ((List.take_append_drop c l).symm ▸ h)
      have := this.2.2 x hx y hy
      simp only [decide_eq_true_eq]
      omega
    have length := List.length_take_le c l
    have all : (l.take c).countP (· < k) = (l.take c).length := by
      have := (l.take c).countP_le_length (p := fun y => decide (y < k))
      omega
    exact far (of_decide_eq_true (List.countP_eq_length.1 all x hx))
  · rintro ⟨enough, near⟩
    have all : (l.take c).countP (· < k) = (l.take c).length := by
      rw [List.countP_eq_length]
      exact fun x hx => decide_eq_true (near x hx)
    rw [List.length_take] at all
    omega

variable {σ : Type} [RandomSource σ]

abbrev offer (o : Offering) (state : ColorTable × σ) (w : Peer) : ColorTable × σ :=
  offerTo o.capacity o.prefixOf state w

/-- Every bucket holds the smallest distances of its prefix in a list, as many as fit. -/
def Holds (o : Offering) (part : List Peer) (buckets : ColorTable) : Prop :=
  ∀ p, (bucket buckets p).hops = (o.distances part p).take o.capacity

theorem Holds.sorted {part : List Peer} {buckets : ColorTable} (h : o.Holds part buckets)
    (sorted : Bucket.Sorted part) (p : GroupPrefix) : Bucket.Sorted (bucket buckets p).peers := by
  rw [Bucket.sorted_iff_hops, h]
  exact (sorted_distances sorted p).sublist (List.take_sublist _ _)

theorem Holds.size_le {part : List Peer} {buckets : ColorTable} (h : o.Holds part buckets)
    (p : GroupPrefix) : (bucket buckets p).size ≤ o.capacity := by
  rw [← Bucket.length_hops, h]
  exact List.length_take_le _ _

theorem holds_empty : o.Holds [] ∅ := by
  intro p
  simp [bucket_empty, Bucket.hops, Bucket.empty, distances]

theorem le_of_mem_distances {before after : List Peer} {w : Peer}
    (split : o.peers = before ++ w :: after) {p : GroupPrefix} {x : Nat}
    (hx : x ∈ o.distances before p) : x ≤ w.hops := by
  obtain ⟨u, hu, rfl⟩ := List.mem_map.1 hx
  exact (sorted_split split).2.1 u (List.mem_of_mem_filter hu)

theorem Holds.near {before after : List Peer} {w : Peer} {buckets : ColorTable}
    (h : o.Holds before buckets) (split : o.peers = before ++ w :: after) {p : GroupPrefix}
    {x : Nat} (hx : x ∈ (bucket buckets p).hops) : x ≤ w.hops := by
  rw [h] at hx
  exact le_of_mem_distances split (List.mem_of_mem_take hx)

theorem Holds.offer {before after : List Peer} {w : Peer} {buckets : ColorTable}
    (h : o.Holds before buckets) (split : o.peers = before ++ w :: after) (source : σ) :
    o.Holds (before ++ [w]) (o.offer (buckets, source) w).1 := by
  have sorted := (sorted_split split).1
  intro p
  rw [bucket_offerTo, distances, List.filter_append, List.map_append]
  by_cases hp : p = o.prefixOf w.node
  · have answer := Bucket.offered_offer (bucket buckets p) o.capacity w source
    have below : ∀ x ∈ o.distances before p, x ≤ w.hops := fun x => le_of_mem_distances split
    have smallest := answer.hops_eq (h.sorted sorted p) (h.size_le p)
    rw [h, ← Bucket.take_orderedInsert,
      Bucket.orderedInsert_of_forall_le (sorted_distances sorted p) below] at smallest
    rw [if_pos hp, ← hp, smallest]
    simp [distances, hp]
  · -- Other buckets stay as they are, and their prefixes have no new candidate.
    rw [if_neg hp, h]
    simp [distances, Ne.symm hp]

/-- A candidate is crowded if its bucket is full of nearer peers. -/
theorem Holds.crowded_iff {before after : List Peer} {w : Peer} {buckets : ColorTable}
    (h : o.Holds before buckets) (split : o.peers = before ++ w :: after) :
    o.Crowded w ↔ o.capacity ≤ (bucket buckets (o.prefixOf w.node)).size ∧
      ∀ x ∈ (bucket buckets (o.prefixOf w.node)).hops, x < w.hops := by
  rw [crowded_iff_countP split,
    le_countP_lt_iff (sorted_distances (sorted_split split).1 _), ← Bucket.length_hops, h]
  simp

theorem Holds.offer_of_crowded {before after : List Peer} {w : Peer} {buckets : ColorTable}
    (h : o.Holds before buckets) (split : o.peers = before ++ w :: after) (source : σ)
    (crowded : o.Crowded w) : o.offer (buckets, source) w = (buckets, source) := by
  obtain ⟨full, far⟩ := (h.crowded_iff split).1 crowded
  have unchanged : buckets.insert (o.prefixOf w.node) (bucket buckets (o.prefixOf w.node)) =
      buckets := by
    apply Std.ExtTreeMap.ext_getElem?
    intro p
    rw [Std.ExtTreeMap.getElem?_insert]
    split
    · rename_i same
      rw [← Std.LawfulEqCmp.compare_eq_iff_eq.1 same]
      cases held : buckets[o.prefixOf w.node]? with
      | none =>
        have nobody : (bucket buckets (o.prefixOf w.node)).size = 0 := by
          rw [bucket, held]
          rfl
        have := o.positive
        omega
      | some b => simp [bucket, held]
    · rfl
  simp only [offerTo, Bucket.offer_eq_of_far full far, unchanged]

end Offering

end ColorTable

end SloppyGroup
