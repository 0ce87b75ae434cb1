import SloppyGroup.Proofs.Proximity.Offers
import SloppyGroup.Proofs.Undirected.Layers

/-!
Filling color buckets: whatever is offered and whatever the coins show, every bucket is sorted,
keeps to its capacity and holds none but those of its prefix that were offered.
-/

namespace SloppyGroup

namespace ColorTable

variable {σ : Type} [RandomSource σ] {capacity bits : Nat} {prefixOf : Nat → GroupPrefix}

/-- The nodes around a table's source as peers, in the order in which they were found. -/
def candidates (table : DistanceTable) : List Peer :=
  table.order.filterMap fun v => (table.distance? v).map fun hops => ⟨hops, v⟩

def offerTo (capacity : Nat) (prefixOf : Nat → GroupPrefix) (state : ColorTable × σ)
    (peer : Peer) : ColorTable × σ :=
  let p := prefixOf peer.node
  let (_, bucket, source) := (ColorTable.bucket state.1 p).offer capacity peer state.2
  (state.1.insert p bucket, source)

theorem bucket_insert (table : ColorTable) (p q : GroupPrefix) (b : Bucket) :
    bucket (table.insert p b) q = if q = p then b else bucket table q := by
  rw [bucket, bucket, Std.ExtTreeMap.getElem?_insert]
  by_cases h : q = p
  · simp [h]
  · simp [h, Ne.symm h]

theorem bucket_offerTo (state : ColorTable × σ) (peer : Peer) (q : GroupPrefix) :
    bucket (offerTo capacity prefixOf state peer).1 q =
      if q = prefixOf peer.node then
        ((bucket state.1 (prefixOf peer.node)).offer capacity peer state.2).2.1
      else bucket state.1 q :=
  bucket_insert _ _ _ _

/-- A property that every offer preserves is preserved by offering peers in order, also if some are
passed over. -/
theorem fillFrom_preserves {P : ColorTable → Prop} {peers : List Peer}
    (step : ∀ (table : ColorTable) (source : σ), ∀ peer ∈ peers, P table →
      P (offerTo capacity prefixOf (table, source) peer).1)
    {saturated : List GroupPrefix} {buckets : ColorTable} {source : σ} (start : P buckets) :
    P (fillFrom capacity bits prefixOf peers saturated buckets source).1 := by
  induction peers generalizing saturated buckets source with
  | nil => exact start
  | cons peer rest ih =>
    have next := step buckets source peer List.mem_cons_self start
    have later := fun table source p hp => step table source p (List.mem_cons_of_mem _ hp)
    rw [fillFrom]
    split
    · exact ih later start
    · rw [offerTo] at next
      generalize (bucket buckets (prefixOf peer.node)).offer capacity peer source = result at next
      obtain ⟨admission, after, source⟩ := result
      simp only at next ⊢
      split
      · split
        · exact next
        · exact ih later next
      · exact ih later next

/-- The buckets keep to their capacity, and their peers are among those of their prefix that were
offered. -/
structure Kept (capacity : Nat) (prefixOf : Nat → GroupPrefix) (offered : List Peer)
    (table : ColorTable) : Prop where
  sorted : ∀ p, Bucket.Sorted (bucket table p).peers
  size_le : ∀ p, (bucket table p).size ≤ capacity
  subset : ∀ p, ∀ peer ∈ (bucket table p).peers, peer ∈ offered
  prefix_eq : ∀ p, ∀ peer ∈ (bucket table p).peers, prefixOf peer.node = p

theorem bucket_empty (p : GroupPrefix) : bucket ∅ p = .empty := by
  simp [bucket]

theorem kept_empty (capacity : Nat) (prefixOf : Nat → GroupPrefix) (offered : List Peer) :
    Kept capacity prefixOf offered ∅ where
  sorted p := by simp [bucket_empty, Bucket.empty, Bucket.Sorted]
  size_le p := by simp [bucket_empty, Bucket.empty, Bucket.size]
  subset p := by simp [bucket_empty, Bucket.empty]
  prefix_eq p := by simp [bucket_empty, Bucket.empty]

theorem Kept.offerTo {offered : List Peer} {table : ColorTable}
    (h : Kept capacity prefixOf offered table) (source : σ) {peer : Peer} (hp : peer ∈ offered) :
    Kept capacity prefixOf offered (offerTo capacity prefixOf (table, source) peer).1 := by
  have answer := Bucket.offered_offer (bucket table (prefixOf peer.node)) capacity peer source
  have smallest := answer.hops_eq (h.sorted _) (h.size_le _)
  refine ⟨fun p => ?_, fun p => ?_, fun p q hq => ?_, fun p q hq => ?_⟩
  · rw [bucket_offerTo]
    split
    · rw [Bucket.sorted_iff_hops, smallest]
      apply List.Pairwise.sublist (List.take_sublist _ _)
      exact (Bucket.sorted_iff_hops.1 (h.sorted _)).orderedInsert _ _
    · exact h.sorted p
  · rw [bucket_offerTo]
    split
    · rw [← Bucket.length_hops, smallest]
      exact List.length_take_le _ _
    · exact h.size_le p
  · rw [bucket_offerTo] at hq
    split at hq
    · rcases answer.subset hq with same | hq
      · rw [same]
        exact hp
      · exact h.subset _ q hq
    · exact h.subset p q hq
  · rw [bucket_offerTo] at hq
    split at hq
    · rename_i asked
      rcases answer.subset hq with same | hq
      · rw [same, asked]
      · rw [h.prefix_eq _ q hq, asked]
    · exact h.prefix_eq p q hq

theorem kept_fill (g : TrustGraph) (table : DistanceTable) (source : σ) :
    let owner := g.node table.source
    Kept owner.bucketCapacity (fun u => (g.node u).id.leading owner.group.length)
      (candidates table) (fill g table source).1 := by
  intro owner
  rw [fill]
  simp only
  split
  · exact kept_empty _ _ _
  · apply fillFrom_preserves _ (kept_empty _ _ _)
    exact fun table source peer hp h => h.offerTo source hp

theorem mem_candidates {table : DistanceTable} {peer : Peer} :
    peer ∈ candidates table ↔
      peer.node ∈ table.order ∧ table.distance? peer.node = some peer.hops := by
  rw [candidates, List.mem_filterMap]
  simp only [Option.map_eq_some_iff]
  constructor
  · rintro ⟨v, hv, hops, hd, rfl⟩
    exact ⟨hv, hd⟩
  · rintro ⟨hv, hd⟩
    exact ⟨peer.node, hv, peer.hops, hd, rfl⟩

theorem sorted_candidates (g : TrustGraph) (v : Nat) :
    Bucket.Sorted (candidates (g.distancesFrom v)) := by
  rw [Bucket.Sorted, candidates, List.pairwise_filterMap]
  apply (DistanceTable.pairwise_order g.size g.neighbors v).imp
  intro a b near p hp q hq
  obtain ⟨k, hk, rfl⟩ := Option.map_eq_some_iff.1 hp
  obtain ⟨l, hl, rfl⟩ := Option.map_eq_some_iff.1 hq
  exact near k l hk hl

theorem candidates_lt {g : TrustGraph} {v : Nat} {peer : Peer}
    (h : peer ∈ candidates (g.distancesFrom v)) : peer.node < g.size :=
  DistanceTable.lt_of_distance?_eq_some (mem_candidates.1 h).2

end ColorTable

end SloppyGroup
