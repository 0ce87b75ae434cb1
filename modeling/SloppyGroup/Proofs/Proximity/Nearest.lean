import SloppyGroup.Proofs.Proximity.Completeness
import SloppyGroup.Proofs.Proximity.Intake

/-!
Color buckets hold the nearest nodes. A node has a bucket for each prefix that occurs around it, and
in each of them the nearest nodes with the prefix, as many as fit, at their distances, whatever the
coins show and although buckets are filled no further once all prefixes are saturated.
-/

namespace SloppyGroup

variable {σ : Type} [RandomSource σ] {g : TrustGraph} {v capacity : Nat}

/-- The other nodes that a node can reach whose identifiers start with a prefix of the length of its
own group prefix. -/
def TrustGraph.colored (g : TrustGraph) (v : Nat) (p : GroupPrefix) : Set Nat :=
  {u | v ≠ u ∧ g.trust.Reachable v u ∧ (g.node u).id.leading (g.node v).group.length = p}

namespace Bucket

/-- A bucket holds the nodes of a set that are nearest to `v`: as many as fit, each once and at its
distance, in the order of their distances, and nobody is left out who is nearer. -/
structure Nearest (g : TrustGraph) (v : Nat) (nodes : Set Nat) (capacity : Nat) (b : Bucket) :
    Prop where
  size : (b.size : ℕ∞) = min (capacity : ℕ∞) nodes.encard
  nodup : (b.peers.map (·.node)).Nodup
  mem : ∀ p ∈ b.peers, p.node ∈ nodes
  hops_eq : ∀ p ∈ b.peers, g.trust.edist v p.node = p.hops
  sorted : Sorted b.peers
  nearest : ∀ u ∈ nodes, u ∉ b.peers.map (·.node) → ∀ p ∈ b.peers,
    g.trust.edist v p.node ≤ g.trust.edist v u

theorem Keeps.nearest {offers leftOut : List Peer} {b : Bucket} {nodes : Set Nat}
    (h : Keeps capacity offers leftOut b) (nodup : (offers.map (·.node)).Nodup)
    (mem_iff : ∀ u, u ∈ offers.map (·.node) ↔ u ∈ nodes)
    (near : ∀ p ∈ offers, g.trust.edist v p.node = p.hops) :
    b.Nearest g v nodes capacity := by
  have offered : ∀ p ∈ b.peers, p ∈ offers := fun p hp =>
    h.perm.mem_iff.1 (List.mem_append_left _ hp)
  refine ⟨?size, ?nodup, ?mem, fun p hp => near p (offered p hp), h.sorted, ?nearest⟩
  case size =>
    have listed : nodes = {u | u ∈ offers.map (·.node)} := by
      ext u
      exact (mem_iff u).symm
    rw [listed, Peer.encard_nodes nodup, h.size_eq]
    rfl
  case nodup =>
    have all := ((h.perm.map (·.node)).nodup_iff).2 nodup
    rw [List.map_append] at all
    exact all.of_append_left
  case mem => exact fun p hp => (mem_iff _).1 (List.mem_map_of_mem (offered p hp))
  case nearest =>
    intro u hu out p hp
    obtain ⟨q, hq, rfl⟩ := List.mem_map.1 ((mem_iff u).2 hu)
    rcases List.mem_append.1 (h.perm.mem_iff.2 hq) with kept | left
    · exact absurd (List.mem_map_of_mem kept) out
    · rw [near p (offered p hp), near q hq]
      exact_mod_cast h.hops_le hp left

end Bucket

namespace ColorTable

variable {prefixOf : Nat → GroupPrefix}

/-- Every bucket keeps what it was offered, no matter what the other buckets were offered in
between. -/
theorem keeps_foldl_offerTo (capacity : Nat) (prefixOf : Nat → GroupPrefix) (peers : List Peer)
    (source : σ) (p : GroupPrefix) :
    ∃ leftOut, Bucket.Keeps capacity (peers.filter fun w => prefixOf w.node = p) leftOut
      (bucket (peers.foldl (offerTo capacity prefixOf) (∅, source)).1 p) := by
  induction peers using List.reverseRecOn with
  | nil =>
    refine ⟨[], ?_⟩
    rw [List.foldl_nil, bucket_empty]
    exact .empty capacity
  | append_singleton peers w ih =>
    obtain ⟨leftOut, keeps⟩ := ih
    rw [List.foldl_concat, bucket_offerTo, List.filter_append]
    by_cases color : p = prefixOf w.node
    · rw [if_pos color, ← color, List.filter_singleton, color]
      subst color
      simp only [decide_true, cond_true]
      exact ⟨_, keeps.offered (Bucket.offered_offer _ capacity w _)⟩
    · rw [if_neg color, List.filter_singleton]
      refine ⟨leftOut, ?_⟩
      simpa [Ne.symm color] using keeps

theorem mem_foldl_offerTo (peers : List Peer) (source : σ) (p : GroupPrefix) :
    p ∈ (peers.foldl (offerTo capacity prefixOf) (∅, source)).1 ↔
      ∃ w ∈ peers, prefixOf w.node = p := by
  induction peers using List.reverseRecOn with
  | nil => simp
  | append_singleton peers w ih =>
    rw [List.foldl_concat, offerTo]
    simp only [Std.ExtTreeMap.mem_insert, Std.LawfulEqCmp.compare_eq_iff_eq, ih, List.mem_append,
      List.mem_singleton]
    grind

theorem mem_map_filter_candidates (hv : v < g.size) (p : GroupPrefix) (u : Nat) :
    u ∈ ((candidates (g.distancesFrom v)).filter fun w =>
      (g.node w.node).id.leading (g.node v).group.length = p).map (·.node) ↔ u ∈ g.colored v p := by
  have listed : u ∈ (candidates (g.distancesFrom v)).map (·.node) ↔ _ := mem_map_candidates hv
  simp only [List.mem_map, List.mem_filter, decide_eq_true_eq] at listed ⊢
  rw [TrustGraph.colored, Set.mem_ofPred_eq, ← and_assoc, ← listed]
  grind

/-- A node fills a bucket for every prefix around it with the nearest nodes of that prefix, if no
identifier is shorter than its group prefix. -/
theorem fill_keeps_nearest (g : TrustGraph) (v : Nat) (hv : v < g.size)
    (positive : 0 < (g.node v).bucketCapacity)
    (long : ∀ u < g.size, (g.node v).group.length ≤ (g.node u).id.length) (source : σ) :
    let table := (fill g (g.distancesFrom v) source).1
    ∀ p, (p ∈ table ↔ (g.colored v p).Nonempty) ∧
      ∀ b, table[p]? = some b → b.Nearest g v (g.colored v p) (g.node v).bucketCapacity := by
  intro table p
  have filled : table = ((candidates (g.distancesFrom v)).foldl
      (offerTo (g.node v).bucketCapacity
        fun u => (g.node u).id.leading (g.node v).group.length) (∅, source)).1 :=
    congrArg Prod.fst (fill_eq_fillAll_of_long g v positive long source)
  have members := mem_map_filter_candidates hv p
  refine ⟨?_, fun b held => ?_⟩
  · rw [filled, mem_foldl_offerTo]
    constructor
    · rintro ⟨w, hw, color⟩
      refine ⟨w.node, (members w.node).1 (List.mem_map_of_mem (List.mem_filter.2 ⟨hw, ?_⟩))⟩
      exact decide_eq_true color
    · rintro ⟨u, hu⟩
      obtain ⟨w, hw, rfl⟩ := List.mem_map.1 ((members u).2 hu)
      obtain ⟨listed, color⟩ := List.mem_filter.1 hw
      exact ⟨w, listed, of_decide_eq_true color⟩
  · have known : bucket table p = b := by
      rw [bucket, held]
      rfl
    obtain ⟨leftOut, keeps⟩ := keeps_foldl_offerTo (g.node v).bucketCapacity
      (fun u => (g.node u).id.leading (g.node v).group.length)
      (candidates (g.distancesFrom v)) source p
    rw [← filled, known] at keeps
    apply keeps.nearest _ members
    · intro w hw
      have found := (mem_candidates.1 (List.mem_of_mem_filter hw)).2
      exact (TrustGraph.distance?_distancesFrom hv).1 found
    · exact (nodup_candidates hv).sublist (List.filter_sublist.map _)

/-- The nearest node of the other color is two hops away; a third and a fourth one are left out. -/
theorem fill_keeps_nearest_fiveColors :
    let table := (fill fiveColors (fiveColors.distancesFrom 1) (⟨0⟩ : Zeros)).1
    1 < fiveColors.size ∧ 0 < (fiveColors.node 1).bucketCapacity ∧
    (∀ u < fiveColors.size, (fiveColors.node 1).group.length ≤ (fiveColors.node u).id.length) ∧
    ⟨[true]⟩ ∈ table ∧ (fiveColors.colored 1 ⟨[true]⟩).Nonempty ∧
    (⟨[⟨2, 2⟩]⟩ : Bucket).Nearest fiveColors 1 (fiveColors.colored 1 ⟨[true]⟩) 1 := by
  intro table
  have long : ∀ u < fiveColors.size,
      (fiveColors.node 1).group.length ≤ (fiveColors.node u).id.length := by decide
  have held : table[(⟨[true]⟩ : GroupPrefix)]? = some ⟨[⟨2, 2⟩]⟩ := by decide +kernel
  have known : (⟨[true]⟩ : GroupPrefix) ∈ table := by decide +kernel
  obtain ⟨occurs, nearest⟩ := fill_keeps_nearest fiveColors 1 (by decide) (by decide) long
    (⟨0⟩ : Zeros) ⟨[true]⟩
  exact ⟨by decide, by decide, long, known, occurs.1 known, nearest _ held⟩

end ColorTable

end SloppyGroup
