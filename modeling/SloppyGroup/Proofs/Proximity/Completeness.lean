import SloppyGroup.Gossip.Verification
import SloppyGroup.Proofs.Groups
import SloppyGroup.Proofs.Overlay.Outreach
import SloppyGroup.Proofs.Proximity.EarlyStop
import SloppyGroup.Proofs.Undirected.Exactness

/-!
Complete views: where buckets have room for whole groups, a node's local view holds all other
members of its group, whatever the coins show.
-/

namespace SloppyGroup

namespace TrustGraph

variable {g : TrustGraph} {v w : Nat}

/-- All group prefixes are equally long, and identifiers start with those of their nodes. -/
structure Partitioned (g : TrustGraph) : Prop where
  equallyLong : ∀ v < g.size, ∀ w < g.size,
    (g.node v).group.length = (g.node w).group.length
  startsWith : ∀ v < g.size, (g.node v).id.startsWith (g.node v).group = true

theorem Partitioned.leading_eq_iff (h : g.Partitioned) (hv : v < g.size) (hw : w < g.size) :
    (g.node w).id.leading (g.node v).group.length = (g.node v).group ↔
      (g.node w).group = (g.node v).group := by
  rw [← Node.colorOf, Node.colorOf_eq (h.equallyLong v hv w hw) (h.startsWith w hw)]

theorem Partitioned.sharesGroup_iff (h : g.Partitioned) (hv : v < g.size) (hw : w < g.size) :
    (g.node v).sharesGroup (g.node w) = true ↔ (g.node w).group = (g.node v).group := by
  rw [Node.sharesGroup, Identifier.startsWith_iff, h.leading_eq_iff hv hw]

theorem Partitioned.length_le (h : g.Partitioned) (hv : v < g.size) (hw : w < g.size) :
    (g.node v).group.length ≤ (g.node w).id.length := by
  have starts := h.startsWith w hw
  rw [Identifier.startsWith, List.isPrefixOf_iff_prefix] at starts
  rw [h.equallyLong v hv w hw]
  exact starts.length_le

/-- Everyone is honest and can be reached, and buckets have room for the others of a group. -/
structure HonestGroups (g : TrustGraph) : Prop extends Partitioned g where
  reachable : ∀ v < g.size, ∀ w < g.size, g.trust.Reachable v w
  honest : ∀ v < g.size, (g.node v).isSybil = false
  roomy : ∀ v < g.size, (g.honestGroup v).length ≤ (g.node v).bucketCapacity + 1

end TrustGraph

variable {σ : Type} [RandomSource σ] {g : TrustGraph} {v : Nat}

namespace ColorTable

variable {capacity : Nat} {prefixOf : Nat → GroupPrefix} {p : GroupPrefix}

/-- A bucket takes in everyone of its prefix as long as there is room for all of them. -/
theorem perm_foldl_offerTo {peers : List Peer} {state : ColorTable × σ}
    (room : (bucket state.1 p).size + (peers.filter fun w => prefixOf w.node = p).length ≤
      capacity) :
    (bucket (peers.foldl (offerTo capacity prefixOf) state).1 p).peers.Perm
      ((peers.filter fun w => prefixOf w.node = p) ++ (bucket state.1 p).peers) := by
  induction peers generalizing state with
  | nil => exact .refl _
  | cons w peers ih =>
    have offered : bucket (offerTo capacity prefixOf state w).1 p = _ :=
      bucket_offerTo state w p
    rw [List.foldl_cons]
    by_cases color : prefixOf w.node = p
    · rw [List.filter_cons_of_pos (by simpa using color)] at room ⊢
      rw [List.length_cons] at room
      have free : (bucket state.1 p).size < capacity := by omega
      rw [if_pos color.symm, color, Bucket.offer, if_pos free] at offered
      refine (ih (by rw [offered, Bucket.size_insert]; omega)).trans ?_
      rw [offered]
      exact ((Bucket.perm_place w _).append_left _).trans List.perm_middle
    · rw [List.filter_cons_of_neg (by simpa using color)] at room ⊢
      rw [if_neg (Ne.symm color)] at offered
      rw [← offered] at room ⊢
      exact ih room

theorem nodup_candidates (hv : v < g.size) :
    ((candidates (g.distancesFrom v)).map (·.node)).Nodup := by
  rw [candidates, List.Nodup, List.pairwise_map, List.pairwise_filterMap]
  apply (TrustGraph.nodup_order_distancesFrom hv).imp
  intro u w distinct p hp q hq same
  obtain ⟨_, _, rfl⟩ := Option.map_eq_some_iff.1 hp
  obtain ⟨_, _, rfl⟩ := Option.map_eq_some_iff.1 hq
  exact distinct same

theorem mem_map_candidates (hv : v < g.size) {u : Nat} :
    u ∈ (candidates (g.distancesFrom v)).map (·.node) ↔ v ≠ u ∧ g.trust.Reachable v u := by
  rw [← TrustGraph.mem_order_distancesFrom hv, List.mem_map]
  constructor
  · rintro ⟨p, hp, rfl⟩
    exact (mem_candidates.1 hp).1
  · intro listed
    obtain ⟨hops, near⟩ := DistanceTable.exists_distance?_of_mem_order listed
    exact ⟨⟨hops, u⟩, mem_candidates.2 ⟨listed, near⟩, rfl⟩

/-- The other members of a node's group fit into its buckets. -/
theorem length_filter_candidates_le (h : g.HonestGroups) (hv : v < g.size) :
    ((candidates (g.distancesFrom v)).filter fun w =>
      (g.node w.node).id.leading (g.node v).group.length = (g.node v).group).length ≤
        (g.node v).bucketCapacity := by
  generalize kept : (candidates (g.distancesFrom v)).filter _ = members
  have listed : (members.map (·.node)).Sublist
      ((candidates (g.distancesFrom v)).map (·.node)) := by
    rw [← kept]
    exact List.filter_sublist.map _
  have fits : (v :: members.map (·.node)).length ≤ (g.honestGroup v).length := by
    apply (List.subperm_of_subset _ _).length_le
    · refine List.nodup_cons.2 ⟨fun own => ?_, (nodup_candidates hv).sublist listed⟩
      exact ((mem_map_candidates hv).1 (listed.subset own)).1 rfl
    · intro u hu
      rw [TrustGraph.mem_honestGroup, TrustGraph.mem_honest]
      rcases List.mem_cons.1 hu with rfl | hu
      · exact ⟨⟨hv, h.honest _ hv⟩, rfl⟩
      · obtain ⟨p, hp, rfl⟩ := List.mem_map.1 hu
        rw [← kept, List.mem_filter, decide_eq_true_eq] at hp
        have inside := candidates_lt hp.1
        exact ⟨⟨inside, h.honest _ inside⟩, (h.leading_eq_iff hv inside).1 hp.2⟩
  rw [List.length_cons, List.length_map] at fits
  have room := h.roomy v hv
  omega

/-- The bucket of a node's own prefix holds all other members of its group. -/
theorem mem_bucket_fill (h : g.HonestGroups) (hv : v < g.size) {u : Nat} (hu : u < g.size)
    (other : u ≠ v) (same : (g.node u).group = (g.node v).group) (source : σ) :
    u ∈ (bucket (fill g (g.distancesFrom v) source).1 (g.node v).group).peers.map (·.node) := by
  have fits := length_filter_candidates_le h hv
  obtain ⟨peer, listed, rfl⟩ := List.mem_map.1
    ((mem_map_candidates hv).2 ⟨Ne.symm other, h.reachable v hv u hu⟩)
  have member : peer ∈ (candidates (g.distancesFrom v)).filter fun w =>
      (g.node w.node).id.leading (g.node v).group.length = (g.node v).group := by
    rw [List.mem_filter, decide_eq_true_eq]
    exact ⟨listed, (h.leading_eq_iff hv hu).2 same⟩
  have positive : 0 < (g.node v).bucketCapacity := by
    have := List.length_pos_of_mem member
    omega
  rw [fill_eq_fillAll_of_long g v positive fun w hw => h.length_le hv hw]
  apply List.mem_map_of_mem
  apply (perm_foldl_offerTo _).mem_iff.2
  · exact List.mem_append_left _ member
  · rw [bucket_empty, Bucket.size, Bucket.empty, List.length_nil, Nat.zero_add]
    exact fits

end ColorTable

namespace Survey

theorem length_drawSeeds (count : Nat) (source : σ) : (drawSeeds count source).1.length = count := by
  induction count generalizing source with
  | zero => rfl
  | succ count ih => rw [drawSeeds, List.length_cons, ih]

theorem exists_explore (g : TrustGraph) (source : σ) (hv : v < g.size) :
    ∃ seed, (conduct g source).1.of v =
      (Surroundings.explore g v (Random.ChaCha.ofSeed seed)).1 := by
  have drawn : v < (drawSeeds g.size source).1.length := by rwa [length_drawSeeds]
  refine ⟨(drawSeeds g.size source).1[v], ?_⟩
  rw [conduct, of, Array.getD_eq_getD_getElem?, List.getElem?_toArray, List.getElem?_map,
    List.getElem?_zipIdx, List.getElem?_eq_getElem drawn]
  simp

end Survey

/-- A node knows all other members of its group from its own surroundings. -/
theorem LocalView.exists_peer (h : g.HonestGroups) (source : σ) (hv : v < g.size) {u : Nat}
    (hu : u < g.size) (other : u ≠ v) (same : (g.node u).group = (g.node v).group) :
    ∃ p ∈ (LocalView.of g v ((Survey.conduct g source).1.of v)).peers, p.node = u := by
  obtain ⟨seed, explored⟩ := Survey.exists_explore g source hv
  have colored := ColorTable.mem_bucket_fill h hv hu other same (Random.ChaCha.ofSeed seed)
  rw [explored]
  generalize surroundings : (Surroundings.explore g v (Random.ChaCha.ofSeed seed)).1 = s
  have colors : s.colors =
      (ColorTable.fill g (g.distancesFrom v) (Random.ChaCha.ofSeed seed)).1 := by
    rw [← surroundings]
    rfl
  have known : u ∈ (LocalView.of g v s).known := by
    apply mem_known_foldl_notice.2
    left
    rw [List.map_append, colors]
    exact List.mem_append_right _ colored
  rcases List.mem_cons.1 (((listed_of g v s).known_iff u).1 known) with own | met
  · exact absurd own other
  · exact List.mem_map.1 met

end SloppyGroup
