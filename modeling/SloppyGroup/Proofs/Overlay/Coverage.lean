import SloppyGroup.Proofs.Overlay.Outreach
import SloppyGroup.Proofs.Proximity.Nearest
import SloppyGroup.Proofs.Undirected.ShortestPaths

/-!
Coverage of local views: a node's view holds members of its group, each once and at its distance,
and whoever of its group is not in the view is behind as many others as a bucket has room for.
-/

namespace SloppyGroup

variable {σ : Type} [RandomSource σ] {g : TrustGraph} {v : Nat}

namespace Bucket

variable {capacity u : Nat} {nodes : Set Nat} {b : Bucket}

/-- A bucket leaves nobody out unless it is full. -/
theorem Nearest.size_eq_capacity (h : b.Nearest g v nodes capacity) (hu : u ∈ nodes)
    (out : u ∉ b.peers.map (·.node)) : b.size = capacity := by
  have kept : {w | w ∈ b.peers.map (·.node)}.encard = (b.size : ℕ∞) := Peer.encard_nodes h.nodup
  have inside : {w | w ∈ b.peers.map (·.node)} ⊆ nodes := by
    intro w hw
    obtain ⟨p, hp, rfl⟩ := List.mem_map.1 hw
    exact h.mem p hp
  have room : ¬nodes.encard ≤ (b.size : ℕ∞) := by
    intro few
    rw [← kept] at few
    have all := (List.finite_toSet _).eq_of_subset_of_encard_le inside few
    exact out (all.ge hu)
  rcases min_choice (capacity : ℕ∞) nodes.encard with full | fits
  · exact_mod_cast h.size.trans full
  · exact absurd (h.size.trans fits).ge room

end Bucket

namespace ColorTable

/-- The bucket of a prefix keeps the nearest of the nodes around `v` that have it. -/
theorem nearest_fill (hv : v < g.size) (positive : 0 < (g.node v).bucketCapacity)
    (long : ∀ u < g.size, (g.node v).group.length ≤ (g.node u).id.length) (source : σ)
    (p : GroupPrefix) :
    (bucket (fill g (g.distancesFrom v) source).1 p).Nearest g v (g.colored v p)
      (g.node v).bucketCapacity := by
  obtain ⟨leftOut, keeps⟩ := keeps_foldl_offerTo (g.node v).bucketCapacity
    (fun u => (g.node u).id.leading (g.node v).group.length)
    (candidates (g.distancesFrom v)) source p
  rw [fill_eq_fillAll_of_long g v positive long]
  apply keeps.nearest _ (mem_map_filter_candidates hv p)
  · intro w hw
    have found := (mem_candidates.1 (List.mem_of_mem_filter hw)).2
    exact (TrustGraph.distance?_distancesFrom hv).1 found
  · exact (nodup_candidates hv).sublist (List.filter_sublist.map _)

end ColorTable

namespace LocalView

/-- A view of `v` covers the group of `v`: it holds members of the group, each once and at its
distance, and as many of them as a bucket has room for are no farther than anyone who is missing. -/
structure Covers (g : TrustGraph) (v : Nat) (view : LocalView) : Prop where
  nodup : (view.peers.map (·.node)).Nodup
  ne_owner : ∀ p ∈ view.peers, p.node ≠ v
  sharesGroup : ∀ p ∈ view.peers, (g.node v).sharesGroup (g.node p.node) = true
  hops_eq : ∀ p ∈ view.peers, g.trust.edist v p.node = p.hops
  known_iff : ∀ u : Nat, u ∈ view.known ↔ u = v ∨ u ∈ view.peers.map (·.node)
  covered : ∀ u, g.trust.Reachable v u → (g.node v).sharesGroup (g.node u) = true →
    u ∉ view.known →
    ∃ nearer : List Peer, nearer.length = (g.node v).bucketCapacity ∧
      (nearer.map (·.node)).Nodup ∧
      ∀ p ∈ nearer, p ∈ view.peers ∧ g.trust.edist v p.node ≤ g.trust.edist v u

/-- Whoever is known is in the view, the owner apart. -/
theorem mem_of_known {s : Surroundings} (h : s.Sound g v) {peer : Peer}
    (finds : (g.distancesFrom v).Finds peer) (known : peer.node ∈ (LocalView.of g v s).known)
    (other : peer.node ≠ v) : peer ∈ (LocalView.of g v s).peers := by
  rcases List.mem_cons.1 (((listed_of g v s).known_iff _).1 known) with own | met
  · exact absurd own other
  · obtain ⟨q, listed, node⟩ := List.mem_map.1 met
    rw [← (finds_of h q listed).eq finds node]
    exact listed

/-- Whoever is in the bucket of a node's own prefix is in its view. -/
theorem mem_of_mem_bucket {s : Surroundings} (h : s.Sound g v) {peer : Peer}
    (hp : peer ∈ (ColorTable.bucket s.colors (g.node v).group).peers) (other : peer.node ≠ v) :
    peer ∈ (LocalView.of g v s).peers := by
  refine mem_of_known h (h.finds_color hp) (mem_known_foldl_notice.2 (.inl ?_)) other
  exact List.mem_map_of_mem (List.mem_append_right _ hp)

/-- Whoever of a node's group is in its vicinity is in its view. -/
theorem mem_of_mem_vicinity {s : Surroundings} (h : s.Sound g v) {peer : Peer}
    (hp : peer ∈ s.vicinity.peers) (shares : (g.node v).sharesGroup (g.node peer.node) = true)
    (other : peer.node ≠ v) : peer ∈ (LocalView.of g v s).peers := by
  refine mem_of_known h (h.vicinity peer hp) (mem_known_foldl_notice.2 (.inl ?_)) other
  exact List.mem_map_of_mem (List.mem_append_left _ (List.mem_filter.2 ⟨hp, shares⟩))

/-- Whoever is missing in a view although it could be in the bucket of the group is behind a full
bucket of peers, all of them in the view. -/
theorem exists_nearer {s : Surroundings} (sound : s.Sound g v) {capacity u : Nat}
    (nearest : (ColorTable.bucket s.colors (g.node v).group).Nearest g v
      (g.colored v (g.node v).group) capacity)
    (hu : u ∈ g.colored v (g.node v).group) (missing : u ∉ (LocalView.of g v s).known) :
    ∃ nearer : List Peer, nearer.length = capacity ∧ (nearer.map (·.node)).Nodup ∧
      ∀ p ∈ nearer, p ∈ (LocalView.of g v s).peers ∧
        g.trust.edist v p.node ≤ g.trust.edist v u := by
  have viewed : ∀ p ∈ (ColorTable.bucket s.colors (g.node v).group).peers,
      p ∈ (LocalView.of g v s).peers := fun p hp =>
    mem_of_mem_bucket sound hp (nearest.mem p hp).1.symm
  have out : u ∉ (ColorTable.bucket s.colors (g.node v).group).peers.map (·.node) := by
    intro kept
    obtain ⟨p, hp, rfl⟩ := List.mem_map.1 kept
    apply missing
    rw [(listed_of g v s).known_iff]
    exact List.mem_cons_of_mem v (List.mem_map_of_mem (viewed p hp))
  refine ⟨_, nearest.size_eq_capacity hu out, nearest.nodup, fun p hp => ⟨viewed p hp, ?_⟩⟩
  exact nearest.nearest u hu out p hp

/-- The view that a node collects from its surroundings covers its group if no identifier is
shorter than its group prefix. It leaves out nobody of the group who is in the vicinity. -/
theorem of_explore_covers (g : TrustGraph) (v : Nat) (hv : v < g.size)
    (long : ∀ u < g.size, (g.node v).group.length ≤ (g.node u).id.length) (source : σ) :
    let surroundings := (Surroundings.explore g v source).1
    (LocalView.of g v surroundings).Covers g v ∧
      ∀ p ∈ surroundings.vicinity.peers, p.node ≠ v →
        (g.node v).sharesGroup (g.node p.node) = true →
          p ∈ (LocalView.of g v surroundings).peers := by
  intro surroundings
  have sound : surroundings.Sound g v := Surroundings.sound_explore g v source
  have listed := listed_of g v surroundings
  refine ⟨⟨listed.nodup.of_cons, ?ne_owner, sharesGroup_of sound, ?hops_eq, ?known_iff, ?covered⟩,
    fun p near other shares => mem_of_mem_vicinity sound near shares other⟩
  case ne_owner =>
    rintro p hp rfl
    exact (List.nodup_cons.1 listed.nodup).1 (List.mem_map_of_mem hp)
  case hops_eq => exact fun p hp => (TrustGraph.distance?_distancesFrom hv).1 (finds_of sound p hp)
  case known_iff => exact fun u => (listed.known_iff u).trans List.mem_cons
  case covered =>
    intro u reachable shares missing
    rcases Nat.eq_zero_or_pos (g.node v).bucketCapacity with none | positive
    · -- without room, no bucket is filled, and nobody needs to be nearer
      exact ⟨[], none.symm, List.nodup_nil, fun p hp => by cases hp⟩
    · have other : v ≠ u := by
        rintro rfl
        exact missing ((listed.known_iff v).2 List.mem_cons_self)
      exact exists_nearer sound (ColorTable.nearest_fill hv positive long source _)
        ⟨other, reachable, Identifier.startsWith_iff.1 shares⟩ missing

/-- The second node is missing in the view of the fourth one. It is no nearer than a peer. The third
one is in the vicinity and so in the view. -/
theorem of_explore_covers_hamlet :
    let surroundings := (Surroundings.explore TrustGraph.hamlet 3 (Random.ChaCha.ofSeed 0)).1
    let view := LocalView.of TrustGraph.hamlet 3 surroundings
    3 < TrustGraph.hamlet.size ∧
    (∀ u < TrustGraph.hamlet.size,
      (TrustGraph.hamlet.node 3).group.length ≤ (TrustGraph.hamlet.node u).id.length) ∧
    view.Covers TrustGraph.hamlet 3 ∧ 1 ∉ view.known ∧
    (∃ p ∈ view.peers,
      TrustGraph.hamlet.trust.edist 3 p.node ≤ TrustGraph.hamlet.trust.edist 3 1) ∧
    ⟨1, 2⟩ ∈ surroundings.vicinity.peers ∧ ⟨1, 2⟩ ∈ view.peers := by
  intro surroundings view
  have long : ∀ u < TrustGraph.hamlet.size,
      (TrustGraph.hamlet.node 3).group.length ≤ (TrustGraph.hamlet.node u).id.length := by decide
  obtain ⟨covers, viewed⟩ :=
    of_explore_covers TrustGraph.hamlet 3 (by decide) long (Random.ChaCha.ofSeed 0)
  have covers : view.Covers TrustGraph.hamlet 3 := covers
  have close : ⟨1, 2⟩ ∈ surroundings.vicinity.peers := by decide +kernel
  have peers : view.peers.map (·.node) = [2, 0] := by decide +kernel
  have missing : 1 ∉ view.known := by
    rw [covers.known_iff, peers]
    decide
  have near : (TrustGraph.hamlet.distancesFrom 3).distance? 1 = some 2 := by decide +kernel
  have reachable : TrustGraph.hamlet.trust.Reachable 3 1 :=
    TrustGraph.reachable_iff_edist.2 ⟨2, (TrustGraph.distance?_distancesFrom (by decide)).1 near⟩
  obtain ⟨nearer, count, -, nearest⟩ := covers.covered 1 reachable (by decide) missing
  obtain ⟨p, hp⟩ := List.exists_mem_of_length_pos (count.symm ▸ Nat.one_pos : 0 < nearer.length)
  exact ⟨by decide, long, covers, missing, ⟨p, nearest p hp⟩, close,
    viewed _ close (by decide) (by decide)⟩

end LocalView

end SloppyGroup
