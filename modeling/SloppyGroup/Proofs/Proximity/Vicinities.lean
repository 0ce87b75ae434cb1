import SloppyGroup.Proofs.Proximity.Sampling

/-!
Vicinities are full samples: whatever places of the frontier are drawn, a vicinity holds as many of
the nodes around its source as fit, each once, at its distance and next to the source or to one that
was met before. No place is ever drawn from an empty frontier.
-/

namespace SloppyGroup

/-- The other nodes that a node can reach. -/
def TrustGraph.others (g : TrustGraph) (v : Nat) : Set Nat :=
  {u | v ≠ u ∧ g.trust.Reachable v u}

namespace Vicinity

variable {g : TrustGraph} {v capacity : Nat}

/-- A vicinity of `v` holds as many of the other nodes that `v` can reach as fit, each once, at its
distance and next to `v` or to an earlier one. -/
structure Samples (g : TrustGraph) (v capacity : Nat) (vicinity : Vicinity) : Prop where
  size : (vicinity.peers.length : ℕ∞) = min (capacity : ℕ∞) (g.others v).encard
  nodup : (vicinity.peers.map (·.node)).Nodup
  ne_source : ∀ p ∈ vicinity.peers, p.node ≠ v
  hops_eq : ∀ p ∈ vicinity.peers, g.trust.edist v p.node = p.hops
  linked : ∀ before p after, vicinity.peers = before ++ p :: after →
    ∃ u ∈ v :: before.map (·.node), g.trust.Adj u p.node

end Vicinity

namespace Sampling

variable {g : TrustGraph} {v u capacity : Nat} {s : Sampling}

theorem Sound.ne_source (h : s.Sound g v capacity) (hu : u ∈ s.newest.map (·.node)) : u ≠ v := by
  rintro rfl
  exact (List.nodup_append.1 h.nodup).2.2 u hu u (List.mem_singleton_self u) rfl

theorem Sound.sampled_subset (h : s.Sound g v capacity) (hv : v < g.size) :
    {u | u ∈ s.newest.map (·.node)} ⊆ g.others v := by
  intro u hu
  exact ⟨(h.ne_source hu).symm, h.reachable hv (List.mem_append_left _ hu)⟩

/-- Once the frontier is empty, everyone who can be reached was met. -/
theorem Closed.mem_nodes (h : s.Closed g v capacity) (room : s.newest.length < capacity)
    (empty : s.frontier.size = 0) (reachable : g.trust.Reachable v u) : u ∈ s.nodes v := by
  obtain ⟨way⟩ := reachable
  induction way using SimpleGraph.Walk.concatRec with
  | Hnil => exact List.mem_append_right _ (List.mem_singleton_self _)
  | Hconcat way adj ih =>
    rcases h room _ (ih h) with waiting | done
    · rw [Array.eq_empty_of_size_eq_zero empty] at waiting
      exact absurd waiting (Array.not_mem_empty _)
    · exact done _ adj

theorem Sound.nodup_sampled (h : s.Sound g v capacity) : (s.newest.map (·.node)).Nodup :=
  h.nodup.of_append_left

theorem Sound.length_eq_min (h : s.Sound g v capacity) (hv : v < g.size)
    (closed : s.Closed g v capacity) (stopped : s.Stopped capacity) :
    (s.newest.length : ℕ∞) = min (capacity : ℕ∞) (g.others v).encard := by
  rw [← Peer.encard_nodes h.nodup_sampled]
  have inside := h.sampled_subset hv
  rcases Nat.lt_or_ge s.newest.length capacity with room | full
  · have empty := stopped.resolve_right (Nat.not_le.2 room)
    have all : {u | u ∈ s.newest.map (·.node)} = g.others v := by
      apply inside.antisymm
      rintro u ⟨other, reachable⟩
      rcases List.mem_append.1 (closed.mem_nodes room empty reachable) with sampled | source
      · exact sampled
      · exact absurd (List.mem_singleton.1 source).symm other
    rw [← all, min_eq_right]
    rw [Peer.encard_nodes h.nodup_sampled]
    exact_mod_cast h.bounded
  · have same := Nat.le_antisymm h.bounded full
    rw [Peer.encard_nodes h.nodup_sampled, same, min_eq_left]
    rw [← same, ← Peer.encard_nodes h.nodup_sampled]
    exact Set.encard_le_encard inside

theorem Sound.samples (h : s.Sound g v capacity) (hv : v < g.size) (closed : s.Closed g v capacity)
    (stopped : s.Stopped capacity) : Vicinity.Samples g v capacity ⟨s.newest.reverse⟩ where
  size := by
    rw [List.length_reverse]
    exact h.length_eq_min hv closed stopped
  nodup := by
    rw [List.map_reverse, List.nodup_reverse]
    exact h.nodup_sampled
  ne_source p hp := h.ne_source (List.mem_map_of_mem (List.mem_reverse.1 hp))
  hops_eq p hp := (TrustGraph.distance?_distancesFrom hv).1 (h.finds p (List.mem_reverse.1 hp))
  linked before p after split := by
    change s.newest.reverse = before ++ p :: after at split
    have older : s.newest = after.reverse ++ p :: before.reverse := by
      rw [← s.newest.reverse_reverse, split]
      simp
    obtain ⟨u, hu, adj⟩ := h.linked _ p _ older
    refine ⟨u, ?_, adj⟩
    rw [List.map_reverse, List.mem_append, List.mem_reverse, or_comm] at hu
    simpa using hu

end Sampling

namespace Vicinity

variable {σ : Type} [RandomSource σ]

/-- Sampling a vicinity comes to an end, after expansions each of which draws from a frontier with
someone in it, and leaves a full sample of the nodes around the source. -/
theorem sample_fills (g : TrustGraph) (v : Nat) (hv : v < g.size) (source : σ) :
    let capacity := (g.node v).vicinityCapacity
    let sampled := sample g (g.distancesFrom v) source
    sampled.1.Samples g v capacity ∧
    ∃ last, Relation.ReflTransGen (Sampling.Expands g v capacity)
        (Sampling.start g.size v, source) (last, sampled.2) ∧
      last.Stopped capacity ∧ sampled.1.peers = last.newest.reverse := by
  intro capacity sampled
  have enough : (Sampling.start g.size v).frontier.size + g.size ≤
      g.size + ((Sampling.start g.size v).nodes v).length := by
    simp [Sampling.start, Sampling.nodes, Nat.add_comm]
  obtain ⟨last, rest, grown, steps, stopped, sound, closed⟩ :=
    (Sampling.sound_start hv capacity).grow_stops hv (Sampling.closed_start g v capacity) enough
      source
  have run : Sampling.grow g (g.distancesFrom v)
      (g.node (g.distancesFrom v).source).vicinityCapacity g.size
      (Sampling.start g.size (g.distancesFrom v).source) source = (last, rest) := grown
  have result : sampled = (⟨last.newest.reverse⟩, rest) := by
    simp only [sampled, sample, run]
  rw [result]
  exact ⟨sound.samples hv closed stopped, last, steps, stopped, rfl⟩

/-- The sample is full in the middle of the second expansion, so one node is left out. -/
theorem sample_fills_hamlet :
    3 < TrustGraph.hamlet.size ∧
    (⟨[⟨1, 2⟩, ⟨2, 0⟩]⟩ : Vicinity).Samples TrustGraph.hamlet 3 2 := by
  have sampled : (sample TrustGraph.hamlet (TrustGraph.hamlet.distancesFrom 3)
      (Random.ChaCha.ofSeed 0)).1 = ⟨[⟨1, 2⟩, ⟨2, 0⟩]⟩ := by decide +kernel
  have fills := (sample_fills TrustGraph.hamlet 3 (by decide) (Random.ChaCha.ofSeed 0)).1
  rw [sampled] at fills
  exact ⟨by decide, fills⟩

end Vicinity

end SloppyGroup
