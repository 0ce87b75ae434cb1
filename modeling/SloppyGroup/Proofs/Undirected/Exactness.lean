import SloppyGroup.Proofs.Undirected.Layers
import SloppyGroup.TrustGraph

/-!
Distance tables are exact: every layer holds the positions at one distance from the source, so a
table gives each position that can be reached its distance, and its order lists all of them except
for the source, each once. Distances are the same in both directions.
-/

namespace SloppyGroup

namespace DistanceTable

variable {graph : SimpleGraph Nat} {neighbors : Nat → List Nat} {count source hops : Nat}
  {distances : Array (Option Nat)} {frontier : List Nat}

/-- The neighbours are those of a graph whose edges lie below `count`. -/
structure Depicts (graph : SimpleGraph Nat) (count : Nat) (neighbors : Nat → List Nat) : Prop where
  mem_iff : ∀ {v w}, w ∈ neighbors v ↔ graph.Adj v w
  lt : ∀ {v w}, graph.Adj v w → w < count

theorem edist_succ_of_adj {v w k : Nat} (near : graph.edist source v = k) (adj : graph.Adj v w) :
    graph.edist source w ≤ (k + 1 : Nat) := by
  have step := graph.edist_triangle (u := source) (v := v) (w := w)
  rw [near, SimpleGraph.edist_eq_one_iff_adj.2 adj] at step
  exact_mod_cast step

/-- Whoever is not the source comes after one who is one step nearer. -/
theorem exists_adj_of_edist {v k : Nat} (far : graph.edist source v = (k + 1 : Nat)) :
    ∃ u, graph.edist source u = k ∧ graph.Adj u v := by
  obtain ⟨walk, length⟩ := SimpleGraph.exists_walk_of_edist_eq_coe (graph.edist_comm.trans far)
  cases walk with
  | nil => cases length
  | @cons _ u _ adj rest =>
    refine ⟨u, le_antisymm ?_ ?_, adj.symm⟩
    · rw [SimpleGraph.edist_comm]
      apply (SimpleGraph.edist_le rest).trans
      rw [SimpleGraph.Walk.length_cons] at length
      exact_mod_cast Nat.le_of_eq (Nat.succ_injective length)
    · -- A nearer `u` would bring `v` nearer, too.
      by_contra nearer
      rw [not_le] at nearer
      obtain ⟨j, hj⟩ := ENat.ne_top_iff_exists.1 nearer.ne_top
      rw [← hj] at nearer
      have few := edist_succ_of_adj hj.symm adj.symm
      rw [far] at few
      norm_cast at few nearer
      omega

theorem exists_edist_of_le {v k j : Nat} (far : graph.edist source v = k) (hj : j ≤ k) :
    ∃ u, graph.edist source u = j := by
  induction k generalizing v with
  | zero => exact ⟨v, far.trans (by rw [Nat.le_zero.1 hj])⟩
  | succ k ih =>
    rcases Nat.le_succ_iff.1 hj with hj | rfl
    · obtain ⟨u, near, _⟩ := exists_adj_of_edist far
      exact ih near hj
    · exact ⟨v, far⟩

theorem Depicts.lt_of_edist (depicts : Depicts graph count neighbors) (hs : source < count)
    {v k : Nat} (h : graph.edist source v = k) : v < count := by
  cases k with
  | zero =>
    rw [← SimpleGraph.edist_eq_zero_iff.1 h]
    exact hs
  | succ k =>
    obtain ⟨u, _, adj⟩ := exists_adj_of_edist h
    exact depicts.lt adj

/-- The distances up to `hops` are known, and no others. -/
structure Explored (graph : SimpleGraph Nat) (count source hops : Nat)
    (distances : Array (Option Nat)) : Prop where
  size : distances.size = count
  some_iff : ∀ v k : Nat, distances[v]? = some (some k) ↔ k ≤ hops ∧ graph.edist source v = k

theorem Explored.none_iff (h : Explored graph count source hops distances) (v : Nat) :
    distances[v]? = some none ↔ v < count ∧ ∀ k ≤ hops, graph.edist source v ≠ k := by
  rw [← h.size]
  constructor
  · intro unseen
    obtain ⟨hv, _⟩ := Array.getElem?_eq_some_iff.1 unseen
    refine ⟨hv, fun k hk near => ?_⟩
    rw [(h.some_iff v k).2 ⟨hk, near⟩] at unseen
    cases unseen
  · rintro ⟨hv, far⟩
    rw [Array.getElem?_eq_getElem hv]
    cases held : distances[v] with
    | none => rfl
    | some k =>
      obtain ⟨hk, near⟩ := (h.some_iff v k).1 (by rw [Array.getElem?_eq_getElem hv, held])
      exact absurd near (far k hk)

/-- The next layer finds the positions that are one step farther than the frontier. -/
theorem Explored.mem_found_iff (h : Explored graph count source hops distances)
    (depicts : Depicts graph count neighbors) (hs : source < count)
    (front : ∀ v, v ∈ frontier ↔ graph.edist source v = hops) (v : Nat) :
    v ∈ (nextLayer neighbors (hops + 1) distances frontier).found.reverse ↔
      graph.edist source v = (hops + 1 : Nat) := by
  rw [mem_found_nextLayer, h.none_iff]
  constructor
  · rintro ⟨⟨u, hu, hv⟩, _, far⟩
    have near := edist_succ_of_adj ((front u).1 hu) (depicts.mem_iff.1 hv)
    obtain ⟨k, hk⟩ := ENat.ne_top_iff_exists.1 (ne_top_of_le_ne_top (ENat.natCast_ne_top _) near)
    rw [← hk] at near far ⊢
    norm_cast at near ⊢
    by_contra other
    exact far k (by omega) rfl
  · intro far
    obtain ⟨u, near, adj⟩ := exists_adj_of_edist far
    refine ⟨⟨u, (front u).2 near, depicts.mem_iff.2 adj⟩, depicts.lt_of_edist hs far, ?_⟩
    intro k hk same
    rw [far] at same
    norm_cast at same
    omega

theorem Explored.nextLayer (h : Explored graph count source hops distances)
    (depicts : Depicts graph count neighbors) (hs : source < count)
    (front : ∀ v, v ∈ frontier ↔ graph.edist source v = hops) :
    Explored graph count source (hops + 1)
      (nextLayer neighbors (hops + 1) distances frontier).distances where
  size := (Layer.size_foldl_visit _).trans h.size
  some_iff v k := by
    have found := h.mem_found_iff depicts hs front v
    rw [getElem?_nextLayer]
    split
    · rename_i here
      rw [found.1 here]
      simp only [Option.some.injEq]
      norm_cast
      omega
    · rename_i elsewhere
      rw [h.some_iff]
      constructor
      · rintro ⟨hk, near⟩
        exact ⟨Nat.le_succ_of_le hk, near⟩
      · rintro ⟨hk, near⟩
        refine ⟨Nat.le_of_lt_succ (Nat.lt_of_le_of_ne hk ?_), near⟩
        rintro rfl
        exact elsewhere (found.2 near)

def unseen (distances : Array (Option Nat)) : Finset Nat :=
  (Finset.range distances.size).filter fun v => distances[v]? = some none

theorem mem_unseen {v : Nat} : v ∈ unseen distances ↔ distances[v]? = some none := by
  rw [unseen, Finset.mem_filter, Finset.mem_range, and_iff_right_iff_imp]
  intro h
  exact (Array.getElem?_eq_some_iff.1 h).1

theorem card_unseen_le (distances : Array (Option Nat)) :
    (unseen distances).card ≤ distances.size := by
  calc (unseen distances).card ≤ (Finset.range distances.size).card := Finset.card_filter_le _ _
    _ = distances.size := Finset.card_range _

theorem card_unseen_nextLayer {v : Nat}
    (hv : v ∈ (nextLayer neighbors hops distances frontier).found.reverse) :
    (unseen (nextLayer neighbors hops distances frontier).distances).card <
      (unseen distances).card := by
  apply Finset.card_lt_card
  refine Finset.ssubset_iff_of_subset ?_ |>.2 ⟨v, mem_unseen.2 (mem_found_nextLayer.1 hv).2, ?_⟩
  · intro w hw
    rw [mem_unseen, getElem?_nextLayer] at hw
    split at hw
    · cases hw
    · exact mem_unseen.2 hw
  · rw [mem_unseen, getElem?_nextLayer, if_pos hv]
    simp

/-- A sweep from the distances up to `hops` finds all others, and each of their positions once. -/
structure Exhaustive (graph : SimpleGraph Nat) (source hops : Nat)
    (result : Array (Option Nat) × List Nat) : Prop where
  some_iff : ∀ v k : Nat, result.1[v]? = some (some k) ↔ graph.edist source v = k
  mem_iff : ∀ v, v ∈ result.2 ↔ ∃ k, hops < k ∧ graph.edist source v = (k : Nat)
  nodup : result.2.Nodup

theorem Explored.exhaustive {known : Nat} (h : Explored graph count source known distances)
    (hops_le : hops ≤ known) (none : ∀ v, graph.edist source v ≠ (hops + 1 : Nat)) :
    Exhaustive graph source hops (distances, []) where
  some_iff v k := by
    rw [h.some_iff, and_iff_right_iff_imp]
    intro near
    by_contra far
    obtain ⟨u, hu⟩ := exists_edist_of_le near (j := hops + 1) (by omega)
    exact none u hu
  mem_iff v := by
    simp only [List.not_mem_nil, false_iff, not_exists, not_and]
    intro k hk far
    obtain ⟨u, hu⟩ := exists_edist_of_le far hk
    exact none u hu
  nodup := List.nodup_nil

theorem nodup_found_foldl_visit {layer : Layer} {vs : List Nat} (nodup : layer.found.Nodup)
    (seen : ∀ v ∈ layer.found, layer.distances[v]? ≠ some none) :
    (vs.foldl (Layer.visit hops) layer).found.Nodup := by
  induction vs generalizing layer with
  | nil => exact nodup
  | cons v vs ih =>
    apply ih
    · rw [Layer.visit]
      split
      · rename_i unseen
        exact List.nodup_cons.2 ⟨fun old => seen v old unseen, nodup⟩
      · exact nodup
    · intro w hw
      rw [Layer.getElem?_visit]
      split
      · simp
      · rename_i other
        rcases Layer.mem_found_visit.1 hw with hw | new
        · exact seen w hw
        · exact absurd new other

theorem nodup_found_nextLayer (neighbors : Nat → List Nat) (hops : Nat)
    (distances : Array (Option Nat)) (frontier : List Nat) :
    (nextLayer neighbors hops distances frontier).found.reverse.Nodup := by
  rw [List.nodup_reverse]
  exact nodup_found_foldl_visit List.nodup_nil (by simp)

theorem Explored.sweep {fuel : Nat} (h : Explored graph count source hops distances)
    (depicts : Depicts graph count neighbors) (hs : source < count)
    (front : ∀ v, v ∈ frontier ↔ graph.edist source v = hops)
    (enough : (unseen distances).card ≤ fuel) :
    Exhaustive graph source hops (sweep neighbors fuel (hops + 1) distances frontier) := by
  have found := h.mem_found_iff depicts hs front
  induction fuel generalizing hops distances frontier with
  | zero =>
    apply h.exhaustive (Nat.le_refl hops)
    intro v far
    have new := mem_unseen.2 (mem_found_nextLayer.1 ((found v).2 far)).2
    rw [Finset.card_eq_zero.1 (Nat.le_zero.1 enough)] at new
    cases new
  | succ fuel ih =>
    have next := h.nextLayer depicts hs front
    have nodup := nodup_found_nextLayer neighbors (hops + 1) distances frontier
    have fewer (v : Nat) :
        v ∈ (DistanceTable.nextLayer neighbors (hops + 1) distances frontier).found.reverse →
          (unseen (DistanceTable.nextLayer neighbors (hops + 1) distances frontier).distances).card <
            (unseen distances).card := card_unseen_nextLayer
    rw [DistanceTable.sweep]
    generalize DistanceTable.nextLayer neighbors (hops + 1) distances frontier = layer
      at found next nodup fewer
    simp only
    split
    · rename_i empty
      apply next.exhaustive (Nat.le_succ hops)
      intro v far
      have here := (found v).2 far
      rw [List.isEmpty_iff.1 empty] at here
      cases here
    · rename_i some
      obtain ⟨w, hw⟩ := List.exists_mem_of_ne_nil _ fun empty => some (List.isEmpty_iff.2 empty)
      have further := ih next found (by have := fewer w hw; omega)
        (next.mem_found_iff depicts hs found)
      refine ⟨further.some_iff, fun v => ?_, ?_⟩
      · rw [List.mem_append, found, further.mem_iff]
        constructor
        · rintro (near | ⟨k, hk, far⟩)
          · exact ⟨hops + 1, Nat.lt_succ_self hops, near⟩
          · exact ⟨k, Nat.lt_of_succ_lt hk, far⟩
        · rintro ⟨k, hk, far⟩
          rcases Nat.eq_or_lt_of_le hk with rfl | hk
          · exact .inl far
          · exact .inr ⟨k, hk, far⟩
      · rw [List.nodup_append]
        refine ⟨nodup, further.nodup, ?_⟩
        rintro v hv u hu rfl
        obtain ⟨k, hk, far⟩ := (further.mem_iff v).1 hu
        rw [(found v).1 hv] at far
        norm_cast at far
        omega

theorem explored_start (hs : source < count) :
    Explored graph count source 0 ((Array.replicate count none).setIfInBounds source (some 0)) where
  size := by simp
  some_iff v k := by
    rw [Array.getElem?_setIfInBounds]
    split
    · rename_i same
      simp only [Array.size_replicate, hs, ↓reduceIte, Option.some.injEq, ← same,
        SimpleGraph.edist_self]
      norm_cast
      omega
    · rename_i other
      rw [Array.getElem?_replicate]
      constructor
      · intro h
        split at h
        · cases h
        · cases h
      · rintro ⟨hk, near⟩
        rw [Nat.le_zero.1 hk] at near
        exact absurd (SimpleGraph.edist_eq_zero_iff.1 near) other

/-- A table knows every position that can be reached. -/
theorem Depicts.exhaustive_build (depicts : Depicts graph count neighbors) (hs : source < count) :
    Exhaustive graph source 0
      ((build count neighbors source).distances, (build count neighbors source).order) := by
  apply (explored_start hs).sweep depicts hs
  · intro v
    rw [List.mem_singleton, eq_comm]
    exact SimpleGraph.edist_eq_zero_iff.symm
  · apply (card_unseen_le _).trans
    simp

end DistanceTable

namespace TrustGraph

variable {g : TrustGraph} {v w k : Nat}

/-- No edge leads beyond the last position, so the table of neighbours misses none. -/
theorem neighbors_along (g : TrustGraph) (v : Nat) :
    g.neighbors v = Undirected.neighborsAlong g.newest v := by
  by_cases hv : v < g.size
  · exact neighbors_eq hv
  · have absent : g.neighbors v = [] := by
      rw [neighbors, g.neighborTable_eq]
      have out : ¬v < g.nodes.size := hv
      simp [Undirected.neighborTable, Array.getD, out]
    rw [absent, eq_comm, List.eq_nil_iff_forall_not_mem]
    intro w hw
    rcases Undirected.mem_neighborsAlong.1 hw with edge | edge
    · exact hv (g.simple.inRange _ edge).1
    · exact hv (g.simple.inRange _ edge).2

theorem mem_neighbors : w ∈ g.neighbors v ↔ (v, w) ∈ g.newest ∨ (w, v) ∈ g.newest := by
  rw [neighbors_along, Undirected.mem_neighborsAlong]

/-- Trust as a graph on positions. -/
def trust (g : TrustGraph) : SimpleGraph Nat where
  Adj v w := w ∈ g.neighbors v
  symm := by
    constructor
    intro v w h
    rw [mem_neighbors] at h ⊢
    exact h.symm
  loopless := by
    constructor
    intro v h
    rcases mem_neighbors.1 h with edge | edge
    · exact g.simple.loopless _ edge rfl
    · exact g.simple.loopless _ edge rfl

theorem depicts_trust (g : TrustGraph) : DistanceTable.Depicts g.trust g.size g.neighbors where
  mem_iff := Iff.rfl
  lt {v w} adj := by
    rcases mem_neighbors.1 adj with edge | edge
    · exact (g.simple.inRange _ edge).2
    · exact (g.simple.inRange _ edge).1

theorem distance?_distancesFrom (hv : v < g.size) :
    (g.distancesFrom v).distance? w = some k ↔ g.trust.edist v w = k := by
  rw [DistanceTable.distance?, Option.join_eq_some_iff]
  exact (g.depicts_trust.exhaustive_build hv).some_iff w k

/-- Distances are the same in both directions. -/
theorem distance?_comm (hv : v < g.size) (hw : w < g.size) :
    (g.distancesFrom v).distance? w = some k ↔ (g.distancesFrom w).distance? v = some k := by
  rw [distance?_distancesFrom hv, distance?_distancesFrom hw, SimpleGraph.edist_comm]

theorem mem_order_distancesFrom (hv : v < g.size) :
    w ∈ (g.distancesFrom v).order ↔ v ≠ w ∧ g.trust.Reachable v w := by
  have listed : w ∈ (g.distancesFrom v).order ↔ _ :=
    (g.depicts_trust.exhaustive_build hv).mem_iff w
  rw [listed, ← SimpleGraph.edist_ne_top_iff_reachable, ENat.ne_top_iff_exists, ne_eq,
    ← SimpleGraph.edist_eq_zero_iff (G := g.trust)]
  constructor
  · rintro ⟨k, hk, far⟩
    rw [far]
    norm_cast
    exact ⟨by omega, k, rfl⟩
  · rintro ⟨other, k, far⟩
    rw [← far] at other ⊢
    norm_cast at other
    exact ⟨k, by omega, rfl⟩

theorem nodup_order_distancesFrom (hv : v < g.size) : (g.distancesFrom v).order.Nodup :=
  (g.depicts_trust.exhaustive_build hv).nodup

end TrustGraph

end SloppyGroup
