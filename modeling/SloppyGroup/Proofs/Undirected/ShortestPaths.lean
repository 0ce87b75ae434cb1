import SloppyGroup.Proofs.Undirected.Exactness

/-!
Distance tables measure shortest paths: a table is found after finitely many layers, it gives every
position that can be reached the length of a shortest path to it, lists these positions in the order
of their distances and has the largest distance for its eccentricity. Two positions are as far from
each other in either direction.
-/

namespace SloppyGroup

namespace DistanceTable

variable {graph : SimpleGraph Nat} {neighbors : Nat → List Nat} {count source hops : Nat}
  {distances : Array (Option Nat)} {frontier : List Nat}

/-- A sweep without any bound on the number of layers: one layer after the other is found, up to the
first empty one. -/
inductive Sweeps (neighbors : Nat → List Nat) :
    (hops : Nat) → Array (Option Nat) → List Nat → Array (Option Nat) × List Nat → Prop where
  | ends {hops : Nat} {distances : Array (Option Nat)} {frontier : List Nat} {layer : Layer}
      (next : nextLayer neighbors hops distances frontier = layer) (empty : layer.found = []) :
      Sweeps neighbors hops distances frontier (layer.distances, [])
  | goesOn {hops : Nat} {distances all : Array (Option Nat)} {frontier further : List Nat}
      {layer : Layer} (next : nextLayer neighbors hops distances frontier = layer)
      (some : layer.found ≠ [])
      (rest : Sweeps neighbors (hops + 1) layer.distances layer.found.reverse (all, further)) :
      Sweeps neighbors hops distances frontier (all, layer.found.reverse ++ further)

theorem distances_of_found_eq_nil
    (empty : (nextLayer neighbors hops distances frontier).found = []) :
    (nextLayer neighbors hops distances frontier).distances = distances := by
  apply Array.ext_getElem?
  intro v
  rw [getElem?_nextLayer, empty, List.reverse_nil, if_neg List.not_mem_nil]

/-- A sweep ends by itself after no more layers than there are positions to be found. -/
theorem sweeps_sweep {fuel : Nat} (enough : (unseen distances).card ≤ fuel) :
    Sweeps neighbors hops distances frontier (sweep neighbors fuel hops distances frontier) := by
  induction fuel generalizing hops distances frontier with
  | zero =>
    have none : (nextLayer neighbors hops distances frontier).found = [] := by
      rw [List.eq_nil_iff_forall_not_mem]
      intro v hv
      have new := mem_unseen.2 (mem_found_nextLayer.1 (List.mem_reverse.2 hv)).2
      rw [Finset.card_eq_zero.1 (Nat.le_zero.1 enough)] at new
      cases new
    have ended := Sweeps.ends rfl none
    rw [distances_of_found_eq_nil none] at ended
    exact ended
  | succ fuel ih =>
    rw [sweep]
    simp only
    split
    · rename_i empty
      rw [List.isEmpty_reverse, List.isEmpty_iff] at empty
      exact .ends rfl empty
    · rename_i some
      rw [List.isEmpty_reverse, List.isEmpty_iff] at some
      obtain ⟨v, hv⟩ := List.exists_mem_of_ne_nil _ some
      have fewer := card_unseen_nextLayer (List.mem_reverse.2 hv)
      exact .goesOn rfl some (ih (by omega))

/-- A distance is the length of a shortest path. -/
theorem edist_eq_iff_isLeast {v w k : Nat} :
    graph.edist v w = k ↔ IsLeast {n | ∃ way : graph.Walk v w, way.IsPath ∧ way.length = n} k := by
  constructor
  · intro far
    obtain ⟨way, length⟩ := SimpleGraph.exists_walk_of_edist_eq_coe far
    have dist : graph.dist v w = k := by rw [SimpleGraph.dist, far, ENat.toNat_natCast]
    refine ⟨⟨way, way.isPath_of_length_eq_dist (length.trans dist.symm), length⟩, ?_⟩
    rintro n ⟨other, _, rfl⟩
    have short := SimpleGraph.edist_le other
    rw [far] at short
    exact_mod_cast short
  · rintro ⟨⟨way, _, rfl⟩, least⟩
    apply le_antisymm (SimpleGraph.edist_le way)
    obtain ⟨shortest, path, length⟩ := way.reachable.exists_path_of_dist
    rw [← way.reachable.coe_dist_eq_edist]
    exact_mod_cast least ⟨shortest, path, length⟩

theorem isGreatest_eccentricity {table : DistanceTable}
    (start : table.distance? table.source = some 0) :
    IsGreatest {k | ∃ v, table.distance? v = some k} table.eccentricity := by
  have known (k : Nat) :
      k ∈ table.distances.toList.filterMap id ↔ ∃ v, table.distance? v = some k := by
    simp only [List.mem_filterMap, id, exists_eq_right, distance?, Option.join_eq_some_iff,
      Array.mem_toList_iff, Array.mem_iff_getElem?]
  have top : (0 :: table.distances.toList.filterMap id).max? = some table.eccentricity :=
    List.max?_cons'
  obtain ⟨held, largest⟩ := List.max?_eq_some_iff.1 top
  refine ⟨?_, fun k hk => largest k (List.mem_cons_of_mem _ ((known k).2 hk))⟩
  rcases List.mem_cons.1 held with zero | held
  · rw [zero]
    exact ⟨table.source, start⟩
  · exact (known _).1 held

/-- What a table says about a graph on the positions below `count`. -/
structure Measures (graph : SimpleGraph Nat) (count source : Nat) (table : DistanceTable) :
    Prop where
  none_iff : ∀ v, table.distance? v = none ↔ count ≤ v ∨ ¬graph.Reachable source v
  some_iff : ∀ v k, table.distance? v = some k ↔
    IsLeast {n | ∃ way : graph.Walk source v, way.IsPath ∧ way.length = n} k
  mem_order : ∀ v, v ∈ table.order ↔ source ≠ v ∧ graph.Reachable source v
  nodup_order : table.order.Nodup
  sorted_order : table.order.Pairwise fun v w =>
    ∃ k l, table.distance? v = some k ∧ table.distance? w = some l ∧ k ≤ l
  eccentricity : IsGreatest {k | ∃ v, table.distance? v = some k} table.eccentricity

end DistanceTable

namespace TrustGraph

variable {g : TrustGraph} {s v : Nat}

theorem reachable_iff_edist : g.trust.Reachable s v ↔ ∃ k : Nat, g.trust.edist s v = k := by
  rw [← SimpleGraph.edist_ne_top_iff_reachable, ENat.ne_top_iff_exists]
  simp only [eq_comm]

theorem distance?_eq_none_iff (hs : s < g.size) :
    (g.distancesFrom s).distance? v = none ↔ ¬g.trust.Reachable s v := by
  rw [reachable_iff_edist, Option.eq_none_iff_forall_ne_some, not_exists]
  simp only [ne_eq, distance?_distancesFrom hs]

theorem lt_of_reachable (hs : s < g.size) (reachable : g.trust.Reachable s v) : v < g.size := by
  obtain ⟨k, far⟩ := reachable_iff_edist.1 reachable
  exact g.depicts_trust.lt_of_edist hs far

theorem measures_distancesFrom (hs : s < g.size) :
    (g.distancesFrom s).Measures g.trust g.size s where
  none_iff v := by
    rw [distance?_eq_none_iff hs]
    constructor
    · exact .inr
    · rintro (out | unreachable)
      · exact fun reachable => absurd (lt_of_reachable hs reachable) (Nat.not_lt.2 out)
      · exact unreachable
  some_iff v k := (distance?_distancesFrom hs).trans DistanceTable.edist_eq_iff_isLeast
  mem_order v := mem_order_distancesFrom hs
  nodup_order := nodup_order_distancesFrom hs
  sorted_order := by
    apply (DistanceTable.pairwise_order g.size g.neighbors s).imp_of_mem
    intro v w hv hw sorted
    obtain ⟨k, near⟩ := DistanceTable.exists_distance?_of_mem_order hv
    obtain ⟨l, far⟩ := DistanceTable.exists_distance?_of_mem_order hw
    exact ⟨k, l, near, far, sorted k l near far⟩
  eccentricity := by
    apply DistanceTable.isGreatest_eccentricity
    rw [distance?_distancesFrom hs]
    exact SimpleGraph.edist_self

/-- Distance tables are found after finitely many layers, they are exact, and they agree on the
distance of two nodes whichever of them is the source. -/
theorem distancesFrom_exact (g : TrustGraph) (s : Nat) (hs : s < g.size) :
    DistanceTable.Sweeps g.neighbors 1 ((Array.replicate g.size none).setIfInBounds s (some 0)) [s]
      ((g.distancesFrom s).distances, (g.distancesFrom s).order) ∧
    (g.distancesFrom s).Measures g.trust g.size s ∧
    ∀ v < g.size, (g.distancesFrom s).distance? v = (g.distancesFrom v).distance? s := by
  refine ⟨DistanceTable.sweeps_sweep ?_, measures_distancesFrom hs, fun v hv => ?_⟩
  · apply (DistanceTable.card_unseen_le _).trans
    simp
  · apply Option.ext
    intro k
    exact distance?_comm hs hv

/-- Three nodes that trust each other, a fourth one behind the last of them, and one on its own. -/
def hamlet : TrustGraph where
  nodes := #[⟨"a", default, ⟨[]⟩, false, false, 2, 1, 1, none⟩,
    ⟨"b", default, ⟨[]⟩, false, false, 2, 1, 1, none⟩,
    ⟨"c", default, ⟨[]⟩, false, false, 2, 1, 1, none⟩,
    ⟨"d", default, ⟨[]⟩, false, false, 2, 1, 1, none⟩,
    ⟨"e", default, ⟨[]⟩, false, false, 2, 1, 1, none⟩]
  newest := [(2, 3), (0, 2), (1, 2), (0, 1)]
  neighborTable := Undirected.neighborTable 5 [(2, 3), (0, 2), (1, 2), (0, 1)]
  labels_distinct := by decide
  simple := ⟨by decide, by decide, by decide⟩
  neighborTable_eq := rfl

/-- The fourth node is two steps from the first one, the fifth out of reach. -/
theorem distancesFrom_exact_hamlet :
    0 < hamlet.size ∧
    IsLeast {n | ∃ way : hamlet.trust.Walk 0 3, way.IsPath ∧ way.length = n} 2 ∧
    (hamlet.distancesFrom 3).distance? 0 = some 2 ∧ ¬hamlet.trust.Reachable 0 4 := by
  obtain ⟨_, measures, symmetric⟩ := distancesFrom_exact hamlet 0 (by decide)
  have far : (hamlet.distancesFrom 0).distance? 3 = some 2 := by decide +kernel
  have unknown : (hamlet.distancesFrom 0).distance? 4 = none := by decide +kernel
  refine ⟨by decide, (measures.some_iff 3 2).1 far, (symmetric 3 (by decide)).symm.trans far, ?_⟩
  rcases (measures.none_iff 4).1 unknown with out | unreachable
  · exact absurd out (by decide)
  · exact unreachable

end TrustGraph

end SloppyGroup
