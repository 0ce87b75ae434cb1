import SloppyGroup.Proofs.Statistics.Partitions
import SloppyGroup.Proofs.Undirected.ShortestPaths
import SloppyGroup.Proofs.Undirected.Simplification

/-!
Components of exported graphs: every connected component is counted once, with its size and the
largest distance in it, largest first, and together they have all positions. The order of the edges,
their direction and how often they are given do not matter.
-/

namespace SloppyGroup

namespace Partition

variable {p : Partition} {count v w r : Nat}

/-- The positions below `count` that are represented by `r`. -/
def members (p : Partition) (count r : Nat) : List Nat :=
  (List.range count).filter fun v => p.find v = r

def representatives (p : Partition) (count : Nat) : List Nat :=
  (List.range count).filter fun r => !(p.members count r).isEmpty

theorem classes_eq (p : Partition) (count : Nat) :
    p.classes count = (p.representatives count).map (p.members count) :=
  List.filter_map

theorem mem_members : v ∈ p.members count r ↔ v < count ∧ p.find v = r := by
  simp [members]

theorem nodup_members (p : Partition) (count r : Nat) : (p.members count r).Nodup :=
  List.nodup_range.filter _

theorem nodup_representatives (p : Partition) (count : Nat) : (p.representatives count).Nodup :=
  List.nodup_range.filter _

theorem Sound.mem_representatives (h : p.Sound count) :
    r ∈ p.representatives count ↔ r < count ∧ p.find r = r := by
  rw [representatives, List.mem_filter, List.mem_range, and_congr_right_iff]
  intro hr
  rw [Bool.not_eq_true', List.isEmpty_eq_false_iff_exists_mem]
  constructor
  · rintro ⟨v, hv⟩
    obtain ⟨lt, rfl⟩ := mem_members.1 hv
    exact h.find_find v lt
  · intro root
    exact ⟨r, mem_members.2 ⟨hr, root⟩⟩

/-- Every position is in one class. -/
theorem Sound.perm_flatMap_members (h : p.Sound count) :
    ((p.representatives count).flatMap (p.members count)).Perm (List.range count) := by
  have nodup : ((p.representatives count).flatMap (p.members count)).Nodup := by
    rw [List.nodup_flatMap]
    refine ⟨fun r _ => p.nodup_members count r, (p.nodup_representatives count).imp ?_⟩
    intro r s other v hr hs
    exact other ((mem_members.1 hr).2.symm.trans (mem_members.1 hs).2)
  rw [List.perm_ext_iff_of_nodup nodup List.nodup_range]
  intro v
  rw [List.mem_flatMap, List.mem_range]
  constructor
  · rintro ⟨r, _, hv⟩
    exact (mem_members.1 hv).1
  · intro hv
    exact ⟨p.find v, h.mem_representatives.2 ⟨h.find_lt v hv, h.find_find v hv⟩,
      mem_members.2 ⟨hv, rfl⟩⟩

end Partition

namespace ExportedGraph

/-- The positions that the edges join, without directions. -/
def ends (x : ExportedGraph) : List (Sym2 Nat) :=
  x.edges.map fun e => Undirected.ends (e.source, e.target)

/-- The graph on the positions below `count` that an export amounts to without directions, loops
and edges to other positions. -/
def undirected (x : ExportedGraph) (count : Nat) : SimpleGraph Nat where
  Adj v w := v ≠ w ∧ v < count ∧ w < count ∧ s(v, w) ∈ x.ends
  symm := by
    constructor
    rintro v w ⟨other, hv, hw, edge⟩
    exact ⟨other.symm, hw, hv, Sym2.eq_swap ▸ edge⟩
  loopless := by
    constructor
    rintro v ⟨other, _⟩
    exact other rfl

end ExportedGraph

namespace Component

variable {x y : ExportedGraph} {graph : SimpleGraph Nat} {count v w r : Nat}
  {neighbors : Nat → List Nat} {members : List Nat}

theorem mem_usableEdges : (v, w) ∈ usableEdges x count ↔
    v < count ∧ w < count ∧ v ≠ w ∧ (v, w) ∈ x.edges.map fun e => (e.source, e.target) := by
  simp only [usableEdges, List.mem_filter, Bool.and_eq_true, decide_eq_true_eq, bne_iff_ne]
  tauto

theorem usableEdges_inRange : ∀ e ∈ usableEdges x count, e.1 < count ∧ e.2 < count := by
  rintro ⟨v, w⟩ he
  obtain ⟨hv, hw, _⟩ := mem_usableEdges.1 he
  exact ⟨hv, hw⟩

theorem adj_undirected_iff : (x.undirected count).Adj v w ↔
    (v, w) ∈ usableEdges x count ∨ (w, v) ∈ usableEdges x count := by
  have ends : x.ends = (x.edges.map fun e => (e.source, e.target)).map Undirected.ends := by
    rw [List.map_map]
    rfl
  have joined : s(v, w) ∈ x.ends ↔
      (v, w) ∈ x.edges.map (fun e => (e.source, e.target)) ∨
        (w, v) ∈ x.edges.map fun e => (e.source, e.target) := by
    rw [ends]
    exact Undirected.mem_map_ends (e := (v, w))
  rw [mem_usableEdges, mem_usableEdges]
  change v ≠ w ∧ v < count ∧ w < count ∧ s(v, w) ∈ x.ends ↔ _
  rw [joined]
  tauto

/-- The neighbours that components are measured with. -/
def neighborsIn (x : ExportedGraph) (count v : Nat) : List Nat :=
  (Undirected.neighborTable count (Undirected.newestFirst (usableEdges x count))).getD v []

theorem depicts_neighborsIn (x : ExportedGraph) (count : Nat) :
    DistanceTable.Depicts (x.undirected count) count (neighborsIn x count) where
  lt adj := adj.2.2.1
  mem_iff {v w} := by
    by_cases hv : v < count
    · have edge : w ∈ neighborsIn x count v ↔
          s(v, w) ∈ (Undirected.newestFirst (usableEdges x count)).map Undirected.ends := by
        rw [neighborsIn, Undirected.getD_neighborTable hv, Undirected.mem_neighborsAlong]
        exact (Undirected.mem_map_ends (e := (v, w))).symm
      rw [edge, Undirected.mem_map_ends_newestFirst, adj_undirected_iff]
      constructor
      · rintro ⟨_, edge⟩
        exact (Undirected.mem_map_ends (e := (v, w))).1 edge
      · intro edge
        refine ⟨fun loop => ?_, (Undirected.mem_map_ends (e := (v, w))).2 edge⟩
        exact (x.undirected count).ne_of_adj (adj_undirected_iff.2 edge) (Sym2.mk_isDiag_iff.1 loop)
    · have none : neighborsIn x count v = [] := by
        simp [neighborsIn, Undirected.neighborTable, Array.getD, hv]
      rw [none]
      constructor
      · intro h
        cases h
      · intro adj
        exact absurd adj.2.1 hv

/-- A component has the size of a connected component of a graph, and the largest distance that two
of its positions have. -/
structure Describes (graph : SimpleGraph Nat) (c : graph.ConnectedComponent) (m : Component) :
    Prop where
  size : m.size = c.supp.ncard
  diameter : IsGreatest {d : Nat | ∃ v ∈ c.supp, ∃ w ∈ c.supp, graph.edist v w = d} m.diameter

theorem Describes.unique {c : graph.ConnectedComponent} {m n : Component}
    (hm : Describes graph c m) (hn : Describes graph c n) : m = n := by
  obtain ⟨size, diameter⟩ := m
  obtain ⟨size', diameter'⟩ := n
  rw [mk.injEq]
  exact ⟨hm.size.trans hn.size.symm, hm.diameter.unique hn.diameter⟩

theorem isGreatest_foldl_max {ks : List Nat} (some : ks ≠ []) :
    IsGreatest {k | k ∈ ks} (ks.foldl max 0) := by
  have top : (0 :: ks).max? = Option.some (ks.foldl max 0) := List.max?_cons'
  obtain ⟨held, largest⟩ := List.max?_eq_some_iff.1 top
  refine ⟨?_, fun k hk => largest k (List.mem_cons_of_mem 0 hk)⟩
  rcases List.mem_cons.1 held with zero | held
  · obtain ⟨k, hk⟩ := List.exists_mem_of_ne_nil ks some
    have small := largest k (List.mem_cons_of_mem 0 hk)
    rw [zero, Nat.le_zero] at small
    rw [zero, ← small]
    exact hk
  · exact held

theorem isGreatest_eccentricity (depicts : DistanceTable.Depicts graph count neighbors)
    (hv : v < count) :
    IsGreatest {d : Nat | ∃ w, graph.edist v w = d}
      (DistanceTable.build count neighbors v).eccentricity := by
  have known (w d : Nat) :
      (DistanceTable.build count neighbors v).distance? w = some d ↔ graph.edist v w = d := by
    rw [DistanceTable.distance?, Option.join_eq_some_iff]
    exact (depicts.exhaustive_build hv).some_iff w d
  have start : (DistanceTable.build count neighbors v).distance? v = some 0 :=
    (known v 0).2 SimpleGraph.edist_self
  have greatest : IsGreatest {d | ∃ w, (DistanceTable.build count neighbors v).distance? w = some d}
      (DistanceTable.build count neighbors v).eccentricity :=
    DistanceTable.isGreatest_eccentricity start
  simp only [known] at greatest
  exact greatest

/-- Positions that are all those of a connected component are measured as that component. -/
theorem describes_measure (depicts : DistanceTable.Depicts graph count neighbors)
    {c : graph.ConnectedComponent} (nodup : members.Nodup) (lt : ∀ v ∈ members, v < count)
    (mem_iff : ∀ v, v ∈ members ↔ v ∈ c.supp) :
    Describes graph c (measure count neighbors members) where
  size := by
    have same : c.supp = members.toFinset := by
      ext v
      rw [Finset.mem_coe, List.mem_toFinset, mem_iff]
    rw [same, Set.ncard_coe_finset, List.toFinset_card_of_nodup nodup]
    rfl
  diameter := by
    obtain ⟨v, hv⟩ := c.nonempty_supp
    have some : members.map (fun v => (DistanceTable.build count neighbors v).eccentricity) ≠ [] :=
      List.ne_nil_of_mem (List.mem_map_of_mem ((mem_iff v).2 hv))
    obtain ⟨held, largest⟩ := isGreatest_foldl_max some
    constructor
    · obtain ⟨v, hv, same⟩ := List.mem_map.1 held
      obtain ⟨⟨w, far⟩, _⟩ := isGreatest_eccentricity depicts (lt v hv)
      have reachable : graph.Reachable v w := by
        rw [← SimpleGraph.edist_ne_top_iff_reachable, far]
        exact ENat.natCast_ne_top _
      have there : w ∈ c.supp :=
        (SimpleGraph.ConnectedComponent.sound reachable.symm).trans ((mem_iff v).1 hv)
      refine ⟨v, (mem_iff v).1 hv, w, there, ?_⟩
      rw [far, same]
      rfl
    · rintro d ⟨v, hv, w, _, far⟩
      have hv := (mem_iff v).2 hv
      have here : d ≤ (DistanceTable.build count neighbors v).eccentricity :=
        (isGreatest_eccentricity depicts (lt v hv)).2 ⟨w, far⟩
      exact here.trans (largest (List.mem_map.2 ⟨v, hv, rfl⟩))

/-- The partition that components are read from. -/
def partition (x : ExportedGraph) (count : Nat) : Partition :=
  (Partition.discrete count).joined (usableEdges x count)

theorem sound_partition (x : ExportedGraph) (count : Nat) : (partition x count).Sound count :=
  (Partition.sound_discrete count).joined usableEdges_inRange

theorem find_partition_eq_iff (hv : v < count) (hw : w < count) :
    (partition x count).find v = (partition x count).find w ↔ (x.undirected count).Reachable v w :=
  Partition.find_joined_eq_iff usableEdges_inRange (fun _ _ => adj_undirected_iff) hv hw

theorem ofExport_perm (x : ExportedGraph) (count : Nat) :
    (ofExport x count).Perm (((partition x count).representatives count).map fun r =>
      measure count (neighborsIn x count) ((partition x count).members count r)) := by
  have classes : ((partition x count).classes count).map (measure count (neighborsIn x count)) =
      ((partition x count).representatives count).map fun r =>
        measure count (neighborsIn x count) ((partition x count).members count r) := by
    rw [Partition.classes_eq, List.map_map]
    rfl
  rw [← classes]
  exact List.mergeSort_perm _ _

/-- What is represented by a position is its connected component. -/
theorem describes_members (hr : r ∈ (partition x count).representatives count) :
    Describes (x.undirected count) ((x.undirected count).connectedComponentMk r)
      (measure count (neighborsIn x count) ((partition x count).members count r)) := by
  obtain ⟨lt, root⟩ := (sound_partition x count).mem_representatives.1 hr
  apply describes_measure (depicts_neighborsIn x count) (Partition.nodup_members _ _ _)
  · intro v hv
    exact (Partition.mem_members.1 hv).1
  · intro v
    rw [Partition.mem_members, SimpleGraph.ConnectedComponent.mem_supp_iff,
      SimpleGraph.ConnectedComponent.eq]
    constructor
    · rintro ⟨hv, same⟩
      exact (find_partition_eq_iff hv lt).1 (same.trans root.symm)
    · intro reachable
      obtain ⟨d, far⟩ := ENat.ne_top_iff_exists.1
        (SimpleGraph.edist_ne_top_iff_reachable.2 reachable.symm)
      have hv : v < count := (depicts_neighborsIn x count).lt_of_edist lt far.symm
      exact ⟨hv, ((find_partition_eq_iff hv lt).2 reachable).trans root⟩

/-- The connected components that have a position below `count`. -/
def Listed (graph : SimpleGraph Nat) (count : Nat) (cs : List graph.ConnectedComponent) : Prop :=
  cs.Nodup ∧ ∀ c, c ∈ cs ↔ ∃ v < count, graph.connectedComponentMk v = c

theorem listed_representatives (x : ExportedGraph) (count : Nat) :
    Listed (x.undirected count) count (((partition x count).representatives count).map
      (x.undirected count).connectedComponentMk) := by
  have sound := sound_partition x count
  constructor
  · apply List.Nodup.map_on _ (Partition.nodup_representatives _ _)
    intro r hr s hs same
    obtain ⟨hr, rootR⟩ := sound.mem_representatives.1 hr
    obtain ⟨hs, rootS⟩ := sound.mem_representatives.1 hs
    rw [← rootR, ← rootS, find_partition_eq_iff hr hs]
    exact SimpleGraph.ConnectedComponent.exact same
  · intro c
    rw [List.mem_map]
    constructor
    · rintro ⟨r, hr, rfl⟩
      exact ⟨r, (sound.mem_representatives.1 hr).1, rfl⟩
    · rintro ⟨v, hv, rfl⟩
      have lt := sound.find_lt v hv
      have root := sound.find_find v hv
      refine ⟨_, sound.mem_representatives.2 ⟨lt, root⟩, ?_⟩
      exact SimpleGraph.ConnectedComponent.sound ((find_partition_eq_iff lt hv).1 root)

/-- Every component of an export describes one connected component. -/
theorem exists_listed_ofExport (x : ExportedGraph) (count : Nat)
    (same : x.undirected count = graph) :
    ∃ cs, Listed graph count cs ∧ List.Forall₂ (Describes graph) cs (ofExport x count) := by
  subst same
  have described : List.Forall₂ (Describes (x.undirected count))
      (((partition x count).representatives count).map (x.undirected count).connectedComponentMk)
      (((partition x count).representatives count).map fun r =>
        measure count (neighborsIn x count) ((partition x count).members count r)) := by
    rw [List.forall₂_map_left_iff, List.forall₂_map_right_iff, List.forall₂_same]
    exact fun r hr => describes_members hr
  have sorted : Relation.Comp (List.Forall₂ (Describes (x.undirected count))) List.Perm
      (((partition x count).representatives count).map (x.undirected count).connectedComponentMk)
      (ofExport x count) := ⟨_, described, (ofExport_perm x count).symm⟩
  rw [List.forall₂_comp_perm_eq_perm_comp_forall₂] at sorted
  obtain ⟨cs, perm, described⟩ := sorted
  obtain ⟨nodup, mem_iff⟩ := listed_representatives x count
  refine ⟨cs, ⟨perm.nodup_iff.1 nodup, fun c => ?_⟩, described⟩
  rw [← perm.mem_iff]
  exact mem_iff c

theorem Listed.perm {cs ds : List graph.ConnectedComponent} (hc : Listed graph count cs)
    (hd : Listed graph count ds) : cs.Perm ds := by
  rw [List.perm_ext_iff_of_nodup hc.1 hd.1]
  intro c
  rw [hc.2, hd.2]

theorem ofExport_perm_of_undirected_eq (same : x.undirected count = y.undirected count) :
    (ofExport x count).Perm (ofExport y count) := by
  obtain ⟨cs, hc, first⟩ := exists_listed_ofExport x count rfl
  obtain ⟨ds, hd, second⟩ := exists_listed_ofExport y count same.symm
  obtain ⟨ms, described, perm⟩ := List.perm_comp_forall₂ (hc.perm hd) second
  have unique : Relator.RightUnique (Describes (x.undirected count)) :=
    fun _ _ _ hm hn => hm.unique hn
  rw [List.right_unique_forall₂' unique first described]
  exact perm

theorem sum_sizes (x : ExportedGraph) (count : Nat) :
    ((ofExport x count).map (·.size)).sum = count := by
  have classes := (sound_partition x count).perm_flatMap_members.length_eq
  rw [List.length_flatMap, List.length_range] at classes
  rw [((ofExport_perm x count).map _).sum_nat, List.map_map]
  exact classes

theorem pairwise_ofExport (x : ExportedGraph) (count : Nat) :
    (ofExport x count).Pairwise fun c d => d.size ≤ c.size := by
  have sorted : (ofExport x count).Pairwise fun c d => decide (d.size ≤ c.size) = true := by
    apply List.pairwise_mergeSort
    · intro a b c
      simp only [decide_eq_true_eq]
      omega
    · intro a b
      simp only [Bool.or_eq_true, decide_eq_true_eq]
      omega
  exact sorted.imp of_decide_eq_true

/-- The components of an export are the connected components of its positions, each once, with their
sizes and the largest distances in them. The largest components come first, all of them together
have all positions, and it does not matter in which direction, how often and in which order edges
are given. -/
theorem ofExport_describes_components (x : ExportedGraph) (count : Nat) :
    (∃ cs : List (x.undirected count).ConnectedComponent, cs.Nodup ∧
      (∀ c, c ∈ cs ↔ ∃ v < count, (x.undirected count).connectedComponentMk v = c) ∧
      List.Forall₂ (Describes (x.undirected count)) cs (ofExport x count)) ∧
    (ofExport x count).Pairwise (fun c d => d.size ≤ c.size) ∧
    ((ofExport x count).map (·.size)).sum = count ∧
    ∀ y : ExportedGraph, (∀ z, z ∈ x.ends ↔ z ∈ y.ends) →
      (ofExport x count).Perm (ofExport y count) := by
  obtain ⟨cs, ⟨nodup, mem_iff⟩, described⟩ := exists_listed_ofExport x count rfl
  refine ⟨⟨cs, nodup, mem_iff, described⟩, pairwise_ofExport x count, sum_sizes x count, ?_⟩
  intro y ends
  apply ofExport_perm_of_undirected_eq
  ext v w
  exact and_congr_right' (and_congr_right' (and_congr_right' (ends s(v, w))))

/-- A chain of three positions, the last edge of which is given twice, a loop and a way out. -/
def chain : ExportedGraph where
  kind := .overlay
  edges := [⟨0, 1, some 1, some false⟩, ⟨2, 1, some 1, some false⟩, ⟨1, 2, some 1, some true⟩,
    ⟨3, 3, none, none⟩, ⟨1, 7, none, none⟩]

def chainBackwards : ExportedGraph where
  kind := .trust
  edges := [⟨7, 1, none, none⟩, ⟨2, 1, none, none⟩, ⟨3, 3, none, none⟩, ⟨1, 0, none, none⟩,
    ⟨3, 3, none, none⟩]

theorem chain_describes_components :
    (∀ z, z ∈ chain.ends ↔ z ∈ chainBackwards.ends) ∧
    (ofExport chain 5).Perm (ofExport chainBackwards 5) ∧
    (ofExport chain 5).Perm [⟨3, 2⟩, ⟨1, 0⟩, ⟨1, 0⟩] := by
  obtain ⟨_, _, _, alike⟩ := ofExport_describes_components chain 5
  have ends (z : Sym2 Nat) : z ∈ chain.ends ↔ z ∈ chainBackwards.ends := by
    have here : chain.ends = [s(0, 1), s(2, 1), s(1, 2), s(3, 3), s(1, 7)] := rfl
    have there : chainBackwards.ends = [s(7, 1), s(2, 1), s(3, 3), s(1, 0), s(3, 3)] := rfl
    rw [here, there]
    simp only [List.mem_cons, List.not_mem_nil, or_false, Sym2.eq_swap (a := 2) (b := 1),
      Sym2.eq_swap (a := 7) (b := 1), Sym2.eq_swap (a := 1) (b := 0)]
    tauto
  exact ⟨ends, alike chainBackwards ends, (ofExport_perm chain 5).trans (by decide +kernel)⟩

end Component

end SloppyGroup
