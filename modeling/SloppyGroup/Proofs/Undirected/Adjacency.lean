import SloppyGroup.Proofs.Undirected.Simplification

/-!
What trust graphs are made of: which nodes and pairs of positions are accepted, who is then whose
neighbour, how often neighbours and edges are listed, and where a label is found.
-/

namespace SloppyGroup

/-- Whatever has a position is counted at one position. -/
theorem sum_count_map {α : Type} {l : List α} {position : α → Nat} {count : Nat}
    (inRange : ∀ a ∈ l, position a < count) :
    ∑ v ∈ Finset.range count, (l.map position).count v = l.length := by
  have inside : ∀ v ∈ (l.map position : Multiset Nat), v ∈ Finset.range count := by
    intro v hv
    obtain ⟨a, ha, rfl⟩ := List.mem_map.1 hv
    exact Finset.mem_range.2 (inRange a ha)
  have each := Multiset.sum_count_eq_card inside
  simp only [Multiset.coe_count, Multiset.coe_card, List.length_map] at each
  exact each

namespace Undirected

variable {e : Edge} {edges : List Edge} {count : Nat}

theorem Simple.nodup (h : Simple count edges) : edges.Nodup :=
  h.once.imp And.left

/-- Two positions are joined in one orientation only. -/
theorem Simple.swap_notMem (h : Simple count edges) (he : e ∈ edges) : e.swap ∉ edges := by
  intro turned
  have same : e = e.swap :=
    List.inj_on_of_nodup_map h.nodup_map_ends he turned (ends_eq_iff.2 (.inr rfl))
  exact h.loopless e he (congrArg Prod.fst same)

/-- Edges that have one end in common differ in the other one. -/
theorem Simple.nodup_farEnds (h : Simple count edges) {near far : Edge → Nat}
    (ends : ∀ e f, near e = near f → far e = far f → e = f) (v : Nat) :
    ((edges.filter (near · == v)).map far).Nodup := by
  apply List.Nodup.map_on _ (h.nodup.filter _)
  intro e he f hf same
  have first := beq_iff_eq.1 (List.mem_filter.1 he).2
  have second := beq_iff_eq.1 (List.mem_filter.1 hf).2
  exact ends e f (first.trans second.symm) same

theorem Simple.nodup_neighborsAlong (h : Simple count edges) (v : Nat) :
    (neighborsAlong edges v).Nodup := by
  have starts := h.nodup_farEnds (fun _ _ near far => Prod.ext near far) v
  have stops := h.nodup_farEnds (fun _ _ near far => Prod.ext far near) v
  rw [neighborsAlong, List.nodup_append]
  refine ⟨starts, stops, ?_⟩
  intro a ha b hb same
  obtain ⟨e, he, rfl⟩ := List.mem_map.1 ha
  obtain ⟨f, hf, rfl⟩ := List.mem_map.1 hb
  obtain ⟨he, first⟩ := List.mem_filter.1 he
  obtain ⟨hf, second⟩ := List.mem_filter.1 hf
  have turned : f = e.swap :=
    Prod.ext same.symm ((beq_iff_eq.1 second).trans (beq_iff_eq.1 first).symm)
  exact h.swap_notMem he (turned ▸ hf)

theorem length_neighborsAlong (edges : List Edge) (v : Nat) :
    (neighborsAlong edges v).length = (edges.map (·.1)).count v + (edges.map (·.2)).count v := by
  rw [neighborsAlong, List.length_append, List.length_map, List.length_map,
    ← List.countP_eq_length_filter, ← List.countP_eq_length_filter, List.count_eq_countP,
    List.count_eq_countP, List.countP_map, List.countP_map]
  rfl

/-- Every edge makes a neighbour at both of its ends. -/
theorem Simple.sum_length_neighborsAlong (h : Simple count edges) :
    ∑ v ∈ Finset.range count, (neighborsAlong edges v).length = 2 * edges.length := by
  simp only [length_neighborsAlong]
  rw [Finset.sum_add_distrib, sum_count_map fun e he => (h.inRange e he).1,
    sum_count_map fun e he => (h.inRange e he).2, Nat.two_mul]

end Undirected

namespace TrustGraph

open Undirected (ends)

variable {g : TrustGraph} {nodes : List Node} {pairs : List Undirected.Edge} {u v : Nat}
  {label : String}

theorem nodup_neighbors (g : TrustGraph) (v : Nat) : (g.neighbors v).Nodup := by
  rw [neighbors_along]
  exact g.simple.nodup_neighborsAlong v

theorem sum_degrees (g : TrustGraph) :
    ∑ v ∈ Finset.range g.size, (g.neighbors v).length = 2 * g.edges.length := by
  simp only [neighbors_along]
  rw [edges, List.length_reverse]
  exact g.simple.sum_length_neighborsAlong

theorem getElem?_labels (hv : v < g.nodes.size) :
    (g.nodes.toList.map Node.label)[v]? = some g.nodes[v].label := by
  rw [List.getElem?_map, Array.getElem?_toList, Array.getElem?_eq_getElem hv, Option.map_some]

/-- Labels are distinct, so the first node with a label is the only one. -/
theorem position?_eq_some :
    g.position? label = some v ↔ (g.nodes.toList.map Node.label)[v]? = some label := by
  rw [position?, Array.findIdx?_eq_some_iff_getElem]
  constructor
  · intro ⟨hv, here, _⟩
    rw [getElem?_labels hv, beq_iff_eq.1 here]
  · intro there
    obtain ⟨inside, _⟩ := List.getElem?_eq_some_iff.1 there
    have hv : v < g.nodes.size := by simpa using inside
    have here : g.nodes[v].label = label := by
      rw [getElem?_labels hv] at there
      exact Option.some.inj there
    refine ⟨hv, beq_iff_eq.2 here, fun w before also => ?_⟩
    have twice : (g.nodes.toList.map Node.label)[w]? = (g.nodes.toList.map Node.label)[v]? := by
      rw [there, getElem?_labels (before.trans hv), beq_iff_eq.1 also]
    have same := (List.getElem?_inj (before.trans inside) g.labels_distinct).1 twice
    exact before.ne same

theorem position?_eq_none :
    g.position? label = none ↔ label ∉ g.nodes.toList.map Node.label := by
  rw [position?, Array.findIdx?_eq_none_iff, List.mem_map, not_exists]
  constructor
  · intro absent node ⟨hn, same⟩
    exact (beq_eq_false_iff_ne.1 (absent node (Array.mem_toList_iff.1 hn))) same
  · intro absent node hn
    exact beq_false_of_ne fun same => absent node ⟨Array.mem_toList_iff.2 hn, same⟩

theorem adj_of_build (built : build nodes pairs = .ok g) :
    v ∈ g.neighbors u ↔ u ≠ v ∧ ((u, v) ∈ pairs ∨ (v, u) ∈ pairs) := by
  rw [mem_neighbors_iff_ends, mem_ends_edges_of_build built, Sym2.mk_isDiag_iff]
  exact and_congr_right' (Undirected.mem_map_ends (e := (u, v)))

theorem length_edges_of_build (built : build nodes pairs = .ok g) :
    g.edges.length = {z ∈ (pairs.map ends).toFinset | ¬z.IsDiag}.card := by
  have same : (g.edges.map ends).toFinset = {z ∈ (pairs.map ends).toFinset | ¬z.IsDiag} := by
    ext z
    rw [List.mem_toFinset, Finset.mem_filter, List.mem_toFinset, mem_ends_edges_of_build built,
      and_comm]
  rw [← same, List.toFinset_card_of_nodup g.nodup_ends_edges, List.length_map]

theorem build_fails_iff : (∃ fault, build nodes pairs = .error fault) ↔
    ¬(nodes.map Node.label).Nodup ∨
      ∃ e ∈ pairs, nodes.length ≤ e.1 ∨ nodes.length ≤ e.2 := by
  constructor
  · intro ⟨fault, refused⟩
    by_contra fine
    rw [not_or, not_not] at fine
    obtain ⟨distinct, inside⟩ := fine
    have inRange : ∀ e ∈ pairs, e.1 < nodes.length ∧ e.2 < nodes.length := by
      intro e he
      rw [← Nat.not_le, ← Nat.not_le, ← not_or]
      exact fun out => inside ⟨e, he, out⟩
    obtain ⟨g, built⟩ := exists_build distinct inRange
    rw [refused] at built
    cases built
  · intro wrong
    cases built : build nodes pairs with
    | error fault => exact ⟨fault, rfl⟩
    | ok g =>
      rcases wrong with repeated | ⟨e, he, out⟩
      · exact absurd ((build_eq_ok built).1 ▸ g.labels_distinct) repeated
      · have inside := inRange_of_build built e he
        omega

/-- The graph has the given nodes in order, and neighbours are who is joined by a pair, in either
orientation and however often, but nobody is a neighbour of its own. -/
structure Realizes (g : TrustGraph) (nodes : List Node) (pairs : List Undirected.Edge) : Prop where
  nodes_eq : g.nodes.toList = nodes
  count_neighbors : ∀ u v, (g.neighbors u).count v =
    if u ≠ v ∧ ((u, v) ∈ pairs ∨ (v, u) ∈ pairs) then 1 else 0
  symmetric : ∀ u v, v ∈ g.neighbors u ↔ u ∈ g.neighbors v
  irreflexive : ∀ v, v ∉ g.neighbors v
  count_edges : ∀ u v, (g.edges.map ends).count s(u, v) = if v ∈ g.neighbors u then 1 else 0
  length_edges : g.edges.length = {z ∈ (pairs.map ends).toFinset | ¬z.IsDiag}.card
  degrees : ∑ v ∈ Finset.range g.size, (g.neighbors v).length = 2 * g.edges.length
  labelled : ∀ label v, g.position? label = some v ↔ (nodes.map Node.label)[v]? = some label
  unlabelled : ∀ label, g.position? label = none ↔ label ∉ nodes.map Node.label

theorem realizes_of_build (built : build nodes pairs = .ok g) : g.Realizes nodes pairs where
  nodes_eq := (build_eq_ok built).1
  count_neighbors u v := by
    rw [(g.nodup_neighbors u).count]
    simp only [adj_of_build built]
  symmetric u v := g.trust.adj_comm u v
  irreflexive v := g.trust.irrefl
  count_edges u v := by
    rw [g.nodup_ends_edges.count]
    simp only [mem_neighbors_iff_ends]
  length_edges := length_edges_of_build built
  degrees := g.sum_degrees
  labelled label v := by
    rw [← (build_eq_ok built).1]
    exact position?_eq_some
  unlabelled label := by
    rw [← (build_eq_ok built).1]
    exact position?_eq_none

theorem build_realizes (nodes : List Node) (pairs : List Undirected.Edge) :
    ((∃ fault, build nodes pairs = .error fault) ↔
      ¬(nodes.map Node.label).Nodup ∨
        ∃ e ∈ pairs, nodes.length ≤ e.1 ∨ nodes.length ≤ e.2) ∧
    ∀ g, build nodes pairs = .ok g → g.Realizes nodes pairs :=
  ⟨build_fails_iff, fun _ => realizes_of_build⟩

def strangers : List Node :=
  ["a", "b", "c"].map fun label => { (default : Node) with label }

/-- Two edges, one of them given three times and in both orientations, and a loop. -/
def repeatedPairs : List Undirected.Edge :=
  [(0, 1), (1, 0), (1, 1), (2, 1), (0, 1)]

theorem build_realizes_repeatedPairs :
    (∃ fault, build strangers ((3, 3) :: repeatedPairs) = .error fault) ∧
    ∃ g, build strangers repeatedPairs = .ok g ∧
      (g.neighbors 1).count 0 = 1 ∧ (g.neighbors 1).count 1 = 0 ∧
      ∑ v ∈ Finset.range g.size, (g.neighbors v).length = 2 * 2 ∧
      g.position? "c" = some 2 ∧ g.position? "d" = none := by
  have refused := (build_realizes strangers ((3, 3) :: repeatedPairs)).1.2
    (.inr ⟨(3, 3), List.mem_cons_self, by decide⟩)
  obtain ⟨g, built⟩ : ∃ g, build strangers repeatedPairs = .ok g :=
    exists_build (by decide) (by decide)
  have made := (build_realizes strangers repeatedPairs).2 g built
  have edges : g.edges.length = 2 := made.length_edges.trans (by decide)
  have degrees := made.degrees
  rw [edges] at degrees
  exact ⟨refused, g, built, made.count_neighbors 1 0, made.count_neighbors 1 1, degrees,
    (made.labelled "c" 2).2 (by decide), (made.unlabelled "d").2 (by decide)⟩

end TrustGraph

end SloppyGroup
