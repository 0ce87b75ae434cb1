import SloppyGroup.Proofs.Undirected.Exactness

/-!
Trust graphs from any list of edges: distinct labels and edges between positions are enough, and the
graph has the given edges without orientation, loops left out and each once.
-/

namespace SloppyGroup

namespace Undirected

variable {e f : Edge} {kept edges pairs : List Edge} {z : Sym2 Nat} {count : Nat}

/-- The positions that an edge joins. -/
def ends (e : Edge) : Sym2 Nat :=
  s(e.1, e.2)

theorem ends_eq_iff : ends e = ends f ↔ e = f ∨ e = f.swap :=
  Sym2.mk_eq_mk_iff

theorem mem_map_ends : ends e ∈ edges.map ends ↔ e ∈ edges ∨ e.swap ∈ edges := by
  rw [List.mem_map]
  constructor
  · rintro ⟨f, hf, same⟩
    rcases ends_eq_iff.1 same with rfl | rfl
    · exact .inl hf
    · exact .inr hf
  · rintro (he | he)
    · exact ⟨e, he, rfl⟩
    · exact ⟨e.swap, he, ends_eq_iff.2 (.inr rfl)⟩

theorem mem_map_ends_keepNew :
    z ∈ (keepNew kept e).map ends ↔ z ∈ kept.map ends ∨ ¬z.IsDiag ∧ z = ends e := by
  rw [keepNew]
  split
  · rename_i old
    constructor
    · exact .inl
    · rintro (there | ⟨joins, rfl⟩)
      · exact there
      · exact mem_map_ends.2 (old.resolve_left joins)
  · rename_i new
    rw [List.map_cons, List.mem_cons, or_comm]
    have joins : ¬(ends e).IsDiag := fun loop => new (.inl loop)
    constructor
    · rintro (there | rfl)
      · exact .inl there
      · exact .inr ⟨joins, rfl⟩
    · rintro (there | ⟨-, rfl⟩)
      · exact .inl there
      · exact .inr rfl

theorem mem_map_ends_newestFirst :
    z ∈ (newestFirst pairs).map ends ↔ ¬z.IsDiag ∧ z ∈ pairs.map ends := by
  have fold (kept : List Edge) : z ∈ (pairs.foldl keepNew kept).map ends ↔
      z ∈ kept.map ends ∨ ¬z.IsDiag ∧ z ∈ pairs.map ends := by
    induction pairs generalizing kept with
    | nil => simp
    | cons e pairs ih =>
      rw [List.foldl_cons, ih, mem_map_ends_keepNew, List.map_cons, List.mem_cons]
      tauto
  rw [newestFirst, fold, List.map_nil]
  simp

theorem Simple.nodup_map_ends (h : Simple count edges) : (edges.map ends).Nodup := by
  rw [List.Nodup, List.pairwise_map]
  apply h.once.imp
  rintro e f ⟨other, apart⟩ same
  rcases ends_eq_iff.1 same with same | same
  · exact other same
  · exact apart same

end Undirected

theorem firstRepeated?_eq_none {earlier rest : List String} (nodup : rest.Nodup)
    (apart : ∀ x ∈ rest, x ∉ earlier) : firstRepeated? earlier rest = none := by
  induction rest generalizing earlier with
  | nil => rfl
  | cons x rest ih =>
    obtain ⟨fresh, nodup⟩ := List.nodup_cons.1 nodup
    rw [firstRepeated?, if_neg (apart x List.mem_cons_self)]
    apply ih nodup
    intro y hy old
    rcases List.mem_cons.1 old with rfl | old
    · exact fresh hy
    · exact apart y (List.mem_cons_of_mem x hy) old

namespace TrustGraph

variable {g : TrustGraph} {node : Node} {nodes : List Node} {pairs : List Undirected.Edge}
  {v w : Nat}

theorem nodup_ends_edges (g : TrustGraph) : (g.edges.map Undirected.ends).Nodup := by
  rw [edges, List.map_reverse, List.nodup_reverse]
  exact g.simple.nodup_map_ends

theorem mem_neighbors_iff_ends :
    w ∈ g.neighbors v ↔ s(v, w) ∈ g.edges.map Undirected.ends := by
  rw [mem_neighbors, edges, List.map_reverse, List.mem_reverse]
  exact (Undirected.mem_map_ends (e := (v, w))).symm

theorem exists_build (distinct : (nodes.map Node.label).Nodup)
    (inRange : ∀ e ∈ pairs, e.1 < nodes.length ∧ e.2 < nodes.length) :
    ∃ g, build nodes pairs = .ok g := by
  rw [build]
  split
  · rename_i repeated
    rw [firstRepeated?_eq_none distinct (by simp)] at repeated
    cases repeated
  · split
    · rename_i a b out
      have beyond := List.find?_some out
      have inside := inRange (a, b) (List.mem_of_find?_eq_some out)
      simp only [Bool.or_eq_true, decide_eq_true_eq] at beyond
      omega
    · exact ⟨_, rfl⟩

theorem build_eq_ok (built : build nodes pairs = .ok g) :
    g.nodes.toList = nodes ∧ g.newest = Undirected.newestFirst pairs := by
  rw [build] at built
  split at built
  · cases built
  · split at built
    · cases built
    · cases built
      exact ⟨rfl, rfl⟩

theorem getElem?_of_build (built : build nodes pairs = .ok g) (hn : g.nodes[v]? = some node) :
    nodes[v]? = some node := by
  rw [← (build_eq_ok built).1, Array.getElem?_toList]
  exact hn

theorem inRange_of_build (built : build nodes pairs = .ok g) :
    ∀ e ∈ pairs, e.1 < nodes.length ∧ e.2 < nodes.length := by
  rw [build] at built
  split at built
  · cases built
  · split at built
    · cases built
    · rename_i inside
      intro e he
      have := List.find?_eq_none.1 inside e he
      simp only [Bool.or_eq_true, decide_eq_true_eq] at this
      omega

theorem mem_ends_edges_of_build {z : Sym2 Nat} (built : build nodes pairs = .ok g) :
    z ∈ g.edges.map Undirected.ends ↔ ¬z.IsDiag ∧ z ∈ pairs.map Undirected.ends := by
  rw [edges, List.map_reverse, List.mem_reverse, (build_eq_ok built).2]
  exact Undirected.mem_map_ends_newestFirst

end TrustGraph

end SloppyGroup
