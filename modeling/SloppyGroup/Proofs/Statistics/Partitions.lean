import Mathlib
import SloppyGroup.Statistics.Components

/-!
Partitions that arise by joining positions along edges: two positions end up in one class exactly if
a chain of edges connects them.
-/

namespace SloppyGroup

namespace Partition

variable {p : Partition} {graph : SimpleGraph Nat} {count a b v w r : Nat}
  {edges : List Undirected.Edge}

/-- The representative of a position is a position and represents itself. -/
structure Sound (p : Partition) (count : Nat) : Prop where
  size : p.representative.size = count
  find_lt : ∀ v < count, p.find v < count
  find_find : ∀ v < count, p.find (p.find v) = p.find v

theorem find_discrete (count v : Nat) : (discrete count).find v = v := by
  rw [find, discrete, Array.getD_eq_getD_getElem?]
  by_cases hv : v < count
  · simp [hv]
  · simp [hv]

theorem sound_discrete (count : Nat) : (discrete count).Sound count where
  size := by simp [discrete]
  find_lt v hv := by
    rw [find_discrete]
    exact hv
  find_find v _ := by rw [find_discrete]

theorem find_absorb (hv : v < p.representative.size) (winner loser : Nat) :
    (p.absorb winner loser).find v = if p.find v = loser then winner else p.find v := by
  simp [find, absorb, Array.getD_eq_getD_getElem?, hv]

/-- A union redirects the class of one position to the representative of the other. -/
theorem exists_find_union (h : p.Sound count) (a b : Nat) : ∃ winner loser,
    (winner = p.find a ∧ loser = p.find b ∨ winner = p.find b ∧ loser = p.find a) ∧
      (p.union a b).representative.size = count ∧
      ∀ v < count, (p.union a b).find v = if p.find v = loser then winner else p.find v := by
  have absorbed (winner loser : Nat) (rank : Array Nat) :
      ({ p.absorb winner loser with rank } : Partition).representative.size = count ∧
        ∀ v < count, ({ p.absorb winner loser with rank } : Partition).find v =
          if p.find v = loser then winner else p.find v := by
    refine ⟨?_, fun v hv => find_absorb (h.size.symm ▸ hv) winner loser⟩
    simp [absorb, h.size]
  rw [union]
  simp only
  split
  · rename_i same
    refine ⟨p.find a, p.find b, .inl ⟨rfl, rfl⟩, h.size, fun v _ => ?_⟩
    split
    · rename_i there
      rw [there, same]
    · rfl
  · split
    · exact ⟨_, _, .inr ⟨rfl, rfl⟩, absorbed _ _ _⟩
    · split
      · exact ⟨_, _, .inl ⟨rfl, rfl⟩, absorbed _ _ _⟩
      · exact ⟨_, _, .inl ⟨rfl, rfl⟩, absorbed _ _ _⟩

theorem Sound.union (h : p.Sound count) (ha : a < count) (hb : b < count) :
    (p.union a b).Sound count := by
  obtain ⟨winner, loser, ends, size, found⟩ := exists_find_union h a b
  have lt : winner < count ∧ loser < count := by
    rcases ends with ⟨rfl, rfl⟩ | ⟨rfl, rfl⟩
    · exact ⟨h.find_lt a ha, h.find_lt b hb⟩
    · exact ⟨h.find_lt b hb, h.find_lt a ha⟩
  have own : p.find winner = winner := by
    rcases ends with ⟨rfl, _⟩ | ⟨rfl, _⟩
    · exact h.find_find a ha
    · exact h.find_find b hb
  have inRange (v : Nat) (hv : v < count) : (p.union a b).find v < count := by
    rw [found v hv]
    split
    · exact lt.1
    · exact h.find_lt v hv
  refine ⟨size, inRange, fun v hv => ?_⟩
  rw [found _ (inRange v hv), found v hv]
  have := h.find_find v hv
  grind

/-- A union joins the classes of its two positions and changes no other class. -/
theorem find_union_eq_iff (h : p.Sound count) (a b : Nat) (hv : v < count) (hw : w < count) :
    (p.union a b).find v = (p.union a b).find w ↔ p.find v = p.find w ∨
      (p.find v = p.find a ∧ p.find w = p.find b) ∨
      (p.find v = p.find b ∧ p.find w = p.find a) := by
  obtain ⟨winner, loser, ends, _, found⟩ := exists_find_union h a b
  rw [found v hv, found w hw]
  grind

/-- The partition in which all edges have been joined, one after the other. -/
def joined (p : Partition) (edges : List Undirected.Edge) : Partition :=
  edges.foldl (fun p (v, w) => p.union v w) p

theorem joined_cons (p : Partition) (e : Undirected.Edge) (edges : List Undirected.Edge) :
    p.joined (e :: edges) = (p.union e.1 e.2).joined edges :=
  rfl

theorem Sound.joined (h : p.Sound count) (inRange : ∀ e ∈ edges, e.1 < count ∧ e.2 < count) :
    (p.joined edges).Sound count := by
  induction edges generalizing p with
  | nil => exact h
  | cons e edges ih =>
    obtain ⟨⟨ha, hb⟩, inRange⟩ := List.forall_mem_cons.1 inRange
    exact ih (h.union ha hb) inRange

/-- Classes are joined along edges only. -/
theorem reachable_of_find_joined (h : p.Sound count)
    (inRange : ∀ e ∈ edges, e.1 < count ∧ e.2 < count)
    (adj : ∀ e ∈ edges, graph.Adj e.1 e.2)
    (connected : ∀ v < count, ∀ w < count, p.find v = p.find w → graph.Reachable v w) :
    ∀ v < count, ∀ w < count, (p.joined edges).find v = (p.joined edges).find w →
      graph.Reachable v w := by
  induction edges generalizing p with
  | nil => exact connected
  | cons e edges ih =>
    obtain ⟨⟨ha, hb⟩, inRange⟩ := List.forall_mem_cons.1 inRange
    obtain ⟨edge, adj⟩ := List.forall_mem_cons.1 adj
    apply ih (h.union ha hb) inRange adj
    intro v hv w hw same
    rcases (find_union_eq_iff h e.1 e.2 hv hw).1 same with same | ⟨va, wb⟩ | ⟨vb, wa⟩
    · exact connected v hv w hw same
    · exact ((connected v hv e.1 ha va).trans edge.reachable).trans
        (connected w hw e.2 hb wb).symm
    · exact ((connected v hv e.2 hb vb).trans edge.symm.reachable).trans
        (connected w hw e.1 ha wa).symm

/-- What is in one class stays in one class. -/
theorem find_joined_congr (h : p.Sound count)
    (inRange : ∀ e ∈ edges, e.1 < count ∧ e.2 < count) (hv : v < count) (hw : w < count)
    (same : p.find v = p.find w) : (p.joined edges).find v = (p.joined edges).find w := by
  induction edges generalizing p with
  | nil => exact same
  | cons e edges ih =>
    obtain ⟨⟨ha, hb⟩, inRange⟩ := List.forall_mem_cons.1 inRange
    exact ih (h.union ha hb) inRange ((find_union_eq_iff h e.1 e.2 hv hw).2 (.inl same))

theorem find_joined_of_mem (h : p.Sound count)
    (inRange : ∀ e ∈ edges, e.1 < count ∧ e.2 < count) {e : Undirected.Edge} (he : e ∈ edges) :
    (p.joined edges).find e.1 = (p.joined edges).find e.2 := by
  induction edges generalizing p with
  | nil => cases he
  | cons first edges ih =>
    obtain ⟨⟨ha, hb⟩, later⟩ := List.forall_mem_cons.1 inRange
    rw [joined_cons]
    rcases List.mem_cons.1 he with rfl | he
    · have together : (p.union e.1 e.2).find e.1 = (p.union e.1 e.2).find e.2 :=
        (find_union_eq_iff h e.1 e.2 ha hb).2 (.inr (.inl ⟨rfl, rfl⟩))
      exact find_joined_congr (h.union ha hb) later ha hb together
    · exact ih (h.union ha hb) later he

/-- The classes of all positions, once the edges of a graph are joined, are its components. -/
theorem find_joined_eq_iff (inRange : ∀ e ∈ edges, e.1 < count ∧ e.2 < count)
    (adj_iff : ∀ v w, graph.Adj v w ↔ (v, w) ∈ edges ∨ (w, v) ∈ edges) (hv : v < count)
    (hw : w < count) :
    ((discrete count).joined edges).find v = ((discrete count).joined edges).find w ↔
      graph.Reachable v w := by
  have sound := sound_discrete count
  constructor
  · apply reachable_of_find_joined sound inRange _ _ v hv w hw
    · intro e he
      exact (adj_iff e.1 e.2).2 (.inl he)
    · intro v _ w _ same
      rw [find_discrete, find_discrete] at same
      rw [same]
  · rintro ⟨way⟩
    induction way with
    | nil => rfl
    | @cons v u w edge _ ih =>
      have between : u < count ∧ ((discrete count).joined edges).find v =
          ((discrete count).joined edges).find u := by
        rcases (adj_iff v u).1 edge with he | he
        · exact ⟨(inRange _ he).2, find_joined_of_mem sound inRange he⟩
        · exact ⟨(inRange _ he).1, (find_joined_of_mem sound inRange he).symm⟩
      rw [between.2]
      exact ih between.1 hw

end Partition

end SloppyGroup
