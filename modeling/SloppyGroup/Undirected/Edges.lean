/-!
Simple undirected graphs on positions: no loops, and at most one edge between two positions. The
neighbours of a position come in a fixed order, which later random choices depend on.
-/

namespace SloppyGroup

namespace Undirected

/-- An edge, written in the orientation in which it was given. -/
abbrev Edge := Nat × Nat

/-- Adds an edge in front, unless it is a loop or joins two positions that are joined already. -/
def keepNew (kept : List Edge) (e : Edge) : List Edge :=
  if e.1 = e.2 ∨ e ∈ kept ∨ e.swap ∈ kept then kept else e :: kept

/-- The edges of a simple graph, newest first. -/
def newestFirst (pairs : List Edge) : List Edge :=
  pairs.foldl keepNew []

/-- The neighbours of a position along edges given newest first: first those of the edges that start
at it, then those of the edges that end at it. -/
def neighborsAlong (newest : List Edge) (v : Nat) : List Nat :=
  (newest.filter (·.1 == v)).map (·.2) ++ (newest.filter (·.2 == v)).map (·.1)

theorem mem_neighborsAlong {newest : List Edge} {v w : Nat} :
    w ∈ neighborsAlong newest v ↔ (v, w) ∈ newest ∨ (w, v) ∈ newest := by
  simp [neighborsAlong]

/-- Edges between distinct positions below `count`, no two of them between the same positions. -/
structure Simple (count : Nat) (edges : List Edge) : Prop where
  inRange : ∀ e ∈ edges, e.1 < count ∧ e.2 < count
  loopless : ∀ e ∈ edges, e.1 ≠ e.2
  once : edges.Pairwise fun e f => e ≠ f ∧ e ≠ f.swap

theorem Simple.keepNew {count : Nat} {kept : List Edge} {e : Edge} (h : Simple count kept)
    (he : e.1 < count ∧ e.2 < count) : Simple count (keepNew kept e) := by
  rw [Undirected.keepNew]
  split
  · exact h
  · rename_i new
    simp only [not_or] at new
    refine ⟨?_, ?_, List.pairwise_cons.2 ⟨?_, h.once⟩⟩
    · intro f hf
      rcases List.mem_cons.1 hf with rfl | hf
      · exact he
      · exact h.inRange f hf
    · intro f hf
      rcases List.mem_cons.1 hf with rfl | hf
      · exact new.1
      · exact h.loopless f hf
    · intro f hf
      refine ⟨fun h => new.2.1 (h ▸ hf), fun h => new.2.2 ?_⟩
      rw [h, Prod.swap_swap]
      exact hf

theorem simple_newestFirst {count : Nat} {pairs : List Edge}
    (h : ∀ e ∈ pairs, e.1 < count ∧ e.2 < count) : Simple count (newestFirst pairs) := by
  have fold (kept : List Edge) (hk : Simple count kept) :
      Simple count (pairs.foldl Undirected.keepNew kept) := by
    induction pairs generalizing kept with
    | nil => exact hk
    | cons e pairs ih =>
      exact ih (fun f hf => h f (List.mem_cons_of_mem _ hf)) _
        (hk.keepNew (h e List.mem_cons_self))
  exact fold [] ⟨by simp, by simp, List.Pairwise.nil⟩

def neighborTable (count : Nat) (newest : List Edge) : Array (List Nat) :=
  ((List.range count).map (neighborsAlong newest)).toArray

theorem getD_neighborTable {count v : Nat} {newest : List Edge} (hv : v < count) :
    (neighborTable count newest).getD v [] = neighborsAlong newest v := by
  simp [neighborTable, Array.getD, hv]

end Undirected

end SloppyGroup
