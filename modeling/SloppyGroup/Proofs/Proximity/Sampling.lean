import SloppyGroup.Proofs.Proximity.Surroundings
import SloppyGroup.Proofs.Undirected.ShortestPaths

/-!
Sampling a vicinity, one expansion after the other. At any time the sample consists of different
nodes at their distances, each of them next to one that was met before, and as long as there is room,
whoever is next to the sample is in it or can still be found from the frontier. Each expansion leaves
less to expand, so sampling ends by itself.
-/

namespace SloppyGroup

namespace Sampling

variable {g : TrustGraph} {table : DistanceTable} {v u w capacity place hops : Nat}
  {s after : Sampling} {ws : List Nat}

/-- The nodes that were met, newest first; the last one is the source. -/
def nodes (v : Nat) (s : Sampling) : List Nat :=
  s.newest.map (·.node) ++ [v]

/-- What holds for a sample around `v` at any time. -/
structure Sound (g : TrustGraph) (v capacity : Nat) (s : Sampling) : Prop where
  size : s.met.size = g.size
  met_iff : ∀ u : Nat, s.met[u]? = some true ↔ u ∈ s.nodes v
  nodup : (s.nodes v).Nodup
  finds : ∀ p ∈ s.newest, (g.distancesFrom v).Finds p
  linked : ∀ newer p older, s.newest = newer ++ p :: older →
    ∃ u ∈ older.map (·.node) ++ [v], g.trust.Adj u p.node
  bounded : s.newest.length ≤ capacity
  frontier : ∀ u ∈ s.frontier, u ∈ s.nodes v

theorem sound_start (hv : v < g.size) (capacity : Nat) : Sound g v capacity (start g.size v) where
  size := by simp [start]
  met_iff u := by
    rw [start, nodes, List.map_nil, List.nil_append, List.mem_singleton,
      Array.getElem?_setIfInBounds, Array.getElem?_replicate]
    grind
  nodup := List.nodup_singleton v
  finds p hp := by cases hp
  linked newer p older split := by simp [start] at split
  bounded := Nat.zero_le capacity
  frontier u hu := by simpa [start, nodes] using hu

theorem Sound.reachable (h : s.Sound g v capacity) (hv : v < g.size) (hu : u ∈ s.nodes v) :
    g.trust.Reachable v u := by
  rcases List.mem_append.1 hu with sampled | source
  · obtain ⟨p, hp, rfl⟩ := List.mem_map.1 sampled
    exact TrustGraph.reachable_iff_edist.2
      ⟨p.hops, (TrustGraph.distance?_distancesFrom hv).1 (h.finds p hp)⟩
  · rw [List.mem_singleton.1 source]

theorem Sound.length_le (h : s.Sound g v capacity) (hv : v < g.size) :
    (s.nodes v).length ≤ g.size := by
  have inside : s.nodes v ⊆ List.range g.size := by
    intro u hu
    exact List.mem_range.2 (TrustGraph.lt_of_reachable hv (h.reachable hv hu))
  calc (s.nodes v).length ≤ (List.range g.size).length :=
        (List.subperm_of_subset h.nodup inside).length_le
    _ = g.size := List.length_range

theorem Sound.unmet_iff (h : s.Sound g v capacity) (hw : w < g.size) :
    s.met[w]? = some false ↔ w ∉ s.nodes v := by
  have bound : w < s.met.size := h.size.symm ▸ hw
  rw [← h.met_iff, Array.getElem?_eq_getElem bound]
  simp

/-- One more node is met and sampled. -/
def join (s : Sampling) (hops w : Nat) : Sampling :=
  ⟨s.met.setIfInBounds w true, s.frontier, ⟨hops, w⟩ :: s.newest⟩

def enqueue (s : Sampling) (w : Nat) : Sampling :=
  { s with frontier := s.frontier.push w }

theorem meet_of_met (met : s.met[w]? ≠ some false) :
    meet table capacity (w :: ws) s = meet table capacity ws s := by
  rw [meet, if_neg met]

theorem meet_of_unmet (unmet : s.met[w]? = some false) (found : table.distance? w = some hops) :
    meet table capacity (w :: ws) s =
      if capacity ≤ s.newest.length + 1 then s.join hops w
      else meet table capacity ws ((s.join hops w).enqueue w) := by
  rw [meet, if_pos unmet, found]
  simp only [isFull, List.length_cons, decide_eq_true_eq]
  rfl

/-- A node next to one that was met can join the sample if there is room. -/
theorem Sound.join (h : s.Sound g v capacity) (hu : u ∈ s.nodes v) (adj : g.trust.Adj u w)
    (unmet : s.met[w]? = some false) (found : (g.distancesFrom v).distance? w = some hops)
    (room : s.newest.length < capacity) : (s.join hops w).Sound g v capacity where
  size := by
    rw [Sampling.join, Array.size_setIfInBounds]
    exact h.size
  met_iff x := by
    have inside := (Array.getElem?_eq_some_iff.1 unmet).1
    change _ ↔ x ∈ w :: s.nodes v
    rw [Sampling.join, Array.getElem?_setIfInBounds, List.mem_cons, ← h.met_iff]
    grind
  nodup := by
    have new := (h.unmet_iff (h.size ▸ (Array.getElem?_eq_some_iff.1 unmet).1)).1 unmet
    exact List.nodup_cons.2 ⟨new, h.nodup⟩
  finds p hp := by
    rcases List.mem_cons.1 hp with rfl | hp
    · exact found
    · exact h.finds p hp
  linked newer p older split := by
    cases newer with
    | nil =>
      cases split
      exact ⟨u, hu, adj⟩
    | cons q newer => exact h.linked newer p older (List.cons_eq_cons.1 split).2
  bounded := room
  frontier x hx := List.mem_cons_of_mem w (h.frontier x hx)

theorem Sound.enqueue (h : s.Sound g v capacity) (hw : w ∈ s.nodes v) :
    (s.enqueue w).Sound g v capacity where
  size := h.size
  met_iff := h.met_iff
  nodup := h.nodup
  finds := h.finds
  linked := h.linked
  bounded := h.bounded
  frontier x hx := by
    rcases Array.mem_push.1 hx with old | rfl
    · exact h.frontier x old
    · exact hw

/-- What meeting some nodes does to a sample. As long as there is room, all of them are met, and
whoever is new can be expanded later. -/
structure Grown (v capacity : Nat) (ws : List Nat) (s after : Sampling) : Prop where
  nodes_subset : ∀ x ∈ s.nodes v, x ∈ after.nodes v
  frontier_subset : ∀ x ∈ s.frontier, x ∈ after.frontier
  size_le : after.frontier.size + (s.nodes v).length ≤ s.frontier.size + (after.nodes v).length
  met : after.newest.length < capacity → ∀ w ∈ ws, w ∈ after.nodes v
  joined : after.newest.length < capacity → ∀ x ∈ after.nodes v, x ∈ s.nodes v ∨ x ∈ after.frontier

theorem grown_nil (s : Sampling) : Grown v capacity [] s s where
  nodes_subset _ hx := hx
  frontier_subset _ hx := hx
  size_le := Nat.le_refl _
  met _ w hw := by cases hw
  joined _ _ hx := .inl hx

theorem Grown.known (h : Grown v capacity ws s after) (hw : w ∈ s.nodes v) :
    Grown v capacity (w :: ws) s after where
  nodes_subset := h.nodes_subset
  frontier_subset := h.frontier_subset
  size_le := h.size_le
  met room x hx := by
    rcases List.mem_cons.1 hx with rfl | hx
    · exact h.nodes_subset x hw
    · exact h.met room x hx
  joined := h.joined

theorem grown_join (full : capacity ≤ s.newest.length + 1) :
    Grown v capacity ws s (s.join hops w) where
  nodes_subset _ hx := List.mem_cons_of_mem w hx
  frontier_subset _ hx := hx
  size_le := Nat.add_le_add_left (Nat.le_succ _) _
  met room := absurd full (Nat.not_le.2 room)
  joined room := absurd full (Nat.not_le.2 room)

theorem Grown.enqueue (h : Grown v capacity ws ((s.join hops w).enqueue w) after) :
    Grown v capacity (w :: ws) s after where
  nodes_subset x hx := h.nodes_subset x (List.mem_cons_of_mem w hx)
  frontier_subset x hx := h.frontier_subset x (Array.mem_push_of_mem w hx)
  size_le := by
    have size := h.size_le
    simp only [nodes, Sampling.enqueue, join, List.map_cons, List.cons_append, List.length_cons,
      Array.size_push] at size ⊢
    omega
  met room x hx := by
    rcases List.mem_cons.1 hx with rfl | hx
    · exact h.nodes_subset x List.mem_cons_self
    · exact h.met room x hx
  joined room x hx := by
    rcases h.joined room x hx with old | new
    · rcases List.mem_cons.1 old with rfl | old
      · exact .inr (h.frontier_subset x Array.mem_push_self)
      · exact .inl old
    · exact .inr new

theorem Sound.meet (h : s.Sound g v capacity) (hv : v < g.size) (hu : u ∈ s.nodes v)
    (adj : ∀ w ∈ ws, g.trust.Adj u w) (room : s.newest.length < capacity) :
    (meet (g.distancesFrom v) capacity ws s).Sound g v capacity ∧
      Grown v capacity ws s (meet (g.distancesFrom v) capacity ws s) := by
  induction ws generalizing s with
  | nil => exact ⟨h, grown_nil s⟩
  | cons w ws ih =>
    have next : g.trust.Adj u w := adj w List.mem_cons_self
    have later : ∀ x ∈ ws, g.trust.Adj u x := fun x hx => adj x (List.mem_cons_of_mem w hx)
    have reachable := (h.reachable hv hu).trans next.reachable
    have unmet_iff := h.unmet_iff (TrustGraph.lt_of_reachable hv reachable)
    by_cases unmet : s.met[w]? = some false
    · obtain ⟨hops, far⟩ := TrustGraph.reachable_iff_edist.1 reachable
      have found := (TrustGraph.distance?_distancesFrom hv).2 far
      have joined := h.join hu next unmet found room
      rw [meet_of_unmet unmet found]
      split
      · rename_i full
        exact ⟨joined, grown_join full⟩
      · rename_i more
        obtain ⟨sound, grown⟩ := ih (joined.enqueue List.mem_cons_self)
          (List.mem_cons_of_mem w hu) later (Nat.not_le.1 more)
        exact ⟨sound, grown.enqueue⟩
    · obtain ⟨sound, grown⟩ := ih h hu later room
      rw [meet_of_met unmet]
      exact ⟨sound, grown.known (not_not.1 (mt unmet_iff.2 unmet))⟩

theorem perm_set_getLast {l : List Nat} (h : place < l.length) (nonempty : l ≠ []) :
    l.Perm (l[place] :: (l.set place (l.getLast nonempty)).dropLast) := by
  have moved : (l.set place (l.getLast nonempty)).dropLast ++ [l.getLast nonempty] =
      l.set place (l.getLast nonempty) := by
    apply List.dropLast_append_getLast?
    rw [Option.mem_def, List.getLast?_eq_getElem?, List.length_set, List.getElem?_set]
    split
    · simp
    · rw [List.getLast_eq_getElem, List.getElem?_eq_getElem]
  have rest : (l.set place (l.getLast nonempty)).dropLast.Perm (l.eraseIdx place) := by
    have replaced := List.set_perm_cons_eraseIdx h (l.getLast nonempty)
    rw [← moved] at replaced
    exact ((List.perm_append_singleton _ _).symm.trans replaced).cons_inv
  exact (List.getElem_cons_eraseIdx_perm h).symm.trans (rest.symm.cons _)

/-- The node that is taken leaves the frontier, and all others stay. -/
theorem perm_take (h : place < s.frontier.size) :
    s.frontier.toList.Perm ((s.take place).1 :: (s.take place).2.frontier.toList) := by
  have nonempty : s.frontier.toList ≠ [] := List.ne_nil_of_length_pos (Nat.zero_lt_of_lt h)
  have last : s.frontier.back?.getD 0 = s.frontier.toList.getLast nonempty := by
    rw [← Array.getLast?_toList, List.getLast?_eq_some_getLast nonempty]
    rfl
  have current : s.frontier.getD place 0 = s.frontier.toList[place] := by
    rw [Array.getD_eq_getD_getElem?, Array.getElem?_eq_getElem h]
    rfl
  rw [take, current, last]
  simp only [Array.toList_pop, Array.toList_setIfInBounds]
  exact perm_set_getLast h nonempty

theorem mem_frontier_take (h : place < s.frontier.size) :
    u ∈ s.frontier ↔ u = (s.take place).1 ∨ u ∈ (s.take place).2.frontier := by
  rw [← Array.mem_toList_iff, ← Array.mem_toList_iff, (perm_take h).mem_iff, List.mem_cons]

theorem size_frontier_take (h : place < s.frontier.size) :
    s.frontier.size = (s.take place).2.frontier.size + 1 := by
  rw [← Array.length_toList, (perm_take h).length_eq, List.length_cons, Array.length_toList]

theorem Sound.take (h : s.Sound g v capacity) (hp : place < s.frontier.size) :
    (s.take place).2.Sound g v capacity where
  size := h.size
  met_iff := h.met_iff
  nodup := h.nodup
  finds := h.finds
  linked := h.linked
  bounded := h.bounded
  frontier u hu := h.frontier u ((mem_frontier_take hp).2 (.inr hu))

/-- While there is room, everyone next to a node that was met was met, too, unless the node is still
in the frontier. -/
def Closed (g : TrustGraph) (v capacity : Nat) (s : Sampling) : Prop :=
  s.newest.length < capacity →
    ∀ u ∈ s.nodes v, u ∈ s.frontier ∨ ∀ w, g.trust.Adj u w → w ∈ s.nodes v

theorem closed_start (g : TrustGraph) (v capacity : Nat) :
    Closed g v capacity (start g.size v) := by
  intro _ u hu
  left
  simpa [start, nodes] using hu

/-- Expanding the node at a place of the frontier keeps what holds for a sample, and there is less
left to expand. -/
theorem Sound.expand (sound : s.Sound g v capacity) (hv : v < g.size)
    (closed : s.Closed g v capacity) (room : s.newest.length < capacity)
    (inside : place < s.frontier.size)
    (met : (s.take place).2.meet (g.distancesFrom v) capacity (g.neighbors (s.take place).1) =
      after) :
    after.Sound g v capacity ∧ after.Closed g v capacity ∧
      after.frontier.size + (s.nodes v).length < s.frontier.size + (after.nodes v).length := by
  have current : (s.take place).1 ∈ s.nodes v :=
    sound.frontier _ ((mem_frontier_take inside).2 (.inl rfl))
  obtain ⟨found, grown⟩ := (sound.take inside).meet hv current (fun w => id) room
  rw [met] at found grown
  refine ⟨found, fun free x hx => ?_, ?_⟩
  · rcases grown.joined free x hx with old | new
    · rcases closed room x old with waiting | done
      · rcases (mem_frontier_take inside).1 waiting with rfl | waiting
        · exact .inr (grown.met free)
        · exact .inl (grown.frontier_subset x waiting)
      · exact .inr fun w adj => grown.nodes_subset w (done w adj)
    · exact .inl new
  · have size := size_frontier_take inside
    have added : after.frontier.size + (s.nodes v).length ≤ _ := grown.size_le
    omega

variable {σ : Type} [RandomSource σ]

/-- One expansion: a place is drawn from the frontier, which is not empty, and everyone next to the
node at this place is met, as far as there is room. -/
inductive Expands (g : TrustGraph) (v capacity : Nat) : Sampling × σ → Sampling × σ → Prop where
  | expand {s : Sampling} {source rest : σ} {place : Nat} (more : 0 < s.frontier.size)
      (room : s.newest.length < capacity)
      (drawn : Random.below64 s.frontier.size source = (place, rest)) :
      Expands g v capacity (s, source)
        ((s.take place).2.meet (g.distancesFrom v) capacity (g.neighbors (s.take place).1), rest)

/-- There is nobody left to expand, or no room for more. -/
def Stopped (capacity : Nat) (s : Sampling) : Prop :=
  s.frontier.size = 0 ∨ capacity ≤ s.newest.length

theorem stopped_iff : s.Stopped capacity ↔ (s.frontier.isEmpty || s.isFull capacity) = true := by
  rw [Stopped, Bool.or_eq_true, Array.isEmpty_iff_size_eq_zero, isFull, decide_eq_true_eq]

/-- Sampling ends by itself after no more expansions than there are nodes. -/
theorem Sound.grow_stops {fuel : Nat} (sound : s.Sound g v capacity) (hv : v < g.size)
    (closed : s.Closed g v capacity)
    (enough : s.frontier.size + g.size ≤ fuel + (s.nodes v).length) (source : σ) :
    ∃ last rest, grow g (g.distancesFrom v) capacity fuel s source = (last, rest) ∧
      Relation.ReflTransGen (Expands g v capacity) (s, source) (last, rest) ∧
      last.Stopped capacity ∧ last.Sound g v capacity ∧ last.Closed g v capacity := by
  induction fuel generalizing s source with
  | zero =>
    have few := sound.length_le hv
    exact ⟨s, source, rfl, .refl, .inl (by omega), sound, closed⟩
  | succ fuel ih =>
    rw [grow]
    split
    · rename_i done
      exact ⟨s, source, rfl, .refl, stopped_iff.2 done, sound, closed⟩
    · rename_i going
      rw [← stopped_iff, Stopped, not_or, Nat.not_le] at going
      obtain ⟨some, room⟩ := going
      have more := Nat.pos_of_ne_zero some
      have inside := Random.below64_lt more source
      rcases drawn : Random.below64 s.frontier.size source with ⟨place, rest⟩
      rw [drawn] at inside
      have step := Expands.expand (g := g) (v := v) more room drawn
      obtain ⟨sound, closed, fewer⟩ := sound.expand hv closed room inside rfl
      obtain ⟨last, final, grown, steps, ended⟩ := ih sound closed (by omega) rest
      exact ⟨last, final, grown, steps.head step, ended⟩

end Sampling

end SloppyGroup
