import SloppyGroup.Proofs.Overlay.Outreach

/-!
Long links: whatever the shuffle, a node picks finds at different distances, nearest first, and as
many of them as its fanout and the distances of its finds allow.
-/

namespace SloppyGroup

namespace ForeignView

variable {σ : Type} [RandomSource σ] {limit : Nat} {peers shuffled : List Peer}
  {held : Std.ExtTreeMap Nat Nat}

/-- The distances at which there are peers. -/
def distancesOf (peers : List Peer) : Finset Nat :=
  (peers.map (·.hops)).toFinset

/-- The distances that are represented among those held. -/
def heldDistances (held : Std.ExtTreeMap Nat Nat) : Finset Nat :=
  held.keys.toFinset

theorem distancesOf_cons (peer : Peer) (peers : List Peer) :
    distancesOf (peer :: peers) = insert peer.hops (distancesOf peers) :=
  List.toFinset_cons

theorem distancesOf_perm (h : shuffled.Perm peers) : distancesOf shuffled = distancesOf peers :=
  List.toFinset_eq_of_perm _ _ (h.map _)

theorem card_heldDistances (held : Std.ExtTreeMap Nat Nat) :
    (heldDistances held).card = held.size := by
  rw [heldDistances, List.toFinset_card_of_nodup Std.ExtTreeMap.nodup_keys,
    Std.ExtTreeMap.length_keys]

theorem heldDistances_insert (held : Std.ExtTreeMap Nat Nat) (hops node : Nat) :
    heldDistances (held.insert hops node) = insert hops (heldDistances held) := by
  ext k
  rw [heldDistances, heldDistances, Finset.mem_insert, List.mem_toFinset, List.mem_toFinset,
    Std.ExtTreeMap.mem_keys, Std.ExtTreeMap.mem_keys, Std.ExtTreeMap.mem_insert,
    Std.LawfulEqCmp.compare_eq_iff_eq, eq_comm]

/-- A peer at a new distance takes one more place and any other peer none, so that the limit is
never passed and is reached if there are enough distances. -/
theorem size_perDistance (room : held.size < limit) :
    (perDistance limit peers held).size =
      min limit (heldDistances held ∪ distancesOf peers).card := by
  induction peers generalizing held with
  | nil =>
    have none : distancesOf [] = ∅ := rfl
    rw [none, Finset.union_empty, card_heldDistances]
    exact (Nat.min_eq_right room.le).symm
  | cons peer rest ih =>
    have grown : heldDistances held ∪ distancesOf (peer :: rest) =
        heldDistances (held.insert peer.hops peer.node) ∪ distancesOf rest := by
      rw [distancesOf_cons, heldDistances_insert, Finset.union_insert, Finset.insert_union]
    rw [perDistance, grown]
    split
    · rename_i full
      have one : (held.insert peer.hops peer.node).size ≤ held.size + 1 :=
        Std.ExtTreeMap.size_insert_le
      have more : (heldDistances (held.insert peer.hops peer.node)).card ≤
          (heldDistances (held.insert peer.hops peer.node) ∪ distancesOf rest).card :=
        Finset.card_le_card Finset.subset_union_left
      rw [card_heldDistances] at more
      rw [Nat.min_eq_left (full.trans more)]
      exact Nat.le_antisymm (one.trans room) full
    · rename_i free
      exact ih (Nat.lt_of_not_le free)

theorem length_longLinks (view : ForeignView) (fanout : Nat) (source : σ) :
    (view.longLinks fanout source).1.length = min fanout (distancesOf view.peers).card := by
  rw [longLinks]
  split
  · rename_i zero
    rw [zero, Nat.zero_min]
    rfl
  · rename_i some
    have room : (∅ : Std.ExtTreeMap Nat Nat).size < fanout := by
      rw [Std.ExtTreeMap.size_empty]
      exact Nat.pos_of_ne_zero some
    have start : heldDistances ∅ = ∅ := rfl
    simp only [List.length_map, Std.ExtTreeMap.length_toList]
    rw [size_perDistance room, start, Finset.empty_union,
      distancesOf_perm (Random.perm_shuffle view.peers source)]

theorem nodup_hops_longLinks (view : ForeignView) (fanout : Nat) (source : σ) :
    ((view.longLinks fanout source).1.map (·.hops)).Nodup := by
  rw [List.Nodup, List.pairwise_map]
  exact (view.sorted_longLinks fanout source).imp Nat.ne_of_lt

/-- As many distances as there are among the finds are all of them. -/
theorem distancesOf_longLinks {view : ForeignView} {fanout : Nat} (source : σ)
    (enough : (distancesOf view.peers).card ≤ fanout) :
    distancesOf (view.longLinks fanout source).1 = distancesOf view.peers := by
  have inside : distancesOf (view.longLinks fanout source).1 ⊆ distancesOf view.peers := by
    intro hops there
    rw [distancesOf, List.mem_toFinset] at there ⊢
    exact List.map_subset _ (fun _ hp => mem_longLinks hp) there
  apply Finset.eq_of_subset_of_card_le inside
  rw [← Nat.min_eq_right enough, ← length_longLinks view fanout source, distancesOf,
    List.toFinset_card_of_nodup (view.nodup_hops_longLinks fanout source), List.length_map]

/-- Whatever the shuffle, long links lead to finds at different distances, nearest first. There are
as many of them as the fanout and the distances allow, and if the fanout allows it, there is one at
every distance. -/
theorem longLinks_span_distances (view : ForeignView) (fanout : Nat) (source : σ) :
    let links := (view.longLinks fanout source).1
    (∀ p ∈ links, p ∈ view.peers) ∧
    links.Pairwise (fun p q => p.hops < q.hops) ∧
    links.length = min fanout (distancesOf view.peers).card ∧
    ((distancesOf view.peers).card ≤ fanout →
      ∀ hops ∈ distancesOf view.peers, (links.map (·.hops)).count hops = 1) := by
  intro links
  refine ⟨fun _ hp => mem_longLinks hp, sorted_longLinks view fanout source,
    length_longLinks view fanout source, fun enough hops there => ?_⟩
  apply List.count_eq_one_of_mem (view.nodup_hops_longLinks fanout source)
  rw [← distancesOf_longLinks source enough] at there
  exact List.mem_toFinset.1 there

/-- Four finds at three distances. -/
def threeRings : ForeignView :=
  ⟨[⟨3, 1⟩, ⟨3, 2⟩, ⟨5, 3⟩, ⟨7, 4⟩]⟩

theorem longLinks_span_threeRings :
    (distancesOf threeRings.peers).card ≤ 8 ∧ 3 ∈ distancesOf threeRings.peers ∧
    let links := (threeRings.longLinks 8 (Random.ChaCha.ofSeed 4)).1
    links.length = 3 ∧ (links.map (·.hops)).count 3 = 1 ∧
    (threeRings.longLinks 2 (Random.ChaCha.ofSeed 4)).1.length = 2 := by
  obtain ⟨-, -, length, complete⟩ := longLinks_span_distances threeRings 8 (Random.ChaCha.ofSeed 4)
  obtain ⟨-, -, few, -⟩ := longLinks_span_distances threeRings 2 (Random.ChaCha.ofSeed 4)
  have enough : (distancesOf threeRings.peers).card ≤ 8 := by decide
  have there : 3 ∈ distancesOf threeRings.peers := by decide
  exact ⟨enough, there, length, complete enough 3 there, few⟩

end ForeignView

end SloppyGroup
