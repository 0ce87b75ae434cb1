import Mathlib
import SloppyGroup.Undirected.Distance

/-!
Layers of a distance table: a layer gives its distance to all positions next to the frontier that
had none, and later layers leave it alone. So positions are found in the order of their distances.
-/

namespace SloppyGroup

namespace Layer

variable {hops : Nat} {layer : Layer}

theorem size_visit (v : Nat) : (visit hops layer v).distances.size = layer.distances.size := by
  rw [visit]
  split
  · simp
  · rfl

theorem getElem?_visit (v w : Nat) :
    (visit hops layer v).distances[w]? =
      if w = v ∧ layer.distances[v]? = some none then some (some hops)
      else layer.distances[w]? := by
  rw [visit]
  split
  · rename_i unseen
    have hv : v < layer.distances.size := by
      by_contra out
      rw [Array.getElem?_eq_none (Nat.le_of_not_lt out)] at unseen
      cases unseen
    rw [Array.getElem?_setIfInBounds]
    by_cases he : w = v
    · rw [he, if_pos rfl, if_pos hv, if_pos ⟨rfl, unseen⟩]
    · simp [he, Ne.symm he]
  · rename_i known
    simp [known]

theorem mem_found_visit {v w : Nat} :
    w ∈ (visit hops layer v).found ↔
      w ∈ layer.found ∨ (w = v ∧ layer.distances[v]? = some none) := by
  rw [visit]
  split
  · rename_i unseen
    simp [unseen, or_comm]
  · rename_i known
    simp [known]

theorem size_foldl_visit (vs : List Nat) :
    (vs.foldl (visit hops) layer).distances.size = layer.distances.size := by
  induction vs generalizing layer with
  | nil => rfl
  | cons v vs ih => rw [List.foldl_cons, ih, size_visit]

theorem getElem?_foldl_visit (vs : List Nat) (w : Nat) :
    (vs.foldl (visit hops) layer).distances[w]? =
      if w ∈ vs ∧ layer.distances[w]? = some none then some (some hops)
      else layer.distances[w]? := by
  induction vs generalizing layer with
  | nil => simp
  | cons v vs ih =>
    rw [List.foldl_cons, ih, getElem?_visit]
    by_cases he : w = v
    · by_cases unseen : layer.distances[v]? = some none
      · simp [he, unseen]
      · simp [he, unseen]
    · simp [he]

theorem mem_found_foldl_visit {vs : List Nat} {w : Nat} :
    w ∈ (vs.foldl (visit hops) layer).found ↔
      w ∈ layer.found ∨ (w ∈ vs ∧ layer.distances[w]? = some none) := by
  induction vs generalizing layer with
  | nil => simp
  | cons v vs ih =>
    rw [List.foldl_cons, ih, mem_found_visit, getElem?_visit, List.mem_cons]
    grind

end Layer

namespace DistanceTable

variable {neighbors : Nat → List Nat}

theorem mem_found_nextLayer {hops : Nat} {distances : Array (Option Nat)} {frontier : List Nat}
    {v : Nat} :
    v ∈ (nextLayer neighbors hops distances frontier).found.reverse ↔
      (∃ u ∈ frontier, v ∈ neighbors u) ∧ distances[v]? = some none := by
  rw [List.mem_reverse, nextLayer, Layer.mem_found_foldl_visit, List.mem_flatMap]
  simp

theorem getElem?_nextLayer {hops : Nat} {distances : Array (Option Nat)} {frontier : List Nat}
    (v : Nat) :
    (nextLayer neighbors hops distances frontier).distances[v]? =
      if v ∈ (nextLayer neighbors hops distances frontier).found.reverse then some (some hops)
      else distances[v]? := by
  rw [nextLayer, Layer.getElem?_foldl_visit]
  congr 1
  rw [List.mem_reverse, Layer.mem_found_foldl_visit]
  simp

theorem size_sweep (fuel hops : Nat) (distances : Array (Option Nat)) (frontier : List Nat) :
    (sweep neighbors fuel hops distances frontier).1.size = distances.size := by
  induction fuel generalizing hops distances frontier with
  | zero => rfl
  | succ fuel ih =>
    simp only [sweep]
    split
    · exact Layer.size_foldl_visit _
    · rw [ih]
      exact Layer.size_foldl_visit _

/-- A sweep from the layer `hops` on keeps the distances that are known and finds positions in the
order of their distances. -/
structure Swept (hops : Nat) (distances : Array (Option Nat))
    (result : Array (Option Nat) × List Nat) : Prop where
  known : ∀ v : Nat, distances[v]? ≠ some none → result.1[v]? = distances[v]?
  found : ∀ v ∈ result.2, ∃ k, hops ≤ k ∧ result.1[v]? = some (some k)
  sorted : result.2.Pairwise fun v w => ∀ k l,
    result.1[v]? = some (some k) → result.1[w]? = some (some l) → k ≤ l

theorem swept_sweep (fuel hops : Nat) (distances : Array (Option Nat)) (frontier : List Nat) :
    Swept hops distances (sweep neighbors fuel hops distances frontier) := by
  induction fuel generalizing hops distances frontier with
  | zero => exact ⟨fun _ _ => rfl, by simp [sweep], by simp [sweep]⟩
  | succ fuel ih =>
    have layer (v : Nat) : (nextLayer neighbors hops distances frontier).distances[v]? = _ :=
      getElem?_nextLayer v
    have fresh (v : Nat) (hv : v ∈ (nextLayer neighbors hops distances frontier).found.reverse) :
        distances[v]? = some none := (mem_found_nextLayer.1 hv).2
    rw [sweep]
    generalize nextLayer neighbors hops distances frontier = next at layer fresh
    have kept (v : Nat) (hv : distances[v]? ≠ some none) :
        next.distances[v]? = distances[v]? := by
      rw [layer, if_neg fun h => hv (fresh v h)]
    split
    · exact ⟨kept, by simp, by simp⟩
    · obtain ⟨known, found, sorted⟩ := ih (hops + 1) next.distances next.found.reverse
      generalize sweep neighbors fuel (hops + 1) next.distances next.found.reverse = result
        at known found sorted
      have here (v : Nat) (hv : v ∈ next.found.reverse) : result.1[v]? = some (some hops) := by
        have now : next.distances[v]? = some (some hops) := by rw [layer, if_pos hv]
        rw [known v (by simp [now]), now]
      refine ⟨fun v hv => ?_, fun v hv => ?_, ?_⟩
      · rw [known v (by rw [kept v hv]; exact hv), kept v hv]
      · rcases List.mem_append.1 hv with hv | hv
        · exact ⟨hops, Nat.le_refl hops, here v hv⟩
        · obtain ⟨k, hk, hd⟩ := found v hv
          exact ⟨k, by omega, hd⟩
      · rw [List.pairwise_append]
        refine ⟨List.pairwise_of_forall_mem_list fun v hv w hw k l hk hl => ?_, sorted,
          fun v hv w hw k l hk hl => ?_⟩
        · have first := (here v hv).symm.trans hk
          have second := (here w hw).symm.trans hl
          grind
        · have first := (here v hv).symm.trans hk
          obtain ⟨m, hm, hd⟩ := found w hw
          have second := hd.symm.trans hl
          grind

theorem exists_distance?_of_mem_order {count source v : Nat}
    (hv : v ∈ (build count neighbors source).order) :
    ∃ k, (build count neighbors source).distance? v = some k := by
  obtain ⟨k, _, hd⟩ := (swept_sweep _ _ _ _).found v hv
  refine ⟨k, ?_⟩
  rw [distance?, build, hd]
  rfl

theorem lt_of_distance?_eq_some {count source v k : Nat}
    (h : (build count neighbors source).distance? v = some k) : v < count := by
  by_contra out
  have size : (build count neighbors source).distances.size = count := by
    rw [build]
    exact (size_sweep _ _ _ _).trans (by simp)
  rw [distance?, Array.getElem?_eq_none (by omega)] at h
  cases h

theorem pairwise_order (count : Nat) (neighbors : Nat → List Nat) (source : Nat) :
    (build count neighbors source).order.Pairwise fun v w => ∀ k l,
      (build count neighbors source).distance? v = some k →
      (build count neighbors source).distance? w = some l → k ≤ l := by
  apply (swept_sweep count 1 _ [source]).sorted.imp
  intro v w sorted k l hk hl
  exact sorted k l (Option.join_eq_some_iff.1 hk) (Option.join_eq_some_iff.1 hl)

end DistanceTable

end SloppyGroup
