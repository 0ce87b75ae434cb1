import Mathlib
import SloppyGroup.Proofs.Overlay.Requests

/-!
The nodes of an overlay. Links between the nodes of an overlay neither add nodes nor lose any.
-/

namespace SloppyGroup

namespace Overlay

variable {o : Overlay} {count : Nat}

/-- The nodes of the overlay are the positions below `count`, and so are the ends of its links. -/
structure Spans (o : Overlay) (count : Nat) : Prop where
  mem_rows : ∀ v, v ∈ o.rows ↔ v < count
  target_lt : ∀ {v w : Nat} {link : Link}, o.link? v w = some link → w < count

theorem mem_rows_of_link? {v w : Nat} {link : Link} (h : o.link? v w = some link) :
    v ∈ o.rows := by
  by_contra absent
  rw [link?, row, Std.ExtTreeMap.getElem?_eq_none absent] at h
  simp at h

theorem Spans.source_lt (h : o.Spans count) {v w : Nat} {link : Link}
    (hl : o.link? v w = some link) : v < count :=
  (h.mem_rows v).1 (mem_rows_of_link? hl)

theorem Spans.size (h : o.Spans count) : o.size = count := by
  have members : o.rows.keys.Perm (List.range count) := by
    rw [List.perm_ext_iff_of_nodup Std.ExtTreeMap.nodup_keys List.nodup_range]
    intro v
    rw [Std.ExtTreeMap.mem_keys, List.mem_range]
    exact h.mem_rows v
  rw [Overlay.size, ← Std.ExtTreeMap.length_keys, members.length_eq, List.length_range]

theorem mem_rows_blank (count v : Nat) : v ∈ (blank count).rows ↔ v < count := by
  have fold (vs : List Nat) (rows : Std.ExtTreeMap Nat LinkRow) :
      v ∈ vs.foldl (fun rows v => rows.insert v ∅) rows ↔ v ∈ vs ∨ v ∈ rows := by
    induction vs generalizing rows with
    | nil => simp
    | cons w vs ih =>
      rw [List.foldl_cons, ih, Std.ExtTreeMap.mem_insert, List.mem_cons,
        Std.LawfulEqCmp.compare_eq_iff_eq]
      grind
  rw [blank, fold, List.mem_range]
  simp

theorem spans_blank (count : Nat) : (blank count).Spans count where
  mem_rows := mem_rows_blank count
  target_lt h := by simp at h

theorem mem_rows_put {source target v : Nat} {link : Link} :
    v ∈ (o.put source target link).rows ↔ v = source ∨ v = target ∨ v ∈ o.rows := by
  rw [put, enroll, Std.ExtTreeMap.mem_insert, Std.ExtTreeMap.mem_insertIfNew,
    Std.LawfulEqCmp.compare_eq_iff_eq, Std.LawfulEqCmp.compare_eq_iff_eq]
  grind

theorem Spans.put (h : o.Spans count) {source target : Nat} (hs : source < count)
    (ht : target < count) (link : Link) : (o.put source target link).Spans count where
  mem_rows v := by
    rw [mem_rows_put, h.mem_rows]
    constructor
    · rintro (rfl | rfl | hv)
      · exact hs
      · exact ht
      · exact hv
    · intro hv
      exact .inr (.inr hv)
  target_lt {v w found} hl := by
    rw [link?_put] at hl
    split at hl
    · rename_i he
      rw [he.2]
      exact ht
    · exact h.target_lt hl

theorem Spans.remove (h : o.Spans count) (source target : Nat) :
    (o.remove source target).Spans count where
  mem_rows v := by
    rw [Overlay.remove, Std.ExtTreeMap.mem_modify]
    exact h.mem_rows v
  target_lt {v w found} hl := by
    rw [link?_remove] at hl
    split at hl
    · cases hl
    · exact h.target_lt hl

theorem Spans.answered (h : o.Spans count) {target requester hops capacity : Nat}
    {answer : BacklinkAnswer} {after : Overlay} (ht : target < count) (hr : requester < count)
    (ha : o.Answered target requester hops capacity answer after) : after.Spans count := by
  cases ha with
  | selfLink => exact h
  | admitted => exact h.put ht hr _
  | replaced => exact (h.remove _ _).put ht hr _
  | declined => exact h

/-- Linking two nodes leaves the nodes of the overlay as they are. -/
theorem Spans.connect (h : o.Spans count) {source target : Nat} (hs : source < count)
    (ht : target < count) (hops capacity : Nat) :
    (o.connect source target hops capacity).2.Spans count :=
  (h.put hs ht _).answered ht hs (answered_connect o source target hops capacity)

end Overlay

end SloppyGroup
