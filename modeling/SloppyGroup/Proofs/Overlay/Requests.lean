import Mathlib
import SloppyGroup.Overlay.Graph

/-!
Requests for backlinks: every answer that a node can give, with the reason for it and what the
answer does to the overlay.
-/

namespace SloppyGroup

namespace Overlay

/-- The answer to a request and the overlay after it. -/
inductive Answered (o : Overlay) (target requester hops capacity : Nat) :
    BacklinkAnswer → Overlay → Prop where
  | selfLink (self : target = requester) : Answered o target requester hops capacity .selfLink o
  | admitted (other : target ≠ requester) (room : (o.backlinks target).length < capacity) :
      Answered o target requester hops capacity .admitted (o.put target requester ⟨hops, true⟩)
  | replaced (farthest : Peer) (other : target ≠ requester)
      (full : capacity ≤ (o.backlinks target).length)
      (last : (o.backlinks target).getLast? = some farthest) (nearer : hops < farthest.hops) :
      Answered o target requester hops capacity (.replaced farthest.node)
        ((o.remove target farthest.node).put target requester ⟨hops, true⟩)
  | declined (other : target ≠ requester) (full : capacity ≤ (o.backlinks target).length)
      (far : ∀ farthest ∈ (o.backlinks target).getLast?, farthest.hops ≤ hops) :
      Answered o target requester hops capacity .declined o

theorem answered_requestBacklink (o : Overlay) (target requester hops capacity : Nat) :
    Answered o target requester hops capacity
      (o.requestBacklink target requester hops capacity).1
      (o.requestBacklink target requester hops capacity).2 := by
  by_cases self : target = requester
  · rw [requestBacklink, if_pos self]
    exact .selfLink self
  rw [requestBacklink, if_neg self]
  by_cases room : (o.backlinks target).length < capacity
  · simp only [room, ↓reduceIte]
    exact .admitted self room
  have full : capacity ≤ (o.backlinks target).length := Nat.le_of_not_lt room
  simp only [room, ↓reduceIte]
  cases last : (o.backlinks target).getLast? with
  | none => exact .declined self full (by simp [last])
  | some farthest =>
    by_cases nearer : hops < farthest.hops
    · simp only [nearer, ↓reduceIte]
      exact .replaced farthest self full last nearer
    · simp only [nearer, ↓reduceIte]
      apply Answered.declined self full
      intro p hp
      rw [last, Option.mem_some_iff] at hp
      rw [← hp]
      exact Nat.le_of_not_lt nearer

theorem answered_connect (o : Overlay) (source target hops capacity : Nat) :
    Answered (o.put source target ⟨hops, false⟩) target source hops capacity
      (o.connect source target hops capacity).1 (o.connect source target hops capacity).2 :=
  answered_requestBacklink _ _ _ _ _

end Overlay

end SloppyGroup
