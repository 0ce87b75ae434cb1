import SloppyGroup.Proofs.Overlay.Histories

/-!
Histories with room for everyone. Where nobody is asked for more backlinks than it admits, all
requests are admitted, and of the requests between two nodes the last one decides what becomes of
the links between them.
-/

namespace SloppyGroup

namespace Request

/-- The request is between these two nodes, whichever of them makes it. -/
def Joins (r : Request) (v w : Nat) : Prop :=
  (r.source = v ∧ r.target = w) ∨ (r.source = w ∧ r.target = v)

instance (r : Request) (v w : Nat) : Decidable (r.Joins v w) :=
  inferInstanceAs (Decidable (_ ∨ _))

/-- The last request between two nodes. -/
def lastBetween (history : List Request) (v w : Nat) : Option Request :=
  history.reverse.find? fun r => r.Joins v w

variable {history earlier later : List Request} {r : Request} {v w : Nat}

theorem lastBetween_concat : lastBetween (history ++ [r]) v w =
    if r.Joins v w then some r else lastBetween history v w := by
  rw [lastBetween, List.reverse_append, List.reverse_singleton, List.singleton_append,
    List.find?_cons]
  by_cases joins : r.Joins v w
  · simp [joins]
  · simp [joins, lastBetween]

theorem lastBetween_append : lastBetween (earlier ++ later) v w =
    (lastBetween later v w).or (lastBetween earlier v w) := by
  rw [lastBetween, List.reverse_append, List.find?_append]
  rfl

theorem isSome_lastBetween :
    (lastBetween history v w).isSome = true ↔ ∃ r ∈ history, r.Joins v w := by
  simp [lastBetween]

theorem lastBetween_comm : lastBetween history v w = lastBetween history w v := by
  have joins (r : Request) : r.Joins v w ↔ r.Joins w v := or_comm
  simp only [lastBetween, joins]

theorem mem_of_lastBetween (last : lastBetween history v w = some r) :
    r ∈ history ∧ r.Joins v w := by
  refine ⟨List.mem_reverse.1 (List.mem_of_find?_eq_some last), ?_⟩
  simpa using List.find?_some last

end Request

namespace Overlay

variable {o after : Overlay} {capacity : Nat → Nat} {count k : Nat} {answer : BacklinkAnswer}
  {history : List Request} {r : Request} {v w target requester hops : Nat}

theorem Answered.mem_backlinkNodes (h : o.Answered target requester hops k answer after)
    (held : w ∈ after.backlinkNodes v) :
    (v = target ∧ w = requester) ∨ w ∈ o.backlinkNodes v := by
  cases h with
  | selfLink => exact .inr held
  | admitted =>
    rcases mem_backlinkNodes_put.1 held with ⟨asked, asker, _⟩ | ⟨_, old⟩
    · exact .inl ⟨asked, asker⟩
    · exact .inr old
  | replaced =>
    rcases mem_backlinkNodes_put.1 held with ⟨asked, asker, _⟩ | ⟨_, old⟩
    · exact .inl ⟨asked, asker⟩
    · exact .inr (mem_backlinkNodes_remove.1 old).2
  | declined => exact .inr held

theorem exists_request_of_backlink
    (held : w ∈ ((blank count).handleAll capacity history).backlinkNodes v) :
    ∃ r ∈ history, r.target = v ∧ r.source = w := by
  induction history using List.reverseRecOn with
  | nil =>
    obtain ⟨hops, none⟩ := mem_backlinkNodes.1 held
    rw [handleAll, List.foldl_nil, link?_blank] at none
    cases none
  | append_singleton history r ih =>
    rw [handleAll_concat] at held
    rcases (answered_handle _ r).mem_backlinkNodes held with ⟨rfl, rfl⟩ | asked
    · exact ⟨r, by simp, rfl, rfl⟩
    · rcases mem_backlinkNodes_put.1 asked with ⟨_, _, marked⟩ | ⟨_, old⟩
      · cases marked
      · obtain ⟨s, hs, same⟩ := ih old
        exact ⟨s, List.mem_append_left _ hs, same⟩

/-- Nobody holds more backlinks than it was asked for. -/
theorem length_backlinks_handleAll_le (v : Nat) :
    (((blank count).handleAll capacity history).backlinks v).length ≤
      history.countP fun r => r.target = v := by
  have asked : ((blank count).handleAll capacity history).backlinkNodes v ⊆
      (history.filter fun r => r.target = v).map (·.source) := by
    intro w held
    obtain ⟨r, hr, target, rfl⟩ := exists_request_of_backlink held
    exact List.mem_map_of_mem (List.mem_filter.2 ⟨hr, decide_eq_true target⟩)
  calc _ ≤ ((history.filter fun r => r.target = v).map (·.source)).length :=
        length_backlinks_le asked
    _ = history.countP fun r => r.target = v := by
        rw [List.length_map, List.countP_eq_length_filter]

/-- Nobody asks itself, and nobody is asked more often than it has room for backlinks. -/
structure Ample (capacity : Nat → Nat) (history : List Request) : Prop where
  other : ∀ r ∈ history, r.source ≠ r.target
  room : ∀ v, (history.countP fun r => r.target = v) ≤ capacity v

theorem Ample.before (h : Ample capacity (history ++ [r])) : Ample capacity history where
  other s hs := h.other s (List.mem_append_left _ hs)
  room v := by
    have room := h.room v
    rw [List.countP_append] at room
    omega

theorem handle_of_room (other : r.source ≠ r.target)
    (room : ((o.asked r).backlinks r.target).length < capacity r.target) :
    o.handle capacity r =
      (.admitted, (o.asked r).put r.target r.source ⟨r.hops, true⟩) := by
  rw [asked] at room
  simp only [handle, connect, requestBacklink, asked, if_neg other.symm, if_pos room]

theorem Ample.handle (h : Ample capacity (history ++ [r])) :
    ((blank count).handleAll capacity history).handle capacity r =
      (.admitted, (((blank count).handleAll capacity history).asked r).put r.target r.source
        ⟨r.hops, true⟩) := by
  apply handle_of_room (h.other r (by simp))
  have room := h.room r.target
  rw [List.countP_append, List.countP_singleton, decide_eq_true rfl, if_pos rfl] at room
  calc _ ≤ (((blank count).handleAll capacity history).backlinks r.target).length :=
        length_backlinks_put_forward _ _ _ _ _
    _ ≤ history.countP fun s => s.target = r.target := length_backlinks_handleAll_le r.target
    _ < capacity r.target := room

theorem Ample.admits (h : Ample capacity history) :
    ∀ answer ∈ (blank count).answers capacity history, answer = .admitted := by
  induction history using List.reverseRecOn with
  | nil => nofun
  | append_singleton history r ih =>
    intro answer given
    rw [answers_append] at given
    rcases List.mem_append.1 given with earlier | last
    · exact ih h.before answer earlier
    · rw [answers, answers, h.handle] at last
      exact List.mem_singleton.1 last

/-- Where there is room, the last request between two nodes decides about the links between them. -/
theorem Ample.link? (h : Ample capacity history) (v w : Nat) :
    ((blank count).handleAll capacity history).link? v w =
      (Request.lastBetween history v w).map fun r => ⟨r.hops, decide (r.source = w)⟩ := by
  induction history using List.reverseRecOn with
  | nil => exact link?_blank count v w
  | append_singleton history r ih =>
    -- An admitted request overwrites the links between its nodes and no others.
    have other := h.other r (by simp)
    rw [handleAll_concat, h.handle, asked, link?_put, link?_put, ih h.before,
      Request.lastBetween_concat]
    by_cases back : v = r.target ∧ w = r.source
    · obtain ⟨rfl, rfl⟩ := back
      simp [Request.Joins]
    · rw [if_neg back]
      by_cases forth : v = r.source ∧ w = r.target
      · obtain ⟨rfl, rfl⟩ := forth
        simp [Request.Joins, other]
      · have apart : ¬r.Joins v w := by
          rintro (⟨rfl, rfl⟩ | ⟨rfl, rfl⟩)
          · exact forth ⟨rfl, rfl⟩
          · exact back ⟨rfl, rfl⟩
        rw [if_neg forth, if_neg apart]

end Overlay

end SloppyGroup
