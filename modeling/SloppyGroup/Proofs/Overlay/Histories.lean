import SloppyGroup.Proofs.Overlay.Backlinks

/-!
Histories of requests. Nodes may link to each other in any order, again and again, and to
themselves: nobody ever holds more backlinks than it admits, only nodes that hold as many as they
admit decline or replace, and nothing gets lost but the backlink that is replaced.
-/

namespace SloppyGroup

/-- A node links to another one, at some distance, and asks it for a backlink. -/
structure Request where
  source : Nat
  target : Nat
  hops : Nat
deriving DecidableEq, Repr

namespace Overlay

variable {o after : Overlay} {v w target requester hops count : Nat} {capacity : Nat → Nat}
  {answer : BacklinkAnswer}

/-- The overlay in which a target considers a request: the link to it is there already. -/
def asked (o : Overlay) (r : Request) : Overlay :=
  o.put r.source r.target ⟨r.hops, false⟩

def handle (capacity : Nat → Nat) (o : Overlay) (r : Request) : BacklinkAnswer × Overlay :=
  o.connect r.source r.target r.hops (capacity r.target)

def handleAll (capacity : Nat → Nat) (o : Overlay) (history : List Request) : Overlay :=
  history.foldl (fun o r => (o.handle capacity r).2) o

def answers (capacity : Nat → Nat) : Overlay → List Request → List BacklinkAnswer
  | _, [] => []
  | o, r :: rest => (o.handle capacity r).1 :: answers capacity (o.handle capacity r).2 rest

theorem handleAll_append (o : Overlay) (earlier later : List Request) :
    o.handleAll capacity (earlier ++ later) =
      (o.handleAll capacity earlier).handleAll capacity later := by
  rw [handleAll, handleAll, handleAll, List.foldl_append]

theorem answers_append (o : Overlay) (earlier later : List Request) :
    o.answers capacity (earlier ++ later) =
      o.answers capacity earlier ++ (o.handleAll capacity earlier).answers capacity later := by
  induction earlier generalizing o with
  | nil => rfl
  | cons r rest ih => exact congrArg (_ :: ·) (ih (o.handle capacity r).2)

theorem handleAll_concat (o : Overlay) (history : List Request) (r : Request) :
    o.handleAll capacity (history ++ [r]) = ((o.handleAll capacity history).handle capacity r).2 := by
  simp [handleAll]

theorem answered_handle (o : Overlay) (r : Request) :
    (o.asked r).Answered r.target r.source r.hops (capacity r.target)
      (o.handle capacity r).1 (o.handle capacity r).2 :=
  answered_connect o r.source r.target r.hops (capacity r.target)

theorem Answered.full {k : Nat} (h : o.Answered target requester hops k answer after)
    (strained : answer = .declined ∨ ∃ evicted, answer = .replaced evicted) :
    k ≤ (o.backlinks target).length := by
  cases h with
  | selfLink => simp at strained
  | admitted => simp at strained
  | replaced _ _ full => exact full
  | declined _ full => exact full

theorem isSome_link?_put {source : Nat} {link : Link} (held : (o.link? v w).isSome = true) :
    ((o.put source target link).link? v w).isSome = true := by
  rw [link?_put]
  split
  · rfl
  · exact held

/-- Answering a request makes no link disappear but the backlink that is replaced. -/
theorem Answered.lost {k : Nat} (h : o.Answered target requester hops k answer after)
    (held : (o.link? v w).isSome = true) (lost : after.link? v w = none) :
    v = target ∧ answer = .replaced w ∧ w ∈ o.backlinkNodes v := by
  cases h with
  | selfLink =>
    rw [lost] at held
    cases held
  | admitted =>
    have stays : ((o.put target requester ⟨hops, true⟩).link? v w).isSome = true :=
      isSome_link?_put held
    rw [lost] at stays
    cases stays
  | replaced farthest _ _ last =>
    rw [link?_put, link?_remove] at lost
    split at lost
    · cases lost
    · split at lost
      · rename_i evicted
        obtain ⟨rfl, rfl⟩ := evicted
        exact ⟨rfl, rfl, List.mem_map_of_mem (List.mem_of_getLast? last)⟩
      · rw [lost] at held
        cases held
  | declined =>
    rw [lost] at held
    cases held

theorem handleAll_preserves {P : Overlay → Prop} {history : List Request}
    (step : ∀ o, ∀ r ∈ history, P o → P (o.handle capacity r).2) (start : P o) :
    P (o.handleAll capacity history) := by
  induction history generalizing o with
  | nil => exact start
  | cons r rest ih =>
    apply ih
    · exact fun o s hs => step o s (List.mem_cons_of_mem _ hs)
    · exact step o r List.mem_cons_self start

theorem Bounded.handle (h : o.Bounded capacity) (r : Request) :
    (o.handle capacity r).2.Bounded capacity :=
  h.connect r.source r.target r.hops

theorem bounded_handleAll (count : Nat) (capacity : Nat → Nat) (history : List Request) :
    ((blank count).handleAll capacity history).Bounded capacity :=
  handleAll_preserves (P := (·.Bounded capacity)) (fun _ r _ h => h.handle r)
    (bounded_blank count capacity)

theorem spans_handleAll {history : List Request}
    (inside : ∀ r ∈ history, r.source < count ∧ r.target < count) :
    ((blank count).handleAll capacity history).Spans count :=
  handleAll_preserves (P := (·.Spans count))
    (fun _ r hr h => h.connect (inside r hr).1 (inside r hr).2 r.hops (capacity r.target))
    (spans_blank count)

theorem history_stays_bounded (count : Nat) (capacity : Nat → Nat) (history : List Request)
    (r : Request) :
    let before := (blank count).handleAll capacity history
    let answer := (before.handle capacity r).1
    let after := (before.handle capacity r).2
    before.Bounded capacity ∧ after.Bounded capacity ∧
    ((answer = .declined ∨ ∃ evicted, answer = .replaced evicted) →
      ((before.asked r).backlinks r.target).length = capacity r.target) ∧
    ∀ v w, (before.link? v w).isSome = true → after.link? v w = none →
      v = r.target ∧ answer = .replaced w ∧ ∃ hops, before.link? v w = some ⟨hops, true⟩ := by
  intro before answer after
  have bounded : before.Bounded capacity := bounded_handleAll count capacity history
  have answered : (before.asked r).Answered r.target r.source r.hops (capacity r.target)
    answer after := answered_handle before r
  refine ⟨bounded, bounded.handle r, fun strained => ?_, fun v w held lost => ?_⟩
  · have bound := bounded.put_forward r.source r.target r.hops r.target
    exact Nat.le_antisymm bound (answered.full strained)
  · -- What a request puts first is a forward link, so the backlink that is lost was there before.
    obtain ⟨rfl, replaced, backlink⟩ := answered.lost (isSome_link?_put held) lost
    refine ⟨rfl, replaced, ?_⟩
    rcases mem_backlinkNodes_put.1 backlink with ⟨_, _, marked⟩ | ⟨_, old⟩
    · cases marked
    · exact mem_backlinkNodes.1 old

/-- Node 0 has granted a backlink to node 1, declined one to node 2, linked to itself and to node
2. -/
def crowdedHistory : List Request := [⟨1, 0, 3⟩, ⟨2, 0, 3⟩, ⟨0, 0, 0⟩, ⟨0, 2, 3⟩]

theorem history_stays_bounded_crowded :
    let before := (blank 3).handleAll (fun _ => 1) crowdedHistory
    let answer := (before.handle (fun _ => 1) ⟨3, 0, 1⟩).1
    let after := (before.handle (fun _ => 1) ⟨3, 0, 1⟩).2
    answer = .replaced 1 ∧ (before.link? 0 1).isSome = true ∧ after.link? 0 1 = none ∧
      ((before.asked ⟨3, 0, 1⟩).backlinks 0).length = 1 ∧
      ∃ hops, before.link? 0 1 = some ⟨hops, true⟩ := by
  intro before answer after
  have replaced : answer = .replaced 1 := by decide +kernel
  have held : (before.link? 0 1).isSome = true := by decide +kernel
  have lost : after.link? 0 1 = none := by decide +kernel
  obtain ⟨_, _, full, loses⟩ := history_stays_bounded 3 (fun _ => 1) crowdedHistory ⟨3, 0, 1⟩
  exact ⟨replaced, held, lost, full (.inr ⟨1, replaced⟩), (loses 0 1 held lost).2.2⟩

end Overlay

end SloppyGroup
