import SloppyGroup.Proofs.Overlay.Displacement
import SloppyGroup.Proofs.Overlay.Histories
import SloppyGroup.Proofs.Proximity.Intake

/-!
Admission keeps the nearest requesters. To a node that does not link to anyone itself its backlinks
are a bucket, and requests by different nodes are offers: in whatever order they come, the nearest
are held in the end, as many as are admitted.
-/

namespace SloppyGroup

open scoped List

/-- A request to a target that admits a given number of backlinks. -/
structure Petition extends Request where
  capacity : Nat
deriving DecidableEq, Repr

namespace Petition

/-- Who asks a node for a backlink, in order, at the distances that they give. -/
def received (v : Nat) (petitions : List Petition) : List Peer :=
  (petitions.filter (·.target = v)).map fun p => ⟨p.hops, p.source⟩

theorem received_concat (v : Nat) (ps : List Petition) (p : Petition) :
    received v (ps ++ [p]) =
      if p.target = v then received v ps ++ [⟨p.hops, p.source⟩] else received v ps := by
  rw [received, List.filter_append, List.map_append]
  split
  · rename_i asked
    simp [received, asked]
  · rename_i other
    simp [received, other]

end Petition

namespace Bucket

variable {b after : Bucket} {capacity : Nat} {peer : Peer} {asked leftOut : List Peer}

/-- How a request is answered, whatever the order of peers at the same distance: a full bucket only
takes a nearer peer, and gives up a farthest one for it. -/
inductive Exchanged (b after : Bucket) (capacity : Nat) (peer : Peer) : Prop where
  | inserted (room : b.size < capacity) (perm : after.peers ~ peer :: b.peers)
  | replaced (farthest : Peer) (full : capacity ≤ b.size) (last : b.farthest? = some farthest)
      (nearer : peer.hops < farthest.hops) (perm : after.peers ~ peer :: b.peers.dropLast)
  | refused (full : capacity ≤ b.size)
      (far : ∀ farthest ∈ b.farthest?, farthest.hops ≤ peer.hops) (perm : after.peers ~ b.peers)

theorem hops_congr (sorted : Sorted after.peers) (sorted' : Sorted b.peers)
    (perm : after.peers ~ b.peers) : after.hops = b.hops :=
  eq_of_perm_sorted (perm.map _) (sorted_iff_hops.1 sorted) (sorted_iff_hops.1 sorted')

theorem Exchanged.hops_eq (h : Exchanged b after capacity peer) (sorted : Sorted b.peers)
    (sorted' : Sorted after.peers) (bounded : b.size ≤ capacity) :
    after.hops = (b.hops.orderedInsert (· ≤ ·) peer.hops).take capacity := by
  cases h with
  | inserted room perm =>
    have placed : after.peers ~ (b.insert peer).peers := perm.trans (perm_place _ _).symm
    have same : after.hops = (b.insert peer).hops := hops_congr sorted' sorted.place placed
    rw [same, hops_insert sorted, List.take_of_length_le]
    rw [List.orderedInsert_length, length_hops]
    exact room
  | replaced farthest full last nearer perm =>
    have placed : after.peers ~ (b.replaceFarthest peer).peers := perm.trans (perm_place _ _).symm
    have front : Sorted b.peers.dropLast := sorted.sublist (List.dropLast_sublist _)
    have same : after.hops = (b.replaceFarthest peer).hops :=
      hops_congr sorted' front.place placed
    rw [same, hops_replaceFarthest sorted last (Nat.le_of_lt nearer),
      Nat.le_antisymm bounded full]
  | refused full far perm =>
    rw [hops_congr sorted' sorted perm]
    apply hops_eq_take_of_full sorted (Nat.le_antisymm bounded full)
    intro x hx
    cases last : b.farthest? with
    | none =>
      rw [farthest?, List.getLast?_eq_none_iff] at last
      rw [hops, last] at hx
      cases hx
    | some farthest => exact (le_farthest sorted last hx).trans (far farthest last)

/-- Nobody gets lost in an exchange. -/
theorem Exchanged.perm (h : Exchanged b after capacity peer) :
    ∃ out, after.peers ++ out ~ b.peers ++ [peer] := by
  have behind (peers : List Peer) : peer :: peers ~ peers ++ [peer] :=
    (List.perm_append_singleton peer peers).symm
  cases h with
  | inserted room perm =>
    refine ⟨[], ?_⟩
    rw [List.append_nil]
    exact perm.trans (behind b.peers)
  | replaced farthest full last nearer perm =>
    refine ⟨[farthest], ?_⟩
    conv_rhs => rw [peers_of_farthest? last]
    exact (perm.append_right _).trans (behind _)
  | refused full far perm => exact ⟨[peer], perm.append_right _⟩

theorem Keeps.exchanged (h : Keeps capacity asked leftOut b)
    (exchanged : Exchanged b after capacity peer) (sorted : Sorted after.peers) :
    ∃ leftOut, Keeps capacity (asked ++ [peer]) leftOut after := by
  obtain ⟨out, perm⟩ := exchanged.perm
  refine ⟨out ++ leftOut, sorted, ?_, ?_⟩
  · rw [exchanged.hops_eq h.sorted sorted h.size_le, h.hops_eq, ← take_orderedInsert,
      sortedHops_concat]
  · calc after.peers ++ (out ++ leftOut)
      _ ~ b.peers ++ [peer] ++ leftOut := by
        rw [← List.append_assoc]
        exact perm.append_right _
      _ ~ b.peers ++ leftOut ++ [peer] := by
        rw [List.append_assoc, List.append_assoc]
        exact List.perm_append_comm.append_left _
      _ ~ asked ++ [peer] := h.perm.append_right _

end Bucket

namespace Overlay

variable {o o' : Overlay} {v requester hops capacity : Nat} {farthest p : Peer}

def held (o : Overlay) (v : Nat) : Bucket :=
  ⟨o.backlinks v⟩

theorem sorted_held (o : Overlay) (v : Nat) : Bucket.Sorted (o.held v).peers := by
  apply (o.sorted_backlinks v).imp
  intro p q before
  rw [Peer.before_iff] at before
  omega

theorem nodup_backlinks (o : Overlay) (v : Nat) : (o.backlinks v).Nodup :=
  List.Nodup.of_map _ (o.nodup_backlinkNodes v)

theorem mem_dropLast_backlinks (last : (o.backlinks v).getLast? = some farthest) :
    p ∈ (o.backlinks v).dropLast ↔ p ∈ o.backlinks v ∧ p.node ≠ farthest.node := by
  have split : o.backlinks v = _ := (List.dropLast_append_getLast? farthest last).symm
  have nodup := o.nodup_backlinkNodes v
  rw [backlinkNodes, split, List.map_append, List.nodup_append] at nodup
  have apart : ∀ q ∈ (o.backlinks v).dropLast, q.node ≠ farthest.node := by
    intro q hq
    exact nodup.2.2 _ (List.mem_map_of_mem hq) _ List.mem_cons_self
  constructor
  · intro front
    exact ⟨List.mem_of_mem_dropLast front, apart p front⟩
  · rintro ⟨member, other⟩
    rw [split] at member
    rcases List.mem_append.1 member with front | same
    · exact front
    · rw [List.mem_singleton.1 same] at other
      exact absurd rfl other

/-- The backlinks of a node that gets one more and keeps some of those that it has. -/
theorem perm_backlinks_of_renewed {kept : List Peer} (fresh : requester ∉ o.backlinkNodes v)
    (sublist : kept.Sublist (o.backlinks v))
    (links : ∀ p : Peer, o'.link? v p.node = some ⟨p.hops, true⟩ ↔
      p.node = requester ∧ p.hops = hops ∨ p.node ≠ requester ∧ p ∈ kept) :
    o'.backlinks v ~ ⟨hops, requester⟩ :: kept := by
  have apart : ∀ p ∈ kept, p.node ≠ requester := by
    rintro p hp rfl
    exact fresh (List.mem_map_of_mem (sublist.subset hp))
  have new : ⟨hops, requester⟩ ∉ kept := fun old => apart _ old rfl
  have nodup := List.nodup_cons.2 ⟨new, (o.nodup_backlinks v).sublist sublist⟩
  rw [List.perm_ext_iff_of_nodup (o'.nodup_backlinks v) nodup]
  intro p
  rw [mem_backlinks, links, List.mem_cons]
  constructor
  · rintro (⟨node, hops⟩ | ⟨-, old⟩)
    · cases p
      simp_all
    · exact .inr old
  · rintro (rfl | old)
    · exact .inl ⟨rfl, rfl⟩
    · exact .inr ⟨apart p old, old⟩

theorem Granted.exchanged (h : Granted o o' v requester hops capacity)
    (fresh : requester ∉ o.backlinkNodes v) :
    Bucket.Exchanged (o.held v) (o'.held v) capacity ⟨hops, requester⟩ := by
  cases h with
  | admitted room links =>
    apply Bucket.Exchanged.inserted room
    apply perm_backlinks_of_renewed fresh (List.Sublist.refl _)
    intro p
    rw [links, Overlay.mem_backlinks]
    split
    · simp_all [eq_comm]
    · simp_all
  | replaced farthest full last nearer links =>
    apply Bucket.Exchanged.replaced farthest full last nearer
    apply perm_backlinks_of_renewed fresh (List.dropLast_sublist _)
    intro p
    rw [links, mem_dropLast_backlinks last, Overlay.mem_backlinks]
    split
    · simp_all [eq_comm]
    · split
      · simp_all
      · simp_all
  | declined full far links =>
    have same : o'.backlinks v ~ o.backlinks v := by
      rw [List.perm_ext_iff_of_nodup (o'.nodup_backlinks v) (o.nodup_backlinks v)]
      intro p
      rw [Overlay.mem_backlinks, Overlay.mem_backlinks, links]
    exact .refused full far same

def petition (o : Overlay) (p : Petition) : Overlay :=
  (o.connect p.source p.target p.hops p.capacity).2

def petitions (o : Overlay) (ps : List Petition) : Overlay :=
  ps.foldl petition o

theorem petitions_concat (o : Overlay) (ps : List Petition) (p : Petition) :
    o.petitions (ps ++ [p]) = (o.petitions ps).petition p := by
  rw [petitions, List.foldl_concat]
  rfl

theorem backlinks_blank (count v : Nat) : (blank count).backlinks v = [] := by
  rw [List.eq_nil_iff_forall_not_mem]
  intro p old
  rw [mem_backlinks, link?_blank] at old
  cases old

theorem held_petition_of_ne {p : Petition} (asker : v ≠ p.source) (asked : v ≠ p.target) :
    (o.petition p).held v = o.held v := by
  rw [held, petition, backlinks_congr (row_connect_of_ne asker asked)]
  rfl

/-- A request to a node is an offer to the bucket that its backlinks are. -/
theorem keeps_petition {asked leftOut : List Peer} {p : Petition}
    (keeps : Bucket.Keeps p.capacity asked leftOut (o.held p.target)) (other : p.source ≠ p.target)
    (fresh : p.source ∉ asked.map (·.node)) : ∃ leftOut,
      Bucket.Keeps p.capacity (asked ++ [⟨p.hops, p.source⟩]) leftOut
        ((o.petition p).held p.target) := by
  have granted : o.Granted (o.petition p) p.target p.source p.hops p.capacity :=
    granted_connect other
  have new : p.source ∉ o.backlinkNodes p.target := by
    intro old
    obtain ⟨peer, member, same⟩ := List.mem_map.1 old
    apply fresh
    rw [← same]
    exact List.mem_map_of_mem (keeps.perm.subset (List.mem_append_left _ member))
  exact keeps.exchanged (granted.exchanged new) (sorted_held _ _)

/-- As long as a node asks nobody, its backlinks are a bucket of those who ask it. -/
theorem keeps_petitions (count : Nat) {ps : List Petition} (silent : ∀ p ∈ ps, p.source ≠ v)
    (limited : ∀ p ∈ ps, p.target = v → p.capacity = capacity)
    (distinct : ((Petition.received v ps).map (·.node)).Nodup) :
    ∃ leftOut, Bucket.Keeps capacity (Petition.received v ps) leftOut
      (((blank count).petitions ps).held v) := by
  induction ps using List.reverseRecOn with
  | nil =>
    refine ⟨[], ?_⟩
    rw [held, petitions, List.foldl_nil, backlinks_blank]
    exact .empty capacity
  | append_singleton ps p ih =>
    have asker : p.source ≠ v := silent p (by simp)
    have before := ih (fun q hq => silent q (List.mem_append_left _ hq))
      (fun q hq => limited q (List.mem_append_left _ hq))
    rw [petitions_concat]
    rw [Petition.received_concat] at distinct ⊢
    by_cases asked : p.target = v
    · subst asked
      obtain rfl := limited p (by simp) rfl
      rw [if_pos rfl] at distinct ⊢
      rw [List.map_append, List.nodup_append] at distinct
      obtain ⟨leftOut, keeps⟩ := before distinct.1
      apply keeps_petition keeps asker
      intro old
      exact distinct.2.2 _ old _ List.mem_cons_self rfl
    · rw [if_neg asked] at distinct ⊢
      rw [held_petition_of_ne (Ne.symm asker) (Ne.symm asked)]
      exact before distinct

/-- Of the requests that a node receives from others, each from a different one, it grants the
nearest, as many as it admits, whatever the order in which they come and whatever happens elsewhere
in the overlay. -/
theorem petitions_keep_nearest (count v capacity : Nat) (ps : List Petition)
    (silent : ∀ p ∈ ps, p.source ≠ v) (limited : ∀ p ∈ ps, p.target = v → p.capacity = capacity)
    (distinct : ((Petition.received v ps).map (·.node)).Nodup) :
    let received := Petition.received v ps
    let held := ((blank count).petitions ps).backlinks v
    held.length = min capacity received.length ∧ (held.map (·.node)).Nodup ∧
    (∀ peer ∈ held, peer ∈ received) ∧
    held.map (·.hops) = ((received.map (·.hops)).mergeSort).take (min capacity received.length) := by
  intro received held
  obtain ⟨leftOut, keeps⟩ := keeps_petitions count silent limited distinct
  refine ⟨keeps.size_eq, nodup_backlinkNodes _ v, fun peer hp => ?_, ?_⟩
  · exact keeps.perm.subset (List.mem_append_left _ hp)
  · have smallest : held.map (·.hops) = ((received.map (·.hops)).mergeSort).take capacity :=
      keeps.hops_eq
    rw [smallest, List.take_eq_take_iff]
    simp

/-- Two requesters at the same distance, one who asks another node, and one who is nearer. -/
def queue : List Petition :=
  [⟨⟨1, 0, 3⟩, 2⟩, ⟨⟨2, 0, 3⟩, 2⟩, ⟨⟨1, 2, 1⟩, 0⟩, ⟨⟨3, 0, 4⟩, 2⟩, ⟨⟨4, 0, 1⟩, 2⟩]

theorem petitions_keep_nearest_queue :
    (∀ p ∈ queue, p.source ≠ 0) ∧ (∀ p ∈ queue, p.target = 0 → p.capacity = 2) ∧
    ((Petition.received 0 queue).map (·.node)).Nodup ∧
    (((blank 5).petitions queue).backlinks 0).map (·.hops) = [1, 3] := by
  have silent : ∀ p ∈ queue, p.source ≠ 0 := by decide
  have limited : ∀ p ∈ queue, p.target = 0 → p.capacity = 2 := by decide
  have distinct : ((Petition.received 0 queue).map (·.node)).Nodup := by decide
  obtain ⟨_, _, _, nearest⟩ := petitions_keep_nearest 5 0 2 queue silent limited distinct
  refine ⟨silent, limited, distinct, nearest.trans ?_⟩
  cbv

end Overlay

end SloppyGroup
