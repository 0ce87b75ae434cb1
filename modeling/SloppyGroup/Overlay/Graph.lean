import Std.Data.ExtTreeMap
import SloppyGroup.Error
import SloppyGroup.Proximity.Peer
import SloppyGroup.Tally
import SloppyGroup.TrustGraph

/-!
Overlays: directed links between nodes. A node that is linked to is asked for a backlink, which it
grants up to its capacity and beyond that only in exchange for a farther one.
-/

namespace SloppyGroup

/-- What a directed link says about itself. -/
structure Link where
  hops : Nat
  isBacklink : Bool
deriving DecidableEq, Repr

/-- The links of one node by target. -/
abbrev LinkRow := Std.ExtTreeMap Nat Link

/-- What a node answered to a request for a backlink. -/
inductive BacklinkAnswer where
  | admitted
  | replaced (evicted : Nat)
  | declined
  /-- A node does not link back to itself. -/
  | selfLink
deriving DecidableEq, Repr

/-- The links of every node. -/
structure Overlay where
  rows : Std.ExtTreeMap Nat LinkRow

namespace Overlay

/-- An overlay without links. -/
def blank (count : Nat) : Overlay :=
  ⟨(List.range count).foldl (fun rows v => rows.insert v ∅) ∅⟩

def row (o : Overlay) (v : Nat) : LinkRow :=
  o.rows[v]?.getD ∅

def link? (o : Overlay) (source target : Nat) : Option Link :=
  (o.row source)[target]?

theorem row_blank (count v : Nat) : (blank count).row v = ∅ := by
  have fold (vs : List Nat) (rows : Std.ExtTreeMap Nat LinkRow) (h : rows[v]?.getD ∅ = ∅) :
      (vs.foldl (fun rows v => rows.insert v ∅) rows)[v]?.getD ∅ = ∅ := by
    induction vs generalizing rows with
    | nil => exact h
    | cons w vs ih =>
      refine ih _ ?_
      rw [Std.ExtTreeMap.getElem?_insert]
      split
      · rfl
      · exact h
  exact fold _ _ (by simp)

@[simp] theorem link?_blank (count v w : Nat) : (blank count).link? v w = none := by
  simp [link?, row_blank]

def size (o : Overlay) : Nat :=
  o.rows.size

def successors (o : Overlay) (v : Nat) : List Nat :=
  (o.row v).keys

def links (o : Overlay) : List (Nat × Nat × Link) :=
  o.rows.toList.flatMap fun (source, row) => row.toList.map fun (target, link) =>
    (source, target, link)

theorem mem_links {o : Overlay} {source target : Nat} {link : Link} :
    (source, target, link) ∈ o.links ↔ o.link? source target = some link := by
  simp only [links, List.mem_flatMap, List.mem_map, link?, row]
  constructor
  · rintro ⟨⟨v, row⟩, hrow, ⟨w, l⟩, hlink, h⟩
    cases h
    rw [Std.ExtTreeMap.mem_toList_iff_getElem?_eq_some] at hrow hlink
    simp [hrow, hlink]
  · intro h
    cases hrow : o.rows[source]? with
    | none => simp [hrow] at h
    | some row =>
      refine ⟨(source, row), Std.ExtTreeMap.mem_toList_iff_getElem?_eq_some.2 hrow,
        (target, link), ?_, rfl⟩
      exact Std.ExtTreeMap.mem_toList_iff_getElem?_eq_some.2 (by simpa [hrow] using h)

def linkCount (o : Overlay) : Nat :=
  tally (·.2.size) o.rows.toList

def backlinkCount (o : Overlay) : Nat :=
  o.links.countP fun (_, _, link) => link.isBacklink

def outDegree (o : Overlay) (v : Nat) : Nat :=
  (o.row v).size

def inDegree (o : Overlay) (v : Nat) : Nat :=
  o.rows.toList.countP fun (_, row) => row.contains v

/-- Adds a node without links, unless it is there. -/
def enroll (o : Overlay) (v : Nat) : Overlay :=
  ⟨o.rows.insertIfNew v ∅⟩

/-- Adds or overwrites a link; new nodes join the overlay. -/
def put (o : Overlay) (source target : Nat) (link : Link) : Overlay :=
  let o := o.enroll target
  ⟨o.rows.insert source ((o.row source).insert target link)⟩

def remove (o : Overlay) (source target : Nat) : Overlay :=
  ⟨o.rows.modify source fun row => row.erase target⟩

@[simp] theorem row_enroll (o : Overlay) (v w : Nat) : (o.enroll v).row w = o.row w := by
  simp only [row, enroll, Std.ExtTreeMap.getElem?_insertIfNew]
  split
  · rename_i h
    obtain ⟨rfl, absent⟩ : v = w ∧ v ∉ o.rows := by simpa using h
    rw [Std.ExtTreeMap.getElem?_eq_none absent]
    rfl
  · rfl

theorem row_put (o : Overlay) (source target v : Nat) (link : Link) :
    (o.put source target link).row v =
      if v = source then (o.row source).insert target link else o.row v := by
  have enrolled : (o.enroll target).rows[v]?.getD ∅ = o.row v := row_enroll o target v
  simp only [put, row_enroll]
  rw [row, Std.ExtTreeMap.getElem?_insert]
  by_cases h : v = source
  · simp [h]
  · simp [h, Ne.symm h, enrolled]

theorem row_remove (o : Overlay) (source target v : Nat) :
    (o.remove source target).row v =
      if v = source then (o.row source).erase target else o.row v := by
  rw [row, remove, Std.ExtTreeMap.getElem?_modify]
  by_cases h : v = source
  · subst h
    rw [row]
    cases o.rows[v]? <;> simp
  · simp [h, Ne.symm h, row]

theorem link?_put (o : Overlay) (source target v w : Nat) (link : Link) :
    (o.put source target link).link? v w =
      if v = source ∧ w = target then some link else o.link? v w := by
  rw [link?, link?, row_put]
  by_cases hv : v = source
  · by_cases hw : w = target
    · simp [hv, hw]
    · simp [hv, hw, Ne.symm hw, Std.ExtTreeMap.getElem?_insert]
  · simp [hv]

theorem link?_remove (o : Overlay) (source target v w : Nat) :
    (o.remove source target).link? v w =
      if v = source ∧ w = target then none else o.link? v w := by
  rw [link?, link?, row_remove]
  by_cases hv : v = source
  · by_cases hw : w = target
    · simp [hv, hw]
    · simp [hv, hw, Ne.symm hw, Std.ExtTreeMap.getElem?_erase]
  · simp [hv]

/-- The backlinks that a node holds, nearest first. -/
def backlinks (o : Overlay) (v : Nat) : List Peer :=
  let held := (o.row v).toList.filterMap fun (target, link) =>
    if link.isBacklink then some (Peer.mk link.hops target) else none
  held.mergeSort Peer.before

theorem mem_backlinks {o : Overlay} {v : Nat} {peer : Peer} :
    peer ∈ o.backlinks v ↔ o.link? v peer.node = some ⟨peer.hops, true⟩ := by
  simp only [backlinks, List.mem_mergeSort, List.mem_filterMap, link?]
  constructor
  · rintro ⟨⟨target, link⟩, mem, h⟩
    split at h
    · rename_i isBacklink
      cases h
      rw [Std.ExtTreeMap.mem_toList_iff_getElem?_eq_some] at mem
      cases link
      simp_all
    · cases h
  · intro h
    refine ⟨(peer.node, ⟨peer.hops, true⟩), ?_, by simp⟩
    exact Std.ExtTreeMap.mem_toList_iff_getElem?_eq_some.2 h

def requestBacklink (o : Overlay) (target requester hops capacity : Nat) :
    BacklinkAnswer × Overlay :=
  if target = requester then (.selfLink, o)
  else
    let held := o.backlinks target
    if held.length < capacity then (.admitted, o.put target requester ⟨hops, true⟩)
    else
      match held.getLast? with
      | none => (.declined, o)
      | some farthest =>
        if hops < farthest.hops then
          (.replaced farthest.node,
            (o.remove target farthest.node).put target requester ⟨hops, true⟩)
        else (.declined, o)

/-- Links `source` to `target` and asks `target`, which admits `capacity` backlinks, for one. A link
that is there already is overwritten, in both directions. -/
def connect (o : Overlay) (source target hops capacity : Nat) : BacklinkAnswer × Overlay :=
  (o.put source target ⟨hops, false⟩).requestBacklink target source hops capacity

/-- Refuses a node with more backlinks than it admits. -/
def check (g : TrustGraph) (o : Overlay) : Except SimulationError Unit :=
  (List.range g.size).forM fun v =>
    let node := g.node v
    let count := (o.backlinks v).length
    if node.backlinkCapacity < count then
      .error (.violated (.backlinkOverflow node.label count node.backlinkCapacity))
    else .ok ()

end Overlay

end SloppyGroup
