import Std.Data.ExtTreeMap
import SloppyGroup.Proximity.Peer
import SloppyGroup.Random.Source
import SloppyGroup.Tally
import SloppyGroup.TrustGraph

/-!
Color buckets: the nearest nodes of every group, kept in buckets of bounded size. A bucket that is
full replaces its farthest peer by a nearer one, and tosses a coin for an equally far one.
-/

namespace SloppyGroup

/-- What became of a candidate. -/
inductive Admission where
  | appended
  | replaced (evicted : Nat)
  /-- As far as the farthest peer, but lost the toss. -/
  | rejected
  /-- Farther than every peer of a full bucket. -/
  | saturated
deriving DecidableEq, Repr

/-- Peers sorted by distance. -/
structure Bucket where
  peers : List Peer
deriving DecidableEq, Repr

namespace Bucket

def empty : Bucket := ⟨[]⟩

def size (b : Bucket) : Nat :=
  b.peers.length

def farthest? (b : Bucket) : Option Peer :=
  b.peers.getLast?

def contains (b : Bucket) (node : Nat) : Bool :=
  b.peers.any (·.node == node)

/-- Puts a peer behind all that are not farther away. -/
def place (peer : Peer) : List Peer → List Peer
  | [] => [peer]
  | p :: rest => if p.hops ≤ peer.hops then p :: place peer rest else peer :: p :: rest

theorem perm_place (peer : Peer) (peers : List Peer) : (place peer peers).Perm (peer :: peers) := by
  induction peers with
  | nil => exact .refl _
  | cons p rest ih =>
    rw [place]
    split
    · exact (ih.cons p).trans (.swap _ _ _)
    · exact .refl _

/-- Peers by distance, nearest first. -/
def Sorted (peers : List Peer) : Prop :=
  peers.Pairwise fun p q => p.hops ≤ q.hops

theorem Sorted.place {peer : Peer} {peers : List Peer} (h : Sorted peers) :
    Sorted (place peer peers) := by
  induction peers with
  | nil => simp [Bucket.place, Sorted]
  | cons p rest ih =>
    obtain ⟨first, others⟩ := List.pairwise_cons.1 h
    rw [Bucket.place]
    split
    · rename_i near
      refine List.pairwise_cons.2 ⟨fun q hq => ?_, ih others⟩
      rcases List.mem_cons.1 ((perm_place peer rest).mem_iff.1 hq) with rfl | hq
      · exact near
      · exact first q hq
    · rename_i far
      refine List.pairwise_cons.2 ⟨fun q hq => ?_, h⟩
      rcases List.mem_cons.1 hq with rfl | hq
      · omega
      · have := first q hq
        omega

def insert (b : Bucket) (peer : Peer) : Bucket :=
  ⟨place peer b.peers⟩

/-- Puts a peer in the place of the farthest one. -/
def replaceFarthest (b : Bucket) (peer : Peer) : Bucket :=
  ⟨place peer b.peers.dropLast⟩

variable {σ : Type} [RandomSource σ]

/-- Offers a candidate to a bucket. Only a tie with the farthest peer of a full bucket draws from
the source. -/
def offer (b : Bucket) (capacity : Nat) (peer : Peer) (source : σ) : Admission × Bucket × σ :=
  if b.size < capacity then (.appended, b.insert peer, source)
  else
    match b.farthest? with
    | none => (.saturated, b, source)
    | some farthest =>
      if peer.hops < farthest.hops then
        (.replaced farthest.node, b.replaceFarthest peer, source)
      else if peer.hops = farthest.hops then
        let (accepted, source) := Random.coin 0.5 source
        if accepted then (.replaced farthest.node, b.replaceFarthest peer, source)
        else (.rejected, b, source)
      else (.saturated, b, source)

end Bucket

/-- The buckets of a node by group prefix. -/
abbrev ColorTable := Std.ExtTreeMap GroupPrefix Bucket

namespace ColorTable

def bucket (table : ColorTable) (p : GroupPrefix) : Bucket :=
  table[p]?.getD .empty

def toLists (table : ColorTable) : List (GroupPrefix × List Peer) :=
  table.toList.map fun (p, b) => (p, b.peers)

def peerCount (table : ColorTable) : Nat :=
  tally (·.2.size) table.toList

variable {σ : Type} [RandomSource σ]

/-- Whether as many prefixes as there are bit strings of a length have been counted. -/
def exhausts (bits count : Nat) : Bool :=
  bits < 64 && count == Nat.pow 2 bits

/-- Offers peers to their buckets in order. Peers of a saturated prefix are passed over, and nothing
more is offered once all prefixes are saturated. -/
def fillFrom (capacity bits : Nat) (prefixOf : Nat → GroupPrefix) :
    List Peer → (saturated : List GroupPrefix) → ColorTable → σ → ColorTable × σ
  | [], _, buckets, source => (buckets, source)
  | peer :: rest, saturated, buckets, source =>
    let p := prefixOf peer.node
    if p ∈ saturated then fillFrom capacity bits prefixOf rest saturated buckets source
    else
      let (admission, bucket, source) :=
        ColorTable.bucket buckets p |>.offer capacity peer source
      let buckets := buckets.insert p bucket
      if admission = .saturated then
        if exhausts bits (saturated.length + 1) then (buckets, source)
        else fillFrom capacity bits prefixOf rest (p :: saturated) buckets source
      else fillFrom capacity bits prefixOf rest saturated buckets source

/-- Fills the buckets of a table's source with the nodes around it, nearest first. -/
def fill (g : TrustGraph) (table : DistanceTable) (source : σ) : ColorTable × σ :=
  let owner := g.node table.source
  let bits := owner.group.length
  if owner.bucketCapacity = 0 then (∅, source)
  else
    let peers := table.order.filterMap fun v => (table.distance? v).map fun hops => ⟨hops, v⟩
    fillFrom owner.bucketCapacity bits (fun v => (g.node v).id.leading bits) peers [] ∅ source

end ColorTable

end SloppyGroup
