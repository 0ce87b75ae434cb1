import SloppyGroup.Proofs.Proximity.Offers

/-!
Buckets over any number of offers, in any order. A bucket ends up with the smallest distances that
it was offered, as many as fit, whatever the coins show. Of the peers that it was offered each one
is in the bucket or has been left out, and the coins were tossed for the ties alone.
-/

namespace SloppyGroup

open scoped List

variable {σ : Type} [RandomSource σ]

namespace Bucket

variable {b after : Bucket} {capacity : Nat} {peer : Peer} {source rest : σ}
  {admission : Admission} {offers leftOut : List Peer}

/-- Who is left out when an offer is answered: the candidate, or the one who gave up its place, as
far as the farthest peer that the candidate met. -/
def dismissed (b : Bucket) (peer : Peer) : Admission → List Peer
  | .appended => []
  | .replaced evicted => b.farthest?.toList.map fun farthest => ⟨farthest.hops, evicted⟩
  | .rejected => [peer]
  | .saturated => [peer]

/-- The candidate meets a full bucket and is as far as the largest distance in it. -/
def Ties (b : Bucket) (capacity : Nat) (peer : Peer) : Prop :=
  b.size = capacity ∧ b.hops.max? = some peer.hops

instance (b : Bucket) (capacity : Nat) (peer : Peer) : Decidable (b.Ties capacity peer) :=
  inferInstanceAs (Decidable (_ ∧ _))

theorem perm_replaceFarthest {farthest : Peer} (last : b.farthest? = some farthest) :
    ((b.replaceFarthest peer).peers ++ b.dismissed peer (.replaced farthest.node)).Perm
      (b.peers ++ [peer]) := by
  have out : b.dismissed peer (.replaced farthest.node) = [farthest] := by
    rw [dismissed, last]
    rfl
  rw [out]
  conv_rhs => rw [peers_of_farthest? last]
  calc place peer b.peers.dropLast ++ [farthest]
    _ ~ peer :: b.peers.dropLast ++ [farthest] := (perm_place peer _).append_right _
    _ ~ b.peers.dropLast ++ [farthest] ++ [peer] := (List.perm_append_singleton peer _).symm

/-- Nobody gets lost in an offer, and nobody appears twice. -/
theorem Offered.perm (offered : Offered b capacity peer source admission after rest) :
    (after.peers ++ b.dismissed peer admission).Perm (b.peers ++ [peer]) := by
  cases offered with
  | appended room =>
    rw [dismissed, List.append_nil]
    exact (perm_place peer b.peers).trans (List.perm_append_singleton peer b.peers).symm
  | nearer farthest full last near => exact perm_replaceFarthest last
  | accepted farthest full last tie toss => exact perm_replaceFarthest last
  | rejected farthest full last tie toss => exact .refl _
  | saturated full far => exact .refl _

theorem max?_hops (sorted : Sorted b.peers) {farthest : Peer}
    (last : b.farthest? = some farthest) : b.hops.max? = some farthest.hops := by
  rw [List.max?_eq_some_iff]
  refine ⟨?_, fun x hx => le_farthest sorted last hx⟩
  rw [hops_of_farthest? last]
  simp

theorem ties_iff (sorted : Sorted b.peers) (size : b.size = capacity) {farthest : Peer}
    (last : b.farthest? = some farthest) : b.Ties capacity peer ↔ peer.hops = farthest.hops := by
  rw [Ties, max?_hops sorted last, Option.some.injEq, eq_comm (a := farthest.hops)]
  exact and_iff_right size

/-- A coin is tossed for a tie, and only then. -/
theorem Offered.source_eq (offered : Offered b capacity peer source admission after rest)
    (sorted : Sorted b.peers) (bounded : b.size ≤ capacity) :
    rest = if b.Ties capacity peer then Random.toss source else source := by
  cases offered with
  | appended room =>
    have free : ¬b.Ties capacity peer := fun tie => Nat.ne_of_lt room tie.1
    rw [if_neg free]
  | nearer farthest full last near =>
    have size := Nat.le_antisymm bounded full
    rw [if_neg (mt (ties_iff sorted size last).1 (Nat.ne_of_lt near))]
  | accepted farthest full last tie toss =>
    have size := Nat.le_antisymm bounded full
    rw [if_pos ((ties_iff sorted size last).2 tie), Random.source_fairCoin]
  | rejected farthest full last tie toss =>
    have size := Nat.le_antisymm bounded full
    rw [if_pos ((ties_iff sorted size last).2 tie), Random.source_fairCoin]
  | saturated full far =>
    have free : ¬b.Ties capacity peer := by
      rintro ⟨-, tie⟩
      exact Nat.lt_irrefl _ (lt_of_saturated sorted far (List.max?_mem tie))
    rw [if_neg free]

/-- The distances of some peers in order. -/
def sortedHops (peers : List Peer) : List Nat :=
  (peers.map (·.hops)).mergeSort

theorem pairwise_sortedHops (peers : List Peer) : (sortedHops peers).Pairwise (· ≤ ·) :=
  List.pairwise_mergeSort' (· ≤ ·) (peers.map (·.hops))

theorem perm_sortedHops (peers : List Peer) : (sortedHops peers).Perm (peers.map (·.hops)) :=
  List.mergeSort_perm _ _

theorem sortedHops_concat (peers : List Peer) (peer : Peer) :
    sortedHops (peers ++ [peer]) = (sortedHops peers).orderedInsert (· ≤ ·) peer.hops := by
  apply eq_of_perm_sorted _ (pairwise_sortedHops _)
    ((pairwise_sortedHops peers).orderedInsert _ _)
  calc sortedHops (peers ++ [peer])
    _ ~ peers.map (·.hops) ++ [peer.hops] := by
      rw [← List.map_singleton, ← List.map_append]
      exact perm_sortedHops _
    _ ~ peer.hops :: peers.map (·.hops) := List.perm_append_singleton _ _
    _ ~ peer.hops :: sortedHops peers := ((perm_sortedHops peers).cons _).symm
    _ ~ (sortedHops peers).orderedInsert (· ≤ ·) peer.hops :=
      (List.perm_orderedInsert _ _ _).symm

/-- What a bucket makes of its offers: it holds the smallest distances, as many as fit, and everyone
is either in the bucket or left out. -/
structure Keeps (capacity : Nat) (offers leftOut : List Peer) (b : Bucket) : Prop where
  sorted : Sorted b.peers
  hops_eq : b.hops = (sortedHops offers).take capacity
  perm : (b.peers ++ leftOut).Perm offers

namespace Keeps

theorem empty (capacity : Nat) : Keeps capacity [] [] .empty where
  sorted := List.Pairwise.nil
  hops_eq := by simp [hops, Bucket.empty, sortedHops]
  perm := .refl _

theorem size_eq (h : Keeps capacity offers leftOut b) : b.size = min capacity offers.length := by
  rw [← length_hops, h.hops_eq, List.length_take, (perm_sortedHops offers).length_eq,
    List.length_map]

theorem size_le (h : Keeps capacity offers leftOut b) : b.size ≤ capacity := by
  rw [h.size_eq]
  exact Nat.min_le_left _ _

/-- Nobody who is left out is nearer than anyone in the bucket. -/
theorem hops_le (h : Keeps capacity offers leftOut b) {p q : Peer} (hp : p ∈ b.peers)
    (hq : q ∈ leftOut) : p.hops ≤ q.hops := by
  have split : (sortedHops offers).take capacity ++ (sortedHops offers).drop capacity =
      sortedHops offers := List.take_append_drop _ _
  have others : leftOut.map (·.hops) ~ (sortedHops offers).drop capacity := by
    rw [← List.perm_append_left_iff b.hops]
    calc b.hops ++ leftOut.map (·.hops)
      _ ~ offers.map (·.hops) := by
        rw [hops, ← List.map_append]
        exact h.perm.map _
      _ ~ sortedHops offers := (perm_sortedHops offers).symm
      _ ~ b.hops ++ (sortedHops offers).drop capacity := by rw [h.hops_eq, split]
  have sorted := pairwise_sortedHops offers
  rw [← split, List.pairwise_append] at sorted
  apply sorted.2.2
  · rw [← h.hops_eq]
    exact List.mem_map_of_mem hp
  · exact others.mem_iff.1 (List.mem_map_of_mem hq)

theorem offered (h : Keeps capacity offers leftOut b)
    (answer : Offered b capacity peer source admission after rest) :
    Keeps capacity (offers ++ [peer]) (leftOut ++ b.dismissed peer admission) after := by
  have smallest := answer.hops_eq h.sorted h.size_le
  refine ⟨?sorted, ?hops_eq, ?perm⟩
  case sorted =>
    rw [sorted_iff_hops, smallest]
    apply List.Pairwise.sublist (List.take_sublist _ _)
    exact (sorted_iff_hops.1 h.sorted).orderedInsert _ _
  case hops_eq => rw [smallest, h.hops_eq, ← take_orderedInsert, sortedHops_concat]
  case perm =>
    calc after.peers ++ (leftOut ++ b.dismissed peer admission)
      _ ~ after.peers ++ (b.dismissed peer admission ++ leftOut) :=
        List.perm_append_comm.append_left _
      _ ~ b.peers ++ [peer] ++ leftOut := by
        rw [← List.append_assoc]
        exact answer.perm.append_right _
      _ ~ b.peers ++ leftOut ++ [peer] := by
        rw [List.append_assoc, List.append_assoc]
        exact List.perm_append_comm.append_left _
      _ ~ offers ++ [peer] := h.perm.append_right _

end Keeps

/-- A bucket under a sequence of offers, with those that it has left out, the number of ties so far
and the source. -/
structure Intake (σ : Type) where
  bucket : Bucket
  leftOut : List Peer
  ties : Nat
  source : σ

namespace Intake

def start (source : σ) : Intake σ :=
  ⟨.empty, [], 0, source⟩

def offer (capacity : Nat) (intake : Intake σ) (peer : Peer) : Intake σ :=
  let (admission, bucket, source) := intake.bucket.offer capacity peer intake.source
  { bucket
    leftOut := intake.leftOut ++ intake.bucket.dismissed peer admission
    ties := if intake.bucket.Ties capacity peer then intake.ties + 1 else intake.ties
    source }

def ofOffers (capacity : Nat) (offers : List Peer) (source : σ) : Intake σ :=
  offers.foldl (offer capacity) (start source)

theorem ofOffers_concat (capacity : Nat) (offers : List Peer) (peer : Peer) (source : σ) :
    ofOffers capacity (offers ++ [peer]) source =
      (ofOffers capacity offers source).offer capacity peer := by
  rw [ofOffers, List.foldl_concat]
  rfl

theorem keeps_ofOffers (capacity : Nat) (offers : List Peer) (source : σ) :
    let intake := ofOffers capacity offers source
    Keeps capacity offers intake.leftOut intake.bucket := by
  induction offers using List.reverseRecOn with
  | nil => exact .empty capacity
  | append_singleton offers peer ih =>
    rw [ofOffers_concat]
    exact ih.offered (offered_offer _ capacity peer _)

theorem source_concat (capacity : Nat) (offers : List Peer) (peer : Peer) (source : σ) :
    let met := ofOffers capacity offers source
    (ofOffers capacity (offers ++ [peer]) source).source =
      if met.bucket.Ties capacity peer then Random.toss met.source else met.source := by
  intro met
  have keeps : Keeps capacity offers met.leftOut met.bucket := keeps_ofOffers capacity offers source
  rw [ofOffers_concat]
  exact (offered_offer met.bucket capacity peer met.source).source_eq keeps.sorted keeps.size_le

theorem ties_concat (capacity : Nat) (offers : List Peer) (peer : Peer) (source : σ) :
    let met := ofOffers capacity offers source
    (ofOffers capacity (offers ++ [peer]) source).ties =
      if met.bucket.Ties capacity peer then met.ties + 1 else met.ties := by
  intro met
  rw [ofOffers_concat]
  rfl

theorem source_ofOffers (capacity : Nat) (offers : List Peer) (source : σ) :
    let intake := ofOffers capacity offers source
    intake.source = Random.toss^[intake.ties] source := by
  induction offers using List.reverseRecOn with
  | nil => rfl
  | append_singleton offers peer ih =>
    simp only at ih ⊢
    rw [source_concat, ties_concat]
    split
    · rw [ih, Function.iterate_succ_apply']
    · exact ih

/-- Whatever is offered to a bucket, in whatever order and whatever the coins show, it ends up with
the smallest of the distances. Everyone who was offered is in the bucket or left out, and each tie
took one coin, as nothing else did. -/
theorem ofOffers_keeps_nearest (capacity : Nat) (offers : List Peer) (source : σ) :
    let intake := ofOffers capacity offers source
    Sorted intake.bucket.peers ∧
    intake.bucket.hops = ((offers.map (·.hops)).mergeSort).take capacity ∧
    (intake.bucket.peers ++ intake.leftOut).Perm offers ∧
    intake.source = (fun s => (RandomSource.word64 s).2)^[intake.ties] source ∧
    ∀ earlier peer later, offers = earlier ++ peer :: later →
      let met := ofOffers capacity earlier source
      (ofOffers capacity (earlier ++ [peer]) source).source =
        if met.bucket.Ties capacity peer then (RandomSource.word64 met.source).2
        else met.source := by
  intro intake
  have keeps : Keeps capacity offers intake.leftOut intake.bucket :=
    keeps_ofOffers capacity offers source
  refine ⟨keeps.sorted, keeps.hops_eq, keeps.perm, source_ofOffers capacity offers source, ?_⟩
  intro earlier peer later _
  exact source_concat capacity earlier peer source

end Intake

end Bucket

end SloppyGroup
