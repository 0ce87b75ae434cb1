import SloppyGroup.Proofs.Proximity.Pruning

/-!
Stopping early against offering every node: when the two fill the same buckets and draw the same
coins.
-/

namespace SloppyGroup

/-- A source of zeros that counts how often it is drawn from. -/
structure Zeros where
  drawn : Nat
deriving DecidableEq

instance : RandomSource Zeros where
  word32 source := (0, ⟨source.drawn + 1⟩)
  word64 source := (0, ⟨source.drawn + 1⟩)

theorem Random.drawn_coin (source : Zeros) : (coin 0.5 source).2.drawn = source.drawn + 1 :=
  congrArg Zeros.drawn (source_fairCoin source)

namespace Bucket

variable {b after : Bucket} {capacity : Nat} {peer : Peer} {source rest : Zeros}
  {admission : Admission}

theorem size_insert (b : Bucket) (peer : Peer) : (b.insert peer).size = b.size + 1 :=
  (perm_place peer b.peers).length_eq

theorem size_replaceFarthest {farthest : Peer} (last : b.farthest? = some farthest)
    (peer : Peer) : (b.replaceFarthest peer).size = b.size := by
  have split := congrArg List.length (peers_of_farthest? last)
  rw [List.length_append] at split
  exact (perm_place peer b.peers.dropLast).length_eq.trans split.symm

theorem Offered.toll_le (offered : Offered b capacity peer source admission after rest) :
    b.size ≤ after.size ∧ source.drawn ≤ rest.drawn := by
  cases offered with
  | appended =>
    rw [size_insert]
    exact ⟨Nat.le_succ _, Nat.le_refl _⟩
  | nearer farthest full last =>
    rw [size_replaceFarthest last]
    exact ⟨Nat.le_refl _, Nat.le_refl _⟩
  | accepted farthest full last =>
    rw [size_replaceFarthest last, Random.drawn_coin]
    exact ⟨Nat.le_refl _, Nat.le_succ _⟩
  | rejected =>
    rw [Random.drawn_coin]
    exact ⟨Nat.le_refl _, Nat.le_succ _⟩
  | saturated => exact ⟨Nat.le_refl _, Nat.le_refl _⟩

/-- Unless it is saturated, a bucket of nearer peers and ties takes one more or tosses a coin. -/
theorem Offered.toll_lt (offered : Offered b capacity peer source admission after rest)
    (far : ∀ x ∈ b.hops, x ≤ peer.hops) (free : admission ≠ .saturated) :
    b.size + source.drawn < after.size + rest.drawn := by
  cases offered with
  | appended =>
    rw [size_insert]
    omega
  | nearer farthest full last near =>
    have := far farthest.hops (by rw [hops_of_farthest? last]; simp)
    omega
  | accepted farthest full last =>
    rw [size_replaceFarthest last, Random.drawn_coin]
    omega
  | rejected =>
    rw [Random.drawn_coin]
    omega
  | saturated => exact absurd rfl free

end Bucket

namespace ColorTable

namespace Offering

variable {o : Offering}

/-- The peers in the bucket of a prefix, and the coins tossed so far. -/
def toll (p : GroupPrefix) (state : ColorTable × Zeros) : Nat :=
  (bucket state.1 p).size + state.2.drawn

theorem toll_offer (state : ColorTable × Zeros) (w : Peer) (p : GroupPrefix) :
    toll p state ≤ toll p (o.offer state w) := by
  have ⟨size, drawn⟩ := (Bucket.offered_offer (bucket state.1 (o.prefixOf w.node)) o.capacity w
    state.2).toll_le
  rw [toll, toll, bucket_offerTo]
  split
  · rename_i same
    rw [same]
    exact Nat.add_le_add size drawn
  · exact Nat.add_le_add_left drawn _

theorem toll_foldl (p : GroupPrefix) (part : List Peer) (state : ColorTable × Zeros) :
    toll p state ≤ toll p (part.foldl o.offer state) := by
  induction part generalizing state with
  | nil => exact Nat.le_refl _
  | cons w part ih => exact Nat.le_trans (toll_offer state w p) (ih _)

theorem Holds.toll_lt {before after : List Peer} {w : Peer} {buckets : ColorTable}
    (h : o.Holds before buckets) (split : o.peers = before ++ w :: after) (source : Zeros)
    (free : ¬o.Crowded w) :
    toll (o.prefixOf w.node) (buckets, source) <
      toll (o.prefixOf w.node) (o.offer (buckets, source) w) := by
  have answer := Bucket.offered_offer (bucket buckets (o.prefixOf w.node)) o.capacity w source
  rw [toll, toll, bucket_offerTo, if_pos rfl]
  apply answer.toll_lt
  · exact fun x hx => h.near split hx
  · exact fun refused => free ((h.crowded_iff split).2
      (answer.far_of_saturated (h.sorted (sorted_split split).1 _) refused))

theorem toll_le_of_prefix {part more : List Peer} (h : part <+: more) (p : GroupPrefix)
    (state : ColorTable × Zeros) :
    toll p (part.foldl o.offer state) ≤ toll p (more.foldl o.offer state) := by
  obtain ⟨rest, rfl⟩ := h
  rw [List.foldl_append]
  exact toll_foldl p rest _

theorem Lossless.of_fillFrom_eq
    (h : fillFrom o.capacity o.bits o.prefixOf o.peers [] ∅ (⟨0⟩ : Zeros) =
      o.peers.foldl o.offer (∅, ⟨0⟩)) : o.Lossless := by
  intro before w after split done
  by_contra free
  have held : o.Holds before (before.foldl o.offer (∅, (⟨0⟩ : Zeros))).1 :=
    holds_empty.foldl split _
  have early : o.heard [] o.peers <+: before := by
    rw [split]
    exact heard_append done _
  have within : before ++ [w] <+: o.peers := ⟨after, (append_singleton_append ▸ split).symm⟩
  -- What is heard costs at most as much as all before `w`, and offering `w` costs more.
  have less := held.toll_lt split (before.foldl o.offer (∅, ⟨0⟩)).2 free
  have few := toll_le_of_prefix (o := o) early (o.prefixOf w.node) (∅, ⟨0⟩)
  have many := toll_le_of_prefix (o := o) within (o.prefixOf w.node) (∅, ⟨0⟩)
  rw [List.foldl_concat] at many
  rw [← fillFrom_eq_heard, h] at few
  exact Nat.lt_irrefl _ (Nat.lt_of_lt_of_le (Nat.lt_of_le_of_lt few less) many)

theorem card_le_two_pow {prefixes : Finset GroupPrefix} {bits : Nat}
    (h : ∀ p ∈ prefixes, p.length = bits) : prefixes.card ≤ 2 ^ bits := by
  let strings : prefixes → List.Vector Bool bits := fun p => ⟨p.1.bits, h p.1 p.2⟩
  have injective : Function.Injective strings := by
    intro p q same
    apply Subtype.ext
    exact congrArg GroupPrefix.mk (congrArg Subtype.val same)
  have := Fintype.card_le_of_injective strings injective
  rw [Fintype.card_coe, card_vector, Fintype.card_bool] at this
  exact this

theorem lossless_of_full (h : ∀ w ∈ o.peers, (o.prefixOf w.node).length = o.bits) :
    o.Lossless := by
  intro before w after split ⟨_, done⟩
  by_contra free
  have fresh : o.prefixOf w.node ∉ o.crowdedPrefixes before :=
    mt (crowded_of_mem_crowdedPrefixes split) free
  have full : ∀ p ∈ insert (o.prefixOf w.node) (o.crowdedPrefixes before), p.length = o.bits := by
    intro p hp
    rcases Finset.mem_insert.1 hp with rfl | hp
    · exact h w (by simp [split])
    · obtain ⟨u, hu, -, rfl⟩ := mem_crowdedPrefixes.1 hp
      exact h u (by simp [split, hu])
  have few := card_le_two_pow full
  rw [Finset.card_insert_of_notMem fresh] at few
  omega

def around (g : TrustGraph) (v : Nat) (positive : 0 < (g.node v).bucketCapacity) : Offering where
  capacity := (g.node v).bucketCapacity
  bits := (g.node v).group.length
  prefixOf u := (g.node u).id.leading (g.node v).group.length
  peers := candidates (g.distancesFrom v)
  positive
  sorted := sorted_candidates g v

end Offering

variable {σ : Type} [RandomSource σ]

/-- Offers all nodes around a table's source to its buckets, nearest first. -/
def fillAll (g : TrustGraph) (table : DistanceTable) (source : σ) : ColorTable × σ :=
  let owner := g.node table.source
  (candidates table).foldl
    (offerTo owner.bucketCapacity fun u => (g.node u).id.leading owner.group.length) (∅, source)

theorem fill_eq_fillFrom (g : TrustGraph) (v : Nat) (positive : 0 < (g.node v).bucketCapacity)
    (source : σ) :
    let o := Offering.around g v positive
    fill g (g.distancesFrom v) source =
      fillFrom o.capacity o.bits o.prefixOf o.peers [] ∅ source :=
  if_neg (Nat.ne_of_gt positive)

/-- Whatever the source, filling the buckets of a node ends as if it had offered all nodes to them,
exactly if nobody is lost when it stops early. -/
theorem fill_eq_fillAll_iff (g : TrustGraph) (v : Nat)
    (positive : 0 < (g.node v).bucketCapacity) :
    (∀ (σ : Type) [RandomSource σ] (source : σ),
      fill g (g.distancesFrom v) source = fillAll g (g.distancesFrom v) source) ↔
    (Offering.around g v positive).Lossless := by
  constructor
  · intro same
    apply Offering.Lossless.of_fillFrom_eq
    rw [← fill_eq_fillFrom]
    exact same Zeros ⟨0⟩
  · intro lossless σ _ source
    rw [fill_eq_fillFrom g v positive]
    exact lossless.fillFrom_eq source

/-- Stopping early changes nothing where identifiers are as long as the owner's group prefix. -/
theorem fill_eq_fillAll_of_long (g : TrustGraph) (v : Nat)
    (positive : 0 < (g.node v).bucketCapacity)
    (long : ∀ u < g.size, (g.node v).group.length ≤ (g.node u).id.length) (source : σ) :
    fill g (g.distancesFrom v) source = fillAll g (g.distancesFrom v) source := by
  have full : ∀ w ∈ (Offering.around g v positive).peers,
      ((Offering.around g v positive).prefixOf w.node).length = (g.node v).group.length := by
    intro w hw
    exact List.length_take_of_le (long w.node (candidates_lt hw))
  rw [fill_eq_fillFrom g v positive]
  exact (Offering.lossless_of_full full).fillFrom_eq source

def shortNamed (label : String) (bit : Bool) (bits : List Bool) : Node where
  label
  id := ⟨bit :: bits, List.cons_ne_nil bit bits⟩
  group := ⟨bit :: bits⟩
  isSybil := false
  isLandmark := false
  vicinityCapacity := 0
  bucketCapacity := 1
  fanout := 0
  community := none

/-- Two nodes of each of four prefixes around the first one, and behind them one of a fifth. -/
def fiveColors : TrustGraph where
  nodes := #[shortNamed "n0" false [false], shortNamed "n1" false [], shortNamed "n2" true [],
    shortNamed "n3" false [false], shortNamed "n4" false [true], shortNamed "n5" false [],
    shortNamed "n6" true [], shortNamed "n7" false [false], shortNamed "n8" false [true],
    shortNamed "n9" true [false]]
  newest := [(5, 9), (4, 8), (3, 7), (2, 6), (1, 5), (0, 4), (0, 3), (0, 2), (0, 1)]
  neighborTable := Undirected.neighborTable 10
    [(5, 9), (4, 8), (3, 7), (2, 6), (1, 5), (0, 4), (0, 3), (0, 2), (0, 1)]
  labels_distinct := by decide
  simple := ⟨by decide, by decide, by decide⟩
  neighborTable_eq := rfl

/-- A node whose group has a prefix of one bit loses nobody, as no identifier is shorter. -/
theorem fill_eq_fillAll_fiveColors :
    0 < (fiveColors.node 1).bucketCapacity ∧ ∀ (σ : Type) [RandomSource σ] (source : σ),
      fill fiveColors (fiveColors.distancesFrom 1) source =
        fillAll fiveColors (fiveColors.distancesFrom 1) source := by
  refine ⟨by decide, (fill_eq_fillAll_iff fiveColors 1 (by decide)).2 ?_⟩
  apply Offering.lossless_of_full
  decide +kernel

/-- The node of the fifth prefix is lost. -/
theorem fill_ne_fillAll_fiveColors :
    0 < (fiveColors.node 0).bucketCapacity ∧
      fill fiveColors (fiveColors.distancesFrom 0) (⟨0⟩ : Zeros) ≠
        fillAll fiveColors (fiveColors.distancesFrom 0) ⟨0⟩ := by
  refine ⟨by decide, fun same => ?_⟩
  have fifth := congrArg (fun result => (bucket result.1 ⟨[true, false]⟩).size) same
  revert fifth
  decide +kernel

end ColorTable

end SloppyGroup
