import SloppyGroup.Proofs.Proximity.Saturation

/-!
Filling color buckets stops once as many prefixes are saturated as there are bit strings of the
owner's prefix length. Nothing is lost by that exactly if, from then on, all candidates are crowded.
This is so whenever the prefixes of all candidates are equally long, but short identifiers have
shorter prefixes, of which there are more.
-/

namespace SloppyGroup

namespace ColorTable

namespace Offering

variable {o : Offering}

def crowdedPrefixes (o : Offering) (part : List Peer) : Finset GroupPrefix :=
  ((part.filter fun w => o.Crowded w).map fun w => o.prefixOf w.node).toFinset

theorem mem_crowdedPrefixes {part : List Peer} {p : GroupPrefix} :
    p ∈ o.crowdedPrefixes part ↔ ∃ w ∈ part, o.Crowded w ∧ o.prefixOf w.node = p := by
  simp [crowdedPrefixes, and_assoc]

/-- Once a prefix has a crowded candidate, all that follow are crowded. -/
theorem crowded_of_mem_crowdedPrefixes {before rest : List Peer} {w : Peer}
    (split : o.peers = before ++ w :: rest)
    (known : o.prefixOf w.node ∈ o.crowdedPrefixes before) : o.Crowded w := by
  obtain ⟨u, hu, crowded, same⟩ := mem_crowdedPrefixes.1 known
  exact crowded.farther same ((sorted_split split).2.1 u hu)

theorem crowdedPrefixes_concat (part : List Peer) (w : Peer) :
    o.crowdedPrefixes (part ++ [w]) =
      if o.Crowded w then insert (o.prefixOf w.node) (o.crowdedPrefixes part)
      else o.crowdedPrefixes part := by
  ext p
  split
  · rename_i crowded
    simp only [Finset.mem_insert, mem_crowdedPrefixes, List.mem_append, List.mem_singleton]
    constructor
    · rintro ⟨u, hu | rfl, hc, rfl⟩
      · exact .inr ⟨u, hu, hc, rfl⟩
      · exact .inl rfl
    · rintro (rfl | ⟨u, hu, hc, rfl⟩)
      · exact ⟨w, .inr rfl, crowded, rfl⟩
      · exact ⟨u, .inl hu, hc, rfl⟩
  · rename_i free
    simp only [mem_crowdedPrefixes, List.mem_append, List.mem_singleton]
    constructor
    · rintro ⟨u, hu | rfl, hc, rfl⟩
      · exact ⟨u, hu, hc, rfl⟩
      · exact absurd hc free
    · rintro ⟨u, hu, hc, rfl⟩
      exact ⟨u, .inl hu, hc, rfl⟩

/-- As many prefixes have been found to be crowded as there are bit strings. -/
def Exhausted (o : Offering) (part : List Peer) : Prop :=
  o.bits < 64 ∧ 2 ^ o.bits ≤ (o.crowdedPrefixes part).card

instance (part : List Peer) : Decidable (o.Exhausted part) :=
  inferInstanceAs (Decidable (_ ∧ _))

/-- Whoever comes after the prefixes are exhausted is crowded. -/
def Lossless (o : Offering) : Prop :=
  ∀ before w after, o.peers = before ++ w :: after → o.Exhausted before → o.Crowded w

/-- Those of the candidates that come before the prefixes are exhausted. -/
def heard (o : Offering) : (before rest : List Peer) → List Peer
  | _, [] => []
  | before, w :: rest =>
    if o.Exhausted before then [] else w :: heard o (before ++ [w]) rest

theorem heard_of_exhausted {before : List Peer} (h : o.Exhausted before) (rest : List Peer) :
    o.heard before rest = [] := by
  cases rest with
  | nil => rfl
  | cons w rest => rw [heard, if_pos h]

theorem Exhausted.append {before : List Peer} (h : o.Exhausted before) (part : List Peer) :
    o.Exhausted (before ++ part) := by
  refine ⟨h.1, Nat.le_trans h.2 (Finset.card_le_card fun p hp => ?_)⟩
  obtain ⟨u, hu, hc⟩ := mem_crowdedPrefixes.1 hp
  exact mem_crowdedPrefixes.2 ⟨u, List.mem_append_left _ hu, hc⟩

theorem append_singleton_append {before rest : List Peer} {w : Peer} :
    before ++ w :: rest = before ++ [w] ++ rest := by
  simp

theorem heard_append {before part : List Peer} (h : o.Exhausted (before ++ part))
    (rest : List Peer) : o.heard before (part ++ rest) <+: part := by
  induction part generalizing before with
  | nil =>
    rw [List.append_nil] at h
    rw [heard_of_exhausted h]
  | cons w part ih =>
    rw [List.cons_append, heard]
    split
    · exact List.nil_prefix
    · rw [List.cons_prefix_cons]
      refine ⟨rfl, ih ?_⟩
      rw [List.append_assoc]
      exact h

theorem exists_unheard (before rest : List Peer) :
    ∃ unheard, rest = o.heard before rest ++ unheard ∧
      (unheard ≠ [] → o.Exhausted (before ++ o.heard before rest)) := by
  induction rest generalizing before with
  | nil => exact ⟨[], rfl, absurd rfl⟩
  | cons w rest ih =>
    rw [heard]
    split
    · rename_i done
      refine ⟨w :: rest, rfl, fun _ => ?_⟩
      rw [List.append_nil]
      exact done
    · obtain ⟨unheard, split, done⟩ := ih (before ++ [w])
      refine ⟨unheard, congrArg (w :: ·) split, fun h => ?_⟩
      rw [append_singleton_append]
      exact done h

theorem Lossless.crowded_of_exhausted (h : o.Lossless) {before rest : List Peer}
    (split : o.peers = before ++ rest) (done : rest ≠ [] → o.Exhausted before) {w : Peer}
    (hw : w ∈ rest) : o.Crowded w := by
  obtain ⟨part, after, rfl⟩ := List.append_of_mem hw
  apply h (before ++ part) w after
  · rw [split, List.append_assoc]
  · exact (done (List.ne_nil_of_mem hw)).append part

theorem not_exhausted_nil : ¬o.Exhausted [] := by
  intro h
  have few := h.2
  have := Nat.two_pow_pos o.bits
  simp only [crowdedPrefixes, List.filter_nil, List.map_nil, List.toFinset_nil,
    Finset.card_empty] at few
  omega

variable {σ : Type} [RandomSource σ]

theorem exhausts_iff {bits count : Nat} (few : ¬(bits < 64 ∧ 2 ^ bits ≤ count)) :
    exhausts bits (count + 1) = true ↔ bits < 64 ∧ 2 ^ bits ≤ count + 1 := by
  simp only [exhausts, Bool.and_eq_true, decide_eq_true_eq, beq_iff_eq]
  apply and_congr_right
  intro bounded
  have := mt (And.intro bounded) few
  exact ⟨fun same => Nat.le_of_eq same.symm, fun _ => by change count + 1 = 2 ^ bits; omega⟩

/-- The saturated prefixes that a filling keeps are the crowded ones, each once. -/
structure Tracks (o : Offering) (before : List Peer) (saturated : List GroupPrefix) : Prop where
  nodup : saturated.Nodup
  eq : saturated.toFinset = o.crowdedPrefixes before

theorem Tracks.mem_iff {before : List Peer} {saturated : List GroupPrefix}
    (h : o.Tracks before saturated) {p : GroupPrefix} :
    p ∈ saturated ↔ p ∈ o.crowdedPrefixes before := by
  rw [← h.eq, List.mem_toFinset]

theorem Tracks.card {before : List Peer} {saturated : List GroupPrefix}
    (h : o.Tracks before saturated) : (o.crowdedPrefixes before).card = saturated.length := by
  rw [← h.eq, List.toFinset_card_of_nodup h.nodup]

theorem Tracks.skip {before : List Peer} {saturated : List GroupPrefix} {w : Peer}
    (h : o.Tracks before saturated)
    (known : o.Crowded w → o.prefixOf w.node ∈ saturated) :
    o.Tracks (before ++ [w]) saturated where
  nodup := h.nodup
  eq := by
    rw [crowdedPrefixes_concat, h.eq]
    split
    · rename_i crowded
      rw [Finset.insert_eq_of_mem (h.mem_iff.1 (known crowded))]
    · rfl

theorem Tracks.add {before : List Peer} {saturated : List GroupPrefix} {w : Peer}
    (h : o.Tracks before saturated) (crowded : o.Crowded w)
    (fresh : o.prefixOf w.node ∉ saturated) :
    o.Tracks (before ++ [w]) (o.prefixOf w.node :: saturated) where
  nodup := List.nodup_cons.2 ⟨fresh, h.nodup⟩
  eq := by
    rw [crowdedPrefixes_concat, if_pos crowded, List.toFinset_cons, h.eq]

theorem Tracks.exhausted_iff {before : List Peer} {saturated : List GroupPrefix}
    (h : o.Tracks before saturated) :
    o.Exhausted before ↔ o.bits < 64 ∧ 2 ^ o.bits ≤ saturated.length := by
  rw [Exhausted, h.card]

/-- A filling offers to the buckets those candidates that are heard, and nobody else. -/
theorem fillFrom_eq_foldl {before rest : List Peer} {saturated : List GroupPrefix}
    {buckets : ColorTable} (split : o.peers = before ++ rest) (held : o.Holds before buckets)
    (tracks : o.Tracks before saturated) (more : ¬o.Exhausted before) (source : σ) :
    fillFrom o.capacity o.bits o.prefixOf rest saturated buckets source =
      (o.heard before rest).foldl o.offer (buckets, source) := by
  induction rest generalizing before saturated buckets source with
  | nil => rfl
  | cons w rest ih =>
    have next := held.offer split source
    have crowded_iff := held.crowded_iff split
    have answer := Bucket.offered_offer (bucket buckets (o.prefixOf w.node)) o.capacity w source
    have few := mt tracks.exhausted_iff.2 more
    have rest_split := append_singleton_append ▸ split
    rw [fillFrom, heard, if_neg more, List.foldl_cons]
    by_cases known : o.prefixOf w.node ∈ saturated
    · -- Passing a candidate over is the same as offering it, which would have no effect.
      have crowded := crowded_of_mem_crowdedPrefixes split (tracks.mem_iff.1 known)
      have tracks := tracks.skip (w := w) fun _ => known
      rw [held.offer_of_crowded split source crowded] at next ⊢
      rw [if_pos known]
      exact ih rest_split next tracks (mt tracks.exhausted_iff.1 few) source
    · rw [if_neg known]
      rcases offered : (bucket buckets (o.prefixOf w.node)).offer o.capacity w source with
        ⟨admission, after, toss⟩
      rw [offered] at answer
      simp only [offer, offerTo, offered] at next ⊢
      by_cases crowded : o.Crowded w
      · -- The prefix becomes saturated, and this may be the last one that is waited for.
        have tracks := tracks.add crowded known
        obtain ⟨full, far⟩ := crowded_iff.1 crowded
        rw [Bucket.offer_eq_of_far full far, Prod.mk.injEq] at offered
        rw [if_pos offered.1.symm]
        split
        · rename_i done
          rw [heard_of_exhausted]
          · rfl
          · exact tracks.exhausted_iff.2 ((exhausts_iff few).1 done)
        · rename_i going
          exact ih rest_split next tracks
            (mt (fun h => (exhausts_iff few).2 (tracks.exhausted_iff.1 h)) going) toss
      · have roomy : admission ≠ .saturated := fun refused =>
          crowded (crowded_iff.2 (answer.far_of_saturated
            (held.sorted (sorted_split split).1 _) refused))
        have tracks := tracks.skip (w := w) fun h => absurd h crowded
        rw [if_neg roomy]
        exact ih rest_split next tracks (mt tracks.exhausted_iff.1 few) toss

theorem tracks_nil : o.Tracks [] [] where
  nodup := List.nodup_nil
  eq := rfl

theorem Holds.foldl {before part after : List Peer} {buckets : ColorTable}
    (h : o.Holds before buckets) (split : o.peers = before ++ (part ++ after)) (source : σ) :
    o.Holds (before ++ part) (part.foldl o.offer (buckets, source)).1 := by
  induction part generalizing before buckets source with
  | nil =>
    rw [List.append_nil]
    exact h
  | cons w part ih =>
    rw [append_singleton_append]
    exact ih (h.offer split source) (append_singleton_append ▸ split) _

theorem Holds.foldl_of_crowded {before rest : List Peer} {buckets : ColorTable}
    (h : o.Holds before buckets) (split : o.peers = before ++ rest)
    (crowded : ∀ w ∈ rest, o.Crowded w) (source : σ) :
    rest.foldl o.offer (buckets, source) = (buckets, source) := by
  induction rest generalizing before with
  | nil => rfl
  | cons w rest ih =>
    have unchanged := h.offer_of_crowded split source (crowded w List.mem_cons_self)
    have next := h.offer split source
    rw [unchanged] at next
    rw [List.foldl_cons, unchanged]
    exact ih next (append_singleton_append ▸ split)
      fun u hu => crowded u (List.mem_cons_of_mem _ hu)

theorem fillFrom_eq_heard (source : σ) :
    fillFrom o.capacity o.bits o.prefixOf o.peers [] ∅ source =
      (o.heard [] o.peers).foldl o.offer (∅, source) :=
  fillFrom_eq_foldl rfl holds_empty tracks_nil not_exhausted_nil source

/-- Where nothing is lost, a filling ends as if it had offered all candidates. -/
theorem Lossless.fillFrom_eq (h : o.Lossless) (source : σ) :
    fillFrom o.capacity o.bits o.prefixOf o.peers [] ∅ source =
      o.peers.foldl o.offer (∅, source) := by
  obtain ⟨unheard, split, done⟩ := o.exists_unheard [] o.peers
  rw [fillFrom_eq_heard]
  conv_rhs => rw [split, List.foldl_append]
  have held := (holds_empty (o := o)).foldl split source
  exact (held.foldl_of_crowded split (fun w => h.crowded_of_exhausted split done) _).symm

end Offering

end ColorTable

end SloppyGroup
