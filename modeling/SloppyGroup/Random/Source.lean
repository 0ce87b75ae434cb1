/-!
Sources of random words, and the decisions that are drawn from them: numbers below a bound, coins,
fractions, permutations and picks. Everything else in the library takes its randomness from here and
works with any source.
-/

namespace SloppyGroup

/-- A source of random words; a draw returns the word and the source after it. -/
class RandomSource (σ : Type) where
  word32 : σ → UInt32 × σ
  word64 : σ → UInt64 × σ

namespace Random

variable {σ : Type}

/-- The largest low half of a product that keeps the numbers below `bound` equally likely: `bound`
shifted up to `width` bits, less one. -/
def zone (width bound : Nat) : Nat :=
  bound * Nat.pow 2 (width - 1 - Nat.log2 bound) - 1

/-- The high half of the product of a word with `bound`, for the first word whose low half lies in
the zone, or for the last word once all attempts are used up. -/
def scaled (width : Nat) (word : σ → Nat × σ) (bound : Nat) : (attempts : Nat) → σ → Nat × σ
  | 0, source =>
    let (w, source) := word source
    (w * bound / Nat.pow 2 width, source)
  | attempts + 1, source =>
    let (w, source) := word source
    if w * bound % Nat.pow 2 width ≤ zone width bound then (w * bound / Nat.pow 2 width, source)
    else scaled width word bound attempts source

theorem scaled_lt {width bound : Nat} {word : σ → Nat × σ} (hw : ∀ s, (word s).1 < Nat.pow 2 width)
    (hb : 0 < bound) (attempts : Nat) (source : σ) :
    (scaled width word bound attempts source).1 < bound := by
  have high (s : σ) : (word s).1 * bound / Nat.pow 2 width < bound := by
    have hpos : 0 < Nat.pow 2 width := Nat.two_pow_pos width
    rw [Nat.div_lt_iff_lt_mul hpos, Nat.mul_comm bound]
    exact Nat.mul_lt_mul_of_pos_right (hw s) hb
  induction attempts generalizing source with
  | zero => exact high source
  | succ attempts ih =>
    simp only [scaled]
    split
    · exact high source
    · exact ih _

/-- How many words may be rejected before `scaled` is cut off and takes the next one as it is. So it
always returns, even on a source that goes on giving rejected words. -/
def attempts : Nat := Nat.pow 2 62

variable [RandomSource σ]

/-- A number below `bound`, from 64-bit words. -/
def below64 (bound : Nat) (source : σ) : Nat × σ :=
  scaled 64 (fun s => let (w, s) := RandomSource.word64 s; (w.toNat, s)) bound attempts source

/-- A number below `bound`, from 32-bit words. -/
def below32 (bound : Nat) (source : σ) : Nat × σ :=
  scaled 32 (fun s => let (w, s) := RandomSource.word32 s; (w.toNat, s)) bound attempts source

theorem below64_lt {bound : Nat} (hb : 0 < bound) (source : σ) : (below64 bound source).1 < bound :=
  scaled_lt (fun s => (RandomSource.word64 s).1.toNat_lt) hb _ _

theorem below32_lt {bound : Nat} (hb : 0 < bound) (source : σ) : (below32 bound source).1 < bound :=
  scaled_lt (fun s => (RandomSource.word32 s).1.toNat_lt) hb _ _

/-- A fraction in `[0, 1)` with 53 random bits. -/
def fraction (source : σ) : Float × σ :=
  let (w, source) := RandomSource.word64 source
  ((w >>> 11).toFloat / 9007199254740992, source)

/-- A coin that shows `true` with probability `p`; a sure one is not tossed. -/
def coin (p : Float) (source : σ) : Bool × σ :=
  if p == 1 then (true, source)
  else
    let (w, source) := RandomSource.word64 source
    (w < (p * 18446744073709551616).toUInt64, source)

/-- Swaps every position from `last` down to one with a random position not above it. -/
def shuffleFrom {α : Type} : (last : Nat) → Array α → σ → Array α × σ
  | 0, items, source => (items, source)
  | last + 1, items, source =>
    let (j, source) := below32 (last + 2) source
    shuffleFrom last (items.swapIfInBounds (last + 1) j) source

def shuffle {α : Type} (items : List α) (source : σ) : List α × σ :=
  let (shuffled, source) := shuffleFrom (items.length - 1) items.toArray source
  (shuffled.toList, source)

theorem perm_shuffleFrom {α : Type} (last : Nat) (items : Array α) (source : σ) :
    (shuffleFrom last items source).1.toList.Perm items.toList := by
  induction last generalizing items source with
  | zero => exact .refl _
  | succ last ih =>
    simp only [shuffleFrom]
    refine (ih _ _).trans ?_
    rw [Array.swapIfInBounds_def]
    split
    · split
      · exact (Array.swap_perm _ _).toList
      · exact .refl _
    · exact .refl _

/-- A shuffled list has the same members, each as often as before. -/
theorem perm_shuffle {α : Type} (items : List α) (source : σ) :
    (shuffle items source).1.Perm items :=
  perm_shuffleFrom _ _ _

/-- A random member; from nothing, nothing is drawn. -/
def pick? {α : Type} (items : List α) (source : σ) : Option α × σ :=
  if items.isEmpty then (none, source)
  else
    let (j, source) := below32 items.length source
    (items[j]?, source)

theorem mem_of_pick? {α : Type} {items : List α} {source : σ} {x : α}
    (h : (pick? items source).1 = some x) : x ∈ items := by
  simp only [pick?] at h
  split at h
  · cases h
  · exact List.mem_of_getElem? h

theorem pick?_eq_none_iff {α : Type} {items : List α} {source : σ} :
    (pick? items source).1 = none ↔ items = [] := by
  simp only [pick?]
  split
  · simp_all
  · rename_i nonempty
    have pos : 0 < items.length := List.length_pos_iff.2 fun h => nonempty (by simp [h])
    have hj := below32_lt pos source
    simp only [List.getElem?_eq_none_iff]
    constructor
    · intro h
      exact absurd hj (Nat.not_lt.2 h)
    · intro h
      simp [h] at pos

end Random

end SloppyGroup
