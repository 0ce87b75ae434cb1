import SloppyGroup.Random.Source

/-!
The ChaCha stream with eight rounds, keyed from a 64-bit seed. Blocks are counted from zero and read
word by word; a 64-bit word is two 32-bit words, the low half first.
-/

namespace SloppyGroup.Random

/-- The sixteen words of a ChaCha block. -/
abbrev ChaChaBlock := Vector UInt32 16

namespace ChaChaBlock

def rotateLeft (x k : UInt32) : UInt32 :=
  (x <<< k) ||| (x >>> (32 - k))

/-- The quarter round on four places of a block. -/
def quarter (s : ChaChaBlock) (a b c d : Fin 16) : ChaChaBlock :=
  let s := s.set a (s[a] + s[b])
  let s := s.set d (rotateLeft (s[d] ^^^ s[a]) 16)
  let s := s.set c (s[c] + s[d])
  let s := s.set b (rotateLeft (s[b] ^^^ s[c]) 12)
  let s := s.set a (s[a] + s[b])
  let s := s.set d (rotateLeft (s[d] ^^^ s[a]) 8)
  let s := s.set c (s[c] + s[d])
  s.set b (rotateLeft (s[b] ^^^ s[c]) 7)

/-- A column round followed by a diagonal round. -/
def doubleRound (s : ChaChaBlock) : ChaChaBlock :=
  let s := quarter s 0 4 8 12
  let s := quarter s 1 5 9 13
  let s := quarter s 2 6 10 14
  let s := quarter s 3 7 11 15
  let s := quarter s 0 5 10 15
  let s := quarter s 1 6 11 12
  let s := quarter s 2 7 8 13
  quarter s 3 4 9 14

/-- Eight rounds, added to the block they started from. -/
def mixed (s : ChaChaBlock) : ChaChaBlock :=
  Vector.zipWith (· + ·) s (doubleRound (doubleRound (doubleRound (doubleRound s))))

end ChaChaBlock

/-- A position in the stream of a key: the words of the current block that are still unread, and the
number of the next block. -/
structure ChaCha where
  key : Vector UInt32 8
  nextBlock : UInt64
  unread : List UInt32
deriving Repr

namespace ChaCha

def block (key : Vector UInt32 8) (number : UInt64) : ChaChaBlock :=
  let constants : Vector UInt32 4 := #v[0x61707865, 0x3320646e, 0x79622d32, 0x6b206574]
  let counter : Vector UInt32 4 := #v[number.toUInt32, (number >>> 32).toUInt32, 0, 0]
  ChaChaBlock.mixed (constants ++ key ++ counter)

def word (s : ChaCha) : UInt32 × ChaCha :=
  match s.unread with
  | w :: rest => (w, { s with unread := rest })
  | [] =>
    let words := (block s.key s.nextBlock).toList
    (words.headD 0, ⟨s.key, s.nextBlock + 1, words.tail⟩)

/-- One step of the generator that expands a seed: a multiplication and an addition. -/
def expand (state : UInt64) : UInt64 :=
  state * 6364136223846793005 + 11634580027462260723

/-- The word that an expansion state yields: shifted bits, rotated by its top bits. -/
def expandedWord (state : UInt64) : UInt32 :=
  let x := (((state >>> 18) ^^^ state) >>> 27).toUInt32
  let turn := (state >>> 59).toUInt32
  (x >>> turn) ||| (x <<< ((32 - turn) % 32))

def keyWords : Nat → UInt64 → List UInt32
  | 0, _ => []
  | n + 1, state =>
    let state := expand state
    expandedWord state :: keyWords n state

theorem length_keyWords (n : Nat) (state : UInt64) : (keyWords n state).length = n := by
  induction n generalizing state with
  | zero => rfl
  | succ n ih => simp only [keyWords, List.length_cons, ih]

def ofSeed (seed : UInt64) : ChaCha :=
  ⟨⟨(keyWords 8 seed).toArray, by simp [length_keyWords]⟩, 0, []⟩

instance : RandomSource ChaCha where
  word32 := word
  word64 s :=
    let (low, s) := s.word
    let (high, s) := s.word
    (high.toUInt64 <<< 32 ||| low.toUInt64, s)

end ChaCha

end SloppyGroup.Random
