import SloppyGroup.Error
import SloppyGroup.Hash.Sha256

/-!
Node identifiers and the group prefixes that partition them. Both are bit strings, most significant
bit first.
-/

namespace SloppyGroup

def showBits (bits : List Bool) : String :=
  String.ofList (bits.map fun b => if b then '1' else '0')

def readBits (field : BitField) : List Char → Except Misconfiguration (List Bool)
  | [] => .ok []
  | '0' :: rest => (readBits field rest).map (false :: ·)
  | '1' :: rest => (readBits field rest).map (true :: ·)
  | c :: _ => .error (.nonBinary field c)

/-- The bits that a group of nodes has in common; the empty prefix is the group of all nodes. -/
structure GroupPrefix where
  bits : List Bool
deriving DecidableEq, Repr

namespace GroupPrefix

instance : Inhabited GroupPrefix := ⟨⟨[]⟩⟩

/-- Prefixes are ordered bit by bit, zero before one, and a prefix before its extensions. -/
instance : Ord GroupPrefix := ⟨fun p q => compare p.bits q.bits⟩

instance : Std.TransOrd GroupPrefix where
  eq_swap {p q} := by
    change compare p.bits q.bits = (compare q.bits p.bits).swap
    exact Std.OrientedCmp.eq_swap
  isLE_trans {p q r} := by
    change (compare p.bits q.bits).isLE → (compare q.bits r.bits).isLE →
      (compare p.bits r.bits).isLE
    exact Std.TransCmp.isLE_trans

instance : Std.LawfulEqOrd GroupPrefix where
  compare_self {p} := by
    change compare p.bits p.bits = .eq
    exact Std.ReflCmp.compare_self
  eq_of_compare {p q} h := by
    change compare p.bits q.bits = .eq at h
    have := Std.LawfulEqCmp.eq_of_compare h
    cases p
    cases q
    simp_all

def parse (text : String) : Except Misconfiguration GroupPrefix :=
  (readBits .groupPrefix text.toList).map GroupPrefix.mk

def length (p : GroupPrefix) : Nat :=
  p.bits.length

def text (p : GroupPrefix) : String :=
  showBits p.bits

end GroupPrefix

/-- A pseudorandom name of a node, at least one bit long. -/
structure Identifier where
  bits : List Bool
  nonempty : bits ≠ []
deriving DecidableEq

namespace Identifier

instance : Inhabited Identifier := ⟨⟨[false], by simp⟩⟩

def ofLabel (label : String) : Identifier where
  bits := Sha256.hash label.toUTF8.toList
  nonempty h := by
    have length := Sha256.length_hash label.toUTF8.toList
    rw [h] at length
    cases length

def parse (text : String) : Except Misconfiguration Identifier :=
  match readBits .identifier text.toList with
  | .error cause => .error cause
  | .ok [] => .error .emptyIdentifier
  | .ok (b :: bits) => .ok ⟨b :: bits, by simp⟩

def length (id : Identifier) : Nat :=
  id.bits.length

def text (id : Identifier) : String :=
  showBits id.bits

/-- The first `count` bits, or all of a shorter identifier. -/
def leading (id : Identifier) (count : Nat) : GroupPrefix :=
  ⟨id.bits.take count⟩

def startsWith (id : Identifier) (p : GroupPrefix) : Bool :=
  p.bits.isPrefixOf id.bits

/-- An identifier starts with a group prefix if these are its leading bits. -/
theorem startsWith_iff {id : Identifier} {p : GroupPrefix} :
    id.startsWith p = true ↔ id.leading p.length = p := by
  rw [startsWith, List.isPrefixOf_iff_prefix, List.prefix_iff_eq_take]
  cases p
  simp [leading, GroupPrefix.length, eq_comm]

end Identifier

end SloppyGroup
