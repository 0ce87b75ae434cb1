import Mathlib.Data.List.Infix
import Mathlib.Data.Set.List
import SloppyGroup.Proofs.Loading.Labels

/-!
Identities that the attributes of document nodes describe: bit strings are read as they are shown,
and a node comes of exactly the attributes that fit together.
-/

namespace SloppyGroup

section Bits

variable {field : BitField} {chars : List Char} {bits other : List Bool} {text : String}

def bitChar (b : Bool) : Char :=
  if b then '1' else '0'

theorem bitChar_injective : Function.Injective bitChar := by
  intro a b
  cases a <;> cases b <;> simp [bitChar]

theorem toList_showBits : (showBits bits).toList = bits.map bitChar :=
  String.toList_ofList

theorem length_showBits : (showBits bits).length = bits.length := by
  rw [← String.length_toList, toList_showBits, List.length_map]

theorem showBits_injective : Function.Injective showBits := by
  intro a b same
  apply List.map_injective_iff.2 bitChar_injective
  rw [← toList_showBits, same, toList_showBits]

theorem showBits_prefix_iff :
    (showBits bits).toList <+: (showBits other).toList ↔ bits <+: other := by
  rw [toList_showBits, toList_showBits, List.prefix_map_iff_of_injective bitChar_injective]

theorem readBits_bitChar (b : Bool) :
    readBits field (bitChar b :: chars) = (readBits field chars).map (b :: ·) := by
  cases b
  · rfl
  · rfl

theorem readBits_ne_ok {c : Char} (other : ¬∃ b, bitChar b = c) :
    readBits field (c :: chars) ≠ .ok bits := by
  intro h
  rw [readBits.eq_def] at h
  split at h
  · cases ‹c :: chars = []›
  · cases ‹c :: chars = _›
    exact other ⟨false, rfl⟩
  · cases ‹c :: chars = _›
    exact other ⟨true, rfl⟩
  · cases h

theorem readBits_eq_ok (field : BitField) :
    readBits field chars = .ok bits ↔ bits.map bitChar = chars := by
  induction chars generalizing bits with
  | nil =>
    rw [readBits, Except.ok.injEq, List.map_eq_nil_iff, eq_comm]
  | cons c chars ih =>
    by_cases binary : ∃ b, bitChar b = c
    · obtain ⟨b, rfl⟩ := binary
      rw [readBits_bitChar, map_eq_ok]
      constructor
      · rintro ⟨rest, read, rfl⟩
        rw [List.map_cons, ih.1 read]
      · intro shown
        obtain ⟨b', rest, rfl, hb, later⟩ := List.map_eq_cons_iff.1 shown
        cases bitChar_injective hb
        exact ⟨rest, ih.2 later, rfl⟩
    · constructor
      · intro read
        cases readBits_ne_ok binary read
      · intro shown
        obtain ⟨b, _, -, hb, -⟩ := List.map_eq_cons_iff.1 shown
        cases binary ⟨b, hb⟩

/-- A text of zeros and ones. -/
def IsBitstring (text : String) : Prop :=
  ∀ c ∈ text.toList, c = '0' ∨ c = '1'

theorem isBitstring_iff : IsBitstring text ↔ ∃ bits, showBits bits = text := by
  have bitChars (c : Char) : c ∈ Set.range bitChar ↔ c = '0' ∨ c = '1' := by
    rw [Set.mem_range, Bool.exists_bool, eq_comm (b := c), eq_comm (b := c)]
    rfl
  calc IsBitstring text
    _ ↔ ∀ c ∈ text.toList, c ∈ Set.range bitChar := by simp only [IsBitstring, bitChars]
    _ ↔ text.toList ∈ Set.range (List.map bitChar) := by
      rw [Set.range_list_map]
      rfl
    _ ↔ ∃ bits, showBits bits = text := by
      simp only [Set.mem_range, ← toList_showBits, String.toList_inj]

end Bits

theorem GroupPrefix.parse_eq_ok {text : String} {p : GroupPrefix} :
    parse text = .ok p ↔ p.text = text := by
  rw [parse, map_eq_ok, GroupPrefix.text, ← String.toList_inj, toList_showBits]
  constructor
  · rintro ⟨bits, h, rfl⟩
    exact (readBits_eq_ok _).1 h
  · intro h
    exact ⟨p.bits, (readBits_eq_ok _).2 h, rfl⟩

namespace Identifier

variable {text : String} {id : Identifier}

theorem text_injective : Function.Injective Identifier.text := by
  intro a b same
  cases a
  cases b
  cases showBits_injective same
  rfl

theorem parse_eq_ok : parse text = .ok id ↔ id.text = text := by
  rw [Identifier.text, ← String.toList_inj, toList_showBits, ← readBits_eq_ok .identifier, parse]
  split
  · rename_i refused
    simp [refused]
  · rename_i empty
    simp [empty, id.nonempty.symm]
  · rename_i b bits read
    rw [read, Except.ok.injEq, Except.ok.injEq]
    constructor
    · rintro rfl
      rfl
    · intro same
      cases id
      cases same
      rfl

end Identifier

namespace DocumentNode

variable {r : DocumentNode} {label : String} {node : Node}

/-- The bits that identify a node: its name, and without one the hash of its label. -/
def identity (r : DocumentNode) (label : String) : String :=
  r.name.getD (Identifier.ofLabel label).text

/-- No identity attribute is there. -/
structure Bare (r : DocumentNode) : Prop where
  name : r.name = none
  group : r.group = none
  groupBits : r.groupBits = none
  vicinitySize : r.vicinitySize = none
  overlayDegree : r.overlayDegree = none
  colorSize : r.colorSize = none

/-- All identity attributes but the name must be there, and they must fit together. -/
structure Qualified (r : DocumentNode) (label : String) : Prop where
  name : ∀ name ∈ r.name, name ≠ "" ∧ IsBitstring name
  group : ∃ group, r.group = some group ∧ IsBitstring group ∧ r.groupBits = some group.length ∧
    group.toList <+: (r.identity label).toList
  vicinitySize : ∃ size, r.vicinitySize = some size
  overlayDegree : ∃ degree, r.overlayDegree = some degree
  colorSize : ∃ size, r.colorSize = some size

/-- The node has everything that the document says about it. -/
structure Describes (r : DocumentNode) (node : Node) : Prop where
  label : r.id.Labelled node.label
  isSybil : node.isSybil = r.isSybil
  isLandmark : node.isLandmark = r.isLandmark
  community : node.community = r.community
  identity : node.id.text = r.identity node.label
  group : r.group = some node.group.text
  groupBits : r.groupBits = some node.group.length
  startsWith : node.id.startsWith node.group = true
  vicinitySize : r.vicinitySize = some node.vicinityCapacity
  overlayDegree : r.overlayDegree = some node.fanout
  colorSize : r.colorSize = some node.bucketCapacity

theorem isAttributed_eq_false : r.isAttributed = false ↔ r.Bare := by
  simp only [isAttributed, Bool.or_eq_false_iff, Option.isSome_eq_false_iff,
    Option.isNone_iff_eq_none, and_assoc]
  constructor
  · rintro ⟨name, group, groupBits, vicinitySize, overlayDegree, colorSize⟩
    exact ⟨name, group, groupBits, vicinitySize, overlayDegree, colorSize⟩
  · intro h
    exact ⟨h.name, h.group, h.groupBits, h.vicinitySize, h.overlayDegree, h.colorSize⟩

theorem Qualified.isAttributed (h : r.Qualified label) : r.isAttributed = true := by
  by_contra bare
  obtain ⟨group, there, -⟩ := h.group
  rw [Bool.not_eq_true, isAttributed_eq_false] at bare
  rw [bare.group] at there
  cases there

theorem need_eq_ok {α : Type} {key : String} {given : Option α} {value : α} :
    need label key given = .ok value ↔ given = some value := by
  cases given with
  | none => simp [need]
  | some => simp [need]

theorem identifier_eq_ok {id : Identifier} :
    r.identifier label = .ok id ↔ id.text = r.identity label := by
  rw [identifier, identity]
  cases r.name with
  | none =>
    change .ok (Identifier.ofLabel label) = Except.ok id ↔ id.text = (Identifier.ofLabel label).text
    rw [Except.ok.injEq, eq_comm, Identifier.text_injective.eq_iff]
  | some name => exact mapError_eq_ok.trans Identifier.parse_eq_ok

theorem node_eq_ok (labelled : r.id.Labelled label) :
    r.node label = .ok node ↔ node.label = label ∧ r.Describes node := by
  rw [DocumentNode.node]
  simp only [bind_eq_ok, guard_eq_ok, need_eq_ok, identifier_eq_ok, mapError_eq_ok,
    GroupPrefix.parse_eq_ok]
  constructor
  · rintro ⟨_, group, _, groupBits, id, identity, p, rfl, fits, starts, vicinityCapacity,
      vicinitySize, fanout, overlayDegree, bucketCapacity, colorSize, made⟩
    cases made
    refine ⟨rfl, labelled, rfl, rfl, rfl, identity, group, ?_, ?_, vicinitySize, overlayDegree,
      colorSize⟩
    · rw [groupBits, not_not.1 fits]
    · simpa using starts
  · rintro ⟨rfl, h⟩
    refine ⟨node.group.text, h.group, node.group.length, h.groupBits, node.id, h.identity,
      node.group, rfl, not_not.2 rfl, by simp [h.startsWith], node.vicinityCapacity, h.vicinitySize,
      node.fanout, h.overlayDegree, node.bucketCapacity, h.colorSize, ?_⟩
    rw [← h.isSybil, ← h.isLandmark, ← h.community]
    rfl

theorem exists_identity (label : String)
    (named : ∀ name ∈ r.name, name ≠ "" ∧ IsBitstring name) :
    ∃ id : Identifier, id.text = r.identity label := by
  rw [identity]
  cases there : r.name with
  | none => exact ⟨Identifier.ofLabel label, rfl⟩
  | some name =>
    obtain ⟨some, binary⟩ := named name there
    obtain ⟨bits, rfl⟩ := isBitstring_iff.1 binary
    have nonempty : bits ≠ [] := by
      rintro rfl
      exact some rfl
    exact ⟨⟨bits, nonempty⟩, rfl⟩

theorem Describes.qualified (h : r.Describes node) : r.Qualified node.label where
  name name there := by
    have shown := h.identity
    rw [DocumentNode.identity, Option.mem_def.1 there, Option.getD_some] at shown
    refine ⟨?_, isBitstring_iff.2 ⟨node.id.bits, shown⟩⟩
    rintro rfl
    exact node.id.nonempty (showBits_injective shown)
  group := by
    refine ⟨node.group.text, h.group, isBitstring_iff.2 ⟨_, rfl⟩, ?_, ?_⟩
    · rw [h.groupBits, GroupPrefix.text, length_showBits, GroupPrefix.length]
    · have starts := h.startsWith
      rw [Identifier.startsWith, List.isPrefixOf_iff_prefix] at starts
      rw [← h.identity]
      exact showBits_prefix_iff.2 starts
  vicinitySize := ⟨_, h.vicinitySize⟩
  overlayDegree := ⟨_, h.overlayDegree⟩
  colorSize := ⟨_, h.colorSize⟩

theorem Qualified.exists_node (h : r.Qualified label) (labelled : r.id.Labelled label) :
    ∃ node, r.node label = .ok node := by
  obtain ⟨id, shown⟩ := exists_identity label h.name
  obtain ⟨groupText, group, binary, groupBits, starts⟩ := h.group
  obtain ⟨bits, rfl⟩ := isBitstring_iff.1 binary
  obtain ⟨vicinityCapacity, vicinitySize⟩ := h.vicinitySize
  obtain ⟨fanout, overlayDegree⟩ := h.overlayDegree
  obtain ⟨bucketCapacity, colorSize⟩ := h.colorSize
  let node : Node := ⟨label, id, ⟨bits⟩, r.isSybil, r.isLandmark, vicinityCapacity, bucketCapacity,
    fanout, r.community⟩
  refine ⟨node, (node_eq_ok labelled).2 ⟨rfl, labelled, rfl, rfl, rfl, shown, group, ?_, ?_,
    vicinitySize, overlayDegree, colorSize⟩⟩
  · rw [groupBits, length_showBits, GroupPrefix.length]
  · rw [← shown] at starts
    exact List.isPrefixOf_iff_prefix.2 (showBits_prefix_iff.1 starts)

end DocumentNode

end SloppyGroup
