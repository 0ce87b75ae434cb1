import Mathlib
import SloppyGroup.Export.Gml
import SloppyGroup.Proofs.Loading.Identities

/-!
Exported graphs can be read back: nothing of what is written is confused with anything that
precedes or follows it, so graphs with the same text have the same nodes and the same edges, whatever
their labels and communities look like.
-/

namespace SloppyGroup

namespace Text

variable {α β : Type} {write : α → List Char}

/-- What is written of different values is told apart, and from whatever follows it. -/
def Delimited (write : α → List Char) : Prop :=
  ∀ ⦃a b : α⦄ ⦃rest rest' : List Char⦄,
    write a ++ rest = write b ++ rest' → a = b ∧ rest = rest'

theorem Delimited.comp (h : Delimited write) {f : β → α} (injective : Function.Injective f) :
    Delimited fun b => write (f b) := by
  intro a b rest rest' same
  obtain ⟨value, same⟩ := h same
  exact ⟨injective value, same⟩

theorem Delimited.between (h : Delimited write) (opening closing : List Char) :
    Delimited fun a => opening ++ (write a ++ closing) := by
  intro a b rest rest' same
  simp only [List.append_assoc] at same
  obtain ⟨value, same⟩ := h (List.append_cancel_left same)
  exact ⟨value, List.append_cancel_left same⟩

theorem eq_of_append_cons {closing : Char} {xs ys rest rest' : List Char} (hx : closing ∉ xs)
    (hy : closing ∉ ys) (same : xs ++ closing :: rest = ys ++ closing :: rest') :
    xs = ys ∧ rest = rest' := by
  induction xs generalizing ys with
  | nil =>
    cases ys with
    | nil => exact ⟨rfl, (List.cons.inj same).2⟩
    | cons y ys =>
      obtain ⟨rfl, _⟩ := List.cons.inj same
      exact absurd List.mem_cons_self hy
  | cons x xs ih =>
    cases ys with
    | nil =>
      obtain ⟨rfl, _⟩ := List.cons.inj same
      exact absurd List.mem_cons_self hx
    | cons y ys =>
      obtain ⟨rfl, tails⟩ := List.cons.inj same
      obtain ⟨rfl, rests⟩ :=
        ih (List.not_mem_of_not_mem_cons hx) (List.not_mem_of_not_mem_cons hy) tails
      exact ⟨rfl, rests⟩

/-- A closing character that does not occur before delimits what it closes. -/
theorem delimited_closed {closing : Char} (injective : Function.Injective write)
    (absent : ∀ a, closing ∉ write a) : Delimited fun a => write a ++ [closing] := by
  intro a b rest rest' same
  simp only [List.append_assoc, List.singleton_append] at same
  obtain ⟨text, same⟩ := eq_of_append_cons (absent a) (absent b) same
  exact ⟨injective text, same⟩

/-- Values are written one after the other up to something that is none of them. -/
theorem Delimited.flatMap (h : Delimited write) {xs ys : List α} {rest rest' : List Char}
    (ends : ∀ a more, write a ++ more ≠ rest) (ends' : ∀ a more, write a ++ more ≠ rest')
    (same : xs.flatMap write ++ rest = ys.flatMap write ++ rest') : xs = ys ∧ rest = rest' := by
  induction xs generalizing ys with
  | nil =>
    cases ys with
    | nil => exact ⟨rfl, same⟩
    | cons y ys =>
      rw [List.flatMap_cons, List.append_assoc] at same
      exact absurd same.symm (ends _ _)
  | cons x xs ih =>
    cases ys with
    | nil =>
      rw [List.flatMap_cons, List.append_assoc] at same
      exact absurd same (ends' _ _)
    | cons y ys =>
      simp only [List.flatMap_cons, List.append_assoc] at same
      obtain ⟨rfl, tails⟩ := h same
      obtain ⟨rfl, rests⟩ := ih tails
      exact ⟨rfl, rests⟩

theorem Delimited.optional (h : Delimited write) {o o' : Option α} {rest rest' : List Char}
    (ends : ∀ a more, write a ++ more ≠ rest) (ends' : ∀ a more, write a ++ more ≠ rest')
    (same : o.toList.flatMap write ++ rest = o'.toList.flatMap write ++ rest') :
    o = o' ∧ rest = rest' := by
  obtain ⟨values, rests⟩ := h.flatMap ends ends' same
  have first := congrArg List.head? values
  rw [Option.head?_toList, Option.head?_toList] at first
  exact ⟨first, rests⟩

end Text

theorem GroupPrefix.text_injective : Function.Injective GroupPrefix.text := by
  rintro ⟨bits⟩ ⟨bits'⟩ same
  exact congrArg GroupPrefix.mk (showBits_injective same)

theorem GraphKind.stem_injective : Function.Injective GraphKind.stem := by
  intro kind kind' same
  cases kind <;> cases kind' <;> simp [GraphKind.stem] at same ⊢

namespace Gml

open Text

variable {rest rest' : List Char}

/-- The characters of a line and its end. -/
def ended (line : String) : List Char :=
  line.toList ++ ['\n']

theorem toList_text (g : TrustGraph) (x : ExportedGraph) :
    (text g x).toList = (lines g x).flatMap ended := by
  rw [text, String.toList_join, List.flatMap_map]
  congr 1
  funext line
  exact String.toList_append

theorem delimited_number (indent key : String) :
    Delimited fun n => ended (indent ++ number key n) := by
  have digits : Delimited fun n => Nat.toDigits 10 n ++ ['\n'] := by
    apply delimited_closed
    · intro m n same
      exact Nat.repr_inj.1 (String.toList_inj.1 (by rw [Nat.toList_repr, Nat.toList_repr, same]))
    · intro n newline
      have digit := Nat.isDigit_of_mem_toDigits (by decide) (by decide) newline
      revert digit
      decide
  have written (n : Nat) : ended (indent ++ number key n) =
      (indent ++ (key ++ " ")).toList ++ ((Nat.toDigits 10 n ++ ['\n']) ++ []) := by
    simp [ended, number]
  simp only [written]
  exact digits.between _ _

theorem escapeChar_cases (c : Char) :
    (c = '&' ∧ escapeChar c = ['&', 'a', 'm', 'p', ';']) ∨
      (c = '"' ∧ escapeChar c = ['&', 'q', 'u', 'o', 't', ';']) ∨
      (c ≠ '&' ∧ c ≠ '"' ∧ escapeChar c = [c]) := by
  fun_cases escapeChar c with
  | case1 => exact .inl ⟨rfl, by decide⟩
  | case2 => exact .inr (.inl ⟨rfl, by decide⟩)
  | case3 c ampersand quote => exact .inr (.inr ⟨ampersand, quote, rfl⟩)

theorem delimited_escapeChar : Delimited escapeChar := by
  intro c d rest rest' same
  rcases escapeChar_cases c with ⟨_, hc⟩ | ⟨_, hc⟩ | ⟨_, _, hc⟩ <;>
    rcases escapeChar_cases d with ⟨_, hd⟩ | ⟨_, hd⟩ | ⟨_, _, hd⟩ <;>
    simp only [hc, hd, List.cons_append, List.nil_append, List.cons.injEq] at same <;>
    grind

theorem escapeChar_append_ne (c : Char) (rest rest' : List Char) :
    escapeChar c ++ rest ≠ '"' :: rest' := by
  rcases escapeChar_cases c with ⟨_, hc⟩ | ⟨_, hc⟩ | ⟨_, quote, hc⟩
  · simp [hc]
  · simp [hc]
  · simp [hc, quote]

/-- The quote that closes a value is the first one in it. -/
theorem delimited_quotation (indent key : String) :
    Delimited fun value => ended (indent ++ quotation key value) := by
  have written (value : String) : ended (indent ++ quotation key value) =
      (indent ++ (key ++ " \"")).toList ++ (value.toList.flatMap escapeChar ++ ['"', '\n']) := by
    simp [ended, quotation, escape]
  intro value value' rest rest' same
  simp only [written, List.append_assoc] at same
  obtain ⟨characters, closed⟩ := delimited_escapeChar.flatMap
    (fun c more => escapeChar_append_ne c more _) (fun c more => escapeChar_append_ne c more _)
    (List.append_cancel_left same)
  have closed : ['"', '\n'] ++ rest = ['"', '\n'] ++ rest' := closed
  exact ⟨String.toList_inj.1 characters, List.append_cancel_left closed⟩

theorem delimited_flag (indent key : String) :
    Delimited fun b => ended (indent ++ flag key b) :=
  (delimited_number indent key).comp (by decide : Function.Injective Bool.toNat)

/-- The characters of a line in a record. -/
def entry (line : String) : List Char :=
  ended ("    " ++ line)

theorem flatMap_ended_record (key : String) (lines : List String) :
    (record key lines).flatMap ended =
      ended ("  " ++ key ++ " [") ++ (lines.flatMap entry ++ ended "  ]") := by
  simp only [record, List.flatMap_append, List.flatMap_singleton, List.flatMap_map,
    List.append_assoc]
  rfl

theorem flatMap_entry_option {α : Type} (line : α → String) (value : Option α) :
    (value.map line).toList.flatMap entry = value.toList.flatMap fun a => entry (line a) := by
  cases value <;> rfl

/-- The end of a record is no line in it. -/
theorem entry_append_ne (line : String) (more rest : List Char) :
    entry line ++ more ≠ ended "  ]" ++ rest := by
  simp [entry, ended]

theorem delimited_node :
    Delimited fun p : Node × Nat => (nodeLines p.2 p.1).flatMap ended := by
  rintro ⟨node, v⟩ ⟨node', v'⟩ rest rest' same
  simp only [nodeLines, flatMap_ended_record, List.flatMap_append, List.flatMap_cons,
    List.flatMap_nil, flatMap_entry_option, List.append_assoc, List.nil_append] at same
  have lines := List.append_cancel_left same
  obtain ⟨position, lines⟩ := delimited_number _ _ lines
  obtain ⟨label, lines⟩ := delimited_quotation _ _ lines
  obtain ⟨id, lines⟩ := (delimited_quotation _ _).comp Identifier.text_injective lines
  obtain ⟨group, lines⟩ := (delimited_quotation _ _).comp GroupPrefix.text_injective lines
  obtain ⟨_, lines⟩ := delimited_number _ _ lines
  obtain ⟨sybil, lines⟩ := delimited_flag _ _ lines
  obtain ⟨landmark, lines⟩ := delimited_flag _ _ lines
  obtain ⟨vicinity, lines⟩ := delimited_number _ _ lines
  obtain ⟨fanout, lines⟩ := delimited_number _ _ lines
  obtain ⟨bucket, lines⟩ := delimited_number _ _ lines
  obtain ⟨community, lines⟩ := (delimited_quotation _ _).optional
    (fun _ _ => entry_append_ne _ _ _) (fun _ _ => entry_append_ne _ _ _) lines
  refine ⟨?_, List.append_cancel_left lines⟩
  cases node
  cases node'
  simp_all

theorem delimited_edge : Delimited fun edge => (edgeLines edge).flatMap ended := by
  intro edge edge' rest rest' same
  simp only [edgeLines, flatMap_ended_record, List.flatMap_append, List.flatMap_cons,
    List.flatMap_nil, flatMap_entry_option, List.append_assoc, List.nil_append] at same
  have lines := List.append_cancel_left same
  obtain ⟨source, lines⟩ := delimited_number _ _ lines
  obtain ⟨target, lines⟩ := delimited_number _ _ lines
  -- Whether hops are given shows before a backlink or the end of the record is read.
  have apart (hops : Nat) (backlink : Option Bool) (more rest : List Char) :
      entry (number "hops" hops) ++ more ≠
        (backlink.toList.flatMap fun b => entry (flag "backlink" b)) ++
          (ended "  ]" ++ rest) := by
    cases backlink with
    | none => exact entry_append_ne _ _ _
    | some b => simp [entry, ended, flag, number]
  obtain ⟨hops, lines⟩ := (delimited_number _ _).optional
    (fun _ _ => apart _ _ _ _) (fun _ _ => apart _ _ _ _) lines
  obtain ⟨backlink, lines⟩ := (delimited_flag _ _).optional
    (fun _ _ => entry_append_ne _ _ _) (fun _ _ => entry_append_ne _ _ _) lines
  refine ⟨?_, List.append_cancel_left lines⟩
  cases edge
  cases edge'
  simp_all

theorem edge_append_ne (edge : ExportedEdge) (more : List Char) :
    (edgeLines edge).flatMap ended ++ more ≠ ended "]" := by
  simp [edgeLines, flatMap_ended_record, ended]

/-- After the nodes there are edges or the end. -/
theorem node_append_ne (p : Node × Nat) (more : List Char) (edges : List ExportedEdge) :
    (nodeLines p.2 p.1).flatMap ended ++ more ≠
      (edges.flatMap fun edge => (edgeLines edge).flatMap ended) ++ ended "]" := by
  cases edges with
  | nil => simp [nodeLines, flatMap_ended_record, ended]
  | cons edge edges => simp [nodeLines, edgeLines, flatMap_ended_record, ended]

/-- Exported graphs have the same text exactly if they have the same nodes with the same attributes
in the same order, the same kind, and the same edges in the same order. -/
theorem text_eq_text_iff (g g' : TrustGraph) (x x' : ExportedGraph) :
    text g x = text g' x' ↔ g.nodes = g'.nodes ∧ x = x' := by
  constructor
  · intro same
    replace same := congrArg String.toList same
    simp only [toList_text, lines, List.flatMap_append, List.flatMap_cons, List.flatMap_nil,
      List.flatMap_assoc, List.append_assoc, List.nil_append] at same
    have body := List.append_cancel_left same
    obtain ⟨_, body⟩ := delimited_flag _ _ body
    obtain ⟨kind, body⟩ := (delimited_quotation _ _).comp GraphKind.stem_injective body
    obtain ⟨nodes, body⟩ := delimited_node.flatMap
      (fun _ _ => node_append_ne _ _ _) (fun _ _ => node_append_ne _ _ _) body
    obtain ⟨edges, _⟩ := delimited_edge.flatMap (fun _ _ => edge_append_ne _ _)
      (fun _ _ => edge_append_ne _ _) body
    replace nodes := congrArg (List.map Prod.fst) nodes
    rw [List.zipIdx_map_fst, List.zipIdx_map_fst, Array.toList_inj] at nodes
    cases x
    cases x'
    cases kind
    cases edges
    exact ⟨nodes, rfl⟩
  · rintro ⟨nodes, rfl⟩
    rw [text, text, lines, lines, nodes]

end Gml

end SloppyGroup
