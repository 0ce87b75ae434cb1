import Mathlib.Data.List.Nodup
import SloppyGroup.Loading.Input
import SloppyGroup.Proofs.Success

/-!
Labels of documents: which ids have one, and when the labels of all nodes and of all link ends are
found.
-/

namespace SloppyGroup

namespace Json.Value

variable {id : Value} {label : String}

/-- The label of an id. Only texts and numbers have one. -/
inductive Labelled : Value → String → Prop where
  | string (text : String) : Labelled (.string text) text
  | number (value : Number) : Labelled (.number value) (numberText value)

theorem label_eq_ok : id.label = .ok label ↔ id.Labelled label := by
  constructor
  · intro h
    cases id with
    | string =>
      cases h
      exact .string label
    | number value =>
      cases h
      exact .number value
    | null => cases h
    | bool => cases h
    | array => cases h
    | object => cases h
  · intro h
    cases h with
    | string => rfl
    | number => rfl

end Json.Value

namespace GraphDocument

variable {d : GraphDocument} {nodes : List DocumentNode} {seen labels : List String}
  {id : Json.Value} {position : Nat}

theorem labelsFrom_eq_ok : labelsFrom seen nodes = .ok labels ↔
    List.Forall₂ (fun r label => r.id.Labelled label) nodes labels ∧
      labels.Nodup ∧ ∀ label ∈ labels, label ∉ seen := by
  induction nodes generalizing seen labels with
  | nil =>
    rw [labelsFrom, List.forall₂_nil_left_iff]
    constructor
    · intro h
      cases h
      simp
    · rintro ⟨rfl, -⟩
      rfl
  | cons r nodes ih =>
    rw [labelsFrom, bind_eq_ok, List.forall₂_cons_left_iff]
    constructor
    · rintro ⟨label, own, h⟩
      split at h
      · cases h
      · rename_i fresh
        obtain ⟨rest, found, h⟩ := bind_eq_ok.1 h
        cases h
        obtain ⟨labelled, distinct, apart⟩ := ih.1 found
        refine ⟨⟨label, rest, Json.Value.label_eq_ok.1 own, labelled, rfl⟩, ?_, ?_⟩
        · rw [List.nodup_cons]
          exact ⟨fun again => apart label again List.mem_cons_self, distinct⟩
        · rw [List.forall_mem_cons]
          exact ⟨fresh, fun l hl old => apart l hl (List.mem_cons_of_mem label old)⟩
    · rintro ⟨⟨label, rest, own, labelled, rfl⟩, distinct, apart⟩
      rw [List.nodup_cons] at distinct
      rw [List.forall_mem_cons] at apart
      refine ⟨label, Json.Value.label_eq_ok.2 own, ?_⟩
      have found : labelsFrom (label :: seen) nodes = .ok rest := by
        refine ih.2 ⟨labelled, distinct.2, fun l hl old => ?_⟩
        rcases List.mem_cons.1 old with rfl | old
        · exact distinct.1 hl
        · exact apart.2 l hl old
      rw [if_neg apart.1]
      exact bind_eq_ok.2 ⟨rest, found, rfl⟩

theorem labels_eq_ok : d.labels = .ok labels ↔
    List.Forall₂ (fun r label => r.id.Labelled label) d.nodes labels ∧ labels.Nodup := by
  rw [GraphDocument.labels, labelsFrom_eq_ok]
  simp

theorem endPosition_eq_ok (distinct : labels.Nodup) :
    endPosition labels id = .ok position ↔
      ∃ label, id.Labelled label ∧ labels[position]? = some label := by
  rw [endPosition, bind_eq_ok]
  apply exists_congr
  intro label
  rw [Json.Value.label_eq_ok]
  apply and_congr_right
  intro _
  constructor
  · intro h
    split at h
    · rename_i found
      cases h
      obtain ⟨hp, same, -⟩ := List.findIdx?_eq_some_iff_getElem.1 found
      rw [List.getElem?_eq_getElem hp, eq_of_beq same]
    · cases h
  · intro there
    obtain ⟨hp, same⟩ := List.getElem?_eq_some_iff.1 there
    have found : labels.findIdx? (· == label) = some position := by
      rw [List.findIdx?_eq_some_iff_getElem]
      refine ⟨hp, beq_iff_eq.2 same, fun j before => ?_⟩
      rw [beq_iff_eq, ← same, distinct.getElem_inj_iff]
      exact Nat.ne_of_lt before
    rw [found]
    rfl

/-- The positions at which the ends of a link are labelled. -/
def Joins (labels : List String) (link : DocumentLink) (e : Undirected.Edge) : Prop :=
  (∃ label, link.source.Labelled label ∧ labels[e.1]? = some label) ∧
    ∃ label, link.target.Labelled label ∧ labels[e.2]? = some label

theorem edges_eq_ok {pairs : List Undirected.Edge} (distinct : labels.Nodup) :
    d.edges labels = .ok pairs ↔ List.Forall₂ (Joins labels) d.links pairs := by
  rw [edges, mapM_eq_ok]
  have link : (fun (link : DocumentLink) (e : Undirected.Edge) =>
      (do
        let source ← endPosition labels link.source
        let target ← endPosition labels link.target
        return (source, target)) = Except.ok e) = Joins labels := by
    funext link ⟨a, b⟩
    rw [Joins, ← endPosition_eq_ok distinct, ← endPosition_eq_ok distinct, bind_eq_ok, eq_iff_iff]
    constructor
    · rintro ⟨source, hs, h⟩
      obtain ⟨target, ht, h⟩ := bind_eq_ok.1 h
      cases h
      exact ⟨hs, ht⟩
    · rintro ⟨hs, ht⟩
      exact ⟨a, hs, bind_eq_ok.2 ⟨b, ht, rfl⟩⟩
  rw [link]

theorem Joins.inRange {link : DocumentLink} {e : Undirected.Edge} (h : Joins labels link e) :
    e.1 < labels.length ∧ e.2 < labels.length := by
  obtain ⟨⟨_, -, source⟩, _, -, target⟩ := h
  exact ⟨(List.getElem?_eq_some_iff.1 source).1, (List.getElem?_eq_some_iff.1 target).1⟩

theorem inRange_of_joins {links : List DocumentLink} {pairs : List Undirected.Edge}
    (joined : List.Forall₂ (Joins labels) links pairs) :
    ∀ e ∈ pairs, e.1 < labels.length ∧ e.2 < labels.length := by
  induction joined with
  | nil => exact List.forall_mem_nil _
  | cons first _ ih => exact List.forall_mem_cons.2 ⟨first.inRange, ih⟩

theorem exists_joins_iff {link : DocumentLink} : (∃ e, Joins labels link e) ↔
    (∃ label ∈ labels, link.source.Labelled label) ∧
      ∃ label ∈ labels, link.target.Labelled label := by
  simp only [List.mem_iff_getElem?]
  constructor
  · rintro ⟨e, ⟨a, source, ha⟩, b, target, hb⟩
    exact ⟨⟨a, ⟨e.1, ha⟩, source⟩, b, ⟨e.2, hb⟩, target⟩
  · rintro ⟨⟨a, ⟨i, ha⟩, source⟩, b, ⟨j, hb⟩, target⟩
    exact ⟨(i, j), ⟨a, source, ha⟩, b, target, hb⟩

theorem exists_pairs_iff {links : List DocumentLink} :
    (∃ pairs, List.Forall₂ (Joins labels) links pairs) ↔ ∀ link ∈ links,
      (∃ label ∈ labels, link.source.Labelled label) ∧
        ∃ label ∈ labels, link.target.Labelled label := by
  simp only [exists_forall₂_iff, exists_joins_iff]

end GraphDocument

end SloppyGroup
