import SloppyGroup.Proofs.Loading.Identities
import SloppyGroup.Proofs.Undirected.Simplification

/-!
Accepted documents: which documents an input can be loaded from, and what the input then is.
-/

namespace SloppyGroup

namespace Topology

variable {t : Topology} {member : Member} {members : List Member} {edges : List (Nat × Nat)}

theorem join_of_fresh (fresh : ∀ m ∈ t.members, m.label ≠ member.label) :
    (t.join member).2 = { t with members := t.members.push member } := by
  have new : t.position? member.label = none := by
    rw [position?, Array.findIdx?_eq_none_iff]
    intro m hm
    exact beq_false_of_ne (fresh m hm)
  rw [join, new]

theorem foldl_join (distinct : (members.map Member.label).Nodup)
    (fresh : ∀ m ∈ t.members, m.label ∉ members.map Member.label) :
    (members.foldl (fun t member => (t.join member).2) t) =
      { t with members := t.members ++ members } := by
  induction members generalizing t with
  | nil => simp
  | cons member members ih =>
    rw [List.map_cons, List.nodup_cons] at distinct
    simp only [List.map_cons, List.mem_cons, not_or] at fresh
    rw [List.foldl_cons, join_of_fresh fun m hm => (fresh m hm).1, ih distinct.2]
    · simp
    · intro m hm
      rcases Array.mem_push.1 hm with hm | rfl
      · exact (fresh m hm).2
      · exact distinct.1

theorem foldl_connect :
    (edges.foldl (fun t (a, b) => t.connect a b) t) = { t with edges := t.edges ++ edges } := by
  induction edges generalizing t with
  | nil => simp
  | cons e edges ih =>
    rw [List.foldl_cons, ih]
    simp [connect]

theorem build_eq (distinct : (members.map Member.label).Nodup) :
    build members edges = ⟨members.toArray, edges.toArray⟩ := by
  rw [build, foldl_join distinct (by simp [empty]), foldl_connect]
  simp [empty]

end Topology

namespace DocumentNode

variable {nodes : List DocumentNode} {labels : List String}

/-- The member is who the document says, identity attributes aside. -/
structure Introduces (r : DocumentNode) (member : Member) : Prop where
  label : r.id.Labelled member.label
  isSybil : member.isSybil = r.isSybil
  community : member.community = r.community

theorem introduces_members
    (labelled : List.Forall₂ (fun r label => r.id.Labelled label) nodes labels) :
    ((nodes.zip labels).map fun (r, label) => r.member label).map Member.label = labels ∧
      List.Forall₂ Introduces nodes ((nodes.zip labels).map fun (r, label) => r.member label) := by
  induction labelled with
  | nil => exact ⟨rfl, .nil⟩
  | @cons r label nodes labels own labelled ih =>
    rw [List.zip_cons_cons, List.map_cons, List.map_cons]
    exact ⟨congrArg (label :: ·) ih.1, .cons ⟨own, rfl, rfl⟩ ih.2⟩

theorem mapM_node_eq_ok {out : List Node}
    (labelled : List.Forall₂ (fun r label => r.id.Labelled label) nodes labels) :
    ((nodes.zip labels).mapM fun (r, label) => r.node label) = .ok out ↔
      out.map Node.label = labels ∧ List.Forall₂ Describes nodes out := by
  rw [mapM_eq_ok]
  induction labelled generalizing out with
  | nil =>
    rw [List.zip_nil_left, List.forall₂_nil_left_iff, List.forall₂_nil_left_iff,
      List.map_eq_nil_iff, and_self]
  | @cons r label nodes labels own labelled ih =>
    rw [List.zip_cons_cons, List.forall₂_cons_left_iff, List.forall₂_cons_left_iff]
    constructor
    · rintro ⟨node, out, made, later, rfl⟩
      obtain ⟨rfl, described⟩ := (node_eq_ok own).1 made
      obtain ⟨rfl, rest⟩ := ih.1 later
      exact ⟨rfl, node, out, described, rest, rfl⟩
    · rintro ⟨same, node, out, described, later, rfl⟩
      obtain ⟨rfl, rfl⟩ := List.cons.inj same
      exact ⟨node, out, (node_eq_ok own).2 ⟨rfl, described⟩, ih.2 ⟨rfl, later⟩, rfl⟩

end DocumentNode

namespace GraphDocument

variable {d : GraphDocument} {labels : List String} {input : Input}

/-- A document that makes sense: its nodes have distinct labels, its links join nodes, and its nodes
have their identity attributes all or not at all. -/
structure Admissible (d : GraphDocument) (labels : List String) : Prop where
  labelled : List.Forall₂ (fun r label => r.id.Labelled label) d.nodes labels
  distinct : labels.Nodup
  linked : ∀ link ∈ d.links,
    (∃ label ∈ labels, link.source.Labelled label) ∧ ∃ label ∈ labels, link.target.Labelled label
  identified : (∀ r ∈ d.nodes, r.Bare) ∨ List.Forall₂ DocumentNode.Qualified d.nodes labels

/-- The members are the nodes and the edges are the links, both in order. -/
structure Outlines (d : GraphDocument) (t : Topology) : Prop where
  bare : ∀ r ∈ d.nodes, r.Bare
  members : List.Forall₂ DocumentNode.Introduces d.nodes t.members.toList
  edges : List.Forall₂ (Joins (t.members.toList.map Member.label)) d.links t.edges.toList

/-- The nodes are in order, and the graph has the links without orientation, each once and no
loops. -/
structure Depicts (d : GraphDocument) (g : TrustGraph) : Prop where
  some : d.nodes ≠ []
  nodes : List.Forall₂ DocumentNode.Describes d.nodes g.nodes.toList
  edges : ∃ pairs, List.Forall₂ (Joins (g.nodes.toList.map Node.label)) d.links pairs ∧
    ∀ z, z ∈ g.edges.map Undirected.ends ↔ ¬z.IsDiag ∧ z ∈ pairs.map Undirected.ends
  once : (g.edges.map Undirected.ends).Nodup
  neighbors : ∀ v w, w ∈ g.neighbors v ↔ s(v, w) ∈ g.edges.map Undirected.ends

def Yields (d : GraphDocument) : Input → Prop
  | .raw topology => d.Outlines topology
  | .attributed graph => d.Depicts graph

theorem countP_isAttributed_eq_zero :
    d.nodes.countP (·.isAttributed) = 0 ↔ ∀ r ∈ d.nodes, r.Bare := by
  simp only [List.countP_eq_zero, Bool.not_eq_true, DocumentNode.isAttributed_eq_false]

theorem input_eq_ok_of_bare (bare : ∀ r ∈ d.nodes, r.Bare) : d.input = .ok input ↔
    ∃ labels, d.labels = .ok labels ∧ ∃ pairs, d.edges labels = .ok pairs ∧
      input = .raw (.build ((d.nodes.zip labels).map fun (r, label) => r.member label) pairs) := by
  rw [GraphDocument.input]
  simp only [bind_eq_ok, if_pos (countP_isAttributed_eq_zero.2 bare)]
  simp only [pure, Except.pure, Except.ok.injEq, eq_comm]

theorem input_eq_ok_of_attributed (some : ¬∀ r ∈ d.nodes, r.Bare) : d.input = .ok input ↔
    ∃ labels, d.labels = .ok labels ∧ ∃ pairs, d.edges labels = .ok pairs ∧
      (∀ r ∈ d.nodes, r.isAttributed = true) ∧
        ∃ nodes, ((d.nodes.zip labels).mapM fun (r, label) => r.node label) = .ok nodes ∧
          ∃ graph, TrustGraph.build nodes pairs = .ok graph ∧ input = .attributed graph := by
  rw [GraphDocument.input]
  simp only [bind_eq_ok, if_neg (countP_isAttributed_eq_zero.not.2 some), guard_eq_ok, not_not,
    List.countP_eq_length]
  simp only [pure, Except.pure, Except.ok.injEq, eq_comm]

theorem Admissible.exists_nodes (h : d.Admissible labels)
    (qualified : List.Forall₂ DocumentNode.Qualified d.nodes labels) :
    ∃ nodes, ((d.nodes.zip labels).mapM fun (r, label) => r.node label) = .ok nodes := by
  simp only [mapM_eq_ok]
  rw [exists_forall₂_iff]
  rintro ⟨r, label⟩ hr
  exact (List.forall₂_zip qualified hr).exists_node (List.forall₂_zip h.labelled hr)

theorem Admissible.exists_input (h : d.Admissible labels) : ∃ input, d.input = .ok input := by
  have found := labels_eq_ok.2 ⟨h.labelled, h.distinct⟩
  obtain ⟨pairs, joined⟩ := exists_pairs_iff.2 h.linked
  have edges := (edges_eq_ok h.distinct).2 joined
  by_cases bare : ∀ r ∈ d.nodes, r.Bare
  · exact ⟨_, (input_eq_ok_of_bare bare).2 ⟨labels, found, pairs, edges, rfl⟩⟩
  · have qualified := h.identified.resolve_left bare
    have attributed : ∀ r ∈ d.nodes, r.isAttributed = true := by
      intro r hr
      obtain ⟨i, hi, rfl⟩ := List.getElem_of_mem hr
      exact (qualified.get hi (qualified.length_eq ▸ hi)).isAttributed
    obtain ⟨nodes, made⟩ := h.exists_nodes qualified
    obtain ⟨same, -⟩ := (DocumentNode.mapM_node_eq_ok h.labelled).1 made
    have inRange : ∀ e ∈ pairs, e.1 < nodes.length ∧ e.2 < nodes.length := by
      rw [← List.length_map Node.label, same]
      exact inRange_of_joins joined
    obtain ⟨graph, built⟩ := TrustGraph.exists_build (same ▸ h.distinct) inRange
    exact ⟨_, (input_eq_ok_of_attributed bare).2
      ⟨labels, found, pairs, edges, attributed, nodes, made, graph, built, rfl⟩⟩

theorem input_accepted (h : d.input = .ok input) :
    (∃ labels, d.Admissible labels) ∧ d.Yields input := by
  by_cases bare : ∀ r ∈ d.nodes, r.Bare
  · obtain ⟨labels, found, pairs, edges, rfl⟩ := (input_eq_ok_of_bare bare).1 h
    obtain ⟨labelled, distinct⟩ := labels_eq_ok.1 found
    have joined := (edges_eq_ok distinct).1 edges
    obtain ⟨same, introduced⟩ := DocumentNode.introduces_members labelled
    have linked := exists_pairs_iff.1 ⟨pairs, joined⟩
    refine ⟨⟨labels, labelled, distinct, linked, .inl bare⟩, ?_⟩
    rw [Topology.build_eq (same.symm ▸ distinct)]
    exact ⟨bare, introduced, same.symm ▸ joined⟩
  · obtain ⟨labels, found, pairs, edges, -, nodes, made, graph, built, rfl⟩ :=
      (input_eq_ok_of_attributed bare).1 h
    obtain ⟨labelled, distinct⟩ := labels_eq_ok.1 found
    have joined := (edges_eq_ok distinct).1 edges
    obtain ⟨same, described⟩ := (DocumentNode.mapM_node_eq_ok labelled).1 made
    obtain ⟨rfl, -⟩ := TrustGraph.build_eq_ok built
    have qualified : List.Forall₂ DocumentNode.Qualified d.nodes labels := by
      rw [← same, List.forall₂_map_right_iff]
      exact described.imp fun r node h => h.qualified
    have linked := exists_pairs_iff.1 ⟨pairs, joined⟩
    refine ⟨⟨labels, labelled, distinct, linked, .inr qualified⟩, ?_⟩
    refine ⟨?_, described, ⟨pairs, same.symm ▸ joined, ?_⟩, graph.nodup_ends_edges, ?_⟩
    · intro none
      apply bare
      rw [none]
      exact List.forall_mem_nil _
    · intro z
      exact TrustGraph.mem_ends_edges_of_build built
    · intro v w
      exact TrustGraph.mem_neighbors_iff_ends

/-- A document is accepted if and only if it makes sense, and then the input is what the document
says. -/
theorem input_admits (d : GraphDocument) :
    ((∃ input, d.input = .ok input) ↔ ∃ labels, d.Admissible labels) ∧
      ((∃ cause, d.input = .error cause) ↔ ¬∃ labels, d.Admissible labels) ∧
      ∀ input, d.input = .ok input → d.Yields input := by
  have accepts : (∃ input, d.input = .ok input) ↔ ∃ labels, d.Admissible labels :=
    ⟨fun ⟨_, h⟩ => (input_accepted h).1, fun ⟨_, h⟩ => h.exists_input⟩
  refine ⟨accepts, ?_, fun input h => (input_accepted h).2⟩
  rw [← accepts]
  cases d.input with
  | error cause => simp
  | ok input => simp

/-- Two named nodes and one without a name, a loop, and a link that is given in both directions. -/
def crossroads : GraphDocument where
  nodes := [
    ⟨.string "a", false, true, some "old", some "011", some "01", some 2, some 3, some 2, some 1⟩,
    ⟨.number (.integer 7), true, false, none, some "10", some "1", some 1, some 3, some 2, some 1⟩,
    ⟨.string "b", false, false, none, none, some "", some 0, some 3, some 2, some 1⟩]
  links := [
    ⟨.string "a", .number (.integer 7)⟩, ⟨.string "7", .string "a"⟩, ⟨.string "b", .string "b"⟩]

theorem crossroads_admissible : crossroads.Admissible ["a", "7", "b"] := by
  have seven : Json.Value.numberText (.integer 7) = "7" := by decide +kernel
  have number : Json.Value.Labelled (.number (.integer 7)) "7" := by
    rw [← seven]
    exact .number (.integer 7)
  constructor
  case labelled => exact .cons (.string "a") (.cons number (.cons (.string "b") .nil))
  case distinct => decide +kernel
  case linked =>
    simp only [crossroads, List.forall_mem_cons]
    refine ⟨⟨⟨"a", by simp, .string "a"⟩, "7", by simp, number⟩,
      ⟨⟨"7", by simp, .string "7"⟩, "a", by simp, .string "a"⟩,
      ⟨⟨"b", by simp, .string "b"⟩, "b", by simp, .string "b"⟩, List.forall_mem_nil _⟩
  case identified =>
    refine .inr (.cons ⟨?_, ⟨"01", rfl, ?_, rfl, ?_⟩, ⟨3, rfl⟩, ⟨2, rfl⟩, ⟨1, rfl⟩⟩
      (.cons ⟨?_, ⟨"1", rfl, ?_, rfl, ?_⟩, ⟨3, rfl⟩, ⟨2, rfl⟩, ⟨1, rfl⟩⟩
        (.cons ⟨?_, ⟨"", rfl, ?_, rfl, ?_⟩, ⟨3, rfl⟩, ⟨2, rfl⟩, ⟨1, rfl⟩⟩ .nil)))
    all_goals simp [IsBitstring, DocumentNode.identity]

theorem input_admits_crossroads :
    ∃ graph, crossroads.input = .ok (.attributed graph) ∧ crossroads.Depicts graph := by
  obtain ⟨accepts, -, yields⟩ := input_admits crossroads
  obtain ⟨input, accepted⟩ := accepts.2 ⟨_, crossroads_admissible⟩
  have result := yields input accepted
  cases input with
  | raw => cases (result.bare _ List.mem_cons_self).group
  | attributed graph => exact ⟨graph, accepted, result⟩

end GraphDocument

end SloppyGroup
