import SloppyGroup.Export.Graph
import SloppyGroup.Proofs.Overlay.Links

/-!
Exports agree with the graphs that they show: they list the links of an overlay, and the degrees
that are counted along them are those of the overlay or the trust graph.
-/

namespace SloppyGroup

theorem sum_map_range (figure : Nat → Nat) (count : Nat) :
    ((List.range count).map figure).sum = ∑ v ∈ Finset.range count, figure v := by
  rw [← List.toFinset_range, List.sum_toFinset figure List.nodup_range]

/-- By source, and from one source by target. -/
def ExportedEdge.Precedes (e f : ExportedEdge) : Prop :=
  e.source < f.source ∨ e.source = f.source ∧ e.target < f.target

namespace ExportedGraph

variable {o o' : Overlay} {e : ExportedEdge} {v : Nat}

theorem mem_edges_overlay : e ∈ (overlay o).edges ↔
    ∃ link, o.link? e.source e.target = some link ∧
      e.hops = some link.hops ∧ e.backlink = some link.isBacklink := by
  rw [overlay, List.mem_map]
  constructor
  · intro ⟨⟨source, target, link⟩, listed, he⟩
    rw [← he]
    exact ⟨link, Overlay.mem_links.1 listed, rfl, rfl⟩
  · intro ⟨link, held, hops, backlink⟩
    refine ⟨(e.source, e.target, link), Overlay.mem_links.2 held, ?_⟩
    change ExportedEdge.mk e.source e.target (some link.hops) (some link.isBacklink) = e
    rw [← hops, ← backlink]

theorem sorted_overlay (o : Overlay) : (overlay o).edges.Pairwise ExportedEdge.Precedes :=
  List.pairwise_map.2 o.sorted_links

theorem overlay_congr (same : ∀ v w, o'.link? v w = o.link? v w) : overlay o' = overlay o := by
  rw [overlay, overlay, Overlay.links_congr same]

theorem edgeCount_overlay (o : Overlay) : (overlay o).edgeCount = o.linkCount := by
  rw [edgeCount, overlay, List.length_map, Overlay.length_links]

theorem inDegree_overlay (o : Overlay) (v : Nat) : (overlay o).inDegree v = o.inDegree v := by
  rw [← Overlay.count_targets, List.count_eq_countP, List.countP_map]
  exact List.countP_map

theorem outDegree_overlay (o : Overlay) (v : Nat) : (overlay o).outDegree v = o.outDegree v := by
  rw [← Overlay.count_sources, List.count_eq_countP, List.countP_map]
  exact List.countP_map

theorem degrees_overlay (o : Overlay) (count : Nat) : (overlay o).degrees count =
    (List.range count).map fun v => (o.inDegree v, o.outDegree v) := by
  simp only [degrees, inDegree_overlay, outDegree_overlay]

theorem outDegree_trust (g : TrustGraph) (v : Nat) :
    (trust g).outDegree v = (g.neighbors v).length := by
  have starts : (trust g).edges.countP (·.source == v) = (g.newest.map (·.1)).count v := by
    rw [trust, TrustGraph.edges, List.countP_map, List.countP_reverse, List.count_eq_countP,
      List.countP_map]
    rfl
  have stops : (trust g).edges.countP (·.target == v) = (g.newest.map (·.2)).count v := by
    rw [trust, TrustGraph.edges, List.countP_map, List.countP_reverse, List.count_eq_countP,
      List.countP_map]
    rfl
  rw [TrustGraph.neighbors_along, Undirected.length_neighborsAlong, ← starts, ← stops]
  rfl

theorem degrees_trust (g : TrustGraph) :
    (trust g).degrees g.size = (List.range g.size).map fun v => (0, (g.neighbors v).length) := by
  simp only [degrees, outDegree_trust]
  rfl

/-- However an overlay came about, its export lists every link once, in the order of their ends, and
depends on nothing else. Along the export of an overlay or a trust graph, every node has the degrees
that it has in the graph. -/
theorem overlay_shows_links (count : Nat) (edits : List Overlay.Edit)
    (inside : ∀ e ∈ edits, e.Within count) :
    let o := Overlay.edited count edits
    let x := overlay o
    (∀ e, e ∈ x.edges ↔ ∃ link, o.link? e.source e.target = some link ∧
      e.hops = some link.hops ∧ e.backlink = some link.isBacklink) ∧
    x.edges.Pairwise ExportedEdge.Precedes ∧
    (∀ o' : Overlay, (∀ v w, o'.link? v w = o.link? v w) → overlay o' = x) ∧
    x.edgeCount = o.linkCount ∧
    x.degrees count = (List.range count).map (fun v => (o.inDegree v, o.outDegree v)) ∧
    ((x.degrees count).map Prod.fst).sum = o.linkCount ∧
    ((x.degrees count).map Prod.snd).sum = o.linkCount ∧
    ∀ g : TrustGraph, (trust g).degrees g.size =
      (List.range g.size).map fun v => (0, (g.neighbors v).length) := by
  intro o x
  have spans : o.Spans count := (Overlay.spans_blank count).foldl_edit inside
  refine ⟨fun e => mem_edges_overlay, sorted_overlay o, fun o' => overlay_congr,
    edgeCount_overlay o, degrees_overlay o count, ?incoming, ?outgoing, degrees_trust⟩
  case incoming =>
    rw [degrees_overlay, List.map_map, ← spans.sum_inDegree]
    exact sum_map_range _ count
  case outgoing =>
    rw [degrees_overlay, List.map_map, ← spans.sum_outDegree]
    exact sum_map_range _ count

/-- Node 1 gets a backlink from node 0, which node 2 takes over; node 0 links to itself, and a link
is overwritten. -/
def eventful : List Overlay.Edit :=
  [.connect 1 0 3 1, .connect 2 0 1 1, .put 0 0 ⟨0, false⟩, .put 1 0 ⟨3, true⟩]

def uneventful : List Overlay.Edit :=
  [.put 0 0 ⟨0, false⟩, .put 0 2 ⟨1, true⟩, .put 2 0 ⟨1, false⟩, .put 1 0 ⟨3, true⟩]

theorem overlay_shows_links_eventful :
    let o := Overlay.edited 3 eventful
    let o' := Overlay.edited 3 uneventful
    (∀ e ∈ eventful, e.Within 3) ∧ (∀ v w, o'.link? v w = o.link? v w) ∧
    overlay o' = overlay o ∧ (overlay o).degrees 3 = [(3, 2), (0, 1), (1, 1)] ∧
    (((overlay o).degrees 3).map Prod.fst).sum = o.linkCount := by
  intro o o'
  have inside : ∀ e ∈ eventful, e.Within 3 := by simp [eventful, Overlay.Edit.Within]
  have rows : o'.rows = o.rows := by decide +kernel
  have same (v w : Nat) : o'.link? v w = o.link? v w := by
    rw [Overlay.link?, Overlay.link?, Overlay.row, Overlay.row, rows]
  obtain ⟨_, _, alike, _, degrees, incoming, _⟩ := overlay_shows_links 3 eventful inside
  exact ⟨inside, same, alike o' same, degrees.trans (by decide +kernel), incoming⟩

end ExportedGraph

end SloppyGroup
