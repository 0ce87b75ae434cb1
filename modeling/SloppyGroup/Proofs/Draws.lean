import SloppyGroup.Identity
import SloppyGroup.Proofs.Proximity.EarlyStop
import SloppyGroup.Proofs.Success
import SloppyGroup.Proofs.Undirected.Simplification

/-!
Draws that identities are made of: one for the estimate of each member, and one for its election
unless the election is a sure one. Members that come after equally many draws get the same identity,
whoever the others are.
-/

namespace SloppyGroup

variable {σ : Type} [RandomSource σ]

namespace Random

/-- What is left of a source after some 64-bit draws. -/
def skip : Nat → σ → σ
  | 0, source => source
  | count + 1, source => skip count (RandomSource.word64 source).2

theorem skip_add (first count : Nat) (source : σ) :
    skip (first + count) source = skip count (skip first source) := by
  induction first generalizing source with
  | zero => rw [Nat.zero_add, skip]
  | succ first ih => rw [Nat.succ_add, skip, ih, skip]

theorem coin_snd (p : Float) (source : σ) :
    (coin p source).2 = skip (if p == 1 then 0 else 1) source := by
  rw [coin]
  split
  · rfl
  · rfl

end Random

theorem Random.drawn_skip (count : Nat) (source : Zeros) :
    (skip count source).drawn = source.drawn + count := by
  induction count generalizing source with
  | zero => rfl
  | succ count ih =>
    rw [skip, ih, Nat.add_comm count, ← Nat.add_assoc]
    rfl

theorem Sizing.exists_ofPopulation {n : Float} (usable : (!n.isFinite || n ≤ 1) = false) :
    ∃ sizing, ofPopulation n = .ok sizing := by
  rw [ofPopulation, usable]
  exact ⟨_, rfl⟩

/-- Two nodes agree in all that is derived from the label and the estimate. -/
structure Node.Resembles (node other : Node) : Prop where
  label : node.label = other.label
  id : node.id = other.id
  group : node.group = other.group
  vicinityCapacity : node.vicinityCapacity = other.vicinityCapacity
  bucketCapacity : node.bucketCapacity = other.bucketCapacity
  fanout : node.fanout = other.fanout

namespace Member

variable {settings : Settings} {estimate : PopulationEstimate} {member other : Member}
  {members : List Member} {node node' : Node} {nodes : List Node}
  {source after after' : σ} {v : Nat}

/-- How likely a member is elected as a landmark. -/
def chance (settings : Settings) (member : Member) (sizing : Sizing) : Float :=
  if member.isSybil then settings.sybilLandmarkProbability else sizing.landmarkProbability

def identified (member : Member) (sizing : Sizing) (isLandmark : Bool) : Node where
  label := member.label
  id := Identifier.ofLabel member.label
  group := (Identifier.ofLabel member.label).leading sizing.groupBits
  isSybil := member.isSybil
  isLandmark
  vicinityCapacity := sizing.vicinityCapacity
  bucketCapacity := sizing.bucketCapacity
  fanout := sizing.fanout
  community := member.community

/-- How many draws a member takes. -/
def draws (settings : Settings) (estimate : PopulationEstimate) (member : Member) (source : σ) :
    Nat :=
  match Sizing.ofPopulation (estimate.sample source).1 with
  | .error _ => 1
  | .ok sizing => if member.chance settings sizing == 1 then 1 else 2

theorem outcome_identify :
    (member.identify settings estimate source).outcome =
      ((Sizing.ofPopulation (estimate.sample source).1).mapError fun cause =>
        .misconfigured (.inNode member.label cause)).map fun sizing =>
          let coin := Random.coin (member.chance settings sizing) (estimate.sample source).2
          (member.identified sizing coin.1, coin.2) := by
  rw [identify]
  generalize estimate.sample source = sampled
  obtain ⟨n, source⟩ := sampled
  simp only
  cases Sizing.ofPopulation n with
  | error cause => rfl
  | ok sizing => rfl

theorem identify_eq_ok :
    (member.identify settings estimate source).outcome = .ok (node, after) ↔
      ∃ sizing, Sizing.ofPopulation (estimate.sample source).1 = .ok sizing ∧
        node = member.identified sizing
          (Random.coin (member.chance settings sizing) (Random.skip 1 source)).1 ∧
        after = Random.skip (member.draws settings estimate source) source := by
  rw [outcome_identify, map_eq_ok]
  apply exists_congr
  intro sizing
  rw [mapError_eq_ok]
  apply and_congr_right
  intro sized
  have drawn : (Random.coin (member.chance settings sizing) (Random.skip 1 source)).2 =
      Random.skip (member.draws settings estimate source) source := by
    rw [Random.coin_snd, ← Random.skip_add, draws, sized]
    simp only
    split
    · rfl
    · rfl
  rw [← drawn, Prod.mk.injEq, eq_comm (a := node), eq_comm (a := after)]
  rfl

/-- How many draws some members take, one after the other. -/
def drawsOf (settings : Settings) (estimate : PopulationEstimate) : List Member → σ → Nat
  | [], _ => 0
  | member :: rest, source =>
    let count := member.draws settings estimate source
    count + drawsOf settings estimate rest (Random.skip count source)

/-- Members with the sources that they draw from. -/
def withSources (settings : Settings) (estimate : PopulationEstimate) :
    List Member → σ → List (Member × σ)
  | [], _ => []
  | member :: rest, source =>
    (member, source) ::
      withSources settings estimate rest (Random.skip (member.draws settings estimate source) source)

theorem getElem?_withSources (settings : Settings) (estimate : PopulationEstimate)
    (members : List Member) (source : σ) (v : Nat) :
    (withSources settings estimate members source)[v]? = members[v]?.map fun member =>
      (member, Random.skip (drawsOf settings estimate (members.take v) source) source) := by
  induction members generalizing v source with
  | nil => rfl
  | cons member rest ih =>
    cases v with
    | zero => rfl
    | succ v =>
      rw [withSources, List.getElem?_cons_succ, ih, List.getElem?_cons_succ, List.take_succ_cons,
        drawsOf]
      simp only [Random.skip_add]

theorem length_withSources :
    (withSources settings estimate members source).length = members.length := by
  induction members generalizing source with
  | nil => rfl
  | cons member rest ih => rw [withSources, List.length_cons, List.length_cons, ih]

theorem identifyAll_eq_ok :
    (identifyAll settings estimate members source).outcome = .ok (nodes, after) ↔
      List.Forall₂ (fun m node => ∃ rest, (m.1.identify settings estimate m.2).outcome =
        .ok (node, rest)) (withSources settings estimate members source) nodes ∧
      after = Random.skip (drawsOf settings estimate members source) source := by
  induction members generalizing source nodes after with
  | nil =>
    rw [identifyAll, Journaled.outcome_pure, Except.ok.injEq, Prod.mk.injEq, withSources,
      List.forall₂_nil_left_iff, eq_comm (a := []), eq_comm (a := source)]
    rfl
  | cons member members ih =>
    rw [identifyAll, Journaled.outcome_bind, bind_eq_ok, withSources, List.forall₂_cons_left_iff]
    simp only [Journaled.outcome_bind, bind_eq_ok, Journaled.outcome_pure, Except.ok.injEq,
      Prod.exists, ih]
    constructor
    · rintro ⟨node, rest, first, nodes, _, ⟨later, rfl⟩, h⟩
      cases h
      obtain ⟨_, _, _, rfl⟩ := identify_eq_ok.1 first
      refine ⟨⟨node, nodes, ⟨_, first⟩, later, rfl⟩, ?_⟩
      rw [drawsOf, Random.skip_add]
    · rintro ⟨⟨node, nodes, ⟨rest, first⟩, later, rfl⟩, rfl⟩
      obtain ⟨_, _, _, rfl⟩ := identify_eq_ok.1 first
      refine ⟨node, _, first, nodes, _, ⟨later, rfl⟩, ?_⟩
      rw [drawsOf, Random.skip_add]

/-- Members whose estimates can be used are all identified. -/
theorem exists_identifyAll
    (estimated : ∀ v member, members[v]? = some member →
      ∃ sizing, Sizing.ofPopulation (estimate.sample
        (Random.skip (drawsOf settings estimate (members.take v) source) source)).1 = .ok sizing) :
    ∃ nodes after, (identifyAll settings estimate members source).outcome = .ok (nodes, after) := by
  have each : ∀ m ∈ withSources settings estimate members source,
      ∃ node, ∃ rest, (m.1.identify settings estimate m.2).outcome = .ok (node, rest) := by
    intro m hm
    obtain ⟨v, hv⟩ := List.mem_iff_getElem?.1 hm
    rw [getElem?_withSources, Option.map_eq_some_iff] at hv
    obtain ⟨member, there, rfl⟩ := hv
    obtain ⟨sizing, sized⟩ := estimated v member there
    exact ⟨_, _, identify_eq_ok.2 ⟨sizing, sized, rfl, rfl⟩⟩
  obtain ⟨nodes, identified⟩ := exists_forall₂_iff.2 each
  exact ⟨nodes, _, identifyAll_eq_ok.2 ⟨identified, rfl⟩⟩

theorem exists_identify_of_identifyAll {member : Member}
    (identified : (identifyAll settings estimate members source).outcome = .ok (nodes, after))
    (hm : members[v]? = some member) (hn : nodes[v]? = some node) :
    ∃ rest, (member.identify settings estimate
      (Random.skip (drawsOf settings estimate (members.take v) source) source)).outcome =
        .ok (node, rest) := by
  obtain ⟨each, _⟩ := identifyAll_eq_ok.1 identified
  have there := getElem?_withSources settings estimate members source v
  rw [hm, Option.map_some] at there
  obtain ⟨hv, drawing⟩ := List.getElem?_eq_some_iff.1 there
  obtain ⟨hv', named⟩ := List.getElem?_eq_some_iff.1 hn
  have here := each.get hv hv'
  rw [List.get_eq_getElem, List.get_eq_getElem, drawing, named] at here
  exact here

theorem length_of_identifyAll
    (identified : (identifyAll settings estimate members source).outcome = .ok (nodes, after)) :
    nodes.length = members.length := by
  obtain ⟨each, _⟩ := identifyAll_eq_ok.1 identified
  rw [← each.length_eq, length_withSources]

theorem labels_of_identifyAll
    (identified : (identifyAll settings estimate members source).outcome = .ok (nodes, after)) :
    nodes.map Node.label = members.map Member.label := by
  have length := length_of_identifyAll identified
  apply List.ext_getElem
  · rw [List.length_map, List.length_map, length]
  · intro v hn hm
    rw [List.length_map] at hn hm
    obtain ⟨rest, one⟩ := exists_identify_of_identifyAll identified
      (List.getElem?_eq_getElem hm) (List.getElem?_eq_getElem hn)
    obtain ⟨_, _, named, _⟩ := identify_eq_ok.1 one
    rw [List.getElem_map, List.getElem_map, named]
    rfl

theorem drawsOf_take_succ (hm : members[v]? = some member) :
    drawsOf settings estimate (members.take (v + 1)) source =
      drawsOf settings estimate (members.take v) source + member.draws settings estimate
        (Random.skip (drawsOf settings estimate (members.take v) source) source) := by
  induction members generalizing v source with
  | nil => cases hm
  | cons first rest ih =>
    cases v with
    | zero =>
      cases hm
      exact Nat.add_comm _ _
    | succ v =>
      rw [List.take_succ_cons, List.take_succ_cons, drawsOf, drawsOf, ih hm, Random.skip_add,
        Nat.add_assoc]

theorem draws_eq_two_iff : member.draws settings estimate source = 2 ↔
    ∃ sizing, Sizing.ofPopulation (estimate.sample source).1 = .ok sizing ∧
      (member.chance settings sizing == 1) = false := by
  rw [draws]
  cases Sizing.ofPopulation (estimate.sample source).1 with
  | error cause => simp
  | ok sizing => simp

/-- Only its election tells a member from one with the same label that draws from the same
source. -/
theorem resembles_of_identify (label : other.label = member.label)
    (first : (member.identify settings estimate source).outcome = .ok (node, after))
    (second : (other.identify settings estimate source).outcome = .ok (node', after')) :
    node'.Resembles node ∧ (node'.isSybil = node.isSybil → node'.isLandmark = node.isLandmark) := by
  obtain ⟨sizing, sized, rfl, _⟩ := identify_eq_ok.1 first
  obtain ⟨sizing', sized', rfl, _⟩ := identify_eq_ok.1 second
  cases sized.symm.trans sized'
  refine ⟨?_, fun kind => ?_⟩
  · constructor <;> simp [identified, label]
  · have same : other.isSybil = member.isSybil := kind
    simp [identified, chance, same]

/-- Zeros make no difference to estimates, so draws can be counted member by member. -/
theorem drawsOf_zeros (source : Zeros) :
    drawsOf settings estimate members source =
      (members.map fun member => member.draws settings estimate (Zeros.mk 0)).sum := by
  have same (member : Member) (source : Zeros) : member.draws settings estimate source =
      member.draws settings estimate (Zeros.mk 0) := rfl
  induction members generalizing source with
  | nil => rfl
  | cons member rest ih => rw [drawsOf, ih, same, List.map_cons, List.sum_cons]

theorem draws_congr (side : other.isSybil = member.isSybil) :
    other.draws settings estimate source = member.draws settings estimate source := by
  have chance (sizing : Sizing) : other.chance settings sizing = member.chance settings sizing := by
    rw [Member.chance, Member.chance, side]
  simp only [draws, chance]

theorem draws_of_sure (sure : ∀ sizing, (member.chance settings sizing == 1) = true) :
    member.draws settings estimate source = 1 := by
  rw [draws]
  cases Sizing.ofPopulation (estimate.sample source).1 with
  | error cause => rfl
  | ok sizing => exact if_pos (sure sizing)

end Member

namespace Topology

variable {t t' : Topology} {settings : Settings} {source after : σ} {g : TrustGraph} {node : Node}
  {v : Nat}

def estimate (t : Topology) (settings : Settings) : PopulationEstimate :=
  ⟨t.size, settings.populationError⟩

/-- How many draws the members before a position take. -/
def drawsBefore (t : Topology) (settings : Settings) (source : σ) (v : Nat) : Nat :=
  Member.drawsOf settings (t.estimate settings) (t.members.toList.take v) source

/-- The election of a member takes a draw. -/
def Tosses (t : Topology) (settings : Settings) (source : σ) (v : Nat) : Prop :=
  ∃ member sizing, t.members[v]? = some member ∧
    Sizing.ofPopulation ((t.estimate settings).sample
      (Random.skip (t.drawsBefore settings source v) source)).1 = .ok sizing ∧
    (member.chance settings sizing == 1) = false

theorem drawsBefore_size : t.drawsBefore settings source t.size =
    Member.drawsOf settings (t.estimate settings) t.members.toList source := by
  rw [drawsBefore, size, List.take_of_length_le (Nat.le_of_eq Array.length_toList)]

theorem drawsBefore_succ_eq_iff (hv : v < t.size) :
    t.drawsBefore settings source (v + 1) = t.drawsBefore settings source v + 2 ↔
      t.Tosses settings source v := by
  obtain ⟨member, there⟩ : ∃ member, t.members[v]? = some member :=
    ⟨_, Array.getElem?_eq_getElem hv⟩
  have listed : t.members.toList[v]? = some member := Array.getElem?_toList.trans there
  rw [drawsBefore, Member.drawsOf_take_succ listed, drawsBefore, Nat.add_left_cancel_iff,
    Member.draws_eq_two_iff]
  constructor
  · rintro ⟨sizing, sized, unsure⟩
    exact ⟨member, sizing, there, sized, unsure⟩
  · rintro ⟨member, sizing, hm, sized, unsure⟩
    cases there.symm.trans hm
    exact ⟨sizing, sized, unsure⟩

theorem drawsBefore_eq_iff :
    (∀ v ≤ t.size, t.drawsBefore settings source v = 2 * v) ↔
      ∀ v < t.size, t.Tosses settings source v := by
  constructor
  · intro two v hv
    rw [← drawsBefore_succ_eq_iff hv, two v hv.le, two (v + 1) hv]
    rfl
  · intro tosses v hv
    induction v with
    | zero => rfl
    | succ v ih =>
      rw [(drawsBefore_succ_eq_iff hv).2 (tosses v hv), ih (Nat.le_of_lt hv)]
      rfl

theorem identified_eq_ok :
    (t.identified settings source).outcome = .ok (g, after) ↔
      settings.validate = .ok () ∧ ∃ nodes,
        (Member.identifyAll settings (t.estimate settings) t.members.toList source).outcome =
          .ok (nodes, after) ∧
        TrustGraph.build nodes t.edges.toList = .ok g := by
  rw [identified]
  simp only [Journaled.outcome_bind, Journaled.outcome_ofExcept, Journaled.outcome_note,
    Journaled.outcome_pure, bind_eq_ok, mapError_eq_ok, Except.ok.injEq, Prod.exists]
  constructor
  · rintro ⟨_, valid, nodes, rest, made, _, _, graph, built, h⟩
    cases h
    exact ⟨valid, nodes, made, built⟩
  · rintro ⟨valid, nodes, made, built⟩
    exact ⟨(), valid, nodes, after, made, (), trivial, g, built, rfl⟩

/-- The node at a position is the member there, identified with what the members before it have
left over. -/
theorem exists_identify_of_identified
    (made : (t.identified settings source).outcome = .ok (g, after))
    (hn : g.nodes[v]? = some node) :
    ∃ member rest, t.members[v]? = some member ∧
      (member.identify settings (t.estimate settings)
        (Random.skip (t.drawsBefore settings source v) source)).outcome = .ok (node, rest) := by
  obtain ⟨_, nodes, all, built⟩ := identified_eq_ok.1 made
  have there := TrustGraph.getElem?_of_build built hn
  obtain ⟨lt, _⟩ := List.getElem?_eq_some_iff.1 there
  rw [Member.length_of_identifyAll all] at lt
  have listed := List.getElem?_eq_getElem lt
  obtain ⟨rest, identified⟩ := Member.exists_identify_of_identifyAll all listed there
  exact ⟨_, rest, Array.getElem?_toList.symm.trans listed, identified⟩

theorem size_of_identified (made : (t.identified settings source).outcome = .ok (g, after)) :
    g.nodes.size = t.size := by
  obtain ⟨_, nodes, all, built⟩ := identified_eq_ok.1 made
  rw [← Array.length_toList, (TrustGraph.build_eq_ok built).1, Member.length_of_identifyAll all,
    Array.length_toList, size]

theorem exists_sizing_of_identified
    (made : (t.identified settings source).outcome = .ok (g, after)) (hv : v < t.size) :
    ∃ sizing, Sizing.ofPopulation ((t.estimate settings).sample
      (Random.skip (t.drawsBefore settings source v) source)).1 = .ok sizing := by
  rw [← size_of_identified made] at hv
  obtain ⟨_, _, _, one⟩ := exists_identify_of_identified made (Array.getElem?_eq_getElem hv)
  obtain ⟨sizing, sized, _⟩ := Member.identify_eq_ok.1 one
  exact ⟨sizing, sized⟩

theorem isSybil_of_identified (made : (t.identified settings source).outcome = .ok (g, after))
    (hn : g.nodes[v]? = some node) : t.members[v]?.map Member.isSybil = some node.isSybil := by
  obtain ⟨member, _, hm, one⟩ := exists_identify_of_identified made hn
  obtain ⟨_, _, rfl, _⟩ := Member.identify_eq_ok.1 one
  rw [hm]
  rfl

theorem size_of_labels (labels : t'.members.map Member.label = t.members.map Member.label) :
    t'.size = t.size := by
  have sizes := congrArg Array.size labels
  rwa [Array.size_map, Array.size_map] at sizes

theorem labels_toList (labels : t'.members.map Member.label = t.members.map Member.label) :
    t'.members.toList.map Member.label = t.members.toList.map Member.label := by
  rw [← Array.toList_map, labels, Array.toList_map]

/-- Members with distinct labels are identified once their estimates can be used. -/
theorem exists_identified (source : σ) (valid : settings.validate = .ok ())
    (distinct : (t.members.toList.map Member.label).Nodup)
    (inRange : ∀ e ∈ t.edges.toList, e.1 < t.size ∧ e.2 < t.size)
    (estimated : ∀ v < t.size, ∃ sizing, Sizing.ofPopulation ((t.estimate settings).sample
      (Random.skip (t.drawsBefore settings source v) source)).1 = .ok sizing) :
    ∃ g, (t.identified settings source).outcome =
      .ok (g, Random.skip (t.drawsBefore settings source t.size) source) := by
  have usable : ∀ v member, t.members.toList[v]? = some member →
      ∃ sizing, Sizing.ofPopulation ((t.estimate settings).sample
        (Random.skip (t.drawsBefore settings source v) source)).1 = .ok sizing := by
    intro v member hm
    obtain ⟨hv, _⟩ := List.getElem?_eq_some_iff.1 hm
    rw [Array.length_toList] at hv
    exact estimated v hv
  obtain ⟨nodes, after, all⟩ := Member.exists_identifyAll usable
  have labels := Member.labels_of_identifyAll all
  have inside : ∀ e ∈ t.edges.toList, e.1 < nodes.length ∧ e.2 < nodes.length := by
    rw [Member.length_of_identifyAll all]
    exact inRange
  obtain ⟨g, built⟩ := TrustGraph.exists_build (labels ▸ distinct) inside
  rw [drawsBefore_size, ← (Member.identifyAll_eq_ok.1 all).2]
  exact ⟨g, identified_eq_ok.2 ⟨valid, nodes, all, built⟩⟩

theorem exists_identified_of_aligned
    (made : (t.identified settings source).outcome = .ok (g, after))
    (labels : t'.members.map Member.label = t.members.map Member.label)
    (edges : t'.edges = t.edges)
    (aligned : ∀ v < t.size, t'.drawsBefore settings source v = t.drawsBefore settings source v) :
    ∃ g' after', (t'.identified settings source).outcome = .ok (g', after') := by
  have size := size_of_labels labels
  have estimate : t'.estimate settings = t.estimate settings := by
    rw [Topology.estimate, size, Topology.estimate]
  obtain ⟨valid, nodes, all, built⟩ := identified_eq_ok.1 made
  have distinct : (t'.members.toList.map Member.label).Nodup := by
    rw [labels_toList labels, ← Member.labels_of_identifyAll all, ← (TrustGraph.build_eq_ok built).1]
    exact g.labels_distinct
  have inRange : ∀ e ∈ t'.edges.toList, e.1 < t'.size ∧ e.2 < t'.size := by
    have inside := TrustGraph.inRange_of_build built
    rw [Member.length_of_identifyAll all] at inside
    rw [edges, size]
    exact inside
  have estimated : ∀ v < t'.size, ∃ sizing, Sizing.ofPopulation ((t'.estimate settings).sample
      (Random.skip (t'.drawsBefore settings source v) source)).1 = .ok sizing := by
    intro v hv
    rw [size] at hv
    rw [aligned v hv, estimate]
    exact exists_sizing_of_identified made hv
  obtain ⟨g', made'⟩ := exists_identified source valid distinct inRange estimated
  exact ⟨g', _, made'⟩

/-- Identities are made of two draws for each member exactly if every election takes one. Between
topologies with the same labels and edges, a member gets the same identity from as many draws before
it, and its election ends in the same way unless it has changed sides. -/
theorem identified_draws (t : Topology) (settings : Settings) (source : σ) (g : TrustGraph)
    (after : σ) (made : (t.identified settings source).outcome = .ok (g, after)) :
    after = Random.skip (t.drawsBefore settings source t.size) source ∧
    ((∀ v ≤ t.size, t.drawsBefore settings source v = 2 * v) ↔
      ∀ v < t.size, t.Tosses settings source v) ∧
    ∀ t' : Topology, t'.members.map Member.label = t.members.map Member.label →
      t'.edges = t.edges →
      ((∀ v < t.size, t'.drawsBefore settings source v = t.drawsBefore settings source v) →
        ∃ g' after', (t'.identified settings source).outcome = .ok (g', after')) ∧
      ∀ g' after', (t'.identified settings source).outcome = .ok (g', after') →
        ∀ v node node', g.nodes[v]? = some node → g'.nodes[v]? = some node' →
          t'.drawsBefore settings source v = t.drawsBefore settings source v →
          node'.Resembles node ∧
            (node'.isSybil = node.isSybil → node'.isLandmark = node.isLandmark) := by
  refine ⟨?_, drawsBefore_eq_iff, fun t' labels edges =>
    ⟨exists_identified_of_aligned made labels edges, ?_⟩⟩
  · obtain ⟨_, _, all, _⟩ := identified_eq_ok.1 made
    rw [drawsBefore_size]
    exact (Member.identifyAll_eq_ok.1 all).2
  · intro g' after' made' v node node' hn hn' aligned
    obtain ⟨member, _, hm, one⟩ := exists_identify_of_identified made hn
    obtain ⟨member', _, hm', one'⟩ := exists_identify_of_identified made' hn'
    have label : member'.label = member.label := by
      have entries := congrArg (·[v]?) labels
      simp only [Array.getElem?_map, hm, hm', Option.map_some, Option.some.injEq] at entries
      exact entries
    have estimate : t'.estimate settings = t.estimate settings := by
      rw [Topology.estimate, size_of_labels labels, Topology.estimate]
    rw [aligned, estimate] at one'
    exact Member.resembles_of_identify label one one'

/-- Whatever has been drawn from zeros before, estimates without any error can be used. -/
theorem exists_sizing_of_zeros (source : Zeros) :
    (∃ sizing, Sizing.ofPopulation ((⟨2, 0⟩ : PopulationEstimate).sample source).1 = .ok sizing) ∧
    ∃ sizing, Sizing.ofPopulation ((⟨3, 0⟩ : PopulationEstimate).sample source).1 = .ok sizing := by
  constructor
  · apply Sizing.exists_ofPopulation (n := ((⟨2, 0⟩ : PopulationEstimate).sample (Zeros.mk 0)).1)
    decide +kernel
  · apply Sizing.exists_ofPopulation (n := ((⟨3, 0⟩ : PopulationEstimate).sample (Zeros.mk 0)).1)
    decide +kernel

/-- Three members in a line, the first of which is sybil. -/
def sybilFirst : Topology where
  members := #[⟨"a", true, none⟩, ⟨"b", false, none⟩, ⟨"c", false, none⟩]
  edges := #[(0, 1), (1, 2)]

def sybilSecond : Topology where
  members := #[⟨"a", false, none⟩, ⟨"b", true, none⟩, ⟨"c", false, none⟩]
  edges := #[(0, 1), (1, 2)]

theorem validate_standard : Settings.standard.validate = .ok () := by
  rw [Settings.validate, if_neg (by decide), if_neg (by decide), if_neg (by decide)]

theorem drawsBefore_sybilSecond : sybilSecond.drawsBefore .standard (Zeros.mk 0) 2 =
    sybilFirst.drawsBefore .standard (Zeros.mk 0) 2 := by
  rw [drawsBefore, drawsBefore, Member.drawsOf_zeros, Member.drawsOf_zeros]
  simp only [sybilFirst, sybilSecond, List.take_succ_cons, List.take_zero, List.map_cons,
    List.map_nil, List.sum_cons, List.sum_nil, Nat.add_zero]
  rw [Nat.add_comm]
  exact congrArg₂ _ (Member.draws_congr rfl) (Member.draws_congr rfl)

/-- If the first two members change sides, the third stays as it is. -/
theorem identified_draws_sybilFirst : ∃ g after g' after',
    (sybilFirst.identified .standard (Zeros.mk 0)).outcome = .ok (g, after) ∧
    (sybilSecond.identified .standard (Zeros.mk 0)).outcome = .ok (g', after') ∧
    ∃ node node', g.nodes[2]? = some node ∧ g'.nodes[2]? = some node' ∧
      node'.Resembles node ∧ node'.isLandmark = node.isLandmark := by
  obtain ⟨g, made⟩ := sybilFirst.exists_identified (Zeros.mk 0) validate_standard
    (by decide) (by decide) (fun _ _ => (exists_sizing_of_zeros _).2)
  obtain ⟨g', made'⟩ := sybilSecond.exists_identified (Zeros.mk 0) validate_standard
    (by decide) (by decide) (fun _ _ => (exists_sizing_of_zeros _).2)
  obtain ⟨_, _, alike⟩ := identified_draws sybilFirst .standard (Zeros.mk 0) g _ made
  obtain ⟨_, stable⟩ := alike sybilSecond (by simp [sybilFirst, sybilSecond]) rfl
  have there : ∃ node, g.nodes[2]? = some node :=
    ⟨_, Array.getElem?_eq_getElem (by rw [size_of_identified made]; decide)⟩
  have there' : ∃ node', g'.nodes[2]? = some node' :=
    ⟨_, Array.getElem?_eq_getElem (by rw [size_of_identified made']; decide)⟩
  obtain ⟨node, hn⟩ := there
  obtain ⟨node', hn'⟩ := there'
  obtain ⟨resembles, landmark⟩ := stable g' _ made' 2 node node' hn hn' drawsBefore_sybilSecond
  have honest : false = node.isSybil := Option.some.inj (isSybil_of_identified made hn)
  have honest' : false = node'.isSybil := Option.some.inj (isSybil_of_identified made' hn')
  exact ⟨g, _, g', _, made, made', node, node', hn, hn', resembles,
    landmark (honest'.symm.trans honest)⟩

def sybilCouple : Topology where
  members := #[⟨"a", true, none⟩, ⟨"b", true, none⟩]
  edges := #[(0, 1)]

/-- Settings with which every sybil member is a landmark. -/
def sureSettings : Settings :=
  { Settings.standard with sybilLandmarkProbability := 1 }

/-- Sure elections take no draws: two sybil members take two draws and not four. -/
theorem identified_omits_draws : ¬∀ (σ : Type) [RandomSource σ] (t : Topology) (settings : Settings)
    (source : σ) (g : TrustGraph) (after : σ),
    (t.identified settings source).outcome = .ok (g, after) →
      after = Random.skip (2 * t.size) source := by
  intro two
  have valid : sureSettings.validate = .ok () := by
    rw [Settings.validate, if_neg (by decide), if_neg (by decide), if_neg (by decide)]
  obtain ⟨g, made⟩ := sybilCouple.exists_identified (Zeros.mk 0) valid (by decide)
    (by decide) (fun _ _ => (exists_sizing_of_zeros _).1)
  have one (estimate : PopulationEstimate) (label : String) (source : Zeros) :
      Member.draws sureSettings estimate ⟨label, true, none⟩ source = 1 := by
    apply Member.draws_of_sure
    intro sizing
    change ((1 : Float) == 1) = true
    decide +kernel
  have draws : sybilCouple.drawsBefore sureSettings (Zeros.mk 0) sybilCouple.size = 2 := by
    rw [drawsBefore_size, Member.drawsOf_zeros]
    simp only [sybilCouple, List.map_cons, List.map_nil, List.sum_cons, List.sum_nil, one,
      Nat.add_zero]
  have four := congrArg Zeros.drawn (two Zeros _ _ _ _ _ made)
  rw [draws, Random.drawn_skip, Random.drawn_skip] at four
  cases four

end Topology

end SloppyGroup
