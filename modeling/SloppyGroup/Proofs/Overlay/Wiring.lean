import SloppyGroup.Proofs.Overlay.Admissions
import SloppyGroup.Proofs.Overlay.Rivals

/-!
Wired walks. With walks wired in, nodes have their turns in the same order and keep all their other
targets, and what they link to besides are long links. Where no long link interferes with a node's
backlinks, the node keeps every link that it has without walks; elsewhere it may lose some to
rivals.
-/

namespace SloppyGroup

namespace Outreach

variable {σ τ : Type} [RandomSource σ] [RandomSource τ] {g : TrustGraph} {survey : Survey}
  {plain wired : List Outreach} {v w : Nat}

/-- The same node reaches out farther. -/
structure Extends (plain wired : Outreach) : Prop where
  node : wired.node = plain.node
  targets : plain.targets <+: wired.targets

theorem extends_decide (v : Nat) (source : σ) (source' : τ) :
    Extends (decide g survey .off v source).1 (decide g survey .wire v source').1 where
  node := by rw [node_decide, node_decide]
  targets := by
    have unwired : WalkMode.off ≠ .wire := nofun
    rw [targets_decide unwired, (targets_decide_wire v source').2]
    exact List.prefix_append _ _

/-- Two runs over the same nodes, turn by turn. -/
structure Coupled (g : TrustGraph) (survey : Survey) (turns : List (Outreach × Outreach)) : Prop where
  extend : ∀ turn ∈ turns, turn.1.Extends turn.2
  plain : ∀ turn ∈ turns, turn.1.Sound g survey
  wired : ∀ turn ∈ turns, turn.2.Sound g survey
  nodup : (turns.map (·.1.node)).Nodup

theorem exists_decideAll (g : TrustGraph) (survey : Survey) (order : List Nat) (source : σ)
    (source' : τ) :
    ∃ turns : List (Outreach × Outreach),
      turns.map Prod.fst = (decideAll g survey .off order source).1 ∧
      turns.map Prod.snd = (decideAll g survey .wire order source').1 ∧
      ∀ turn ∈ turns, turn.1.Extends turn.2 := by
  induction order generalizing source source' with
  | nil => exact ⟨[], rfl, rfl, nofun⟩
  | cons v rest ih =>
    obtain ⟨turns, plain, wired, extend⟩ := ih (decide g survey .off v source).2
      (decide g survey .wire v source').2
    refine ⟨(_, _) :: turns, congrArg (_ :: ·) plain, congrArg (_ :: ·) wired, ?_⟩
    exact List.forall_mem_cons.2 ⟨extends_decide v source source', extend⟩

/-- The order of the turns is drawn before the first walk. -/
theorem exists_coupled (surveyed : survey.Sound g) (source : σ) :
    ∃ turns, Coupled g survey turns ∧ turns.map Prod.fst = (schedule g survey .off source).1 ∧
      turns.map Prod.snd = (schedule g survey .wire source).1 := by
  have off := sound_schedule surveyed .off source
  have wire := sound_schedule surveyed .wire source
  have nodes := perm_schedule g survey .off source
  obtain ⟨turns, plain, wired, extend⟩ := exists_decideAll g survey
    (Random.shuffle (List.range g.size) source).1 (Random.shuffle (List.range g.size) source).2
    (Random.shuffle (List.range g.size) source).2
  have plain : turns.map Prod.fst = (schedule g survey .off source).1 := plain
  have wired : turns.map Prod.snd = (schedule g survey .wire source).1 := wired
  rw [← plain] at off nodes
  rw [← wired] at wire
  refine ⟨turns, ⟨extend, ?_, ?_, ?_⟩, plain, wired⟩
  · exact fun turn ht => off _ (List.mem_map_of_mem ht)
  · exact fun turn ht => wire _ (List.mem_map_of_mem ht)
  · rw [List.map_map] at nodes
    exact nodes.nodup_iff.2 List.nodup_range

/-- A link that a node only makes if walks are wired in. -/
def LongLink (plain wired : List Outreach) (v w : Nat) : Prop :=
  w ∈ links wired v ∧ w ∉ links plain v

/-- Long links interfere with the backlinks of a node if they ask it for one, or if they overwrite
one that it has granted. -/
inductive Interferes (plain wired : List Outreach) (v : Nat) : Prop where
  | arrives (w : Nat) (long : LongLink plain wired w v)
  | departs (w : Nat) (long : LongLink plain wired v w) (order : Precedes wired w v)
      (asked : v ∈ links wired w)

end Outreach

theorem Peer.before_antisymm {a b : Peer} (h : a.before b = true) (h' : b.before a = true) : a = b := by
  rw [Peer.before_iff] at h h'
  cases a
  cases b
  simp only [Peer.mk.injEq]
  simp only at h h'
  omega

namespace Overlay

variable {o o' p p' : Overlay} {v requester hops capacity : Nat}

/-- What `v` is linked to in `o` it is linked to in `p` as well, and it holds the same backlinks. -/
structure Shadows (o p : Overlay) (v : Nat) : Prop where
  links : ∀ u link, o.link? v u = some link → p.link? v u = some link
  backlinks : ∀ u hops, p.link? v u = some ⟨hops, true⟩ → o.link? v u = some ⟨hops, true⟩

theorem Shadows.congr (h : Shadows o p v) (same : o'.row v = o.row v) (same' : p'.row v = p.row v) :
    Shadows o' p' v where
  links u link held := by
    rw [link?_congr same] at held
    rw [link?_congr same']
    exact h.links u link held
  backlinks u hops held := by
    rw [link?_congr same'] at held
    rw [link?_congr same]
    exact h.backlinks u hops held

theorem Shadows.backlinks_eq (h : Shadows o p v) : p.backlinks v = o.backlinks v := by
  have perm : (p.backlinks v).Perm (o.backlinks v) := by
    rw [List.perm_ext_iff_of_nodup (p.nodup_backlinks v) (o.nodup_backlinks v)]
    intro q
    rw [mem_backlinks, mem_backlinks]
    exact ⟨h.backlinks _ _, h.links _ _⟩
  exact perm.eq_of_pairwise (fun _ _ _ _ => Peer.before_antisymm) (p.sorted_backlinks v)
    (o.sorted_backlinks v)

/-- Nodes that hold the same backlinks change their links in the same way when they are asked. -/
theorem Granted.alike (granted : Granted o o' v requester hops capacity)
    (granted' : Granted p p' v requester hops capacity) (same : p.backlinks v = o.backlinks v)
    (u : Nat) : o'.link? v u = p'.link? v u ∨
      (o'.link? v u = o.link? v u ∧ p'.link? v u = p.link? v u) := by
  cases granted with
  | admitted room links =>
    rw [← same] at room
    cases granted' with
    | admitted _ links' =>
      rw [links, links']
      by_cases asker : u = requester
      · exact .inl (by rw [if_pos asker, if_pos asker])
      · exact .inr ⟨if_neg asker, if_neg asker⟩
    | replaced _ full => exact absurd full (Nat.not_le.2 room)
    | declined full => exact absurd full (Nat.not_le.2 room)
  | replaced farthest full last nearer links =>
    rw [← same] at full last
    cases granted' with
    | admitted room => exact absurd full (Nat.not_le.2 room)
    | replaced farthest' _ last' _ links' =>
      cases last.symm.trans last'
      rw [links, links']
      by_cases asker : u = requester
      · exact .inl (by rw [if_pos asker, if_pos asker])
      · rw [if_neg asker, if_neg asker]
        by_cases evicted : u = farthest.node
        · exact .inl (by rw [if_pos evicted, if_pos evicted])
        · exact .inr ⟨if_neg evicted, if_neg evicted⟩
    | declined _ far => exact absurd (far farthest last) (Nat.not_le.2 nearer)
  | declined full far links =>
    rw [← same] at full far
    cases granted' with
    | admitted room => exact absurd full (Nat.not_le.2 room)
    | replaced farthest _ last nearer => exact absurd (far farthest last) (Nat.not_le.2 nearer)
    | declined _ _ links' => exact .inr ⟨links u, links' u⟩

theorem Shadows.granted (h : Shadows o p v) (granted : Granted o o' v requester hops capacity)
    (granted' : Granted p p' v requester hops capacity) : Shadows o' p' v where
  links u link held := by
    rcases granted.alike granted' h.backlinks_eq u with same | ⟨kept, kept'⟩
    · rw [← same]
      exact held
    · rw [kept] at held
      rw [kept']
      exact h.links u link held
  backlinks u hops held := by
    rcases granted.alike granted' h.backlinks_eq u with same | ⟨kept, kept'⟩
    · rw [same]
      exact held
    · rw [kept'] at held
      rw [kept]
      exact h.backlinks u hops held

end Overlay

open Overlay (Shadows)

variable {g : TrustGraph} {survey : Survey} {plain wired : Outreach} {o o' p p' : Overlay} {v : Nat}

/-- In its own turn a node makes forward links, and those that it makes besides come on top. -/
theorem Turn.shadows_own (turn : Turn g plain o o') (turn' : Turn g wired p p')
    (extend : plain.Extends wired) (h : Shadows o p plain.node)
    (unlinked : ∀ u ∈ wired.targets.map (·.node), u ∉ plain.targets.map (·.node) →
      o.link? plain.node u = none) :
    Shadows o' p' plain.node where
  links u link held := by
    by_cases target : u ∈ plain.targets.map (·.node)
    · obtain ⟨peer, hp, rfl⟩ := List.mem_map.1 target
      have forth := turn'.links peer (extend.targets.subset hp)
      rw [extend.node] at forth
      rw [forth, ← turn.links peer hp]
      exact held
    · rw [turn.keeps u target] at held
      by_cases long : u ∈ wired.targets.map (·.node)
      · rw [unlinked u long target] at held
        cases held
      · have keeps := turn'.keeps u long
        rw [extend.node] at keeps
        rw [keeps]
        exact h.links u link held
  backlinks u hops held := by
    rw [← extend.node] at held
    by_cases long : u ∈ wired.targets.map (·.node)
    · obtain ⟨peer, hp, rfl⟩ := List.mem_map.1 long
      rw [turn'.links peer hp] at held
      cases held
    · rw [turn'.keeps u long, extend.node] at held
      have other : u ∉ plain.targets.map (·.node) :=
        fun target => long ((extend.targets.map _).subset target)
      rw [turn.keeps u other]
      exact h.backlinks u hops held

/-- In the turn of another node that does not add a long link to `v`. -/
theorem Turn.shadows_other (turn : Turn g plain o o') (turn' : Turn g wired p p')
    (extend : plain.Extends wired) (h : Shadows o p v) (other : v ≠ plain.node)
    (short : v ∈ wired.targets.map (·.node) → v ∈ plain.targets.map (·.node)) :
    Shadows o' p' v := by
  by_cases target : v ∈ plain.targets.map (·.node)
  · obtain ⟨peer, hp, rfl⟩ := List.mem_map.1 target
    have granted' := turn'.asks peer (extend.targets.subset hp)
    rw [extend.node] at granted'
    exact h.granted (turn.asks peer hp) granted'
  · apply h.congr
    · apply turn.spares
      rw [List.mem_cons, not_or]
      exact ⟨other, target⟩
    · apply turn'.spares
      rw [List.mem_cons, not_or, extend.node]
      exact ⟨other, fun long => target (short long)⟩

namespace Outreach.Coupled

open Construction (ofSchedule)

variable {turns front rest : List (Outreach × Outreach)} {turn : Outreach × Outreach}

theorem nodup_plain (h : Coupled g survey turns) :
    ((turns.map Prod.fst).map (·.node)).Nodup := by
  rw [List.map_map]
  exact h.nodup

theorem nodup_wired (h : Coupled g survey turns) :
    ((turns.map Prod.snd).map (·.node)).Nodup := by
  have same : (turns.map Prod.snd).map (·.node) = turns.map (·.1.node) := by
    rw [List.map_map]
    exact List.map_congr_left fun turn ht => (h.extend turn ht).node
  rw [same]
  exact h.nodup

theorem mem_links_plain (h : Coupled g survey turns) (ht : turn ∈ turns) :
    v ∈ links (turns.map Prod.fst) turn.1.node ↔ v ∈ turn.1.targets.map (·.node) :=
  mem_links_node h.nodup_plain (List.mem_map_of_mem ht)

theorem mem_links_wired (h : Coupled g survey turns) (ht : turn ∈ turns) :
    v ∈ links (turns.map Prod.snd) turn.1.node ↔ v ∈ turn.2.targets.map (·.node) := by
  rw [← (h.extend turn ht).node]
  exact mem_links_node h.nodup_wired (List.mem_map_of_mem ht)

/-- Without interference, whomever a node adds a long link to it has not been linked to before. -/
theorem unlinked (h : Coupled g survey turns) (split : turns = front ++ turn :: rest)
    (calm : ¬Interferes (turns.map Prod.fst) (turns.map Prod.snd) turn.1.node) :
    ∀ u ∈ turn.2.targets.map (·.node), u ∉ turn.1.targets.map (·.node) →
      (ofSchedule g (front.map Prod.fst)).overlay.link? turn.1.node u = none := by
  intro u long short
  have ht : turn ∈ turns := by simp [split]
  have inside (other : Outreach × Outreach) (ho : other ∈ front) : other ∈ turns := by
    simp [split, ho]
  have earlier : ∀ outreach ∈ front.map Prod.fst, outreach.Sound g survey := by
    intro outreach scheduled
    obtain ⟨other, ho, rfl⟩ := List.mem_map.1 scheduled
    exact h.plain other (inside other ho)
  rw [Option.eq_none_iff_forall_ne_some]
  intro link held
  cases Construction.stems_ofSchedule earlier held with
  | forward outreach scheduled own target kind =>
    obtain ⟨other, ho, rfl⟩ := List.mem_map.1 scheduled
    have nodup := h.nodup
    rw [split, List.map_append, List.nodup_append] at nodup
    exact nodup.2.2 _ (List.mem_map_of_mem ho) _ List.mem_cons_self own
  | backlink outreach scheduled own target kind =>
    obtain ⟨other, ho, rfl⟩ := List.mem_map.1 scheduled
    subst own
    have extend := h.extend other (inside other ho)
    apply calm
    refine .departs other.1.node ⟨(h.mem_links_wired ht).2 long, ?_⟩ ?_ ?_
    · rw [h.mem_links_plain ht]
      exact short
    · rw [Precedes, split, List.map_append, List.map_append, List.map_cons, List.map_cons,
        ← extend.node, ← (h.extend turn ht).node]
      refine (List.singleton_sublist.2 ?_).append (List.singleton_sublist.2 List.mem_cons_self)
      exact List.mem_map_of_mem (List.mem_map_of_mem ho)
    · rw [h.mem_links_wired (inside other ho)]
      exact (extend.targets.map _).subset (List.mem_map_of_mem target)

/-- Turn by turn, a node that no long link interferes with keeps its links and holds the same
backlinks. -/
theorem shadows (h : Coupled g survey turns)
    (calm : ¬Interferes (turns.map Prod.fst) (turns.map Prod.snd) v) (split : turns = front ++ rest) :
    Shadows (ofSchedule g (front.map Prod.fst)).overlay
      (ofSchedule g (front.map Prod.snd)).overlay v := by
  induction front using List.reverseRecOn generalizing rest with
  | nil =>
    constructor
    · exact fun _ _ held => held
    · exact fun _ _ held => held
  | append_singleton front turn ih =>
    rw [List.append_assoc] at split
    have before := ih split
    have ht : turn ∈ turns := by simp [split]
    have extend := h.extend turn ht
    rw [List.map_append, List.map_append]
    have plain := Construction.turn_ofSchedule (h.plain turn ht) (front.map Prod.fst)
    have wired := Construction.turn_ofSchedule (h.wired turn ht) (front.map Prod.snd)
    by_cases own : v = turn.1.node
    · subst own
      exact plain.shadows_own wired extend before (h.unlinked split calm)
    · apply plain.shadows_other wired extend before own
      intro long
      by_contra short
      refine calm (.arrives turn.1.node ⟨(h.mem_links_wired ht).2 long, ?_⟩)
      rw [h.mem_links_plain ht]
      exact short

end Outreach.Coupled

/-- Why a node may lose a link to `w` once walks are wired in: `w` asks it for a backlink, a long link
interferes with its backlinks, and it ends up with as many rivals of `w` as it admits. -/
structure CrowdedOut (g : TrustGraph) (plain wired : List Outreach) (o : Overlay) (v w : Nat) :
    Prop where
  asked : v ∈ Outreach.links wired w
  interferes : Outreach.Interferes plain wired v
  room : 0 < (g.node v).backlinkCapacity
  rivals : ∃ rivals, Rivals g wired o v w rivals

namespace Construction

variable {σ : Type} [RandomSource σ] {w : Nat} {link : Link}

/-- Walks do not take any target away. -/
theorem mem_links_wire (source : σ)
    (linked : w ∈ Outreach.links (Outreach.schedule g survey .off source).1 v) :
    w ∈ Outreach.links (Outreach.schedule g survey .wire source).1 v := by
  have unwired : WalkMode.off ≠ .wire := nofun
  have turns := Outreach.perm_schedule g survey .off source
  have hv := List.mem_range.1 (turns.mem_iff.1 (Outreach.mem_node_of_mem_links linked))
  rw [Outreach.mem_links_schedule unwired hv] at linked
  obtain ⟨_, wired⟩ := Outreach.mem_links_schedule_wire survey hv source
  exact (wired w).2 (.inl linked)

/-- Forward links lead to targets of a node, and backlinks to nodes that have it for a target. -/
theorem links_of_run (surveyed : survey.Sound g) (mode : WalkMode) (source : σ)
    (held : (run g survey mode source).1.overlay.link? v w = some link) :
    (link.isBacklink = false ∧ w ∈ Outreach.links (Outreach.schedule g survey mode source).1 v) ∨
    (link.isBacklink = true ∧ v ∈ Outreach.links (Outreach.schedule g survey mode source).1 w) := by
  cases stems_ofSchedule (Outreach.sound_schedule surveyed mode source) held with
  | forward outreach scheduled own target kind =>
    exact .inl ⟨kind, Outreach.mem_links.2 ⟨outreach, scheduled, own, List.mem_map_of_mem target⟩⟩
  | backlink outreach scheduled own target kind =>
    exact .inr ⟨kind, Outreach.mem_links.2 ⟨outreach, scheduled, own, List.mem_map_of_mem target⟩⟩

/-- A node that lost the link to one of its targets was asked by it, and it admits backlinks. -/
theorem asked_of_lost (surveyed : survey.Sound g) (mode : WalkMode) (source : σ)
    (linked : w ∈ Outreach.links (Outreach.schedule g survey mode source).1 v)
    (lost : (run g survey mode source).1.overlay.link? v w = none) :
    v ∈ Outreach.links (Outreach.schedule g survey mode source).1 w ∧
      0 < (g.node v).backlinkCapacity := by
  have hv : v < g.size := by
    have turns := Outreach.perm_schedule g survey mode source
    exact List.mem_range.1 (turns.mem_iff.1 (Outreach.mem_node_of_mem_links linked))
  have nodup := (Outreach.perm_schedule g survey mode source).nodup_iff.2 List.nodup_range
  obtain ⟨before, own, after, split, rfl, _, fates⟩ := exists_fate surveyed mode source hv
  have scheduled : own ∈ (Outreach.schedule g survey mode source).1 := by simp [split]
  obtain ⟨peer, hp, rfl⟩ := List.mem_map.1 ((Outreach.mem_links_node nodup scheduled).1 linked)
  rcases (fates peer hp).isSome_or_displaced with there | displaced
  · rw [lost] at there
    cases there
  · obtain ⟨between, back, later, afterwards, linksBack, q, hq, _⟩ := displaced.overtaken
    constructor
    · refine Outreach.mem_links.2 ⟨back, ?_, linksBack.node_eq, List.mem_map_of_mem linksBack.target⟩
      simp [split, afterwards]
    · exact (List.length_pos_of_mem hq).trans_le (bounded_run g survey mode source own.node)

/-- Wiring walks in loses no link but those that long links crowd out. -/
theorem run_wire_keeps {σ τ : Type} [RandomSource σ] [RandomSource τ] (g : TrustGraph)
    (source : σ) (source' : τ) :
    let survey := (Survey.conduct g source).1
    let plain := (Outreach.schedule g survey .off source').1
    let wired := (Outreach.schedule g survey .wire source').1
    let off := (run g survey .off source').1.overlay
    let wire := (run g survey .wire source').1.overlay
    ∀ v w, (off.link? v w).isSome = true →
      (wire.link? v w).isSome = true ∨ CrowdedOut g plain wired wire v w := by
  intro survey plain wired off wire v w linked
  have surveyed : survey.Sound g := Survey.sound_conduct g source
  rw [or_iff_not_imp_left, Bool.not_eq_true, Option.isSome_eq_false_iff, Option.isNone_iff_eq_none]
  intro lost
  obtain ⟨link, held⟩ := Option.isSome_iff_exists.1 linked
  have asked : v ∈ Outreach.links wired w ∧ 0 < (g.node v).backlinkCapacity := by
    rcases links_of_run surveyed .off source' held with ⟨_, forth⟩ | ⟨back, asked⟩
    · exact asked_of_lost surveyed .wire source' (mem_links_wire source' forth) lost
    · refine ⟨mem_links_wire source' asked, ?_⟩
      have bound : (off.backlinks v).length ≤ (g.node v).backlinkCapacity :=
        bounded_run g survey .off source' v
      obtain ⟨hops, kind⟩ := link
      cases back
      have member : ⟨hops, w⟩ ∈ off.backlinks v := Overlay.mem_backlinks.2 held
      exact (List.length_pos_of_mem member).trans_le bound
  refine ⟨asked.1, ?_, asked.2, ?_⟩
  · by_contra calm
    obtain ⟨turns, coupled, plainTurns, wiredTurns⟩ := Outreach.exists_coupled surveyed source'
    have calm : ¬Outreach.Interferes (turns.map Prod.fst) (turns.map Prod.snd) v := by
      rw [plainTurns, wiredTurns]
      exact calm
    have shadows := coupled.shadows calm (List.append_nil turns).symm
    rw [plainTurns, wiredTurns] at shadows
    have kept : wire.link? v w = some link := shadows.links w link held
    rw [lost] at kept
    cases kept
  · cases heard_run surveyed .wire source' asked.1 with
    | linked link =>
      have link : (wire.link? v w).isSome = true := link
      rw [lost] at link
      cases link
    | outdone rivals h => exact ⟨rivals, h⟩

/-- A node with three neighbours, all of which admit a single backlink. The third of them knows
everyone, the first one only some peer, and the other two nodes know nobody. -/
def star : TrustGraph where
  nodes := #[⟨"a", default, ⟨[]⟩, false, false, 0, 0, 1, none⟩,
    ⟨"b", default, ⟨[]⟩, false, false, 0, 1, 1, none⟩,
    ⟨"c", default, ⟨[]⟩, false, false, 0, 0, 1, none⟩,
    ⟨"d", default, ⟨[]⟩, false, false, 0, 3, 1, none⟩]
  newest := [(0, 3), (0, 2), (0, 1)]
  neighborTable := Undirected.neighborTable 4 [(0, 3), (0, 2), (0, 1)]
  labels_distinct := by decide
  simple := ⟨by decide, by decide, by decide⟩
  neighborTable_eq := rfl

def starSurvey : Survey × Random.ChaCha :=
  Survey.conduct star (.ofSeed 1)

def starOverlay (mode : WalkMode) : Overlay :=
  (run star starSurvey.1 mode starSurvey.2).1.overlay

theorem star_loses : ((starOverlay .off).link? 2 3).isSome = true ∧
    (starOverlay .wire).link? 2 3 = none := by
  decide +kernel

/-- The second neighbour loses its link to the third one to a long link from the first. -/
theorem run_wire_keeps_star : ((starOverlay .off).link? 2 3).isSome = true ∧
    CrowdedOut star (Outreach.schedule star starSurvey.1 .off starSurvey.2).1
      (Outreach.schedule star starSurvey.1 .wire starSurvey.2).1 (starOverlay .wire) 2 3 := by
  refine ⟨star_loses.1, ?_⟩
  rcases run_wire_keeps star (Random.ChaCha.ofSeed 1) starSurvey.2 2 3 star_loses.1 with
    kept | crowdedOut
  · change ((starOverlay .wire).link? 2 3).isSome = true at kept
    rw [star_loses.2] at kept
    cases kept
  · exact crowdedOut

theorem run_wire_loses_links : ¬∀ v w, ((starOverlay .off).link? v w).isSome = true →
    ((starOverlay .wire).link? v w).isSome = true := by
  intro kept
  have linked := kept 2 3 star_loses.1
  rw [star_loses.2] at linked
  cases linked

end Construction

end SloppyGroup
