import SloppyGroup.Proofs.Overlay.Turns
import SloppyGroup.Proofs.Undirected.Exactness

/-!
Lost links. A node's link to a peer can only get lost after the peer, in a later turn, linked back
and so turned it into a backlink: then the node may give it up to nearer nodes, and ends up with as
many backlinks as it admits, none of them farther than the peer.
-/

namespace SloppyGroup

theorem Peer.before_iff {p q : Peer} :
    p.before q = true ↔ p.hops < q.hops ∨ p.hops = q.hops ∧ p.node ≤ q.node := by
  simp [Peer.before]

namespace Overlay

variable {o o' : Overlay} {v requester hops capacity limit : Nat} {p q : Peer}

theorem sorted_backlinks (o : Overlay) (v : Nat) :
    (o.backlinks v).Pairwise fun p q => p.before q = true := by
  apply List.pairwise_mergeSort
  · intro a b c
    simp only [Peer.before_iff]
    omega
  · intro a b
    simp only [Bool.or_eq_true, Peer.before_iff]
    omega

/-- The last of the backlinks is a farthest one. -/
theorem hops_le_of_getLast? (last : (o.backlinks v).getLast? = some p) (hq : q ∈ o.backlinks v) :
    q.hops ≤ p.hops := by
  have sorted := o.sorted_backlinks v
  obtain ⟨front, split⟩ := List.getLast?_eq_some_iff.1 last
  rw [split] at sorted hq
  rcases List.mem_append.1 hq with hq | hq
  · have before := (List.pairwise_append.1 sorted).2.2 q hq p List.mem_cons_self
    rw [Peer.before_iff] at before
    omega
  · rw [List.mem_singleton.1 hq]

/-- A node holds as many backlinks as it admits, and none of them leads farther than `limit`. -/
structure Crowded (o : Overlay) (v capacity limit : Nat) : Prop where
  full : capacity ≤ (o.backlinks v).length
  near : ∀ q ∈ o.backlinks v, q.hops ≤ limit

namespace Granted

/-- A backlink that is not renewed stays, or it is a farthest one and gives way to a nearer. -/
theorem stays_or_yields (h : Granted o o' v requester hops capacity) (hq : q ∈ o.backlinks v)
    (other : q.node ≠ requester) :
    q ∈ o'.backlinks v ∨ o.Crowded v capacity q.hops ∧ hops < q.hops ∧
      o'.link? v q.node = none ∧ ⟨hops, requester⟩ ∈ o'.backlinks v := by
  have held := mem_backlinks.1 hq
  simp only [mem_backlinks]
  cases h with
  | admitted room links => exact .inl (by rw [links, if_neg other, held])
  | replaced farthest full last nearer links =>
    by_cases evicted : q.node = farthest.node
    · have known := mem_backlinks.1 (List.mem_of_getLast? last)
      rw [← evicted, held, Option.some.injEq, Link.mk.injEq] at known
      have same := known.1
      refine .inr ⟨⟨full, fun p hp => ?_⟩, by omega, ?_, ?_⟩
      · rw [same]
        exact hops_le_of_getLast? last hp
      · rw [links, if_neg other, if_pos evicted]
      · rw [links, if_pos rfl]
    · exact .inl (by rw [links, if_neg other, if_neg evicted, held])
  | declined full far links => exact .inl (by rw [links, held])

theorem mem_backlinks (h : Granted o o' v requester hops capacity) (hq : q ∈ o'.backlinks v) :
    q ∈ o.backlinks v ∨ q = ⟨hops, requester⟩ ∧ ((o.backlinks v).length < capacity ∨
      ∃ p ∈ o.backlinks v, hops < p.hops) := by
  rw [Overlay.mem_backlinks] at hq
  by_cases asker : q.node = requester
  · cases h with
    | admitted room links =>
      rw [links, if_pos asker, Option.some.injEq, Link.mk.injEq] at hq
      exact .inr ⟨by rw [hq.1, ← asker], .inl room⟩
    | replaced farthest full last nearer links =>
      rw [links, if_pos asker, Option.some.injEq, Link.mk.injEq] at hq
      exact .inr ⟨by rw [hq.1, ← asker], .inr ⟨farthest, List.mem_of_getLast? last, nearer⟩⟩
    | declined full far links =>
      rw [links] at hq
      exact .inl (Overlay.mem_backlinks.2 hq)
  · exact .inl (Overlay.mem_backlinks.2 (h.link?_of_ne asker hq))

/-- Whoever holds no backlink to the node that asks for one has no fewer backlinks afterwards. -/
theorem length_le (h : Granted o o' v requester hops capacity)
    (fresh : requester ∉ o.backlinkNodes v) :
    (o.backlinks v).length ≤ (o'.backlinks v).length := by
  rw [← length_backlinkNodes o']
  cases h with
  | admitted room links =>
    apply length_backlinks_le
    intro u hu
    have other : u ≠ requester := fun same => fresh (same ▸ hu)
    rw [mem_backlinkNodes] at hu ⊢
    rw [links, if_neg other]
    exact hu
  | replaced farthest full last nearer links =>
    -- The newcomer takes the place of the farthest peer.
    have held : farthest.node ∈ o.backlinkNodes v :=
      List.mem_map_of_mem (List.mem_of_getLast? last)
    have exchanged : (requester :: (o.backlinkNodes v).erase farthest.node).length ≤
        (o'.backlinkNodes v).length := by
      apply (List.subperm_of_subset _ _).length_le
      · refine List.nodup_cons.2 ⟨fun old => fresh (List.mem_of_mem_erase old), ?_⟩
        exact (nodup_backlinkNodes o v).erase _
      · intro u hu
        rw [mem_backlinkNodes, links]
        rcases List.mem_cons.1 hu with rfl | hu
        · exact ⟨hops, if_pos rfl⟩
        · obtain ⟨apart, old⟩ := ((nodup_backlinkNodes o v).mem_erase_iff).1 hu
          have other : u ≠ requester := fun same => fresh (same ▸ old)
          rw [if_neg other, if_neg apart]
          exact mem_backlinkNodes.1 old
    rw [List.length_cons, List.length_erase_of_mem held, length_backlinkNodes] at exchanged
    have := List.length_pos_of_mem (List.mem_of_getLast? last)
    omega
  | declined full far links =>
    apply length_backlinks_le
    intro u hu
    rw [mem_backlinkNodes] at hu ⊢
    rw [links]
    exact hu

theorem crowded (h : Granted o o' v requester hops capacity)
    (fresh : requester ∉ o.backlinkNodes v) (crowded : o.Crowded v capacity limit) :
    o'.Crowded v capacity limit where
  full := crowded.full.trans (h.length_le fresh)
  near q hq := by
    rcases h.mem_backlinks hq with old | ⟨rfl, room | ⟨p, hp, nearer⟩⟩
    · exact crowded.near q old
    · exact absurd crowded.full (Nat.not_le.2 room)
    · exact Nat.le_of_lt (Nat.lt_of_lt_of_le nearer (crowded.near p hp))

end Granted

end Overlay

/-- A turn in which a peer links to `v`, at the distance at which `v` sees it. -/
structure LinksBack (v : Nat) (peer : Peer) (back : Outreach) : Prop where
  node_eq : back.node = peer.node
  target : ⟨peer.hops, v⟩ ∈ back.targets

/-- The peer linked back after the turn of `v`, which then gave up the backlink that its link had
become. It holds enough others, none of them farther and one of them nearer, to a node with a still
later turn. -/
structure Displaced (g : TrustGraph) (o : Overlay) (v : Nat) (peer : Peer)
    (after : List Outreach) : Prop where
  absent : o.link? v peer.node = none
  crowded : o.Crowded v (g.node v).backlinkCapacity peer.hops
  overtaken : ∃ between back later, after = between ++ back :: later ∧ LinksBack v peer back ∧
    ∃ q ∈ o.backlinks v, q.hops < peer.hops ∧ q.node ∈ later.map (·.node)

/-- What can have become of a node's link to a peer in the turns after its own. -/
inductive Fate (g : TrustGraph) (o : Overlay) (v : Nat) (peer : Peer) (after : List Outreach) :
    Prop where
  | forward (link : o.link? v peer.node = some ⟨peer.hops, false⟩)
  | backlink (between : List Outreach) (back : Outreach) (later : List Outreach)
      (split : after = between ++ back :: later) (linksBack : LinksBack v peer back)
      (link : o.link? v peer.node = some ⟨peer.hops, true⟩)
  | displaced (h : Displaced g o v peer after)

theorem concat_split {after between later : List Outreach} {back : Outreach}
    (split : after = between ++ back :: later) (next : Outreach) :
    after ++ [next] = between ++ back :: (later ++ [next]) := by
  rw [split, List.append_assoc, List.cons_append]

variable {g : TrustGraph} {o o' : Overlay} {v : Nat} {peer : Peer} {after : List Outreach}
  {outreach : Outreach}

theorem Overlay.node_ne_of_fresh (fresh : outreach.node ∉ o.backlinkNodes v) {q : Peer}
    (hq : q ∈ o.backlinks v) : q.node ≠ outreach.node := by
  intro same
  exact fresh (same ▸ List.mem_map_of_mem hq)

namespace Displaced

theorem spared (h : Displaced g o v peer after) (same : o'.row v = o.row v) (next : Outreach) :
    Displaced g o' v peer (after ++ [next]) := by
  obtain ⟨absent, ⟨full, near⟩, between, back, later, split, linksBack, q, hq, nearer, late⟩ := h
  have held := Overlay.backlinks_congr same
  rw [← held] at full near hq
  refine ⟨(Overlay.link?_congr same _).trans absent, ⟨full, near⟩, between, back, later ++ [next],
    concat_split split next, linksBack, q, hq, nearer, ?_⟩
  rw [List.map_append]
  exact List.mem_append_left _ late

/-- Requests leave a displaced peer displaced, for they come from others and only bring nearer
backlinks. -/
theorem asked (h : Displaced g o v peer after) {hops : Nat}
    (granted : o.Granted o' v outreach.node hops (g.node v).backlinkCapacity)
    (fresh : outreach.node ∉ o.backlinkNodes v) (new : outreach.node ∉ after.map (·.node)) :
    Displaced g o' v peer (after ++ [outreach]) := by
  obtain ⟨absent, crowded, between, back, later, split, linksBack, q, hq, nearer, late⟩ := h
  have other : peer.node ≠ outreach.node := by
    intro same
    apply new
    rw [← same, ← linksBack.node_eq, split]
    exact List.mem_map_of_mem (List.mem_append_right _ List.mem_cons_self)
  have absent' : o'.link? v peer.node = none := by
    rw [Option.eq_none_iff_forall_not_mem]
    intro link held
    rw [granted.link?_of_ne other held] at absent
    cases absent
  refine ⟨absent', granted.crowded fresh crowded, between, back, _, concat_split split outreach,
    linksBack, ?_⟩
  rcases granted.stays_or_yields hq (Overlay.node_ne_of_fresh fresh hq) with
    stays | ⟨_, nearest, _, newcomer⟩
  · refine ⟨q, stays, nearer, ?_⟩
    rw [List.map_append]
    exact List.mem_append_left _ late
  · refine ⟨⟨hops, outreach.node⟩, newcomer, nearest.trans nearer, ?_⟩
    simp

end Displaced

namespace Fate

theorem isSome_or_displaced (h : Fate g o v peer after) :
    (o.link? v peer.node).isSome = true ∨ Displaced g o v peer after := by
  cases h with
  | forward link => exact .inl (by rw [link]; rfl)
  | backlink between back later split linksBack link => exact .inl (by rw [link]; rfl)
  | displaced h => exact .inr h

theorem spared (h : Fate g o v peer after) (same : o'.row v = o.row v) (next : Outreach) :
    Fate g o' v peer (after ++ [next]) := by
  have links := Overlay.link?_congr same peer.node
  cases h with
  | forward link => exact .forward (links.trans link)
  | backlink between back later split linksBack link =>
    exact .backlink between back _ (concat_split split next) linksBack (links.trans link)
  | displaced h => exact .displaced (h.spared same next)

theorem asked (h : Fate g o v peer after) {hops : Nat}
    (granted : o.Granted o' v outreach.node hops (g.node v).backlinkCapacity)
    (target : ⟨hops, v⟩ ∈ outreach.targets) (fresh : outreach.node ∉ o.backlinkNodes v)
    (new : outreach.node ∉ after.map (·.node))
    (agrees : outreach.node = peer.node → hops = peer.hops) :
    Fate g o' v peer (after ++ [outreach]) := by
  cases h with
  | forward link =>
    by_cases asker : outreach.node = peer.node
    · obtain rfl := agrees asker
      rcases granted.link?_requester with turned | same
      · rw [asker] at turned
        exact .backlink after outreach [] rfl ⟨asker, target⟩ turned
      · rw [asker, link] at same
        exact .forward same
    · exact .forward (granted.forward_stays (Ne.symm asker) link)
  | backlink between back later split linksBack link =>
    have held : peer ∈ o.backlinks v := Overlay.mem_backlinks.2 link
    have split' := concat_split split outreach
    rcases granted.stays_or_yields held (Overlay.node_ne_of_fresh fresh held) with
      stays | ⟨crowded, nearer, absent, newcomer⟩
    · exact .backlink between back _ split' linksBack (Overlay.mem_backlinks.1 stays)
    · refine .displaced ⟨absent, granted.crowded fresh crowded, between, back, _, split', linksBack,
        ⟨hops, outreach.node⟩, newcomer, nearer, ?_⟩
      simp
  | displaced h => exact .displaced (h.asked granted fresh new)

end Fate

namespace Construction

variable {g : TrustGraph} {survey : Survey}

theorem hops_comm {own other : Outreach} {p : Peer} {hops : Nat} (hown : own.Sound g survey)
    (hother : other.Sound g survey) (hp : p ∈ own.targets) (same : other.node = p.node)
    (target : ⟨hops, own.node⟩ ∈ other.targets) : hops = p.hops := by
  have there := hown.finds p hp
  have back := hother.finds _ target
  rw [DistanceTable.Finds, ← same, TrustGraph.distance?_comm hown.node_lt hother.node_lt] at there
  rw [DistanceTable.Finds, there] at back
  exact (Option.some.inj back).symm

theorem fate_ofSchedule {before after : List Outreach} {own : Outreach}
    (sound : ∀ outreach ∈ before ++ own :: after, outreach.Sound g survey)
    (nodup : ((before ++ own :: after).map (·.node)).Nodup) {p : Peer} (hp : p ∈ own.targets) :
    Fate g (ofSchedule g (before ++ own :: after)).overlay own.node p after := by
  have hown : own.Sound g survey := sound own (by simp)
  induction after using List.reverseRecOn with
  | nil => exact .forward ((turn_ofSchedule hown before).links p hp)
  | append_singleton after outreach ih =>
    have split : before ++ own :: (after ++ [outreach]) =
        (before ++ own :: after) ++ [outreach] := by simp
    rw [split] at sound nodup ⊢
    have earlier : ∀ b ∈ before ++ own :: after, b.Sound g survey :=
      fun b hb => sound b (List.mem_append_left _ hb)
    have last : outreach.Sound g survey := sound outreach (by simp)
    rw [List.map_append, List.nodup_append] at nodup
    obtain ⟨nodup, -, apart⟩ := nodup
    have new : outreach.node ∉ (before ++ own :: after).map (·.node) := by
      intro old
      exact apart _ old _ List.mem_cons_self rfl
    have fate := ih earlier nodup
    have turn := turn_ofSchedule last (before ++ own :: after)
    have other : own.node ≠ outreach.node := by
      intro same
      exact new (same ▸ List.mem_map_of_mem (by simp))
    rcases turn.spared_or_asked other with same | ⟨hops, target, granted⟩
    · exact fate.spared same outreach
    · apply fate.asked granted target
      · exact fun old => new (backlinkNodes_subset earlier own.node old)
      · intro old
        obtain ⟨b, hb, same⟩ := List.mem_map.1 old
        exact new (List.mem_map.2 ⟨b, by simp [hb], same⟩)
      · exact fun same => hops_comm hown last hp same target

theorem exists_fate {survey : Survey} {σ : Type} [RandomSource σ] (surveyed : survey.Sound g)
    (mode : WalkMode) (source : σ) {v : Nat} (hv : v < g.size) :
    ∃ before own after, (Outreach.schedule g survey mode source).1 = before ++ own :: after ∧
      own.node = v ∧ own.Sound g survey ∧
      ∀ p ∈ own.targets, Fate g (run g survey mode source).1.overlay v p after := by
  have sound := Outreach.sound_schedule surveyed mode source
  have turns := Outreach.perm_schedule g survey mode source
  have nodup := turns.nodup_iff.2 List.nodup_range
  obtain ⟨own, scheduled, rfl⟩ := List.mem_map.1 (turns.mem_iff.2 (List.mem_range.2 hv))
  obtain ⟨before, after, split⟩ := List.append_of_mem scheduled
  refine ⟨before, own, after, split, rfl, sound own scheduled, fun p hp => ?_⟩
  have constructed : (run g survey mode source).1 =
      ofSchedule g (Outreach.schedule g survey mode source).1 := rfl
  rw [split] at sound nodup constructed
  rw [constructed]
  exact fate_ofSchedule sound nodup hp

/-- Every node stays linked to all of its local view, except for peers that linked back in a later
turn and had to give way to nearer ones with still later turns. -/
theorem run_links_unless_displaced {σ τ : Type} [RandomSource σ] [RandomSource τ] (g : TrustGraph)
    (mode : WalkMode) (source : σ) (source' : τ) :
    let survey := (Survey.conduct g source).1
    let schedule := (Outreach.schedule g survey mode source').1
    let overlay := (run g survey mode source').1.overlay
    ∀ v < g.size, ∃ before own after, schedule = before ++ own :: after ∧ own.node = v ∧
      ∀ peer ∈ (LocalView.of g v (survey.of v)).peers,
        (overlay.link? v peer.node).isSome = true ∨
          Displaced g overlay v peer after ∧
            (overlay.backlinks v).length = (g.node v).backlinkCapacity := by
  intro survey schedule overlay v hv
  have surveyed : survey.Sound g := Survey.sound_conduct g source
  have bound : (overlay.backlinks v).length ≤ (g.node v).backlinkCapacity :=
    bounded_run g survey mode source' v
  obtain ⟨before, own, after, split, rfl, sound, fates⟩ := exists_fate surveyed mode source' hv
  refine ⟨before, own, after, split, rfl, fun peer hp => ?_⟩
  rcases (fates peer (sound.view peer hp)).isSome_or_displaced with linked | displaced
  · exact .inl linked
  · exact .inr ⟨displaced, Nat.le_antisymm bound displaced.crowded.full⟩

/-- A node with two neighbours; all three know each other and admit one backlink each. -/
def fork : TrustGraph where
  nodes := #[⟨"a", default, ⟨[]⟩, false, false, 0, 2, 1, none⟩,
    ⟨"b", default, ⟨[]⟩, false, false, 0, 2, 1, none⟩,
    ⟨"c", default, ⟨[]⟩, false, false, 0, 2, 1, none⟩]
  newest := [(0, 2), (0, 1)]
  neighborTable := Undirected.neighborTable 3 [(0, 2), (0, 1)]
  labels_distinct := by decide
  simple := ⟨by decide, by decide, by decide⟩
  neighborTable_eq := rfl

def forkSurvey : Survey × Random.ChaCha :=
  Survey.conduct fork (.ofSeed 2)

def forkOverlay : Overlay :=
  (run fork forkSurvey.1 .off forkSurvey.2).1.overlay

theorem fork_loses : ⟨2, 2⟩ ∈ (LocalView.of fork 1 (forkSurvey.1.of 1)).peers ∧
    forkOverlay.link? 1 2 = none := by
  decide +kernel

theorem run_displaces_fork : 1 < fork.size ∧
    ⟨2, 2⟩ ∈ (LocalView.of fork 1 (forkSurvey.1.of 1)).peers ∧
    ∃ after, Displaced fork forkOverlay 1 ⟨2, 2⟩ after := by
  refine ⟨by decide, fork_loses.1, ?_⟩
  obtain ⟨_, _, after, _, _, fates⟩ :=
    run_links_unless_displaced fork .off (Random.ChaCha.ofSeed 2) forkSurvey.2 1 (by decide)
  rcases fates _ fork_loses.1 with linked | ⟨displaced, _⟩
  · change (forkOverlay.link? 1 2).isSome = true at linked
    rw [fork_loses.2] at linked
    cases linked
  · exact ⟨after, displaced⟩

theorem run_loses_links : ¬∀ v < fork.size,
    ∀ peer ∈ (LocalView.of fork v (forkSurvey.1.of v)).peers,
      (forkOverlay.link? v peer.node).isSome = true := by
  intro kept
  have linked := kept 1 (by decide) _ fork_loses.1
  rw [fork_loses.2] at linked
  cases linked

end Construction

end SloppyGroup
