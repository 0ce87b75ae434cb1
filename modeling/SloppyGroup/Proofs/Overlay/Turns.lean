import SloppyGroup.Proofs.Overlay.Construction

/-!
A node's turn: it links to its targets and asks each of them for a backlink. What this changes is
said row by row, and every constructed overlay is the result of such turns.
-/

namespace SloppyGroup

namespace Overlay

variable {o o' : Overlay} {v w u source target requester hops capacity : Nat}

theorem backlinks_congr (same : o'.row v = o.row v) : o'.backlinks v = o.backlinks v := by
  rw [backlinks, backlinks, same]

theorem link?_congr (same : o'.row v = o.row v) (w : Nat) : o'.link? v w = o.link? v w := by
  rw [link?, link?, same]

theorem Answered.row_of_ne {answer : BacklinkAnswer} {after : Overlay}
    (h : o.Answered target requester hops capacity answer after) (other : u ≠ target) :
    after.row u = o.row u := by
  cases h with
  | selfLink => rfl
  | admitted => rw [row_put, if_neg other]
  | replaced => rw [row_put, if_neg other, row_remove, if_neg other]
  | declined => rfl

theorem row_connect_of_ne (hs : u ≠ source) (ht : u ≠ target) :
    (o.connect source target hops capacity).2.row u = o.row u := by
  rw [(answered_connect o source target hops capacity).row_of_ne ht, row_put, if_neg hs]

theorem link?_connect_source (other : source ≠ target) (u : Nat) :
    (o.connect source target hops capacity).2.link? source u =
      if u = target then some ⟨hops, false⟩ else o.link? source u := by
  rw [link?_congr ((answered_connect o source target hops capacity).row_of_ne other), link?_put]
  simp

/-- What becomes of the links of a node that is asked for a backlink. -/
inductive Granted (o o' : Overlay) (v requester hops capacity : Nat) : Prop where
  | admitted (room : (o.backlinks v).length < capacity)
      (links : ∀ u, o'.link? v u = if u = requester then some ⟨hops, true⟩ else o.link? v u)
  | replaced (farthest : Peer) (full : capacity ≤ (o.backlinks v).length)
      (last : (o.backlinks v).getLast? = some farthest) (nearer : hops < farthest.hops)
      (links : ∀ u, o'.link? v u = if u = requester then some ⟨hops, true⟩
        else if u = farthest.node then none else o.link? v u)
  | declined (full : capacity ≤ (o.backlinks v).length)
      (far : ∀ farthest ∈ (o.backlinks v).getLast?, farthest.hops ≤ hops)
      (links : ∀ u, o'.link? v u = o.link? v u)

theorem Answered.granted {answer : BacklinkAnswer} {after : Overlay}
    (h : o.Answered target requester hops capacity answer after) (other : target ≠ requester) :
    Granted o after target requester hops capacity := by
  cases h with
  | selfLink self => exact absurd self other
  | admitted _ room => exact .admitted room fun u => by simp [link?_put]
  | replaced farthest _ full last nearer =>
    exact .replaced farthest full last nearer fun u => by simp [link?_put, link?_remove]
  | declined _ full far => exact .declined full far fun _ => rfl

/-- Granting is a matter of the asked node's links alone. -/
theorem Granted.congr {p p' : Overlay} (h : Granted o o' v requester hops capacity)
    (before : p.row v = o.row v) (after : p'.row v = o'.row v) :
    Granted p p' v requester hops capacity := by
  cases h with
  | admitted room links =>
    refine .admitted (by rw [backlinks_congr before]; exact room) fun u => ?_
    rw [link?_congr after, links, link?_congr before]
  | replaced farthest full last nearer links =>
    refine .replaced farthest (by rw [backlinks_congr before]; exact full)
      (by rw [backlinks_congr before]; exact last) nearer fun u => ?_
    rw [link?_congr after, links, link?_congr before]
  | declined full far links =>
    refine .declined (by rw [backlinks_congr before]; exact full)
      (by rw [backlinks_congr before]; exact far) fun u => ?_
    rw [link?_congr after, links, link?_congr before]

/-- The asked node gets no new link but the one that it was asked for. -/
theorem Granted.link?_of_ne (h : Granted o o' v requester hops capacity) (other : u ≠ requester)
    {link : Link} (held : o'.link? v u = some link) : o.link? v u = some link := by
  cases h with
  | admitted room links =>
    rw [links, if_neg other] at held
    exact held
  | replaced farthest full last nearer links =>
    rw [links, if_neg other] at held
    split at held
    · cases held
    · exact held
  | declined full far links =>
    rw [links] at held
    exact held

theorem Granted.link?_requester (h : Granted o o' v requester hops capacity) :
    o'.link? v requester = some ⟨hops, true⟩ ∨ o'.link? v requester = o.link? v requester := by
  cases h with
  | admitted room links => exact .inl (by rw [links, if_pos rfl])
  | replaced farthest full last nearer links => exact .inl (by rw [links, if_pos rfl])
  | declined full far links => exact .inr (links requester)

/-- Only backlinks are given up. -/
theorem Granted.forward_stays (h : Granted o o' v requester hops capacity) (other : u ≠ requester)
    {k : Nat} (forward : o.link? v u = some ⟨k, false⟩) : o'.link? v u = some ⟨k, false⟩ := by
  cases h with
  | admitted room links => rw [links, if_neg other, forward]
  | replaced farthest full last nearer links =>
    have apart : u ≠ farthest.node := by
      rintro rfl
      rw [mem_backlinks.1 (List.mem_of_getLast? last)] at forward
      cases forward
    rw [links, if_neg other, if_neg apart, forward]
  | declined full far links => rw [links, forward]

theorem granted_connect (other : source ≠ target) :
    Granted o (o.connect source target hops capacity).2 target source hops capacity := by
  have answered := answered_connect o source target hops capacity
  refine (answered.granted other.symm).congr ?_ rfl
  rw [row_put, if_neg other.symm]

end Overlay

/-- What a node's turn does to the overlay. -/
structure Turn (g : TrustGraph) (outreach : Outreach) (o o' : Overlay) : Prop where
  links : ∀ p ∈ outreach.targets, o'.link? outreach.node p.node = some ⟨p.hops, false⟩
  keeps : ∀ u ∉ outreach.targets.map (·.node),
    o'.link? outreach.node u = o.link? outreach.node u
  asks : ∀ p ∈ outreach.targets,
    o.Granted o' p.node outreach.node p.hops (g.node p.node).backlinkCapacity
  spares : ∀ u ∉ outreach.node :: outreach.targets.map (·.node), o'.row u = o.row u

namespace Construction

variable {g : TrustGraph}

theorem turn_foldl_link {v : Nat} {targets : List Peer} {foreign : ForeignView}
    (nodup : (v :: targets.map (·.node)).Nodup) (c : Construction) :
    Turn g ⟨v, targets, foreign⟩ c.overlay (targets.foldl (link g v) c).overlay := by
  induction targets generalizing c with
  | nil => exact ⟨nofun, fun _ _ => rfl, nofun, fun _ _ => rfl⟩
  | cons peer rest ih =>
    rw [List.map_cons, List.nodup_cons, List.mem_cons, not_or, List.nodup_cons] at nodup
    obtain ⟨⟨other, absent⟩, fresh, nodup⟩ := nodup
    have later := ih (List.nodup_cons.2 ⟨absent, nodup⟩) (link g v c peer)
    rw [List.foldl_cons]
    generalize rest.foldl (link g v) (link g v c peer) = c' at later ⊢
    obtain ⟨links, keeps, asks, spares⟩ := later
    rw [overlay_link] at keeps asks spares
    refine ⟨?links, ?keeps, ?asks, ?spares⟩
    case links =>
      refine List.forall_mem_cons.2 ⟨?_, links⟩
      rw [keeps _ fresh, Overlay.link?_connect_source other, if_pos rfl]
    case keeps =>
      intro u hu
      rw [List.map_cons, List.mem_cons, not_or] at hu
      rw [keeps u hu.2, Overlay.link?_connect_source other, if_neg hu.1]
    case asks =>
      have first : c.overlay.Granted c'.overlay peer.node v peer.hops
          (g.node peer.node).backlinkCapacity := by
        apply (Overlay.granted_connect other).congr rfl
        apply spares
        rw [List.mem_cons, not_or]
        exact ⟨Ne.symm other, fresh⟩
      refine List.forall_mem_cons.2 ⟨first, fun p hp => ?_⟩
      have member : p.node ∈ rest.map (·.node) := List.mem_map_of_mem hp
      refine (asks p hp).congr (Overlay.row_connect_of_ne ?_ ?_).symm rfl
      · intro same
        exact absent (same ▸ member)
      · intro same
        exact fresh (same ▸ member)
    case spares =>
      intro u hu
      rw [List.map_cons, List.mem_cons, List.mem_cons, not_or, not_or] at hu
      rw [spares u (by rw [List.mem_cons, not_or]; exact ⟨hu.1, hu.2.2⟩)]
      exact Overlay.row_connect_of_ne hu.1 hu.2.1

theorem turn_serve {survey : Survey} {outreach : Outreach} (sound : outreach.Sound g survey)
    (c : Construction) : Turn g outreach c.overlay (serve g c outreach).overlay :=
  turn_foldl_link sound.nodup
    { c with foreign := c.foreign.setIfInBounds outreach.node outreach.foreign }

end Construction

namespace Turn

variable {g : TrustGraph} {outreach : Outreach} {o o' : Overlay} {v : Nat}

/-- To any node but the one whose turn it is nothing happens, or it is asked for a backlink. -/
theorem spared_or_asked (h : Turn g outreach o o') (other : v ≠ outreach.node) :
    o'.row v = o.row v ∨ ∃ hops, ⟨hops, v⟩ ∈ outreach.targets ∧
      o.Granted o' v outreach.node hops (g.node v).backlinkCapacity := by
  by_cases target : v ∈ outreach.targets.map (·.node)
  · obtain ⟨⟨hops, _⟩, hp, rfl⟩ := List.mem_map.1 target
    exact .inr ⟨hops, hp, h.asks _ hp⟩
  · left
    apply h.spares
    rw [List.mem_cons, not_or]
    exact ⟨other, target⟩

/-- New links join the node whose turn it is and one of its targets. -/
theorem link?_cases (h : Turn g outreach o o') {u : Nat} {link : Link}
    (held : o'.link? v u = some link) :
    o.link? v u = some link ∨
      (v = outreach.node ∧ ⟨link.hops, u⟩ ∈ outreach.targets ∧ link.isBacklink = false) ∨
      (u = outreach.node ∧ ⟨link.hops, v⟩ ∈ outreach.targets ∧ link.isBacklink = true) := by
  by_cases own : v = outreach.node
  · subst own
    by_cases target : u ∈ outreach.targets.map (·.node)
    · obtain ⟨p, hp, rfl⟩ := List.mem_map.1 target
      rw [h.links p hp] at held
      obtain rfl := Option.some.inj held
      exact .inr (.inl ⟨rfl, hp, rfl⟩)
    · rw [h.keeps u target] at held
      exact .inl held
  · rcases h.spared_or_asked own with same | ⟨hops, target, granted⟩
    · rw [Overlay.link?_congr same] at held
      exact .inl held
    · by_cases asker : u = outreach.node
      · subst asker
        rcases granted.link?_requester with turned | same
        · rw [turned] at held
          obtain rfl := Option.some.inj held
          exact .inr (.inr ⟨rfl, target, rfl⟩)
        · rw [same] at held
          exact .inl held
      · exact .inl (granted.link?_of_ne asker held)

theorem mem_backlinkNodes (h : Turn g outreach o o') {u : Nat} (held : u ∈ o'.backlinkNodes v) :
    u = outreach.node ∨ u ∈ o.backlinkNodes v := by
  rw [Overlay.mem_backlinkNodes] at held ⊢
  obtain ⟨hops, held⟩ := held
  rcases h.link?_cases held with old | ⟨_, _, forward⟩ | ⟨same, _⟩
  · exact .inr ⟨hops, old⟩
  · cases forward
  · exact .inl same

end Turn

namespace Construction

variable {g : TrustGraph} {survey : Survey} {schedule : List Outreach}

theorem turn_ofSchedule {outreach : Outreach} (sound : outreach.Sound g survey)
    (before : List Outreach) : Turn g outreach (ofSchedule g before).overlay
      (ofSchedule g (before ++ [outreach])).overlay := by
  have last : ofSchedule g (before ++ [outreach]) = serve g (ofSchedule g before) outreach := by
    simp [ofSchedule]
  rw [last]
  exact turn_serve sound _

/-- What every turn preserves holds in the end. -/
theorem ofSchedule_preserves {P : Overlay → Prop}
    (sound : ∀ outreach ∈ schedule, outreach.Sound g survey) (start : P (.blank g.size))
    (step : ∀ outreach ∈ schedule, ∀ o o', Turn g outreach o o' → P o → P o') :
    P (ofSchedule g schedule).overlay := by
  induction schedule using List.reverseRecOn with
  | nil => exact start
  | append_singleton before outreach ih =>
    have last : outreach ∈ before ++ [outreach] := List.mem_append_right _ List.mem_cons_self
    apply step outreach last _ _ (turn_ofSchedule (sound outreach last) before)
    apply ih
    · exact fun other ho => sound other (List.mem_append_left _ ho)
    · exact fun other ho => step other (List.mem_append_left _ ho)

theorem backlinkNodes_subset (sound : ∀ outreach ∈ schedule, outreach.Sound g survey) (v : Nat) :
    (ofSchedule g schedule).overlay.backlinkNodes v ⊆ schedule.map (·.node) := by
  have start : (Overlay.blank g.size).backlinkNodes v ⊆ schedule.map (·.node) := by
    intro u hu
    obtain ⟨hops, held⟩ := Overlay.mem_backlinkNodes.1 hu
    rw [Overlay.link?_blank] at held
    cases held
  refine ofSchedule_preserves (P := fun o => o.backlinkNodes v ⊆ _) sound start ?_
  intro outreach ho o o' turn before u hu
  rcases turn.mem_backlinkNodes hu with rfl | old
  · exact List.mem_map_of_mem ho
  · exact before old

end Construction

end SloppyGroup
