import SloppyGroup.Overlay.Construction
import SloppyGroup.Proofs.Proximity.Surroundings

/-!
Whom nodes reach out to: to everyone in their local view and possibly to some more, each of them
once, at its distance and a member of their group, and never to themselves.
-/

namespace SloppyGroup

variable {σ : Type} [RandomSource σ] {g : TrustGraph} {survey : Survey}

namespace LocalView

/-- Known are the owner and the peers, all of them different. -/
structure Listed (v : Nat) (view : LocalView) : Prop where
  known_iff : ∀ u, u ∈ view.known ↔ u ∈ v :: view.peers.map (·.node)
  nodup : (v :: view.peers.map (·.node)).Nodup

theorem listed_start (v : Nat) : Listed v ⟨[], (∅ : NodeSet).insert v⟩ where
  known_iff u := by
    rw [NodeSet.mem_insert]
    simp
  nodup := by simp

theorem Listed.notice {v : Nat} {view : LocalView} (h : Listed v view) (peer : Peer) :
    Listed v (view.notice peer) := by
  rw [LocalView.notice]
  split
  · exact h
  · rename_i fresh
    rw [Std.ExtTreeSet.contains_iff_mem, h.known_iff] at fresh
    have order : (v :: (view.peers ++ [peer]).map (·.node)).Perm
        (peer.node :: v :: view.peers.map (·.node)) := by
      rw [List.map_append]
      exact (List.perm_append_singleton peer.node (v :: view.peers.map (·.node)))
    refine ⟨fun u => ?_, order.nodup_iff.2 (List.nodup_cons.2 ⟨fresh, h.nodup⟩)⟩
    rw [NodeSet.mem_insert, h.known_iff, order.mem_iff]
    exact List.mem_cons.symm

theorem mem_known_notice {view : LocalView} {peer : Peer} {u : Nat} :
    u ∈ (view.notice peer).known ↔ u = peer.node ∨ u ∈ view.known := by
  rw [notice]
  split
  · rename_i known
    rw [Std.ExtTreeSet.contains_iff_mem] at known
    constructor
    · exact .inr
    · rintro (rfl | h)
      · exact known
      · exact h
  · exact NodeSet.mem_insert

theorem mem_known_foldl_notice {peers : List Peer} {view : LocalView} {u : Nat} :
    u ∈ (peers.foldl notice view).known ↔ u ∈ peers.map (·.node) ∨ u ∈ view.known := by
  induction peers generalizing view with
  | nil => simp
  | cons peer peers ih =>
    rw [List.foldl_cons, ih, mem_known_notice, List.map_cons, List.mem_cons]
    tauto

theorem mem_notice {view : LocalView} {peer p : Peer} (h : p ∈ (view.notice peer).peers) :
    p ∈ view.peers ∨ p = peer := by
  rw [notice] at h
  split at h
  · exact .inl h
  · rcases List.mem_append.1 h with h | h
    · exact .inl h
    · exact .inr (List.mem_singleton.1 h)

theorem mem_foldl_notice {peers : List Peer} {view : LocalView} {p : Peer}
    (h : p ∈ (peers.foldl notice view).peers) : p ∈ view.peers ∨ p ∈ peers := by
  induction peers generalizing view with
  | nil => exact .inl h
  | cons peer peers ih =>
    rcases ih h with h | h
    · rcases mem_notice h with h | rfl
      · exact .inl h
      · exact .inr List.mem_cons_self
    · exact .inr (List.mem_cons_of_mem _ h)

theorem listed_of (g : TrustGraph) (v : Nat) (s : Surroundings) :
    Listed v (LocalView.of g v s) := by
  have fold (peers : List Peer) (view : LocalView) (h : Listed v view) :
      Listed v (peers.foldl notice view) := by
    induction peers generalizing view with
    | nil => exact h
    | cons peer peers ih => exact ih _ (h.notice peer)
  exact fold _ _ (listed_start v)

theorem finds_of {v : Nat} {s : Surroundings} (h : s.Sound g v) :
    ∀ p ∈ (LocalView.of g v s).peers, (g.distancesFrom v).Finds p := by
  intro p hp
  rcases mem_foldl_notice hp with hp | hp
  · cases hp
  · rcases List.mem_append.1 hp with hp | hp
    · exact h.vicinity p (List.mem_of_mem_filter hp)
    · exact h.finds_color hp

theorem sharesGroup_of {v : Nat} {s : Surroundings} (h : s.Sound g v) :
    ∀ p ∈ (LocalView.of g v s).peers, (g.node v).sharesGroup (g.node p.node) = true := by
  intro p hp
  rcases mem_foldl_notice hp with hp | hp
  · cases hp
  · rcases List.mem_append.1 hp with hp | hp
    · exact (List.mem_filter.1 hp).2
    · exact h.sharesGroup_color hp

end LocalView

namespace ForeignView

variable {table : DistanceTable} {known : NodeSet}

/-- What walkers can find: members of the origin's group that were not known before, at their
distances. -/
structure Sound (g : TrustGraph) (table : DistanceTable) (known : NodeSet) (view : ForeignView) :
    Prop where
  finds : ∀ p ∈ view.peers, table.Finds p
  shares : ∀ p ∈ view.peers, (g.node table.source).sharesGroup (g.node p.node) = true
  fresh : ∀ p ∈ view.peers, p.node ∉ known

theorem mem_perDistance {limit : Nat} {peers : List Peer} {held : Std.ExtTreeMap Nat Nat}
    {hops node : Nat} (h : (perDistance limit peers held)[hops]? = some node) :
    held[hops]? = some node ∨ ⟨hops, node⟩ ∈ peers := by
  induction peers generalizing held with
  | nil => exact .inl h
  | cons peer rest ih =>
    have first (before : (held.insert peer.hops peer.node)[hops]? = some node) :
        held[hops]? = some node ∨ (⟨hops, node⟩ : Peer) ∈ peer :: rest := by
      rw [Std.ExtTreeMap.getElem?_insert] at before
      split at before
      · rename_i same
        rw [Std.LawfulEqCmp.compare_eq_iff_eq] at same
        cases before
        cases same
        exact .inr List.mem_cons_self
      · exact .inl before
    simp only [perDistance] at h
    split at h
    · exact first h
    · rcases ih h with h | h
      · exact first h
      · exact .inr (List.mem_cons_of_mem _ h)

theorem mem_longLinks {view : ForeignView} {fanout : Nat} {source : σ} {p : Peer}
    (h : p ∈ (view.longLinks fanout source).1) : p ∈ view.peers := by
  rw [longLinks] at h
  split at h
  · cases h
  · obtain ⟨⟨hops, node⟩, held, rfl⟩ := List.mem_map.1 h
    rw [Std.ExtTreeMap.mem_toList_iff_getElem?_eq_some] at held
    rcases mem_perDistance held with none | some
    · simp at none
    · exact (Random.perm_shuffle _ _).mem_iff.1 some

theorem sorted_longLinks (view : ForeignView) (fanout : Nat) (source : σ) :
    (view.longLinks fanout source).1.Pairwise fun p q => p.hops < q.hops := by
  rw [longLinks]
  split
  · exact List.Pairwise.nil
  · rw [List.pairwise_map]
    apply Std.ExtTreeMap.ordered_keys_toList.imp
    intro p q before
    exact Nat.compare_eq_lt.1 before

/-- Long links are at different distances, so no node is picked twice. -/
theorem Sound.nodup_longLinks {view : ForeignView} (h : view.Sound g table known) (fanout : Nat)
    (source : σ) : ((view.longLinks fanout source).1.map (·.node)).Nodup := by
  rw [List.Nodup, List.pairwise_map]
  apply (view.sorted_longLinks fanout source).imp_of_mem
  intro p q hp hq nearer same
  have first := h.finds p (mem_longLinks hp)
  rw [DistanceTable.Finds, same, h.finds q (mem_longLinks hq)] at first
  exact nearer.ne (Option.some.inj first).symm

end ForeignView

namespace Exploration

variable {table : DistanceTable} {known : NodeSet}

/-- The finds so far are sound, and nobody who was known at first is forgotten. -/
structure Sound (g : TrustGraph) (table : DistanceTable) (known : NodeSet) (e : Exploration) :
    Prop where
  found : ForeignView.Sound g table known ⟨e.newest⟩
  subset : ∀ u ∈ known, u ∈ e.known

theorem sound_start (g : TrustGraph) (table : DistanceTable) (known : NodeSet) :
    Sound g table known ⟨known, []⟩ where
  found := ⟨nofun, nofun, nofun⟩
  subset _ hu := hu

theorem Sound.look {e : Exploration} (h : Sound g table known e) (v : Nat) :
    Sound g table known (look g table e v) := by
  rw [Exploration.look]
  split
  · rename_i new
    rw [Bool.and_eq_true, Bool.not_eq_true'] at new
    obtain ⟨absent, member⟩ := new
    have unknown : v ∉ e.known := NodeSet.contains_eq_false.1 absent
    have subset : ∀ u ∈ known, u ∈ e.known.insert v := by
      intro u hu
      exact NodeSet.mem_insert.2 (.inr (h.subset u hu))
    cases found : table.distance? v with
    | none => exact ⟨h.found, subset⟩
    | some hops =>
      obtain ⟨finds, shares, fresh⟩ := h.found
      refine ⟨⟨?_, ?_, ?_⟩, subset⟩
      · exact List.forall_mem_cons.2 ⟨found, finds⟩
      · exact List.forall_mem_cons.2 ⟨member, shares⟩
      · exact List.forall_mem_cons.2 ⟨fun old => unknown (h.subset v old), fresh⟩
  · exact h

theorem Sound.walk {e : Exploration} (h : Sound g table known e) (way : List Nat) :
    Sound g table known (way.foldl (Exploration.look g table) e) := by
  induction way generalizing e with
  | nil => exact h
  | cons v way ih => exact ih (h.look v)

theorem Sound.walks {steps walkers : Nat} {e : Exploration} {source : σ}
    (h : Sound g table known e) :
    Sound g table known (walks g table steps walkers e source).1 := by
  induction walkers generalizing e source with
  | zero => exact h
  | succ walkers ih =>
    rw [Exploration.walks]
    obtain ⟨way, source⟩ := trail g.neighbors steps ∅ table.source source
    exact ih (h.walk way)

theorem sound_run (g : TrustGraph) (table : DistanceTable) (steps : Nat) (known : NodeSet)
    (source : σ) : (run g table steps known source).1.1.Sound g table known := by
  have walked : Sound g table known
      (walks g table steps (g.node table.source).fanout ⟨known, []⟩ source).1 :=
    (sound_start g table known).walks
  obtain ⟨finds, shares, fresh⟩ := walked.found
  exact ⟨fun p hp => finds p (List.mem_reverse.1 hp), fun p hp => shares p (List.mem_reverse.1 hp),
    fun p hp => fresh p (List.mem_reverse.1 hp)⟩

end Exploration

namespace Outreach

/-- A node of the graph that reaches out to its local view and possibly to other members of its
group, to each at its distance and to nobody twice. -/
structure Sound (g : TrustGraph) (survey : Survey) (outreach : Outreach) : Prop where
  node_lt : outreach.node < g.size
  view : ∀ p ∈ (LocalView.of g outreach.node (survey.of outreach.node)).peers,
    p ∈ outreach.targets
  finds : ∀ p ∈ outreach.targets, (g.distancesFrom outreach.node).Finds p
  shares : ∀ p ∈ outreach.targets,
    (g.node outreach.node).sharesGroup (g.node p.node) = true
  nodup : (outreach.node :: outreach.targets.map (·.node)).Nodup

theorem node_decide (v : Nat) (mode : WalkMode) (source : σ) :
    (decide g survey mode v source).1.node = v := by
  rw [decide]
  simp only
  split
  · split
    · rfl
    · rfl
  · rfl

theorem sound_near {v : Nat} (hv : v < g.size) (h : survey.Sound g) (foreign : ForeignView) :
    Sound g survey ⟨v, (LocalView.of g v (survey.of v)).peers, foreign⟩ where
  node_lt := hv
  view _ hp := hp
  finds := LocalView.finds_of (h v)
  shares := LocalView.sharesGroup_of (h v)
  nodup := (LocalView.listed_of g v (survey.of v)).nodup

/-- Long links lead to nodes beyond the local view. -/
theorem Sound.wire {v : Nat} {view : LocalView} {foreign : ForeignView}
    (h : Sound g survey ⟨v, view.peers, foreign⟩) (listed : view.Listed v)
    (found : foreign.Sound g (g.distancesFrom v) view.known) (fanout : Nat) (source : σ) :
    Sound g survey ⟨v, view.peers ++ (foreign.longLinks fanout source).1, foreign⟩ := by
  refine ⟨h.node_lt, fun p hp => List.mem_append_left _ (h.view p hp), fun p hp => ?_,
    fun p hp => ?_, ?_⟩
  · rcases List.mem_append.1 hp with hp | hp
    · exact h.finds p hp
    · exact found.finds p (ForeignView.mem_longLinks hp)
  · rcases List.mem_append.1 hp with hp | hp
    · exact h.shares p hp
    · exact found.shares p (ForeignView.mem_longLinks hp)
  · rw [List.map_append, ← List.cons_append, List.nodup_append]
    refine ⟨listed.nodup, found.nodup_longLinks fanout source, ?_⟩
    rintro u hu w hw rfl
    obtain ⟨p, hp, rfl⟩ := List.mem_map.1 hw
    exact found.fresh p (ForeignView.mem_longLinks hp) ((listed.known_iff _).2 hu)

theorem sound_decide {v : Nat} (hv : v < g.size) (h : survey.Sound g) (mode : WalkMode)
    (source : σ) : Sound g survey (decide g survey mode v source).1 := by
  rw [decide]
  simp only
  split
  · split
    · exact (sound_near hv h _).wire (LocalView.listed_of g v (survey.of v))
        (Exploration.sound_run g (g.distancesFrom v) _ _ source) _ _
    · exact sound_near hv h _
  · exact sound_near hv h _

theorem map_node_decideAll (order : List Nat) (mode : WalkMode) (source : σ) :
    (decideAll g survey mode order source).1.map (·.node) = order := by
  induction order generalizing source with
  | nil => rfl
  | cons v rest ih =>
    rw [decideAll, List.map_cons, node_decide, ih]

theorem forall_decideAll {P : Outreach → Prop} {order : List Nat} {mode : WalkMode}
    (each : ∀ v ∈ order, ∀ source : σ, P (decide g survey mode v source).1) (source : σ) :
    ∀ outreach ∈ (decideAll g survey mode order source).1, P outreach := by
  induction order generalizing source with
  | nil =>
    intro outreach ho
    cases ho
  | cons v rest ih =>
    intro outreach ho
    rcases List.mem_cons.1 ho with rfl | ho
    · exact each v List.mem_cons_self source
    · exact ih (fun w hw => each w (List.mem_cons_of_mem _ hw)) _ outreach ho

/-- What holds of every decision holds of all that are made. -/
theorem forall_schedule {P : Outreach → Prop} {mode : WalkMode}
    (each : ∀ v < g.size, ∀ source : σ, P (decide g survey mode v source).1) (source : σ) :
    ∀ outreach ∈ (schedule g survey mode source).1, P outreach := by
  apply forall_decideAll
  intro v hv
  exact each v (List.mem_range.1 ((Random.perm_shuffle _ _).mem_iff.1 hv))

theorem sound_schedule (h : survey.Sound g) (mode : WalkMode) (source : σ) :
    ∀ outreach ∈ (schedule g survey mode source).1, outreach.Sound g survey :=
  forall_schedule (fun _ hv source => sound_decide hv h mode source) source

/-- Every node of the graph has its turn once. -/
theorem perm_schedule (g : TrustGraph) (survey : Survey) (mode : WalkMode) (source : σ) :
    ((schedule g survey mode source).1.map (·.node)).Perm (List.range g.size) := by
  rw [schedule, map_node_decideAll]
  exact Random.perm_shuffle _ _

end Outreach

end SloppyGroup
