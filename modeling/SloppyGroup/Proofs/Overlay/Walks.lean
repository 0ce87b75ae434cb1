import SloppyGroup.Proofs.Overlay.Outreach
import SloppyGroup.Proofs.Undirected.ShortestPaths

/-!
Walks that visit no node twice. Each walker follows a path of the trust graph, which ends early only
where there is nobody left to go to, and what the walkers find are the members of the origin's group
on their ways who were not known before.
-/

namespace SloppyGroup

namespace Exploration

variable {σ : Type} [RandomSource σ] {g : TrustGraph} {s u v steps : Nat}

/-- The nodes on the way of a walker from `s`: a path of at most `steps` steps. A shorter one leads
to a node all of whose neighbours lie on it. -/
def Way (g : TrustGraph) (s steps : Nat) (way : List Nat) : Prop :=
  ∃ (w : Nat) (path : g.trust.Walk s w), path.IsPath ∧ path.support = way ∧
    path.length ≤ steps ∧ (path.length < steps → ∀ u, g.trust.Adj w u → u ∈ way)

/-- A walker stays where all neighbours have been visited, and else goes on to another one. -/
theorem trail_succ (neighbors : Nat → List Nat) (visited : NodeSet) (source : σ) :
    ((∀ u ∈ neighbors v, u ∈ visited.insert v) ∧
      (trail neighbors (steps + 1) visited v source).1 = [v]) ∨
    ∃ next rest, next ∈ neighbors v ∧ next ∉ visited.insert v ∧
      (trail neighbors (steps + 1) visited v source).1 =
        v :: (trail neighbors steps (visited.insert v) next (rest : σ)).1 := by
  rw [trail]
  simp only
  cases picked : Random.pick? ((neighbors v).filter fun u => !(visited.insert v).contains u)
      source with
  | mk next rest =>
    cases next with
    | none =>
      left
      have none := Random.pick?_eq_none_iff.1 (congrArg Prod.fst picked)
      refine ⟨fun u hu => ?_, rfl⟩
      have blocked := List.filter_eq_nil_iff.1 none u hu
      rw [Bool.not_eq_true', NodeSet.contains_eq_false, not_not] at blocked
      exact blocked
    | some next =>
      right
      have ahead := Random.mem_of_pick? (congrArg Prod.fst picked)
      obtain ⟨member, free⟩ := List.mem_filter.1 ahead
      rw [Bool.not_eq_true', NodeSet.contains_eq_false] at free
      exact ⟨next, rest, member, free, rfl⟩

/-- A walker does not enter what has been visited. -/
theorem exists_path_trail (steps : Nat) {visited : NodeSet} (fresh : v ∉ visited) (source : σ) :
    ∃ (w : Nat) (path : g.trust.Walk v w), path.IsPath ∧
      path.support = (trail g.neighbors steps visited v source).1 ∧ path.length ≤ steps ∧
      (∀ u ∈ path.support, u ∉ visited) ∧
      (path.length < steps → ∀ u, g.trust.Adj w u → u ∈ visited ∨ u ∈ path.support) := by
  have start {v : Nat} {visited : NodeSet} (fresh : v ∉ visited) :
      ∀ u ∈ (SimpleGraph.Walk.nil : g.trust.Walk v v).support, u ∉ visited := by
    intro u hu
    rw [SimpleGraph.Walk.support_nil, List.mem_singleton] at hu
    rw [hu]
    exact fresh
  induction steps generalizing visited v source with
  | zero =>
    refine ⟨v, .nil, .nil, rfl, Nat.le_refl 0, start fresh, ?_⟩
    intro short
    cases short
  | succ steps ih =>
    rcases trail_succ g.neighbors visited source with
      ⟨blocked, stays⟩ | ⟨next, rest, adj, free, goesOn⟩
    · refine ⟨v, .nil, .nil, stays.symm, Nat.zero_le _, start fresh, fun _ u adj => ?_⟩
      rcases NodeSet.mem_insert.1 (blocked u adj) with rfl | old
      · exact .inr (SimpleGraph.Walk.start_mem_support _)
      · exact .inl old
    · obtain ⟨w, path, isPath, support, length, avoids, complete⟩ := ih free rest
      have trusted : g.trust.Adj v next := adj
      have new : v ∉ path.support := fun old => avoids v old (NodeSet.mem_insert.2 (.inl rfl))
      refine ⟨w, .cons trusted path, isPath.cons new, ?_, Nat.succ_le_succ length, ?_, ?_⟩
      · rw [SimpleGraph.Walk.support_cons, support, goesOn]
      · intro u hu
        rcases List.mem_cons.1 hu with rfl | hu
        · exact fresh
        · exact fun old => avoids u hu (NodeSet.mem_insert.2 (.inr old))
      · intro short u last
        rw [SimpleGraph.Walk.support_cons, List.mem_cons]
        rcases complete (Nat.lt_of_succ_lt_succ short) u last with visited | there
        · rcases NodeSet.mem_insert.1 visited with own | old
          · exact .inr (.inl own)
          · exact .inl old
        · exact .inr (.inr there)

theorem way_trail (g : TrustGraph) (s steps : Nat) (source : σ) :
    Way g s steps (trail g.neighbors steps ∅ s source).1 := by
  obtain ⟨w, path, isPath, support, length, -, complete⟩ :=
    exists_path_trail (g := g) steps (Std.ExtTreeSet.not_mem_empty (k := s)) source
  refine ⟨w, path, isPath, support, length, fun short u last => ?_⟩
  rcases complete short u last with none | there
  · exact absurd none Std.ExtTreeSet.not_mem_empty
  · rw [← support]
    exact there

/-- The ways of some walkers, who set out from `s` one after the other. -/
def ways (g : TrustGraph) (s steps : Nat) : (walkers : Nat) → σ → List (List Nat) × σ
  | 0, source => ([], source)
  | walkers + 1, source =>
    let (way, source) := trail g.neighbors steps ∅ s source
    let (others, source) := ways g s steps walkers source
    (way :: others, source)

theorem length_ways (g : TrustGraph) (s steps walkers : Nat) (source : σ) :
    (ways g s steps walkers source).1.length = walkers := by
  induction walkers generalizing source with
  | zero => rfl
  | succ walkers ih =>
    rw [ways, List.length_cons, ih]

theorem way_of_mem_ways {walkers : Nat} {source : σ} {way : List Nat}
    (h : way ∈ (ways g s steps walkers source).1) : Way g s steps way := by
  induction walkers generalizing source with
  | zero => cases h
  | succ walkers ih =>
    rcases List.mem_cons.1 h with rfl | h
    · exact way_trail g s steps source
    · exact ih h

theorem walks_eq (table : DistanceTable) (walkers : Nat) (e : Exploration) (source : σ) :
    walks g table steps walkers e source =
      ((ways g table.source steps walkers source).1.flatten.foldl (look g table) e,
        (ways g table.source steps walkers source).2) := by
  induction walkers generalizing e source with
  | zero => rfl
  | succ walkers ih =>
    rw [walks, ways]
    simp only [ih, List.flatten_cons, List.foldl_append]

variable {table : DistanceTable} {known : NodeSet} {seen : List Nat} {e : Exploration}

/-- What is known and what is new after a look at the nodes `seen`. -/
structure Gathered (g : TrustGraph) (table : DistanceTable) (known : NodeSet) (seen : List Nat)
    (e : Exploration) : Prop where
  nodup : (e.newest.map (·.node)).Nodup
  finds : ∀ p ∈ e.newest, table.Finds p
  known_iff : ∀ u : Nat, u ∈ e.known ↔ u ∈ known ∨ u ∈ e.newest.map (·.node)
  newest_iff : ∀ u : Nat, u ∈ e.newest.map (·.node) ↔
    u ∉ known ∧ (g.node table.source).sharesGroup (g.node u) = true ∧ u ∈ seen

theorem gathered_start (g : TrustGraph) (table : DistanceTable) (known : NodeSet) :
    Gathered g table known [] ⟨known, []⟩ where
  nodup := List.nodup_nil
  finds := nofun
  known_iff u := by simp
  newest_iff u := by simp

theorem Gathered.look (h : Gathered g table known seen e) {hops : Nat}
    (reached : table.distance? v = some hops) :
    Gathered g table known (seen ++ [v]) (look g table e v) := by
  rw [Exploration.look, reached]
  split
  · rename_i new
    rw [Bool.and_eq_true, Bool.not_eq_true', NodeSet.contains_eq_false] at new
    obtain ⟨unknown, member⟩ := new
    have fresh := mt (h.known_iff v).2 unknown
    rw [not_or] at fresh
    refine ⟨List.nodup_cons.2 ⟨fresh.2, h.nodup⟩, ?_, fun u => ?_, fun u => ?_⟩
    · exact List.forall_mem_cons.2 ⟨reached, h.finds⟩
    · rw [NodeSet.mem_insert, h.known_iff, List.map_cons, List.mem_cons]
      exact or_left_comm
    · rw [List.map_cons, List.mem_cons, h.newest_iff, List.mem_append, List.mem_singleton]
      constructor
      · rintro (rfl | ⟨new, shares, there⟩)
        · exact ⟨fresh.1, member, .inr rfl⟩
        · exact ⟨new, shares, .inl there⟩
      · rintro ⟨new, shares, there | rfl⟩
        · exact .inr ⟨new, shares, there⟩
        · exact .inl rfl
  · rename_i old
    refine ⟨h.nodup, h.finds, h.known_iff, fun u => ?_⟩
    rw [h.newest_iff, List.mem_append, List.mem_singleton]
    constructor
    · rintro ⟨new, shares, there⟩
      exact ⟨new, shares, .inl there⟩
    · rintro ⟨new, shares, there | rfl⟩
      · exact ⟨new, shares, there⟩
      · -- a member that is passed over was known, so it was found before
        have known : u ∈ e.known := by
          by_contra unknown
          apply old
          rw [Bool.and_eq_true, Bool.not_eq_true', NodeSet.contains_eq_false]
          exact ⟨unknown, shares⟩
        exact (h.newest_iff u).1 (((h.known_iff u).1 known).resolve_left new)

theorem Gathered.foldl_look {way : List Nat} (h : Gathered g table known seen e)
    (reached : ∀ v ∈ way, ∃ hops, table.distance? v = some hops) :
    Gathered g table known (seen ++ way) (way.foldl (Exploration.look g table) e) := by
  induction way generalizing seen e with
  | nil =>
    rw [List.append_nil]
    exact h
  | cons v way ih =>
    obtain ⟨hops, near⟩ := reached v List.mem_cons_self
    have rest := ih (h.look near) fun w hw => reached w (List.mem_cons_of_mem v hw)
    rw [List.append_assoc] at rest
    exact rest

namespace Way

variable {way : List Nat}

theorem nodup (h : Way g s steps way) : way.Nodup := by
  obtain ⟨w, path, isPath, rfl, _⟩ := h
  exact isPath.support_nodup

theorem eq_cons (h : Way g s steps way) : way = s :: way.tail ∧ way.tail.length ≤ steps := by
  obtain ⟨w, path, -, rfl, length, -⟩ := h
  refine ⟨path.cons_tail_support.symm, ?_⟩
  rw [List.length_tail, SimpleGraph.Walk.length_support]
  exact length

theorem edist_le (h : Way g s steps way) (hu : u ∈ way) : g.trust.edist s u ≤ steps := by
  obtain ⟨w, path, -, rfl, length, -⟩ := h
  have short := (path.length_takeUntil_le_length hu).trans length
  calc g.trust.edist s u ≤ (path.takeUntil u hu).length := SimpleGraph.edist_le _
    _ ≤ steps := by exact_mod_cast short

theorem exists_distance? (h : Way g s steps way) (hs : s < g.size) (hu : u ∈ way) :
    ∃ hops, (g.distancesFrom s).distance? u = some hops := by
  obtain ⟨hops, near⟩ := ENat.ne_top_iff_exists.1
    (ne_top_of_le_ne_top (ENat.natCast_ne_top steps) (h.edist_le hu))
  exact ⟨hops, (TrustGraph.distance?_distancesFrom hs).2 near.symm⟩

theorem reachable (h : Way g s steps way) (hs : s < g.size) (hu : u ∈ way) :
    g.trust.Reachable s u := by
  obtain ⟨hops, near⟩ := h.exists_distance? hs hu
  exact TrustGraph.reachable_iff_edist.2 ⟨hops, (TrustGraph.distance?_distancesFrom hs).1 near⟩

/-- There are more nodes to be reached than steps on a way. -/
theorem length_tail_lt (h : Way g s steps way) (hs : s < g.size) :
    way.tail.length < {u | g.trust.Reachable s u}.ncard := by
  have finite : {u | g.trust.Reachable s u}.Finite := by
    apply (Set.finite_lt_nat g.size).subset
    intro u hu
    exact TrustGraph.lt_of_reachable hs hu
  have inside : (way.toFinset : Set Nat) ⊆ {u | g.trust.Reachable s u} := by
    intro u hu
    exact h.reachable hs (List.mem_toFinset.1 hu)
  calc way.tail.length < way.length := by
        conv_rhs => rw [h.eq_cons.1]
        exact Nat.lt_succ_self _
    _ = (way.toFinset : Set Nat).ncard := by
        rw [Set.ncard_coe_finset, List.toFinset_card_of_nodup h.nodup]
    _ ≤ {u | g.trust.Reachable s u}.ncard := Set.ncard_le_ncard inside finite

end Way

/-- All steps of some ways together. -/
theorem length_flatten_tails {sent : List (List Nat)} (h : ∀ way ∈ sent, Way g s steps way) :
    (sent.map List.tail).flatten.length ≤ sent.length * steps := by
  induction sent with
  | nil => simp
  | cons way sent ih =>
    have first := (h way List.mem_cons_self).eq_cons.2
    have rest := ih fun other ho => h other (List.mem_cons_of_mem way ho)
    rw [List.map_cons, List.flatten_cons, List.length_append, List.length_cons, Nat.succ_mul]
    omega

theorem gathered_walks (hs : s < g.size) (walkers : Nat) (known : NodeSet) (source : σ) :
    Gathered g (g.distancesFrom s) known (ways g s steps walkers source).1.flatten
      (walks g (g.distancesFrom s) steps walkers ⟨known, []⟩ source).1 := by
  rw [walks_eq]
  apply (gathered_start g (g.distancesFrom s) known).foldl_look
  intro u hu
  obtain ⟨way, sent, there⟩ := List.mem_flatten.1 hu
  exact (way_of_mem_ways sent).exists_distance? hs there

theorem Gathered.length_le {sent : List (List Nat)}
    (h : Gathered g table known sent.flatten e) (ways : ∀ way ∈ sent, Way g s steps way)
    (own : s ∈ known) : e.newest.length ≤ sent.length * steps := by
  have beyond : e.newest.map (·.node) ⊆ (sent.map List.tail).flatten := by
    intro u hu
    obtain ⟨new, -, there⟩ := (h.newest_iff u).1 hu
    obtain ⟨way, hway, there⟩ := List.mem_flatten.1 there
    rw [(ways way hway).eq_cons.1, List.mem_cons] at there
    have other : u ≠ s := fun same => new (same ▸ own)
    exact List.mem_flatten.2 ⟨way.tail, List.mem_map_of_mem hway, there.resolve_left other⟩
  calc e.newest.length = (e.newest.map (·.node)).length := (List.length_map _).symm
    _ ≤ (sent.map List.tail).flatten.length := (List.subperm_of_subset h.nodup beyond).length_le
    _ ≤ sent.length * steps := length_flatten_tails ways

/-- Whatever the walkers of a node choose, each follows a path, and what they find are the members
of the node's group on their ways who were not known before, each once and at its distance. -/
theorem run_explores (g : TrustGraph) (s : Nat) (hs : s < g.size) (steps : Nat) (known : NodeSet)
    (source : σ) :
    let fanout := (g.node s).fanout
    let explored := (run g (g.distancesFrom s) steps known source).1
    let found := explored.1.peers
    let sent := (ways g s steps fanout source).1
    (found.map (·.node)).Nodup ∧
    (∀ p ∈ found, p.node ∉ known ∧ (g.node p.node).id.startsWith (g.node s).group = true ∧
      g.trust.edist s p.node = p.hops ∧ p.hops ≤ steps) ∧
    (∀ u : Nat, u ∈ explored.2 ↔ u ∈ known ∨ u ∈ found.map (·.node)) ∧
    (s ∈ known → found.length ≤ fanout * steps) ∧
    sent.length = fanout ∧
    (∀ way ∈ sent, Way g s steps way ∧ way.Nodup ∧
      way.tail.length < {u | g.trust.Reachable s u}.ncard) ∧
    ∀ u, u ∈ found.map (·.node) ↔
      u ∉ known ∧ (g.node s).sharesGroup (g.node u) = true ∧ ∃ way ∈ sent, u ∈ way := by
  intro fanout explored found sent
  have way : ∀ way ∈ sent, Way g s steps way := fun _ => way_of_mem_ways
  let e := (walks g (g.distancesFrom s) steps fanout ⟨known, []⟩ source).1
  have gathered : Gathered g (g.distancesFrom s) known sent.flatten e :=
    gathered_walks hs fanout known source
  have perm : (found.map (·.node)).Perm (e.newest.map (·.node)) :=
    (List.reverse_perm e.newest).map _
  have complete (u : Nat) : u ∈ found.map (·.node) ↔
      u ∉ known ∧ (g.node s).sharesGroup (g.node u) = true ∧ ∃ way ∈ sent, u ∈ way := by
    rw [perm.mem_iff, ← List.mem_flatten]
    exact gathered.newest_iff u
  have length : sent.length = fanout := length_ways g s steps fanout source
  refine ⟨perm.nodup_iff.2 gathered.nodup, ?entries, ?known, ?few, length, ?paths, complete⟩
  case entries =>
    intro p hp
    obtain ⟨new, shares, _, sent, there⟩ := (complete p.node).1 (List.mem_map_of_mem hp)
    have far := (TrustGraph.distance?_distancesFrom hs).1
      (gathered.finds p (List.mem_reverse.1 hp))
    have near := (way _ sent).edist_le there
    rw [far] at near
    exact ⟨new, shares, far, by exact_mod_cast near⟩
  case known =>
    intro u
    rw [perm.mem_iff]
    exact gathered.known_iff u
  case few =>
    intro own
    rw [← length]
    exact (List.length_reverse).trans_le (gathered.length_le way own)
  case paths =>
    exact fun _ hway => ⟨way _ hway, (way _ hway).nodup, (way _ hway).length_tail_lt hs⟩

/-- A long walk from the fourth node ends when all four nodes of its component have been visited. -/
theorem run_explores_hamlet :
    let explored := (run TrustGraph.hamlet (TrustGraph.hamlet.distancesFrom 3) 9
      ((∅ : NodeSet).insert 3) (Random.ChaCha.ofSeed 0)).1
    3 < TrustGraph.hamlet.size ∧ 3 ∈ (∅ : NodeSet).insert 3 ∧
    (explored.1.peers.map (·.node)).Nodup ∧ explored.1.peers.length ≤ 1 * 9 ∧
    ∃ p ∈ explored.1.peers, p.node = 0 ∧ TrustGraph.hamlet.trust.edist 3 0 = p.hops := by
  intro explored
  obtain ⟨nodup, entries, -, few, -⟩ := run_explores TrustGraph.hamlet 3 (by decide) 9
    ((∅ : NodeSet).insert 3) (Random.ChaCha.ofSeed 0)
  have own : 3 ∈ (∅ : NodeSet).insert 3 := NodeSet.mem_insert.2 (.inl rfl)
  have met : 0 ∈ explored.1.peers.map (·.node) := by decide +kernel
  obtain ⟨p, found, node⟩ := List.mem_map.1 met
  refine ⟨by decide, own, nodup, few own, p, found, node, ?_⟩
  rw [← node]
  exact (entries p found).2.2.1

end Exploration

end SloppyGroup
