import SloppyGroup.Proofs.Proximity.Filling
import SloppyGroup.Proximity.Survey

/-!
What a survey finds: whoever a node knows from its vicinity or its buckets is where the distance
table has it, and no bucket is overfull.
-/

namespace SloppyGroup

/-- A peer is at the distance that the table gives. -/
def DistanceTable.Finds (table : DistanceTable) (peer : Peer) : Prop :=
  table.distance? peer.node = some peer.hops

theorem DistanceTable.Finds.lt {g : TrustGraph} {v : Nat} {peer : Peer}
    (h : (g.distancesFrom v).Finds peer) : peer.node < g.size :=
  lt_of_distance?_eq_some h

/-- There is one peer for a node. -/
theorem DistanceTable.Finds.eq {table : DistanceTable} {p q : Peer} (hp : table.Finds p)
    (hq : table.Finds q) (node : p.node = q.node) : p = q := by
  have hops : some p.hops = some q.hops := by
    rw [← hp, node]
    exact hq
  cases p
  cases q
  cases node
  cases hops
  rfl

theorem Peer.encard_nodes {peers : List Peer} (nodup : (peers.map (·.node)).Nodup) :
    {u | u ∈ peers.map (·.node)}.encard = peers.length := by
  have finite : {u | u ∈ peers.map (·.node)} = ((peers.map (·.node)).toFinset : Set Nat) :=
    (List.coe_toFinset _).symm
  rw [finite, Set.encard_coe_eq_coe_finsetCard, List.toFinset_card_of_nodup nodup, List.length_map]

variable {σ : Type} [RandomSource σ]

namespace Sampling

variable {table : DistanceTable} {capacity : Nat}

theorem finds_meet {nodes : List Nat} {s : Sampling} (h : ∀ p ∈ s.newest, table.Finds p) :
    ∀ p ∈ (meet table capacity nodes s).newest, table.Finds p := by
  induction nodes generalizing s with
  | nil => exact h
  | cons v rest ih =>
    rw [meet]
    split
    · cases found : table.distance? v with
      | none => exact ih h
      | some hops =>
        have both : ∀ p ∈ (⟨hops, v⟩ :: s.newest : List Peer), table.Finds p := by
          intro p hp
          rcases List.mem_cons.1 hp with rfl | hp
          · exact found
          · exact h p hp
        simp only
        split
        · exact both
        · exact ih both
    · exact ih h

theorem finds_grow (g : TrustGraph) {fuel : Nat} {s : Sampling} {source : σ}
    (h : ∀ p ∈ s.newest, table.Finds p) :
    ∀ p ∈ (grow g table capacity fuel s source).1.newest, table.Finds p := by
  induction fuel generalizing s source with
  | zero => exact h
  | succ fuel ih =>
    rw [grow]
    split
    · exact h
    · obtain ⟨place, source⟩ := Random.below64 s.frontier.size source
      exact ih (finds_meet h)

end Sampling

theorem Vicinity.finds_sample (g : TrustGraph) (table : DistanceTable) (source : σ) :
    ∀ p ∈ (sample g table source).1.peers, table.Finds p := by
  intro p hp
  exact Sampling.finds_grow g (by simp [Sampling.start]) p (List.mem_reverse.1 hp)

/-- What a node can know about its surroundings. -/
structure Surroundings.Sound (g : TrustGraph) (v : Nat) (s : Surroundings) : Prop where
  vicinity : ∀ p ∈ s.vicinity.peers, (g.distancesFrom v).Finds p
  colors : ColorTable.Kept (g.node v).bucketCapacity
    (fun u => (g.node u).id.leading (g.node v).group.length)
    (ColorTable.candidates (g.distancesFrom v)) s.colors

namespace Surroundings

theorem sound_empty (g : TrustGraph) (v : Nat) : Sound g v .empty where
  vicinity p hp := by cases hp
  colors := ColorTable.kept_empty _ _ _

theorem sound_explore (g : TrustGraph) (v : Nat) (source : σ) :
    Sound g v (explore g v source).1 where
  vicinity := Vicinity.finds_sample g (g.distancesFrom v) _
  colors := ColorTable.kept_fill g (g.distancesFrom v) source

theorem Sound.finds_color {g : TrustGraph} {v : Nat} {s : Surroundings} (h : Sound g v s)
    {p : GroupPrefix} {peer : Peer} (hp : peer ∈ (ColorTable.bucket s.colors p).peers) :
    (g.distancesFrom v).Finds peer :=
  (ColorTable.mem_candidates.1 (h.colors.subset p peer hp)).2

/-- The bucket of its own prefix holds none but members of a node's group. -/
theorem Sound.sharesGroup_color {g : TrustGraph} {v : Nat} {s : Surroundings} (h : Sound g v s)
    {peer : Peer} (hp : peer ∈ (ColorTable.bucket s.colors (g.node v).group).peers) :
    (g.node v).sharesGroup (g.node peer.node) = true :=
  Identifier.startsWith_iff.2 (h.colors.prefix_eq _ peer hp)

end Surroundings

theorem forM_ok {α ε : Type} {check : α → Except ε Unit} {items : List α}
    (h : ∀ x ∈ items, check x = .ok ()) : items.forM check = .ok () := by
  induction items with
  | nil => rfl
  | cons x rest ih =>
    change (check x >>= fun _ => rest.forM check) = .ok ()
    rw [h x List.mem_cons_self]
    exact ih fun y hy => h y (List.mem_cons_of_mem _ hy)

namespace Survey

variable {g : TrustGraph} {survey : Survey}

def Sound (g : TrustGraph) (survey : Survey) : Prop :=
  ∀ v, (survey.of v).Sound g v

theorem sound_conduct (g : TrustGraph) (source : σ) : Sound g (conduct g source).1 := by
  intro v
  rw [conduct, of, Array.getD_eq_getD_getElem?, List.getElem?_toArray, List.getElem?_map,
    List.getElem?_zipIdx]
  cases (drawSeeds g.size source).1[v]? with
  | none => exact Surroundings.sound_empty g v
  | some seed =>
    simp only [Nat.zero_add]
    exact Surroundings.sound_explore g v _

theorem overfull_eq_nil {capacity : Nat} {colors : ColorTable}
    (h : ∀ p, (ColorTable.bucket colors p).size ≤ capacity) : overfull capacity colors = [] := by
  rw [overfull, List.filter_eq_nil_iff]
  rintro ⟨p, b⟩ held
  rw [Std.ExtTreeMap.mem_toList_iff_getElem?_eq_some] at held
  have small := h p
  rw [ColorTable.bucket, held] at small
  simpa using small

theorem Sound.check (h : Sound g survey) : survey.check g = .ok () := by
  apply forM_ok
  rintro ⟨s, v⟩ held
  rw [List.mem_zipIdx_iff_getElem?, Array.getElem?_toList] at held
  have known : survey.of v = s := by
    rw [of, Array.getD_eq_getD_getElem?, held]
    rfl
  have kept := (h v).colors.size_le
  rw [known] at kept
  simp only [overfull_eq_nil kept]

end Survey

end SloppyGroup
