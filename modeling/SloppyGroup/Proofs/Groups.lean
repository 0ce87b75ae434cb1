import SloppyGroup.Gossip.Verification
import SloppyGroup.Proofs.Proximity.EarlyStop

/-!
Groups: a node decides about others bit by bit, color buckets go by leading bits, and verification
compares group prefixes. All of them mean the same groups.
-/

namespace SloppyGroup

/-- Bits are a prefix of others if they are not more and agree with them as far as both go. -/
theorem isPrefixOf_iff_zip {bits others : List Bool} :
    bits.isPrefixOf others = true ↔
      bits.length ≤ others.length ∧ ∀ pair ∈ others.zip bits, pair.1 = pair.2 := by
  induction bits generalizing others with
  | nil => simp
  | cons b bits ih =>
    cases others with
    | nil => simp
    | cons c others =>
      rw [List.isPrefixOf_cons_cons, Bool.and_eq_true, beq_iff_eq, ih, List.zip_cons_cons,
        List.forall_mem_cons, List.length_cons, List.length_cons, Nat.add_le_add_iff_right, eq_comm]
      exact and_left_comm

namespace Node

variable {v w : Node}

/-- The prefix that `w` has in the color buckets of `v`. -/
def colorOf (v w : Node) : GroupPrefix :=
  w.id.leading v.group.length

theorem sharesGroup_iff_colorOf : v.sharesGroup w = true ↔ v.colorOf w = v.group :=
  Identifier.startsWith_iff

theorem colorOf_eq (equallyLong : v.group.length = w.group.length)
    (startsWith : w.id.startsWith w.group = true) : v.colorOf w = w.group := by
  rw [colorOf, equallyLong, Identifier.startsWith_iff.1 startsWith]

theorem sharesGroup_iff_group_eq (equallyLong : v.group.length = w.group.length)
    (startsWith : w.id.startsWith w.group = true) :
    v.sharesGroup w = true ↔ v.group = w.group := by
  rw [sharesGroup_iff_colorOf, colorOf_eq equallyLong startsWith, eq_comm]

end Node

namespace ColorTable

variable {σ : Type} [RandomSource σ] {g : TrustGraph} {table : DistanceTable} {source : σ}
  {p : GroupPrefix} {peer : Peer}

theorem colorOf_of_mem_fill (kept : peer ∈ (bucket (fill g table source).1 p).peers) :
    (g.node table.source).colorOf (g.node peer.node) = p :=
  (kept_fill g table source).prefix_eq p peer kept

end ColorTable

namespace TrustGraph

theorem source_distancesFrom (g : TrustGraph) (v : Nat) : (g.distancesFrom v).source = v :=
  rfl

theorem mem_honestGroup_iff_group_eq {g : TrustGraph} {v w : Nat} (honest : w ∈ g.honest) :
    w ∈ g.honestGroup v ↔ (g.node v).group = (g.node w).group := by
  rw [mem_honestGroup, and_iff_right honest, eq_comm]

end TrustGraph

namespace Node

/-- Membership in a group has one meaning: to compare all bits, to compare leading bits and to look
for the bucket that keeps a node come to the same. If group prefixes are equally long and
identifiers start with them, membership is mutual and as much as having the same group prefix, by
which verification finds the members of a group. -/
theorem sharesGroup_unifies (v w : Node) :
    (v.sharesGroup w = true ↔ w.id.leading v.group.length = v.group) ∧
    (v.sharesGroup w = true ↔
      v.group.length ≤ w.id.length ∧ ∀ pair ∈ w.id.bits.zip v.group.bits, pair.1 = pair.2) ∧
    (∀ (σ : Type) [RandomSource σ] (source : σ) (g : TrustGraph) (table : DistanceTable)
      (p : GroupPrefix) (peer : Peer), g.node table.source = v → g.node peer.node = w →
      peer ∈ (ColorTable.bucket (ColorTable.fill g table source).1 p).peers →
        p = w.id.leading v.group.length ∧ (v.sharesGroup w = true ↔ p = v.group)) ∧
    (v.group.length = w.group.length → v.id.startsWith v.group = true →
      w.id.startsWith w.group = true →
        (v.sharesGroup w = true ↔ w.sharesGroup v = true) ∧
        (v.sharesGroup w = true ↔ v.group = w.group) ∧
        ∀ (g : TrustGraph) (a b : Nat), g.node a = v → g.node b = w → b ∈ g.honest →
          (v.sharesGroup w = true ↔ b ∈ g.honestGroup a)) := by
  refine ⟨sharesGroup_iff_colorOf, isPrefixOf_iff_zip, ?filed, ?alike⟩
  case filed =>
    rintro σ _ source g table p peer rfl rfl kept
    have color := ColorTable.colorOf_of_mem_fill kept
    exact ⟨color.symm, color ▸ sharesGroup_iff_colorOf⟩
  case alike =>
    intro equallyLong own own'
    have same := sharesGroup_iff_group_eq equallyLong own'
    have same' := sharesGroup_iff_group_eq equallyLong.symm own
    refine ⟨?_, same, ?_⟩
    · rw [same, same', eq_comm]
    · rintro g a b rfl rfl honest
      rw [same, TrustGraph.mem_honestGroup_iff_group_eq honest]

/-- Two nodes of the same color, one of which is in the other one's bucket. -/
theorem sharesGroup_unifies_fiveColors :
    let g := ColorTable.fiveColors
    (⟨1, 3⟩ ∈ (ColorTable.bucket (ColorTable.fill g (g.distancesFrom 0) (⟨0⟩ : Zeros)).1
        (g.node 0).group).peers ∧
      (g.node 0).group = (g.node 3).id.leading (g.node 0).group.length) ∧
    ((g.node 0).group.length = (g.node 3).group.length ∧
      (g.node 0).id.startsWith (g.node 0).group = true ∧
      (g.node 3).id.startsWith (g.node 3).group = true ∧ 3 ∈ g.honest) ∧
    (g.node 0).sharesGroup (g.node 3) = true ∧ (g.node 3).sharesGroup (g.node 0) = true ∧
    (g.node 0).group = (g.node 3).group ∧ 3 ∈ g.honestGroup 0 := by
  intro g
  have start : g.node (g.distancesFrom 0).source = g.node 0 :=
    congrArg g.node (g.source_distancesFrom 0)
  have kept : ⟨1, 3⟩ ∈ (ColorTable.bucket
      (ColorTable.fill g (g.distancesFrom 0) (⟨0⟩ : Zeros)).1 (g.node 0).group).peers := by
    decide +kernel
  have alike : (g.node 0).group.length = (g.node 3).group.length ∧
      (g.node 0).id.startsWith (g.node 0).group = true ∧
      (g.node 3).id.startsWith (g.node 3).group = true ∧ 3 ∈ g.honest := by
    decide
  obtain ⟨-, -, filed, unified⟩ := sharesGroup_unifies (g.node 0) (g.node 3)
  obtain ⟨color, shares⟩ := filed Zeros ⟨0⟩ g (g.distancesFrom 0) _ ⟨1, 3⟩ start rfl kept
  obtain ⟨both, same, verified⟩ := unified alike.1 alike.2.1 alike.2.2.1
  have member := shares.2 rfl
  exact ⟨⟨kept, color⟩, alike, member, both.1 member, same.1 member,
    (verified g 0 3 rfl rfl alike.2.2.2).1 member⟩

/-- Group prefixes of different lengths are not mutual. -/
example : (ColorTable.fiveColors.node 1).sharesGroup (ColorTable.fiveColors.node 0) = true ∧
    (ColorTable.fiveColors.node 0).sharesGroup (ColorTable.fiveColors.node 1) = false := by
  decide

end Node

end SloppyGroup
