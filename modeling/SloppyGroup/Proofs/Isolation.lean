import SloppyGroup.Proofs.Convergence

/-!
Isolation: where group prefixes partition the nodes, records never leave the group and the component
of the trust graph that they come from. Links stay within both, so whatever way a record takes, it
takes it among its kin.
-/

namespace SloppyGroup

variable {g : TrustGraph} {u v w : Nat}

/-- Nodes of one group and one component of the trust graph. -/
structure Kin (g : TrustGraph) (v w : Nat) : Prop where
  lt : w < g.size
  group_eq : (g.node w).group = (g.node v).group
  connected : g.trust.Reachable v w

theorem Kin.refl (hv : v < g.size) : Kin g v v :=
  ⟨hv, rfl, .refl v⟩

theorem Kin.trans (first : Kin g u v) (second : Kin g v w) : Kin g u w :=
  ⟨second.lt, second.group_eq.trans first.group_eq, first.connected.trans second.connected⟩

theorem Link.Sound.kin {survey : Survey} {mode : WalkMode} {link : Link}
    (sound : link.Sound g survey mode v w) (h : g.Partitioned) : Kin g w v :=
  ⟨sound.source_lt, (sound.group_eq h).symm, sound.connected.symm⟩

/-- Every record that is known anywhere is that of a node of the same kin. -/
def Records.Isolated (records : Records) (g : TrustGraph) : Prop :=
  ∀ v r, records.knows v r = true → Kin g v r

namespace Gossip

variable {o : Overlay}

theorem kin_of_route (linked : ∀ v w link, o.link? v w = some link → Kin g w v)
    (hu : u < g.size) {k : Nat} (way : Route (standard g o).Passes k u v) : Kin g v u := by
  induction way with
  | here => exact .refl hu
  | step way last ih =>
    obtain ⟨link, held⟩ := Option.isSome_iff_exists.1 last.1
    exact (linked _ _ link held).trans (ih hu)

theorem isolated_afterRounds (spans : o.Spans g.size)
    (linked : ∀ v w link, o.link? v w = some link → Kin g w v) (k : Nat) :
    ((standard g o).afterRounds k (.initial g.size)).Isolated g := by
  intro v r known
  rw [knows_afterRounds (spans_initial spans)] at known
  obtain ⟨u, own, m, _, way⟩ := known
  obtain ⟨hu, rfl⟩ := Records.knows_initial.1 own
  exact kin_of_route linked hu way

end Gossip

namespace Simulation

variable {σ : Type} [RandomSource σ]

theorem isolated_recordsAfter (s : Simulation) (h : s.graph.Partitioned) (source : σ) (k : Nat) :
    (s.recordsAfter source k).Isolated s.graph := by
  apply Gossip.isolated_afterRounds (s.spans_network source)
  intro v w link held
  have surveyed := Survey.sound_conduct s.graph source
  exact Link.Sound.kin (Construction.sound_link_run surveyed s.settings.walk _ held) h

/-- No run brings a node records from another group or another component, neither by the time that
gossip settles nor by the time that it is broken off. -/
theorem run_isolates (s : Simulation) (h : s.graph.Partitioned) :
    (∀ (σ : Type) [RandomSource σ] (source : σ),
      (∀ result, (s.runWith source).outcome = .ok result →
        result.settlement.records.Isolated s.graph) ∧
      ∀ rounds snapshot, (s.runWith source).outcome = .error (.unsettled rounds snapshot) →
        snapshot.Isolated s.graph) ∧
    (∀ result, s.run.outcome = .ok result → result.settlement.records.Isolated s.graph) ∧
    ∀ rounds snapshot, s.run.outcome = .error (.unsettled rounds snapshot) →
      snapshot.Isolated s.graph := by
  have ends (σ : Type) [RandomSource σ] (source : σ) :
      (∀ result, (s.runWith source).outcome = .ok result →
        result.settlement.records.Isolated s.graph) ∧
      ∀ rounds snapshot, (s.runWith source).outcome = .error (.unsettled rounds snapshot) →
        snapshot.Isolated s.graph := by
    rcases s.runWith_endings source with ⟨k, report, succeeded⟩ | ⟨_, k, failed⟩
    · rw [succeeded]
      refine ⟨fun result same => ?_, nofun⟩
      cases same
      exact s.isolated_recordsAfter h source k
    · rw [failed]
      refine ⟨nofun, fun rounds snapshot same => ?_⟩
      cases same
      exact s.isolated_recordsAfter h source k
  exact ⟨ends, ends _ _⟩

/-- A run with a single round of gossip, which is not enough to see that there is no more news. -/
def hurried : Simulation :=
  ⟨stripes, { Settings.standard with walk := .wire, maxRounds := some 1 }, rfl⟩

theorem run_isolates_stripes : stripes.Partitioned ∧
    (∃ result, ofStripes.run.outcome = .ok result ∧
      result.settlement.records.Isolated stripes) ∧
    ∃ rounds snapshot, hurried.run.outcome = .error (.unsettled rounds snapshot) ∧
      snapshot.Isolated stripes := by
  have partitioned := honestGroups_stripes.toPartitioned
  refine ⟨partitioned, ?_, ?_⟩
  · obtain ⟨_, succeeds, _⟩ := run_isolates ofStripes partitioned
    rcases ofStripes.run_outcome with ⟨result, settled⟩ | ⟨set, _⟩
    · exact ⟨result, settled, succeeds result settled⟩
    · exact absurd rfl set
  · obtain ⟨_, _, fails⟩ := run_isolates hurried partitioned
    have unsettled : hurried.run.outcome.isOk = false := by decide +kernel
    rcases hurried.run_outcome with ⟨result, settled⟩ | ⟨_, rounds, snapshot, failed⟩
    · rw [settled] at unsettled
      cases unsettled
    · exact ⟨rounds, snapshot, failed, fails rounds snapshot failed⟩

end Simulation

end SloppyGroup
