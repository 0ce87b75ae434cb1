import SloppyGroup.Proofs.Gossip.Purity
import SloppyGroup.Proofs.Gossip.Settlement
import SloppyGroup.Proofs.Overlay.Construction
import SloppyGroup.Simulation

/-!
Runs of a simulation: once its settings are accepted, a run can fail in no other way than that
gossip uses up a number of rounds that was set.
-/

namespace SloppyGroup

namespace Journaled

variable {ε α β : Type} {x : Journaled ε α} {f : α → Journaled ε β}

theorem outcome_bind_of_ok {a : α} (h : x.outcome = .ok a) :
    (x >>= f).outcome = (f a).outcome := by
  rw [outcome_bind, h]
  rfl

theorem outcome_bind_of_error {e : ε} (h : x.outcome = .error e) :
    (x >>= f).outcome = .error e := by
  rw [outcome_bind, h]
  rfl

end Journaled

namespace Simulation

open Journaled

variable {σ : Type} [RandomSource σ]

/-- The network of a run, without the checks on the way. -/
def network (s : Simulation) (source : σ) : Network :=
  let (survey, source) := Survey.conduct s.graph source
  let (construction, _) := Construction.run s.graph survey s.settings.walk source
  ⟨survey, construction.overlay, construction.foreign⟩

theorem spans_network (s : Simulation) (source : σ) :
    (s.network source).overlay.Spans s.graph.size :=
  Construction.spans_run (Survey.sound_conduct s.graph source) s.settings.walk _

/-- No network is refused. -/
theorem outcome_buildNetwork (s : Simulation) (source : σ) :
    (s.buildNetwork source).outcome = .ok (s.network source) := by
  have sound := Survey.sound_conduct s.graph source
  rw [network, buildNetwork]
  generalize Survey.conduct s.graph source = conducted at sound
  obtain ⟨survey, source⟩ := conducted
  have surveyed : survey.Sound s.graph := sound
  have bounded := Construction.bounded_run s.graph survey s.settings.walk source
  rw [outcome_bind_of_ok (outcome_notes _), outcome_bind_of_ok surveyed.check,
    outcome_bind_of_ok (outcome_notes _), outcome_bind_of_ok bounded.check, outcome_pure]

theorem outcome_gossip (s : Simulation) {o : Overlay} (spans : o.Spans s.graph.size) {d : Nat}
    (least : IsLeast {k | (Gossip.standard s.graph o).Settled (.initial s.graph.size) k} d) :
    (s.gossip o).outcome =
      let gossip := Gossip.standard s.graph o
      let initial := Records.initial s.graph.size
      let budget := s.settings.roundBudget s.graph.size
      if d < budget then .ok ⟨gossip.afterRounds d initial, d + 1⟩
      else .error (.unsettled budget (gossip.afterRounds budget initial)) :=
  Gossip.outcome_run_withBudget spans (Records.size_initial _) least (Nat.le_max_right _ _)

theorem lt_roundBudget {s : Simulation} (unset : s.settings.maxRounds = none) {d : Nat}
    (early : d + 1 ≤ max s.graph.size 1) : d < s.settings.roundBudget s.graph.size := by
  rw [Settings.roundBudget, unset]
  change d < max (s.graph.size + 1) 1
  omega

/-- Gossip settles or uses up its rounds; what is known then is what its rounds have brought. -/
theorem gossip_endings (s : Simulation) {o : Overlay} (spans : o.Spans s.graph.size) :
    let records := fun k => (Gossip.standard s.graph o).afterRounds k (.initial s.graph.size)
    (∃ k, (s.gossip o).outcome = .ok ⟨records k, k + 1⟩) ∨
    (s.settings.maxRounds ≠ none ∧
      ∃ k, (s.gossip o).outcome = .error (.unsettled k (records k))) := by
  intro records
  obtain ⟨d, least, early⟩ := Gossip.exists_isLeast_settled (Gossip.spans_initial spans)
  rw [Records.size_initial] at early
  have outcome := s.outcome_gossip spans least
  by_cases inTime : d < s.settings.roundBudget s.graph.size
  · exact .inl ⟨d, outcome.trans (if_pos inTime)⟩
  · exact .inr ⟨fun unset => inTime (lt_roundBudget unset early), _,
      outcome.trans (if_neg inTime)⟩

theorem outcome_runWith_of_settled {s : Simulation} {source : σ} {settlement : Settlement}
    {report : Report}
    (settled : (s.gossip (s.network source).overlay).outcome = .ok settlement)
    (verified : settlement.records.verify s.graph = .ok report) :
    (s.runWith source).outcome = .ok ⟨s.network source, settlement, report⟩ := by
  have reported : (s.verify settlement.records).outcome = .ok report := by
    rw [verify, outcome_bind_of_ok verified, outcome_bind_of_ok (outcome_notes _), outcome_pure]
  rw [runWith, outcome_bind_of_ok (outcome_note _),
    outcome_bind_of_ok (s.outcome_buildNetwork source), outcome_bind_of_ok settled,
    outcome_bind_of_ok reported, outcome_pure]

/-- What is known in a run after some rounds of gossip. -/
def recordsAfter (s : Simulation) (source : σ) (k : Nat) : Records :=
  (Gossip.standard s.graph (s.network source).overlay).afterRounds k (.initial s.graph.size)

theorem runWith_endings (s : Simulation) (source : σ) :
    (∃ k report, (s.runWith source).outcome =
      .ok ⟨s.network source, ⟨s.recordsAfter source k, k + 1⟩, report⟩) ∨
    (s.settings.maxRounds ≠ none ∧
      ∃ k, (s.runWith source).outcome = .error (.unsettled k (s.recordsAfter source k))) := by
  rcases s.gossip_endings (s.spans_network source) with ⟨k, settled⟩ | ⟨set, k, unsettled⟩
  · have covers : (s.recordsAfter source k).size = s.graph.size :=
      (Gossip.size_afterRounds k).trans (Records.size_initial _)
    have pure : (s.recordsAfter source k).Pure s.graph :=
      Gossip.pure_afterRounds_initial s.graph (s.network source).overlay k
    obtain ⟨report, verified⟩ := pure.exists_verify covers
    exact .inl ⟨k, report, outcome_runWith_of_settled settled verified⟩
  · refine .inr ⟨set, k, ?_⟩
    rw [runWith, outcome_bind_of_ok (outcome_note _),
      outcome_bind_of_ok (s.outcome_buildNetwork source), outcome_bind_of_error unsettled]
    rfl

theorem runWith_outcome (s : Simulation) (source : σ) :
    (∃ result, (s.runWith source).outcome = .ok result) ∨
    (s.settings.maxRounds ≠ none ∧
      ∃ rounds snapshot, (s.runWith source).outcome = .error (.unsettled rounds snapshot)) := by
  rcases s.runWith_endings source with ⟨k, report, succeeded⟩ | ⟨set, k, failed⟩
  · exact .inl ⟨_, succeeded⟩
  · exact .inr ⟨set, k, _, failed⟩

theorem run_outcome (s : Simulation) :
    (∃ result, s.run.outcome = .ok result) ∨
    (s.settings.maxRounds ≠ none ∧
      ∃ rounds snapshot, s.run.outcome = .error (.unsettled rounds snapshot)) :=
  s.runWith_outcome _

/-- No run is misconfigured or violates anything, and without a set number of rounds every run
succeeds. -/
theorem run_fails_only_unsettled (s : Simulation) :
    (∀ (σ : Type) [RandomSource σ] (source : σ),
      (∀ cause, (s.runWith source).outcome ≠ .error (.misconfigured cause)) ∧
      (∀ violation, (s.runWith source).outcome ≠ .error (.violated violation)) ∧
      (s.settings.maxRounds = none → ∃ result, (s.runWith source).outcome = .ok result)) ∧
    (∀ cause, s.run.outcome ≠ .error (.misconfigured cause)) ∧
    (∀ violation, s.run.outcome ≠ .error (.violated violation)) ∧
    (s.settings.maxRounds = none → ∃ result, s.run.outcome = .ok result) := by
  have ends (σ : Type) [RandomSource σ] (source : σ) :
      (∀ cause, (s.runWith source).outcome ≠ .error (.misconfigured cause)) ∧
      (∀ violation, (s.runWith source).outcome ≠ .error (.violated violation)) ∧
      (s.settings.maxRounds = none → ∃ result, (s.runWith source).outcome = .ok result) := by
    rcases s.runWith_outcome source with ⟨result, succeeded⟩ | ⟨set, rounds, snapshot, failed⟩
    · rw [succeeded]
      exact ⟨nofun, nofun, fun _ => ⟨result, rfl⟩⟩
    · rw [failed]
      exact ⟨nofun, nofun, fun unset => absurd unset set⟩
  exact ⟨ends, ends _ _⟩

def ofTrio : Simulation :=
  ⟨Gossip.trio, Settings.standard, rfl⟩

theorem run_succeeds_trio :
    ofTrio.settings.maxRounds = none ∧ ∃ result, ofTrio.run.outcome = .ok result :=
  ⟨rfl, (run_fails_only_unsettled ofTrio).2.2.2 rfl⟩

end Simulation

end SloppyGroup
