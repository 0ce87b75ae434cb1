import Mathlib.Data.Nat.ModEq
import SloppyGroup.Proofs.Gossip.Settlement
import SloppyGroup.Proofs.Success
import SloppyGroup.Series

/-!
Seeds of a series: its iterations draw from sources of their own. Two iterations have no seed in
common, neither that of the identities nor that of the run, although seeds wrap around.
-/

namespace SloppyGroup

namespace Simulation

variable {settings : Settings} {s : Simulation}

theorem ofGraph_eq_ok {g : TrustGraph} :
    ofGraph g settings = .ok s ↔ s.graph = g ∧ s.settings = settings := by
  rw [ofGraph]
  split
  · rw [Except.ok.injEq]
    constructor
    · rintro rfl
      exact ⟨rfl, rfl⟩
    · rintro ⟨rfl, rfl⟩
      rfl
  · rename_i refused
    constructor
    · intro h
      cases h
    · rintro ⟨-, rfl⟩
      rw [s.valid] at refused
      cases refused

theorem ofTopology_eq_ok {t : Topology} :
    (ofTopology t settings).outcome = .ok s ↔
      s.settings = settings ∧ ∃ left,
        (t.identified settings (Random.ChaCha.ofSeed settings.seed)).outcome =
          .ok (s.graph, left) := by
  rw [ofTopology, Journaled.outcome_bind, bind_eq_ok]
  constructor
  · rintro ⟨⟨g, left⟩, identified, made⟩
    obtain ⟨rfl, same⟩ := ofGraph_eq_ok.1 made
    exact ⟨same, left, identified⟩
  · rintro ⟨same, left, identified⟩
    exact ⟨_, identified, ofGraph_eq_ok.2 ⟨rfl, same⟩⟩

/-- A simulation of an input draws its identities, unless the input has them, from a source with one
seed and its run from a source with another. -/
structure DrawsFrom (s : Simulation) (input : Input) (identitySeed seed : UInt64) : Prop where
  identified : ∀ t, input = .raw t → ∃ left,
    (t.identified s.settings (Random.ChaCha.ofSeed identitySeed)).outcome = .ok (s.graph, left)
  run_eq : s.run = s.runWith (Random.ChaCha.ofSeed seed)

theorem toNat_runSeed (seed : UInt64) : (runSeed seed).toNat = (seed.toNat + 1) % 2 ^ 64 := by
  rw [runSeed, UInt64.toNat_add, UInt64.toNat_one]

theorem runSeed_injective : Function.Injective runSeed := by
  intro seed seed' same
  exact (UInt64.add_left_inj 1).1 same

end Simulation

namespace Series

open Simulation (runSeed toNat_runSeed runSeed_injective)

theorem drawsFrom_simulation {series : Series} {input : Input} {seed : UInt64} {s : Simulation}
    (made : (series.simulation input seed).outcome = .ok s) :
    s.DrawsFrom input seed (runSeed seed) := by
  cases input with
  | attributed g =>
    obtain ⟨-, same⟩ := Simulation.ofGraph_eq_ok.1 made
    exact ⟨nofun, by rw [Simulation.run, same]⟩
  | raw t =>
    obtain ⟨same, left, identified⟩ := Simulation.ofTopology_eq_ok.1 made
    refine ⟨?_, by rw [Simulation.run, same]⟩
    rintro _ ⟨⟩
    rw [same]
    exact ⟨left, identified⟩

/-- A series can simulate any graph from any seed, as settings are valid whatever their seed. -/
theorem exists_simulation (series : Series) (g : TrustGraph) (seed : UInt64) :
    ∃ s, (series.simulation (.attributed g) seed).outcome = .ok s :=
  ⟨⟨g, { series.plan.settings with seed }, series.valid⟩, Simulation.ofGraph_eq_ok.2 ⟨rfl, rfl⟩⟩

theorem toNat_seed (series : Series) (iteration : Nat) :
    (series.seed iteration).toNat =
      (series.plan.settings.seed.toNat + 2 * (iteration - 1)) % 2 ^ 64 := by
  have two : (2 : UInt64).toNat = 2 := rfl
  rw [seed, UInt64.toNat_add, UInt64.toNat_mul, Nat.toUInt64_eq, UInt64.toNat_ofNat', two]
  omega

/-- Seeds come back after 2^63 iterations, and not before. -/
theorem seed_eq_seed_iff (series : Series) {i j : Nat} (hi : 1 ≤ i) (hj : 1 ≤ j) :
    series.seed i = series.seed j ↔ i ≡ j [MOD 2 ^ 63] := by
  rw [← UInt64.toNat_inj, toNat_seed, toNat_seed, Nat.ModEq]
  omega

/-- Wrapping around keeps parity, in which the two seeds of an iteration differ. -/
theorem seed_ne_runSeed (series : Series) (i j : Nat) :
    series.seed i ≠ runSeed (series.seed j) := by
  intro same
  have parity := congrArg UInt64.toNat same
  rw [toNat_runSeed, toNat_seed, toNat_seed] at parity
  omega

theorem seed_ne_seed (series : Series) {i j : Nat} (first : 1 ≤ i) (before : i < j)
    (last : j ≤ 2 ^ 63) : series.seed i ≠ series.seed j := by
  rw [Ne, series.seed_eq_seed_iff first (by omega), Nat.ModEq]
  omega

/-- No two of the first 2^63 iterations draw from sources with the same seed. Seeds go up by two, and
a run has the number after the seed of its iteration, both modulo 2^64. -/
theorem seeds_never_coincide (series : Series) {i j : Nat} (first : 1 ≤ i) (before : i < j)
    (last : j ≤ 2 ^ 63) :
    (series.seed i ≠ series.seed j ∧ series.seed i ≠ runSeed (series.seed j)) ∧
    (runSeed (series.seed i) ≠ series.seed j ∧
      runSeed (series.seed i) ≠ runSeed (series.seed j)) ∧
    ∀ iteration : Nat,
      (series.seed iteration).toNat =
        (series.plan.settings.seed.toNat + 2 * (iteration - 1)) % 2 ^ 64 ∧
      (runSeed (series.seed iteration)).toNat = ((series.seed iteration).toNat + 1) % 2 ^ 64 ∧
      ∀ (input : Input) (s : Simulation),
        (series.simulation input (series.seed iteration)).outcome = .ok s →
          s.DrawsFrom input (series.seed iteration) (runSeed (series.seed iteration)) := by
  have apart := series.seed_ne_seed first before last
  refine ⟨⟨apart, series.seed_ne_runSeed i j⟩, ⟨?_, runSeed_injective.ne apart⟩, ?_⟩
  · exact (series.seed_ne_runSeed j i).symm
  · intro iteration
    exact ⟨series.toNat_seed iteration, toNat_runSeed _, fun _ _ => drawsFrom_simulation⟩

/-- A series whose first seed is the greatest one. -/
def topmost : Series where
  plan := { Plan.standard with settings := { Settings.standard with seed := 2 ^ 64 - 1 } }
  iterations_ne_zero := by decide
  valid := by
    rw [Settings.validate, if_neg (by decide), if_neg (by decide), if_neg (by decide)]

/-- The seeds of the last iteration are those right below the first seed, and the first run has
wrapped around to zero. -/
theorem seeds_never_coincide_topmost :
    let input := Input.attributed Gossip.trio
    1 ≤ 1 ∧ 1 < 2 ^ 63 ∧ 2 ^ 63 ≤ 2 ^ 63 ∧
    (topmost.seed 1 ≠ topmost.seed (2 ^ 63) ∧
      topmost.seed 1 ≠ runSeed (topmost.seed (2 ^ 63))) ∧
    (runSeed (topmost.seed 1) ≠ topmost.seed (2 ^ 63) ∧
      runSeed (topmost.seed 1) ≠ runSeed (topmost.seed (2 ^ 63))) ∧
    (runSeed (topmost.seed 1)).toNat = ((topmost.seed 1).toNat + 1) % 2 ^ 64 ∧
    ∃ s, (topmost.simulation input (topmost.seed 1)).outcome = .ok s ∧
      s.DrawsFrom input (topmost.seed 1) (runSeed (topmost.seed 1)) := by
  intro input
  obtain ⟨apart, runApart, seeded⟩ :=
    seeds_never_coincide topmost (Nat.le_refl 1) (by decide : 1 < 2 ^ 63) (Nat.le_refl _)
  obtain ⟨-, next, draws⟩ := seeded 1
  obtain ⟨s, made⟩ := topmost.exists_simulation Gossip.trio (topmost.seed 1)
  exact ⟨by decide, by decide, by decide, apart, runApart, next, s, made, draws input s made⟩

example : (topmost.seed 1, runSeed (topmost.seed 1)) = (2 ^ 64 - 1, 0) ∧
    (topmost.seed (2 ^ 63), runSeed (topmost.seed (2 ^ 63))) = (2 ^ 64 - 3, 2 ^ 64 - 2) := by
  decide +kernel

end Series

end SloppyGroup
