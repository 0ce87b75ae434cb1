import SloppyGroup.Json.Record
import SloppyGroup.Settings

/-!
Settings in JSON. Every field may be left out.
-/

namespace SloppyGroup.Settings

open Json (Tree Field Record.fields?)

/-- The fields of settings in the order in which an array lists them. -/
def fieldNames : List String :=
  ["seed", "population_error", "sybil_landmark_probability", "max_gossip_rounds", "random_walk"]

def ofTree? (tree : Tree) : Option Settings := do
  match ← Record.fields? (fieldNames.map fun name => ⟨[name], .allowed⟩) tree with
  | [seed, error, probability, rounds, walk] =>
    return {
      seed := ← Tree.orElse (fun t => t.natural?.map Nat.toUInt64) standard.seed seed
      populationError := ← Tree.orElse Tree.float? standard.populationError error
      sybilLandmarkProbability :=
        ← Tree.orElse Tree.float? standard.sybilLandmarkProbability probability
      maxRounds := ← Tree.orElse (Tree.nullable? Tree.natural?) standard.maxRounds rounds
      walk := ← Tree.orElse (Tree.word? WalkMode.named?) standard.walk walk
    }
  | _ => none

def ofText? (text : String) : Option Settings :=
  (Tree.ofText? text).bind ofTree?

end SloppyGroup.Settings
