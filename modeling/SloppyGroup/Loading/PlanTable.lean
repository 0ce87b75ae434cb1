import SloppyGroup.Loading.SettingsRecord
import SloppyGroup.Plan
import SloppyGroup.Toml.Document

/-!
Plans in TOML. Every key may be left out, and unknown keys are passed over.
-/

namespace SloppyGroup

namespace Toml.Value

def string? : Value → Option String
  | .string s => some s
  | _ => none

def natural? : Value → Option Nat
  | .integer (.ofNat n) => some n
  | _ => none

def float? : Value → Option Float
  | .integer n => some (Float.ofInt n)
  | .float x => some x
  | _ => none

/-- Whether a value is a table or an array without content. -/
def isVoid : Value → Bool
  | .table [] => true
  | .array [] => true
  | _ => false

/-- Reads one of some words: as a string, or as the only key of a table, with nothing in it. -/
def word? {α : Type} (named? : String → Option α) : Value → Option α
  | .string s => named? s
  | .table [(key, content)] => if content.isVoid then named? key else none
  | _ => none

def orElse {α : Type} (read : Value → Option α) (absent : α) : Option Value → Option α
  | none => some absent
  | some value => read value

/-- The values of named fields: of a table by name, of an array by position. A date or a time is a
table that holds none of them. -/
def fields? (names : List String) : Value → Option (List (Option Value))
  | .table members => some (names.map fun name => members.lookup name)
  | .array items => some (names.zipIdx.map fun (_, i) => items[i]?)
  | .time => some (names.map fun _ => none)
  | _ => none

end Toml.Value

open Toml (Value)

def Settings.ofValue? (value : Value) : Option Settings := do
  match ← Value.fields? Settings.fieldNames value with
  | [seed, error, probability, rounds, walk] =>
    return {
      seed := ← Value.orElse (fun v => v.natural?.map Nat.toUInt64) standard.seed seed
      populationError := ← Value.orElse Value.float? standard.populationError error
      sybilLandmarkProbability :=
        ← Value.orElse Value.float? standard.sybilLandmarkProbability probability
      maxRounds := ← Value.orElse (fun v => v.natural?.map some) standard.maxRounds rounds
      walk := ← Value.orElse (Value.word? WalkMode.named?) standard.walk walk
    }
  | _ => none

namespace Plan

def ofMembers? (members : List (String × Value)) : Option Plan := do
  let field (name : String) : Option Value := members.lookup name
  return {
    input := ← Value.orElse (fun v => v.string?.map some) standard.input (field "input")
    output := ← Value.orElse Value.string? standard.output (field "output_dir")
    iterations := ← Value.orElse Value.natural? standard.iterations (field "iterations")
    store := ← Value.orElse (Value.word? StorePolicy.named?) standard.store (field "store")
    settings := ← Value.orElse Settings.ofValue? standard.settings (field "simulation")
  }

def ofText? (text : String) : Option Plan :=
  (Toml.ofText? text).bind ofMembers?

end Plan

end SloppyGroup
