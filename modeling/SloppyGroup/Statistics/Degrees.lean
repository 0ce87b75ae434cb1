import SloppyGroup.Decimal.Fixed
import SloppyGroup.Export.Graph

/-!
Summaries of degrees: extremes, mean and standard deviation, in one pass over doubles each.
-/

namespace SloppyGroup

structure DegreeFigures where
  min : Float
  max : Float
  mean : Float
  /-- The deviation within the whole population. -/
  deviation : Float

namespace DegreeFigures

def zero : DegreeFigures := ⟨0, 0, 0, 0⟩

/-- The mean, corrected by each value in turn. -/
def meanOf (values : List Float) : Float :=
  (values.foldl (fun (mean, i) x =>
    let i := i + 1
    (mean + (x - mean) / i, i)) ((0 : Float), (0 : Float))).1

/-- The variance of `first` and further values, from the differences to the running sum. -/
def varianceFrom (first : Float) (rest : List Float) : Float :=
  let (_, variance, i) := rest.foldl (fun (sum, variance, i) x =>
    let i := i + 1
    let sum := sum + x
    let difference := i * x - sum
    (sum, variance + difference * difference / (i * (i - 1)), i))
    (first, (0 : Float), (1 : Float))
  variance / i

/-- The summary of some degrees, all zero for none. -/
def ofDegrees (degrees : List Nat) : DegreeFigures :=
  match degrees with
  | [] => zero
  | d :: rest =>
    let first := d.toFloat
    let others := rest.map Nat.toFloat
    {
      min := (rest.foldl Nat.min d).toFloat
      max := (rest.foldl Nat.max d).toFloat
      mean := meanOf (first :: others)
      deviation := (varianceFrom first others).sqrt
    }

def text (s : DegreeFigures) : String :=
  let extremes := Decimal.Layout.plain.text s.min ++ " " ++ Decimal.Layout.plain.text s.max
  extremes ++ " " ++ Decimal.fixed 2 s.mean ++ " " ++ Decimal.fixed 2 s.deviation

end DegreeFigures

/-- Summaries of the in-degrees, the out-degrees and their sums. -/
structure DegreeSummary where
  incoming : DegreeFigures
  outgoing : DegreeFigures
  total : DegreeFigures

namespace DegreeSummary

def ofExport (x : ExportedGraph) (count : Nat) : DegreeSummary :=
  let degrees := x.degrees count
  {
    incoming := .ofDegrees (degrees.map (·.1))
    outgoing := .ofDegrees (degrees.map (·.2))
    total := .ofDegrees (degrees.map fun (i, o) => i + o)
  }

end DegreeSummary

end SloppyGroup
