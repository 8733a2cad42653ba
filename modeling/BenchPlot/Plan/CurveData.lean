import BenchPlot.Plan.Basic
import BenchPlot.Value.AxisKey

/-!
# The data of curves

What a plan is bound to. A curve has one instance for each combination of the values it iterates over;
an instance holds its pairs grouped along either axis. Both groupings hold the same pairs.
-/

namespace BenchPlot

/-- The pairs of an instance of a curve: the y values at each x value, and the x values at each y
    value. The iteration is the combination of field values that the instance stands for. -/
structure CurveData where
  label : String
  markText : Option String
  iteration : List (String × Value)
  byX : AxisMap (List Value)
  byY : AxisMap (List Value)

namespace CurveData

/-- An instance without pairs. -/
def new (label : String) (markText : Option String) (iteration : List (String × Value)) : CurveData :=
  ⟨label, markText, iteration, ∅, ∅⟩

/-- A grouping with a value added at a key. -/
def addAt (m : AxisMap (List Value)) (key v : Value) : AxisMap (List Value) :=
  m.alter ⟨key⟩ fun bucket => bucket.getD [] ++ [v]

/-- The instance with a further pair. -/
def push (d : CurveData) (x y : Value) : CurveData :=
  { d with byX := addAt d.byX x y, byY := addAt d.byY y x }

/-- The instance with further pairs. -/
def pushAll (d : CurveData) (pairs : List (Value × Value)) : CurveData :=
  pairs.foldl (fun d p => d.push p.1 p.2) d

/-- Whether the instance has no pairs. -/
def isEmpty (d : CurveData) : Bool :=
  d.byX.isEmpty

end CurveData

/-- A curve with its instances. -/
structure BoundCurve where
  plan : CurvePlan
  instances : List CurveData

/-- A bench with the benchmark that it selects from, and its curves. -/
structure BoundBench where
  plan : BenchPlan
  benchmark : String
  curves : List BoundCurve

/-- A graph with its benches. -/
structure BoundGraph where
  plan : GraphPlan
  benches : List BoundBench

end BenchPlot
