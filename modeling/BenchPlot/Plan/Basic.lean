import BenchPlot.Aggregation
import BenchPlot.Description.Basic
import BenchPlot.Formula.Basic
import BenchPlot.Style

/-!
# Plans

A plan is what a description asks for: graphs with their axes, benches (selections of stored rows) and
curves. The nodes of each kind are numbered in the order in which they were written; a parent lists its
children by number, and every child knows its parent.
-/

namespace BenchPlot

/-- The places of a legend. -/
inductive LegendPlacement where
  | none
  | inside
  | outside
  | below
  deriving DecidableEq, Repr

/-- The name of a place. -/
def LegendPlacement.name : LegendPlacement → String
  | .none => "none"
  | .inside => "inside"
  | .outside => "outside"
  | .below => "below"

/-- The place that a name stands for, in any letter case. -/
def LegendPlacement.ofName? (text : String) : Option LegendPlacement :=
  [LegendPlacement.none, .inside, .outside, .below].find? fun p => p.name == Text.asciiLower text

/-- An axis: its label, its scale, the categories that come first, the values that are left out, the
    coordinate of normalized points without a base, and the range. -/
structure AxisPlan where
  label : Option String
  scale : StyleKind
  categories : List String
  skip : List String
  base : Float
  range : Option Float × Option Float

/-- Whether the values of an axis are categories. -/
def AxisPlan.isCategory (a : AxisPlan) : Bool :=
  a.scale.scaleKind == .category

/-- What a graph does with its curves. -/
structure GraphOptions where
  stack : Bool
  normalize : Bool
  xoffset : Bool
  yoffset : Bool
  grid : Bool
  deriving DecidableEq, Repr

/-- What a curve asks for. -/
structure CurveOptions where
  bar : Bool
  hbar : Bool
  noStack : Bool
  base : Bool
  accum : Bool
  skip : Bool
  errorbars : Bool
  deriving DecidableEq, Repr

/-- A condition on rows and where it was written. -/
structure Filter where
  text : String
  location : Location
  deriving DecidableEq, Repr

/-- A graph. -/
structure GraphPlan where
  id : Nat
  location : Location
  title : String
  x : AxisPlan
  y : AxisPlan
  aggregation : Option Aggregation
  legend : LegendPlacement
  options : GraphOptions
  benches : List Nat

/-- A selection of rows of a benchmark. -/
structure BenchPlan where
  id : Nat
  graph : Nat
  location : Location
  name : String
  filters : List Filter
  selects : List String
  includeOutliers : Bool
  label : Option String
  curves : List Nat

/-- A curve. Its ordinal is its place among the curves of its graph. -/
structure CurvePlan where
  id : Nat
  bench : Nat
  location : Location
  ordinal : Nat
  xval : Formula
  yval : Formula
  label : Option Formula
  markText : Option Formula
  aggregation : Option Aggregation
  line : Option String
  mark : Option String
  color : Option String
  iterate : List String
  filters : List Filter
  options : CurveOptions

/-- What a description asks for. -/
structure Plan where
  title : Option String
  graphs : List GraphPlan
  benches : List BenchPlan
  curves : List CurvePlan

namespace Plan

/-- The plan of nothing. -/
def empty : Plan := ⟨none, [], [], []⟩

instance : Inhabited Plan := ⟨empty⟩

/-- The benches of a graph. -/
def benchesOf (p : Plan) (g : GraphPlan) : List BenchPlan :=
  g.benches.filterMap fun id => p.benches[id]?

/-- The curves of a bench. -/
def curvesOf (p : Plan) (b : BenchPlan) : List CurvePlan :=
  b.curves.filterMap fun id => p.curves[id]?

/-- The graph that a curve belongs to. -/
def graphOf? (p : Plan) (c : CurvePlan) : Option GraphPlan :=
  (p.benches[c.bench]?).bind fun b => p.graphs[b.graph]?

/-- The aggregation of a curve: its own, else that of its graph, else none. -/
def aggregationOf (p : Plan) (c : CurvePlan) : Aggregation :=
  (c.aggregation.or ((p.graphOf? c).bind GraphPlan.aggregation)).getD .each

end Plan

end BenchPlot
