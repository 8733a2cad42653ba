import BenchPlot.Plan.Basic

/-!
# Layouts

Where everything of a plot stands: the ticks of the axes, the curves with their styles, and the points
with their plotted coordinates. Every output format is written from a layout.

Coordinates are numbers of a class, so that each step of laying out is one definition for floats and
for exact numbers.
-/

namespace BenchPlot

/-! ## §1 Coordinates -/

/-- Numbers that can be plotted. -/
class Coordinate (α : Type) extends Arithmetic α where
  ofInteger : Int → α
  /-- Whether a number has no place on a logarithmic scale. -/
  isNonPositive : α → Bool
  toValue : α → Value

instance : Coordinate Float where
  ofInteger := Decimal.ofInteger
  isNonPositive x := x ≤ 0.0
  toValue := .number

/-- A reduced value as a value. -/
def Reduced.toValue {α : Type} [Coordinate α] : Reduced α → Value
  | .given v => v
  | .computed x => Coordinate.toValue x

/-- The number that a reduced value is, if it is one. -/
def Reduced.toNumber? {α : Type} [Coordinate α] : Reduced α → Option α
  | .given v => v.toNumber?.map Arithmetic.ofFloat
  | .computed x => some x

/-! ## §2 Layouts -/

/-- The axis along which a curve groups its pairs; the values along the other one are reduced. -/
inductive Direction where
  | byX
  | byY
  deriving DecidableEq, Repr

/-- A category and its position. -/
structure Tick where
  label : String
  position : Int
  deriving DecidableEq, Repr

/-- An axis of a layout. Only an axis of categories has ticks. -/
structure AxisLayout where
  scale : StyleKind
  label : Option String
  ticks : List Tick
  range : Option Float × Option Float

/-- Whether the values of an axis are categories. -/
def AxisLayout.isCategory (a : AxisLayout) : Bool :=
  a.scale.scaleKind == .category

/-- A curve of a layout: its number there, and the curve of the plan that it comes from. -/
structure CurveLayout where
  id : Nat
  curve : Nat
  label : String
  markText : Option String
  line : StyleKind
  mark : StyleKind
  color : StyleKind
  direction : Direction
  bar : Bool
  errorbars : Bool

/-- A point of a curve: its values, its plotted coordinates, and the bounds along the axis of the
    reduced values. -/
structure PlotPoint (α : Type) where
  curve : Nat
  rawX : Value
  rawY : Value
  x : α
  y : α
  low : α
  high : α

/-- A graph of a layout. -/
structure GraphLayout (α : Type) where
  graph : Nat
  title : String
  x : AxisLayout
  y : AxisLayout
  legend : LegendPlacement
  grid : Bool
  curves : List CurveLayout
  points : List (PlotPoint α)

/-- The points of a curve of a graph. -/
def GraphLayout.pointsOf {α : Type} (g : GraphLayout α) (curve : Nat) : List (PlotPoint α) :=
  g.points.filter fun p => p.curve == curve

/-- The layout of a plot. -/
structure Layout (α : Type) where
  title : Option String
  graphs : List (GraphLayout α)

/-- A style of a curve that cannot be found. -/
structure LayoutError where
  location : Location
  error : StyleError

/-- The message of a failure. -/
def LayoutError.message (e : LayoutError) : String :=
  s!"{e.location.text}: {e.error.message}"

end BenchPlot
