import BenchPlot.SortedMap
import BenchPlot.Value

/-!
# The order of values along an axis

Values are ordered along an axis by their place: null comes first, then everything that is a number
by its numeric order, then every other value by its text. Truth values count as text here although
they have a numeric view. Values with equal places are one position of the axis.
-/

namespace BenchPlot

/-- The place of a value along an axis. -/
inductive AxisPlace where
  | start
  | number (key : Int)
  | text (s : String)
  deriving DecidableEq, Repr

namespace AxisPlace

/-- The rank of the kinds of places: null, numbers, texts. -/
def rank : AxisPlace → Nat
  | .start => 0
  | .number _ => 1
  | .text _ => 2

/-- The comparison of two texts, character by character. -/
def compareText (s t : String) : Ordering :=
  if s < t then .lt else if t < s then .gt else .eq

/-- The comparison of two places: by kind, then by number or by text. -/
def compare : AxisPlace → AxisPlace → Ordering
  | .number a, .number b => Ord.compare a b
  | .text s, .text t => compareText s t
  | a, b => Ord.compare a.rank b.rank

end AxisPlace

namespace Value

/-- The place of a value along an axis. Numbers are placed by their total order. -/
def axisPlace (v : Value) : AxisPlace :=
  match v with
  | .null => .start
  | .bool _ => .text v.display
  | _ =>
    match v.toNumber? with
    | some x => .number (Decimal.orderKey x)
    | none => .text v.display

end Value

/-- A value as a key along an axis. -/
structure AxisKey where
  value : Value
  deriving Inhabited

namespace AxisKey

instance : Ord AxisKey := ⟨fun a b => AxisPlace.compare a.value.axisPlace b.value.axisPlace⟩

end AxisKey

/-- Values grouped along an axis: the first value seen at each position, and what was collected
    there. -/
abbrev AxisMap (α : Type) : Type := SortedMap AxisKey α

end BenchPlot
