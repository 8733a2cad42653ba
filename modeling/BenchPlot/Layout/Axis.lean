import BenchPlot.Layout.Basic
import BenchPlot.Plan.CurveData

/-!
# Places along an axis

Where values stand along an axis. On an axis of categories the categories have whole positions, one
unit apart, or far enough apart for a group of bars around each; a bar of the group stands beside its
category by a whole offset. On every other axis a number stands at itself, and on a logarithmic one
only if it is positive.
-/

namespace BenchPlot

/-- Positions of bars beyond those of the bars themselves, so that neighbouring groups stay apart. -/
def groupPadding : Nat := 4

/-- What decides the places along an axis: its plan, its categories, the distance between them, and
    the offsets of the instances that are drawn as bars. -/
structure AxisPlacement where
  plan : AxisPlan
  categories : List String
  distance : Nat
  offsets : List (Nat × Int)

namespace AxisPlacement

/-! ## §1 Positions -/

/-- The position of the category with a number. -/
def slot (a : AxisPlacement) (index : Nat) : Int :=
  ((index + 1 : Nat) : Int) * (a.distance : Int)

/-- The offset of an instance from its categories. -/
def offset (a : AxisPlacement) (member : Nat) : Int :=
  (a.offsets.lookup member).getD 0

/-- The position of an instance at the category with a label, if there is such a category. -/
def position? (a : AxisPlacement) (member : Nat) (label : String) : Option Int :=
  (a.categories.findIdx? fun c => c == label).map fun index => a.slot index + a.offset member

/-- Whether a scale leaves a number out. -/
def leavesOut {α : Type} [Coordinate α] (a : AxisPlacement) (x : α) : Bool :=
  a.plan.scale.scaleKind == .log && Coordinate.isNonPositive x

/-- The place of a reduced value of an instance, if it has one. -/
def place? {α : Type} [Coordinate α] (a : AxisPlacement) (member : Nat) (v : Reduced α) : Option α :=
  if a.plan.isCategory then (a.position? member v.toValue.display).map Coordinate.ofInteger
  else v.toNumber?.filter fun x => !a.leavesOut x

/-- The ticks of the axis. -/
def ticks (a : AxisPlacement) : List Tick :=
  a.categories.zipIdx.map fun c => ⟨c.1, a.slot c.2⟩

/-- The axis as it is laid out. -/
def layout (a : AxisPlacement) : AxisLayout :=
  ⟨a.plan.scale, a.plan.label, a.ticks, a.plan.range⟩

/-! ## §2 Categories -/

/-- The labels of observed values in the order of the axis. Of values at one position the last one
    that was observed gives the label. -/
def observedLabels (values : List Value) : List String :=
  (values.foldl (fun (m : AxisMap String) v => m.insert ⟨v⟩ v.display) ∅).values

/-- Categories with further labels behind them, each label once. -/
def addLabels (categories : List String) (labels : List String) : List String :=
  labels.foldl (fun cs label => if cs.contains label then cs else cs ++ [label]) categories

/-- The offsets of the bars of a group: one unit apart, the middle one at its category. -/
def barOffsets (members : List Nat) : List (Nat × Int) :=
  members.zipIdx.map fun m => (m.1, (m.2 : Int) - ((members.length / 2 : Nat) : Int))

/-- The axis of a plan on which the values `observed` occur and the instances `bars` are drawn as
    bars. -/
def new (plan : AxisPlan) (observed : List Value) (bars : List Nat) : AxisPlacement :=
  if plan.isCategory then
    { plan := plan
      categories := addLabels plan.categories (observedLabels observed)
      -- A group takes one unit for each bar, and some units between it and the next.
      distance := if bars.isEmpty then 1 else bars.length + groupPadding
      offsets := barOffsets bars }
  else ⟨plan, [], 1, []⟩

end AxisPlacement

/-- Whether an axis leaves a value out because its plan says so. -/
def AxisPlan.skips (a : AxisPlan) (v : Value) : Bool :=
  a.skip.contains v.display

end BenchPlot
