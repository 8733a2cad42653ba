import BenchPlot.Layout.Axis

/-!
# Instances

The instances of the curves of a graph with their reduced buckets, and the placed points of an
instance. A point is known along two axes: the bucket axis, along which the instance groups its pairs,
and the value axis, along which it reduces them.
-/

namespace BenchPlot

/-- A point of an instance: its values, the key of its bucket, and its coordinates. -/
structure PlacedPoint (α : Type) where
  rawX : Value
  rawY : Value
  key : Value
  bucket : Float
  value : α
  low : α
  high : α

/-- The point with its value and its bounds moved. -/
def PlacedPoint.shift {α : Type} [Add α] (p : PlacedPoint α) (amount : α) : PlacedPoint α :=
  { p with value := p.value + amount, low := p.low + amount, high := p.high + amount }

/-- An instance of a curve: the curve, its bench, whether it is the curve's first instance, its
    reduced buckets, and its points. -/
structure Instance (α : Type) where
  curve : CurvePlan
  bench : Nat
  label : String
  markText : Option String
  first : Bool
  direction : Direction
  buckets : List (Value × Triple (Reduced α))
  points : List (PlacedPoint α)

namespace Instance

variable {α : Type}

/-- Whether the instance is shown. -/
def isShown (i : Instance α) : Bool :=
  !i.curve.options.skip

/-- The one of two things that belongs to the bucket axis of an instance, the first being that of the
    x axis. -/
def bucketSide {β : Type} (i : Instance α) (x y : β) : β :=
  match i.direction with
  | .byX => x
  | .byY => y

/-- The one of two things that belongs to the value axis of an instance. -/
def valueSide {β : Type} (i : Instance α) (x y : β) : β :=
  i.bucketSide y x

variable [Coordinate α]

/-! ## §1 Reduction -/

/-- The direction of a curve. -/
def directionOf (c : CurvePlan) : Direction :=
  if c.options.hbar then .byY else .byX

/-- The buckets of a grouping, reduced. Buckets and values that their axes skip are left out. -/
def reduce (a : Aggregation) (bucketAxis valueAxis : AxisPlan) (m : AxisMap (List Value)) :
    List (Value × Triple (Reduced α)) :=
  (m.entries.filter fun e => !bucketAxis.skips e.1.value).flatMap fun e =>
    ((a.apply e.2).filter fun t => !valueAxis.skips t.value.toValue).map fun t => (e.1.value, t)

/-- The instances of a bound curve. -/
def ofCurve (g : GraphPlan) (bench : Nat) (c : BoundCurve) : List (Instance α) :=
  let aggregation := (c.plan.aggregation.or g.aggregation).getD .each
  c.instances.zipIdx.map fun d =>
    { curve := c.plan
      bench := bench
      label := d.1.label
      markText := d.1.markText
      first := d.2 == 0
      direction := directionOf c.plan
      buckets :=
        match directionOf c.plan with
        | .byX => reduce aggregation g.x g.y d.1.byX
        | .byY => reduce aggregation g.y g.x d.1.byY
      points := [] }

/-- The instances of a bound graph. -/
def ofGraph (b : BoundGraph) : List (Instance α) :=
  b.benches.flatMap fun bench => bench.curves.flatMap (ofCurve b.plan bench.plan.id)

/-! ## §2 Axes -/

/-- The values of the shown instances along an axis, which is the bucket axis of the instances of
    direction `d`. -/
def observed (d : Direction) (instances : List (Instance α)) : List Value :=
  (instances.filter isShown).flatMap fun i =>
    i.buckets.map fun b => if i.direction == d then b.1 else b.2.value.toValue

/-- The numbers of the shown instances that are drawn as bars along an axis, where the graph groups
    bars along it. -/
def bars (grouped : Bool) (isBar : CurveOptions → Bool) (instances : List (Instance α)) : List Nat :=
  if grouped then
    (instances.zipIdx.filter fun i => i.1.isShown && isBar i.1.curve.options).map (·.2)
  else []

/-- The x axis and the y axis of the instances of a graph. -/
def axes (g : GraphPlan) (instances : List (Instance α)) : AxisPlacement × AxisPlacement :=
  (.new g.x (observed .byX instances) (bars g.options.xoffset CurveOptions.bar instances),
    .new g.y (observed .byY instances) (bars g.options.yoffset CurveOptions.hbar instances))

/-! ## §3 Placement -/

/-- A bound of a value, where the bound is a number and the axis has numbers; the value itself
    otherwise. -/
def bound (axis : AxisPlacement) (value : α) (r : Reduced α) : α :=
  if axis.plan.isCategory then value else r.toNumber?.getD value

/-- The point of a reduced bucket of the instance with number `member`, if both its coordinates have
    a place. -/
def placePoint? (bucketAxis valueAxis : AxisPlacement) (direction : Direction) (member : Nat)
    (b : Value × Triple (Reduced α)) : Option (PlacedPoint α) :=
  match bucketAxis.place? member (.given b.1 : Reduced Float), valueAxis.place? member b.2.value with
  | some bucket, some value =>
    let raw := b.2.value.toValue
    some {
      rawX := match direction with
        | .byX => b.1
        | .byY => raw
      rawY := match direction with
        | .byX => raw
        | .byY => b.1
      key := b.1
      bucket := bucket
      value := value
      low := bound valueAxis value b.2.low
      high := bound valueAxis value b.2.high }
  | _, _ => none

/-- The instances with their points placed. -/
def placeAll (x y : AxisPlacement) (instances : List (Instance α)) : List (Instance α) :=
  instances.zipIdx.map fun i =>
    { i.1 with
      points := i.1.buckets.filterMap
        (placePoint? (i.1.bucketSide x y) (i.1.valueSide x y) i.1.direction i.2) }

end Instance

end BenchPlot
