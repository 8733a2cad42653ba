import BenchPlot.Layout.Instance

/-!
# Normalizing, accumulating and stacking

The three passes over the placed points of a graph. Normalizing divides the values of a bench by those
of its base curve at the same bucket; accumulating replaces the values of a curve by their running
sum; stacking puts the values of the curves of a bench on top of each other.
-/

namespace BenchPlot.Instance

variable {α : Type} [Coordinate α]

/-! ## §1 Normalizing -/

/-- The values of the points by bucket; the first point of a bucket counts. -/
def firstValues (points : List (PlacedPoint α)) : AxisMap α :=
  points.foldl (fun m p => m.alter ⟨p.key⟩ fun present => present.getD p.value) ∅

/-- The divisors of a bench: the values of the first instance of its first base curve, if it has
    one. -/
def divisors? (instances : List (Instance α)) (bench : Nat) : Option (AxisMap α) :=
  (instances.find? fun i => i.bench == bench && i.curve.options.base && i.first).map
    fun i => firstValues i.points

/-- A point divided by the divisor of its bucket. Without a divisor, or with zero, the point moves to
    `base`. -/
def normalizePoint (divisors : AxisMap α) (base : α) (p : PlacedPoint α) : PlacedPoint α :=
  match (divisors.find? ⟨p.key⟩).filter fun d => !Arithmetic.isZero d with
  | some d => { p with value := p.value / d, low := p.low / d, high := p.high / d }
  | none => { p with value := base, low := base, high := base }

/-- The instances of a graph, normalized. Base curves, benches without one, and values along
    categories stay. -/
def normalize (g : GraphPlan) (instances : List (Instance α)) : List (Instance α) :=
  instances.map fun i =>
    match divisors? instances i.bench with
    | none => i
    | some divisors =>
      let axis := i.valueSide g.x g.y
      if i.curve.options.base || axis.isCategory then i
      else { i with points := i.points.map (normalizePoint divisors (Arithmetic.ofFloat axis.base)) }

/-! ## §2 Accumulating -/

/-- The points with the running sum added, where `total` is the sum so far. -/
def accumulatePoints (total : α) : List (PlacedPoint α) → List (PlacedPoint α)
  | [] => []
  | p :: rest =>
    let p := p.shift total
    p :: accumulatePoints p.value rest

/-- The instances with the curves accumulated that ask for it and are not grouped by categories. -/
def accumulate (x y : AxisPlacement) (instances : List (Instance α)) : List (Instance α) :=
  instances.map fun i =>
    if i.curve.options.accum && !(i.bucketSide x y).plan.isCategory then
      { i with points := accumulatePoints (Arithmetic.ofNatural 0) i.points }
    else i

/-! ## §3 Stacking -/

/-- The heights of stacks, by bench and by position along the bucket axis. -/
abbrev Heights (α : Type) : Type := List ((Nat × Int) × α)

/-- The points of an instance on top of the stacks, and the stacks with them. -/
def stackPoints (bench : Nat) (heights : Heights α) :
    List (PlacedPoint α) → List (PlacedPoint α) × Heights α
  | [] => ([], heights)
  | p :: rest =>
    let place := (bench, Decimal.orderKey p.bucket)
    -- Later entries stand in front of earlier ones and hide them.
    let p := p.shift ((heights.lookup place).getD (Arithmetic.ofNatural 0))
    let (points, heights) := stackPoints bench ((place, p.value) :: heights) rest
    (p :: points, heights)

/-- The instances on top of the stacks. Hidden instances, those that are not to be stacked, and those
    with values along categories stay where they are and raise no stack. -/
def stackFrom (x y : AxisPlacement) (heights : Heights α) : List (Instance α) → List (Instance α)
  | [] => []
  | i :: rest =>
    if !i.isShown || i.curve.options.noStack || (i.valueSide x y).plan.isCategory then
      i :: stackFrom x y heights rest
    else
      let (points, heights) := stackPoints i.bench heights i.points
      { i with points := points } :: stackFrom x y heights rest

/-- The instances of a graph, stacked. -/
def stack (x y : AxisPlacement) (instances : List (Instance α)) : List (Instance α) :=
  stackFrom x y [] instances

end BenchPlot.Instance
