import BenchPlot.Proofs.Layout.Selection

/-!
# What running sums and stacks keep

Accumulating and stacking do nothing to a point but move it, by the value of an earlier one or by zero. So a property of
points is kept if it survives being moved by the amounts that points with the property have.

Main statements: `Instance.AllPoints.accumulate`, `Instance.AllPoints.stackFrom` and `Instance.finished_ofGraph`.
-/

namespace BenchPlot.Instance

variable {α : Type}

/-- All points of the instances have a property, which may depend on what their instance was reduced to. -/
def AllPoints (P : Instance α → PlacedPoint α → Prop) (instances : List (Instance α)) : Prop :=
  ∀ i ∈ instances, ∀ p ∈ i.points, P i.bare p

theorem AllPoints.mono {P Q : Instance α → PlacedPoint α → Prop} {instances : List (Instance α)}
    (h : AllPoints P instances) (hPQ : ∀ i p, P i p → Q i p) : AllPoints Q instances :=
  fun i hi p hp => hPQ _ p (h i hi p hp)

theorem allPoints_cons {P : Instance α → PlacedPoint α → Prop} {i : Instance α} {rest : List (Instance α)} :
    AllPoints P (i :: rest) ↔ (∀ p ∈ i.points, P i.bare p) ∧ AllPoints P rest :=
  List.forall_mem_cons

variable [Coordinate α]

/-! ## §1 Running sums -/

/-- A running sum keeps a property of points that survives being moved by the allowed amounts, if the values of points
    with the property are allowed. -/
theorem forall_accumulatePoints {P : PlacedPoint α → Prop} {allowed : α → Prop}
    (hshift : ∀ p amount, P p → allowed amount → P (p.shift amount)) (hvalue : ∀ p, P p → allowed p.value)
    {total : α} (htotal : allowed total) {points : List (PlacedPoint α)} (h : ∀ p ∈ points, P p) :
    ∀ p ∈ accumulatePoints total points, P p := by
  induction points generalizing total with
  | nil => exact fun _ hp => absurd hp List.not_mem_nil
  | cons p rest ih =>
    obtain ⟨hp, hrest⟩ := List.forall_mem_cons.mp h
    have hmoved := hshift p total hp htotal
    exact List.forall_mem_cons.mpr ⟨hmoved, ih (hvalue _ hmoved) hrest⟩

/-- Accumulating the curves that ask for it keeps the property. -/
theorem AllPoints.accumulate {P : Instance α → PlacedPoint α → Prop} (allowed : Instance α → α → Prop)
    (hshift : ∀ i p amount, P i p → allowed i amount → P i (p.shift amount))
    (hvalue : ∀ i p, P i p → allowed i p.value) (hzero : ∀ i, allowed i (Arithmetic.ofNatural 0))
    (x y : AxisPlacement) {instances : List (Instance α)} (h : AllPoints P instances) :
    AllPoints P (accumulate x y instances) := by
  rw [accumulate_eq_map]
  intro i hi
  obtain ⟨j, hj, rfl⟩ := List.mem_map.mp hi
  have hbare : (j.accumulated x y).bare = j.bare := congrArg Prod.fst (outline_accumulated x y j)
  rw [hbare]
  unfold accumulated
  split
  · exact forall_accumulatePoints (hshift j.bare) (hvalue j.bare) (hzero j.bare) (h j hj)
  · exact h j hj

/-! ## §2 Stacks -/

/-- The heights of the stacks are allowed at their places. -/
def AllowedHeights (allowed : Nat × Int → α → Prop) (heights : Heights α) : Prop :=
  ∀ place, allowed place ((heights.lookup place).getD (Arithmetic.ofNatural 0))

variable {allowed : Nat × Int → α → Prop} {heights : Heights α}

theorem AllowedHeights.cons (h : AllowedHeights allowed heights) {place : Nat × Int} {value : α}
    (hvalue : allowed place value) : AllowedHeights allowed ((place, value) :: heights) := by
  intro place'
  rw [List.lookup_cons]
  cases heq : place' == place with
  | true => exact eq_of_beq heq ▸ hvalue
  | false => exact h place'

/-- Stacking the points of a bench keeps a property that survives being moved by what is allowed at their places. -/
theorem AllowedHeights.stackPoints {P : PlacedPoint α → Prop} {bench : Nat}
    (hshift : ∀ p amount, P p → allowed (p.place bench) amount → P (p.shift amount))
    (hvalue : ∀ p, P p → allowed (p.place bench) p.value) (hheights : AllowedHeights allowed heights)
    {points : List (PlacedPoint α)} (h : ∀ p ∈ points, P p) :
    (∀ p ∈ (stackPoints bench heights points).1, P p) ∧ AllowedHeights allowed (stackPoints bench heights points).2 := by
  induction points generalizing heights with
  | nil => exact ⟨fun _ hp => absurd hp List.not_mem_nil, hheights⟩
  | cons p rest ih =>
    obtain ⟨hp, hrest⟩ := List.forall_mem_cons.mp h
    have hmoved : P (onTop bench heights p) := hshift p _ hp (hheights (p.place bench))
    obtain ⟨hpoints, hend⟩ := ih (hheights.cons (hvalue _ hmoved)) hrest
    rw [stackPoints_cons]
    exact ⟨List.forall_mem_cons.mpr ⟨hmoved, hpoints⟩, hend⟩

/-- Stacking keeps the property of all points. -/
theorem AllPoints.stackFrom {P : Instance α → PlacedPoint α → Prop} (allowed : Nat × Int → α → Prop)
    (hshift : ∀ i p amount, P i p → allowed (p.place i.bench) amount → P i (p.shift amount))
    (hvalue : ∀ i p, i.isStacked = true → P i p → allowed (p.place i.bench) p.value) {x y : AxisPlacement}
    (hheights : AllowedHeights allowed heights) {instances : List (Instance α)} (h : AllPoints P instances) :
    AllPoints P (stackFrom x y heights instances) := by
  -- Along the instances; between two of them the heights are values of points with the property, or zero.
  induction instances generalizing heights with
  | nil => exact h
  | cons i rest ih =>
    obtain ⟨hi, hrest⟩ := allPoints_cons.mp h
    have hraised : (∀ p ∈ (i.raised x y heights).1.points, P i.bare p)
        ∧ AllowedHeights allowed (i.raised x y heights).2 := by
      unfold raised
      split
      · rename_i hasked
        exact hheights.stackPoints (hshift i.bare) (fun p => hvalue i.bare p (Bool.and_eq_true_iff.mp hasked).1) hi
      · exact ⟨hi, hheights⟩
    rw [stackFrom_cons, allPoints_cons, bare_raised]
    exact ⟨hraised.1, ih hraised.2 hrest⟩

end BenchPlot.Instance

/-! ## §3 Bound graphs -/

namespace BenchPlot

variable {α : Type} [Coordinate α]

namespace BoundGraph

/-- The x axis and the y axis of a bound graph. -/
def axes (α : Type) [Coordinate α] (b : BoundGraph) : AxisPlacement × AxisPlacement :=
  Instance.axes b.plan (Instance.ofGraph b : List (Instance α))

/-- The placed instances of a bound graph. -/
def placed (b : BoundGraph) : List (Instance α) :=
  Instance.placeAll (b.axes α).1 (b.axes α).2 (Instance.ofGraph b)

/-- The divisors of a bench, if the graph normalizes and the bench has a base curve. -/
def divisors? (b : BoundGraph) (bench : Nat) : Option (AxisMap α) :=
  if b.plan.options.normalize then Instance.divisors? b.placed bench else none

/-- The instances of a bound graph before they are stacked. -/
def summed (b : BoundGraph) : List (Instance α) :=
  Instance.accumulate (b.axes α).1 (b.axes α).2 (b.placed.map fun i => i.divided b.plan (b.divisors? i.bench))

end BoundGraph

namespace Instance

/-- Where a graph does not normalize, there is nothing to divide by. -/
theorem map_divided_placed (b : BoundGraph) :
    (if b.plan.options.normalize then normalize b.plan b.placed else b.placed : List (Instance α))
      = b.placed.map fun i => i.divided b.plan (b.divisors? i.bench) := by
  unfold BoundGraph.divisors?
  split
  · exact normalize_eq_map ..
  · exact (List.map_id _).symm

/-- The passes over the placed instances, one behind the other. -/
theorem finished_ofGraph (b : BoundGraph) : (finished b.plan (ofGraph b) : List (Instance α))
    = if b.plan.options.stack then stack (b.axes α).1 (b.axes α).2 b.summed else b.summed := by
  rw [BoundGraph.summed, ← map_divided_placed]
  rfl

/-- A property of the points of the divided instances that running sums keep. -/
theorem AllPoints.summed {b : BoundGraph} {P : Instance α → PlacedPoint α → Prop} (allowed : Instance α → α → Prop)
    (hshift : ∀ i p amount, P i p → allowed i amount → P i (p.shift amount))
    (hvalue : ∀ i p, P i p → allowed i p.value) (hzero : ∀ i, allowed i (Arithmetic.ofNatural 0))
    (h : ∀ i ∈ b.placed, ∀ p ∈ (i.divided b.plan (b.divisors? i.bench)).points, P i.bare p) :
    AllPoints P b.summed := by
  refine AllPoints.accumulate allowed hshift hvalue hzero _ _ fun i hi p hp => ?_
  obtain ⟨j, hj, rfl⟩ := List.mem_map.mp hi
  have hbare : (j.divided b.plan (b.divisors? j.bench)).bare = j.bare := congrArg Prod.fst (outline_divided ..)
  rw [hbare]
  exact h j hj p hp

end Instance

end BenchPlot
