import Mathlib
import BenchPlot.Proofs.Layout.HiddenCurves
import BenchPlot.Proofs.Layout.Selection
import BenchPlot.Proofs.Statistics.ExactNumbers

/-!
# Heights of stacks

A layout has the points of its curves one behind the other. Stacking passes over them and remembers for each place
the value to which the last point there was raised. What is remembered is the sum of the values that the points at the
place had before, so each point is raised by the sum of the values of the earlier ones.

Main statements: `Instance.curvePoints_stackFrom` and `GraphLayout.points_stacked`.
-/

namespace BenchPlot

variable {α : Type}

/-! ## §1 Points of curves in their order -/

/-- Two points are stacked at one place iff they have the same bench and the same position along an axis. -/
theorem PlacedPoint.place_eq_iff {bench bench' : Nat} {p q : PlacedPoint α} : p.place bench = q.place bench'
    ↔ bench = bench' ∧ compare (⟨.number p.bucket⟩ : AxisKey) ⟨.number q.bucket⟩ = .eq := by
  rw [AxisKey.compare_eq_iff, place, place, Prod.mk.injEq]
  exact and_congr_right fun _ => ⟨congrArg AxisPlace.number, AxisPlace.number.inj⟩

/-- Whether the points of an instance are raised, and raise those that come later: the instance is to be stacked, and
    its values are no categories. -/
def Instance.rises (g : GraphPlan) (i : Instance α) : Bool :=
  i.isStacked && !(i.valueSide g.x g.y).isCategory

/-- A point of a curve: the number of the curve, its instance without points, and the point. -/
structure CurvePoint (α : Type) where
  curve : Nat
  owner : Instance α
  point : PlacedPoint α

/-- The points of instances that become curves with the numbers from `start` on. -/
def Instance.curvePoints (start : Nat) (instances : List (Instance α)) : List (CurvePoint α) :=
  (instances.zipIdx start).flatMap fun i => i.1.points.map (CurvePoint.mk i.2 i.1.bare)

theorem Instance.curvePoints_cons (start : Nat) (i : Instance α) (rest : List (Instance α)) :
    curvePoints start (i :: rest) = i.points.map (CurvePoint.mk start i.bare) ++ curvePoints (start + 1) rest :=
  rfl

namespace CurvePoint

/-- The place where a point is stacked. -/
def place (s : CurvePoint α) : Nat × Int :=
  s.point.place s.owner.bench

/-- The values of the points that are stacked at a place. -/
def valuesAt (g : GraphPlan) (place : Nat × Int) (points : List (CurvePoint α)) : List α :=
  (points.filter fun s => s.owner.rises g && s.place == place).map fun s => s.point.value

theorem valuesAt_append (g : GraphPlan) (place : Nat × Int) (l l' : List (CurvePoint α)) :
    valuesAt g place (l ++ l') = valuesAt g place l ++ valuesAt g place l' := by
  rw [valuesAt, List.filter_append, List.map_append]
  rfl

variable [Coordinate α]

/-- A point of a curve as it is plotted. -/
def plot (s : CurvePoint α) : PlotPoint α where
  curve := s.curve
  rawX := s.point.rawX
  rawY := s.point.rawY
  x := s.owner.bucketSide (Arithmetic.ofFloat s.point.bucket) s.point.value
  y := s.owner.bucketSide s.point.value (Arithmetic.ofFloat s.point.bucket)
  low := s.point.low
  high := s.point.high

/-- A point with its value and its bounds moved. -/
def raise (amount : α) (s : CurvePoint α) : CurvePoint α :=
  { s with point := s.point.shift amount }

/-- The height of a stack of values. -/
def height (values : List α) : α :=
  values.foldl (fun total value => value + total) (Arithmetic.ofNatural 0)

/-- A point on top of the earlier ones, if it rises. -/
def onTopOf (g : GraphPlan) (earlier : List (CurvePoint α)) (s : CurvePoint α) : CurvePoint α :=
  if s.owner.rises g then s.raise (height (valuesAt g s.place earlier)) else s

/-- Points behind earlier ones, each on top of all before it. -/
def stacked (g : GraphPlan) (earlier points : List (CurvePoint α)) : List (CurvePoint α) :=
  points.mapIdx fun n s => s.onTopOf g (earlier ++ points.take n)

theorem stacked_cons (g : GraphPlan) (earlier : List (CurvePoint α)) (s : CurvePoint α) (rest : List (CurvePoint α)) :
    stacked g earlier (s :: rest) = s.onTopOf g earlier :: stacked g (earlier ++ [s]) rest := by
  simp [stacked, List.mapIdx_cons]

theorem stacked_append (g : GraphPlan) (earlier l l' : List (CurvePoint α)) :
    stacked g earlier (l ++ l') = stacked g earlier l ++ stacked g (earlier ++ l) l' := by
  induction l generalizing earlier with
  | nil => rw [List.append_nil]; rfl
  | cons s rest ih =>
    rw [List.cons_append, stacked_cons, stacked_cons, ih, List.append_assoc]
    rfl

/-- Points that do not rise stay. -/
theorem stacked_of_not_rises (g : GraphPlan) (earlier : List (CurvePoint α)) {points : List (CurvePoint α)}
    (h : ∀ s ∈ points, s.owner.rises g = false) : stacked g earlier points = points := by
  induction points generalizing earlier with
  | nil => rfl
  | cons s rest ih =>
    obtain ⟨hs, hrest⟩ := List.forall_mem_cons.mp h
    rw [stacked_cons, ih _ hrest, onTopOf, hs, if_neg Bool.false_ne_true]

end CurvePoint

/-! ## §2 Stacking -/

namespace Instance

variable [Coordinate α] {g : GraphPlan} {heights : Heights α} {earlier : List (CurvePoint α)}

/-- The heights are those of the stacks of the earlier points. -/
def HeightsOf (g : GraphPlan) (earlier : List (CurvePoint α)) (heights : Heights α) : Prop :=
  ∀ place, (heights.lookup place).getD (Arithmetic.ofNatural 0)
    = CurvePoint.height (CurvePoint.valuesAt g place earlier)

/-- Points that do not rise leave the heights. -/
theorem HeightsOf.append_of_not_rises (h : HeightsOf g earlier heights) {points : List (CurvePoint α)}
    (hpoints : ∀ s ∈ points, s.owner.rises g = false) : HeightsOf g (earlier ++ points) heights := by
  intro place
  have hnone : CurvePoint.valuesAt g place points = [] := by
    refine List.map_eq_nil_iff.mpr (List.filter_eq_nil_iff.mpr fun s hs => ?_)
    rw [hpoints s hs, Bool.false_and]
    exact Bool.false_ne_true
  rw [h place, CurvePoint.valuesAt_append, hnone, List.append_nil]

/-- A point that rises is the new height at its place. -/
theorem HeightsOf.concat (h : HeightsOf g earlier heights) {s : CurvePoint α} (hs : s.owner.rises g = true) :
    HeightsOf g (earlier ++ [s]) ((s.place, (s.onTopOf g earlier).point.value) :: heights) := by
  intro place
  rw [List.lookup_cons, CurvePoint.valuesAt_append, BEq.comm]
  cases hplace : s.place == place with
  | true =>
    obtain rfl := eq_of_beq hplace
    have hown : CurvePoint.valuesAt g s.place [s] = [s.point.value] := by
      simp [CurvePoint.valuesAt, hs]
    rw [hown, CurvePoint.height, List.foldl_append, CurvePoint.onTopOf, if_pos hs]
    rfl
  | false =>
    have hnone : CurvePoint.valuesAt g place [s] = [] := by
      simp [CurvePoint.valuesAt, hplace]
    rw [hnone, List.append_nil]
    exact h place

/-- Stacking a point puts it on top of the earlier ones. -/
theorem HeightsOf.onTop_eq (h : HeightsOf g earlier heights) (curve : Nat) {owner : Instance α}
    (howner : owner.rises g = true) (p : PlacedPoint α) :
    CurvePoint.mk curve owner (onTop owner.bench heights p) = (CurvePoint.mk curve owner p).onTopOf g earlier := by
  have hheight := h (p.place owner.bench)
  rw [CurvePoint.onTopOf, if_pos howner, onTop, hheight]
  rfl

/-- Stacking the points of an instance puts each on top of the earlier ones, and keeps the heights. -/
theorem HeightsOf.stackPoints (h : HeightsOf g earlier heights) (curve : Nat) {owner : Instance α}
    (howner : owner.rises g = true) (points : List (PlacedPoint α)) :
    (stackPoints owner.bench heights points).1.map (CurvePoint.mk curve owner)
        = CurvePoint.stacked g earlier (points.map (CurvePoint.mk curve owner))
      ∧ HeightsOf g (earlier ++ points.map (CurvePoint.mk curve owner))
        (stackPoints owner.bench heights points).2 := by
  induction points generalizing earlier heights with
  | nil =>
    rw [List.map_nil, List.append_nil]
    exact ⟨rfl, h⟩
  | cons p rest ih =>
    have hp := h.onTop_eq curve howner p
    have hnext : HeightsOf g (earlier ++ [CurvePoint.mk curve owner p])
        ((p.place owner.bench, (onTop owner.bench heights p).value) :: heights) := by
      have hconcat := h.concat (s := CurvePoint.mk curve owner p) howner
      rw [← hp] at hconcat
      exact hconcat
    obtain ⟨hrest, hend⟩ := ih hnext
    rw [stackPoints_cons, List.map_cons, List.map_cons, hp, CurvePoint.stacked_cons, hrest]
    refine ⟨rfl, ?_⟩
    rw [List.append_assoc] at hend
    exact hend

/-- Stacking an instance puts its points on top of the earlier ones, if it rises, and keeps the heights. -/
theorem HeightsOf.raised (h : HeightsOf g earlier heights) {x y : AxisPlacement} (hx : x.plan = g.x)
    (hy : y.plan = g.y) (curve : Nat) (i : Instance α) :
    (i.raised x y heights).1.points.map (CurvePoint.mk curve i.bare)
        = CurvePoint.stacked g earlier (i.points.map (CurvePoint.mk curve i.bare))
      ∧ HeightsOf g (earlier ++ i.points.map (CurvePoint.mk curve i.bare)) (i.raised x y heights).2 := by
  have hrises : (i.isStacked && !(i.valueSide x y).plan.isCategory) = i.rises g := by
    rw [plan_valueSide, hx, hy, rises]
  unfold Instance.raised
  rw [hrises]
  cases hi : i.rises g with
  | true =>
    have hbare : i.bare.rises g = true := hi
    exact h.stackPoints curve hbare i.points
  | false =>
    have hstay : ∀ s ∈ i.points.map (CurvePoint.mk curve i.bare), s.owner.rises g = false := by
      intro s hs
      obtain ⟨p, _, rfl⟩ := List.mem_map.mp hs
      exact hi
    exact ⟨(CurvePoint.stacked_of_not_rises g earlier hstay).symm, h.append_of_not_rises hstay⟩

/-- Stacking puts each point on top of the earlier ones. -/
theorem curvePoints_stackFrom {x y : AxisPlacement} (hx : x.plan = g.x) (hy : y.plan = g.y)
    (h : HeightsOf g earlier heights) (start : Nat) (instances : List (Instance α)) :
    curvePoints start (stackFrom x y heights instances)
      = CurvePoint.stacked g earlier (curvePoints start instances) := by
  -- Along the instances; between two of them the heights are those of all points so far.
  induction instances generalizing start earlier heights with
  | nil => rfl
  | cons i rest ih =>
    obtain ⟨hi, hrest⟩ := h.raised hx hy start i
    rw [stackFrom_cons, curvePoints_cons, curvePoints_cons, CurvePoint.stacked_append, bare_raised, hi, ih hrest]

end Instance

/-! ## §3 Stacked layouts -/

/-- The graph without stacking. -/
def BoundGraph.unstacked (b : BoundGraph) : BoundGraph :=
  { b with plan := { b.plan with options := { b.plan.options with stack := false } } }

namespace GraphLayout

variable [Coordinate α] {styles : StyleRegistry} {b : BoundGraph} {g : GraphLayout α}

theorem ofGraph_unstacked (b : BoundGraph) :
    (Instance.ofGraph b.unstacked : List (Instance α)) = Instance.ofGraph b :=
  rfl

/-- The points of a layout are those of its shown instances. -/
theorem points_eq_map_plot (h : ofBound styles b = .ok g) :
    g.points = (Instance.curvePoints 0 (shown b)).map CurvePoint.plot := by
  rw [(ofBound_eq_ok h).2.2.2, Instance.curvePoints, List.map_flatMap]
  refine List.flatMap_congr fun i _ => ?_
  rw [List.map_map]
  rfl

/-- The shown instances of a graph that stacks are those of the graph without stacking, stacked. -/
theorem shown_of_stack (hstack : b.plan.options.stack = true) : ∃ x y : AxisPlacement,
    x.plan = b.plan.x ∧ y.plan = b.plan.y
      ∧ (shown b : List (Instance α)) = Instance.stackFrom x y [] (shown b.unstacked) := by
  refine ⟨(Instance.axes b.plan (Instance.ofGraph b : List (Instance α))).1,
    (Instance.axes b.plan (Instance.ofGraph b : List (Instance α))).2, AxisPlacement.plan_new, AxisPlacement.plan_new, ?_⟩
  rw [shown, shown, ← Instance.filter_isShown_stackFrom, Instance.finished]
  dsimp only
  rw [hstack, if_pos rfl]
  rfl

end GraphLayout

section ExactStacks

variable {K : Type} [ExactNumbers K]

/-- In exact numbers the height of a stack is the sum of its values. -/
theorem CurvePoint.height_eq_sum (values : List K) : height values = values.sum := by
  have hfold : ∀ total : K, values.foldl (fun total value => value + total) total = total + values.sum := by
    induction values with
    | nil => exact fun total => (add_zero total).symm
    | cons v rest ih =>
      intro total
      rw [List.foldl_cons, ih, List.sum_cons, add_comm v total, add_assoc]
  have hzero : (Arithmetic.ofNatural 0 : K) = 0 := Nat.cast_zero
  rw [height, hzero]
  exact (hfold 0).trans (zero_add _)

/-- Each point of a graph that stacks is a point of the graph without stacking, moved with its bounds by the sum of
    the values of the earlier stacked points of its bench at the same position; a point that is not to be stacked, or
    whose value is a category, is the same. -/
theorem GraphLayout.points_stacked {styles : StyleRegistry} {b : BoundGraph} {g : GraphLayout K}
    (hstack : b.plan.options.stack = true) (h : ofBound styles b = .ok g) :
    ∃ g₀ : GraphLayout K, ofBound styles b.unstacked = .ok g₀
      ∧ g₀.points = (Instance.curvePoints 0 (shown b.unstacked)).map CurvePoint.plot
      ∧ g.points = (Instance.curvePoints 0 (shown b.unstacked)).mapIdx fun n s =>
          if s.owner.rises b.plan then
            (s.raise (CurvePoint.valuesAt b.plan s.place
              ((Instance.curvePoints 0 (shown b.unstacked)).take n)).sum).plot
          else s.plot := by
  obtain ⟨g₀, hg₀⟩ : ∃ g₀ : GraphLayout K, ofBound styles b.unstacked = .ok g₀ :=
    exists_ofBound_iff.2 fun i hi => exists_ofBound_iff.1 ⟨g, h⟩ i hi
  refine ⟨g₀, hg₀, points_eq_map_plot hg₀, ?_⟩
  obtain ⟨x, y, hx, hy, hshown⟩ := shown_of_stack (α := K) hstack
  have hheights : Instance.HeightsOf (α := K) b.plan [] [] := fun _ => rfl
  rw [points_eq_map_plot h, hshown, Instance.curvePoints_stackFrom hx hy hheights]
  refine List.ext_getElem? fun n => ?_
  rw [List.getElem?_map, CurvePoint.stacked, List.getElem?_mapIdx, List.getElem?_mapIdx, Option.map_map]
  refine Option.map_congr fun s _ => ?_
  rw [Function.comp_apply, List.nil_append, CurvePoint.onTopOf, CurvePoint.height_eq_sum, apply_ite CurvePoint.plot]

end ExactStacks

/-- A graph that stacks. The first curve has two points at one position; the second curve is not to be stacked, and
    the third one is hidden. -/
def sampleStack : BoundGraph :=
  .ofCurves .linear .linear { GraphOptions.none with stack := true }
    [.ofPairs 0 .none [(.number 1.0, .number 10.0), (.number 1.0, .number 20.0), (.number 2.0, .number 5.0)],
      .ofPairs 1 { CurveOptions.none with noStack := true } [(.number 1.0, .number 7.0)],
      .ofPairs 2 { CurveOptions.none with skip := true } [(.number 1.0, .number 100.0)],
      .ofPairs 3 .none [(.number 1.0, .number 0.5), (.number 2.0, .number 0.25)]]

theorem points_stacked_sample : ∃ g : GraphLayout ℚ, GraphLayout.ofBound .empty sampleStack = .ok g
    ∧ sampleStack.plan.options.stack = true
    ∧ g.points.map (fun p => (p.curve, p.x, p.y, p.low)) = [(0, 1, 10, 10), (0, 1, 30, 30), (0, 2, 5, 5), (1, 1, 7, 7),
      (2, 1, 61 / 2, 61 / 2), (2, 2, 21 / 4, 21 / 4)]
    ∧ g.points = (Instance.curvePoints 0 (GraphLayout.shown sampleStack.unstacked)).mapIdx fun n s =>
        if s.owner.rises sampleStack.plan then
          (s.raise (CurvePoint.valuesAt sampleStack.plan s.place
            ((Instance.curvePoints 0 (GraphLayout.shown sampleStack.unstacked)).take n)).sum).plot
        else s.plot := by
  have hrun : (GraphLayout.ofBound (α := ℚ) .empty sampleStack).toOption.map (fun g =>
      g.points.map fun p => (p.curve, p.x, p.y, p.low)) = some [(0, 1, 10, 10), (0, 1, 30, 30), (0, 2, 5, 5),
        (1, 1, 7, 7), (2, 1, 61 / 2, 61 / 2), (2, 2, 21 / 4, 21 / 4)] := by
    decide +kernel
  obtain ⟨g, hg, hpoints⟩ := exists_eq_ok hrun
  obtain ⟨_, _, _, hstacked⟩ := GraphLayout.points_stacked rfl hg
  exact ⟨g, hg, rfl, hpoints, hstacked⟩

end BenchPlot
