import BenchPlot.Proofs.Decimal.Signs
import BenchPlot.Proofs.Layout.BaseCurves
import BenchPlot.Proofs.Layout.CategoryAxes
import BenchPlot.Proofs.Layout.Independence
import BenchPlot.Proofs.Layout.PointInvariants

/-!
# Points along logarithmic axes

Only positive numbers are placed on a logarithmic axis. A point stays at its place along its bucket axis. Along its value
axis it may be moved: sums and stacks of positive values are positive, but a point without a divisor moves to the base of
the axis, which is zero unless the description says otherwise, and a quotient may be too small for a float. So the values
of a graph that normalizes are not negative, but they need not be positive.

Main statement: `GraphLayout.signs_of_mem_drawn`.
-/

namespace BenchPlot

open Decimal (PositiveOrNaN NonnegativeOrNaN)

/-! ## §1 Placed points -/

/-- Whether an axis is logarithmic. -/
def AxisPlan.isLog (a : AxisPlan) : Bool :=
  a.scale.scaleKind == .log

/-- Whether the values of an instance stand along a logarithmic axis. -/
def Instance.isLogValued {α : Type} (g : GraphPlan) (i : Instance α) : Bool :=
  (i.valueSide g.x g.y).isLog

/-- A logarithmic axis has places for positive numbers only. -/
theorem AxisPlacement.positive_of_place? {a : AxisPlacement} (hlog : a.plan.isLog = true) {member : Nat}
    {v : Reduced Float} {x : Float} (h : a.place? member v = some x) : PositiveOrNaN x := by
  have hcategory : a.plan.isCategory = false := by
    unfold AxisPlan.isLog at hlog
    unfold AxisPlan.isCategory
    rw [eq_of_beq hlog]
    rfl
  rw [place?, hcategory, if_neg Bool.false_ne_true] at h
  obtain ⟨-, hkept⟩ := Option.filter_eq_some_iff.mp h
  have hsign : a.leavesOut x = decide (x ≤ 0.0) := by
    unfold leavesOut
    rw [show (a.plan.scale.scaleKind == ScaleKind.log) = true from hlog, Bool.true_and]
    rfl
  rw [hsign] at hkept
  exact Decimal.positiveOrNaN_iff_not_le.mpr (of_decide_eq_false (by simpa using hkept))

namespace Instance

/-- Placed points are positive along logarithmic axes. -/
theorem positive_placed (b : BoundGraph) : AllPoints (fun i (p : PlacedPoint Float) =>
    ((i.bucketSide b.plan.x b.plan.y).isLog = true → PositiveOrNaN p.bucket)
    ∧ (i.isLogValued b.plan = true → PositiveOrNaN p.value)) b.placed := by
  intro i hi p hp
  obtain ⟨member, hmember⟩ := List.mem_iff_getElem?.mp hi
  rw [BoundGraph.placed, getElem?_placeAll] at hmember
  obtain ⟨j, _, rfl⟩ := Option.map_eq_some_iff.mp hmember
  obtain ⟨c, _, hc⟩ := List.mem_filterMap.mp hp
  obtain ⟨hbucket, hvalue, -⟩ := placePoint?_eq_some hc
  have hx : (b.axes Float).1.plan = b.plan.x := AxisPlacement.plan_new
  have hy : (b.axes Float).2.plan = b.plan.y := AxisPlacement.plan_new
  refine ⟨fun hlog => AxisPlacement.positive_of_place? ?_ hbucket, fun hlog => AxisPlacement.positive_of_place? ?_ hvalue⟩
  · rw [plan_bucketSide, hx, hy]
    exact hlog
  · rw [plan_valueSide, hx, hy]
    exact hlog

/-! ## §2 Divided points -/

/-- A bench has the same base curve before and after its instances are placed. -/
theorem map_bare_base?_placed (b : BoundGraph) (bench : Nat) :
    (base? (b.placed : List (Instance Float)) bench).map bare = base? (ofGraph b) bench := by
  have hbare : (b.placed : List (Instance Float)).map bare = ofGraph b :=
    (map_bare_placeAll ..).trans (map_bare_ofGraph b)
  rw [base?, base?, ← hbare, List.find?_map]
  rfl

end Instance

/-- A value that is not negative, and positive unless the graph normalizes. -/
structure BoundGraph.Signed (b : BoundGraph) (v : Float) : Prop where
  nonnegative : NonnegativeOrNaN v
  positive : b.plan.options.normalize = false → PositiveOrNaN v

namespace BoundGraph

variable {b : BoundGraph}

theorem signed_of_positive {v : Float} (h : PositiveOrNaN v) : b.Signed v :=
  ⟨h.nonnegative, fun _ => h⟩

theorem Signed.add {v amount : Float} (h : b.Signed v) (hamount : NonnegativeOrNaN amount) : b.Signed (v + amount) :=
  ⟨h.nonnegative.add hamount, fun hnormalize => (h.positive hnormalize).add hamount⟩

/-- The values along logarithmic axes in a bench are divided by values along logarithmic axes, if at all. -/
def DividesAlongLog (b : BoundGraph) (bench : Nat) : Prop :=
  b.plan.options.normalize = true →
    ∀ i, Instance.base? (Instance.ofGraph b : List (Instance Float)) bench = some i → i.isLogValued b.plan = true

/-- No point that is moved to the base of a logarithmic axis becomes negative. -/
def HasNonnegativeBases (b : BoundGraph) : Prop :=
  b.plan.options.normalize = true → ∀ a ∈ [b.plan.x, b.plan.y], a.isLog = true → NonnegativeOrNaN a.base

/-- The divisors of a bench that divides along logarithmic axes are positive. -/
theorem DividesAlongLog.positive {bench : Nat} (h : b.DividesAlongLog bench) {divisors : AxisMap Float}
    (hdivisors : b.divisors? bench = some divisors) {k : AxisKey} {d : Float} (hd : divisors.find? k = some d) :
    PositiveOrNaN d := by
  unfold BoundGraph.divisors? at hdivisors
  split at hdivisors
  · rename_i hnormalize
    obtain ⟨i, hi, rfl⟩ := Option.map_eq_some_iff.mp hdivisors
    rw [Instance.find?_firstValues] at hd
    obtain ⟨p, hp, rfl⟩ := Option.map_eq_some_iff.mp hd
    have hbase : Instance.base? (Instance.ofGraph b) bench = some i.bare :=
      (Instance.map_bare_base?_placed b bench).symm.trans (congrArg (Option.map Instance.bare) hi)
    have hlog : i.bare.isLogValued b.plan = true := h hnormalize i.bare hbase
    exact (Instance.positive_placed b i (List.mem_of_find?_eq_some hi) p (List.mem_of_find?_eq_some hp)).2 hlog
  · cases hdivisors

end BoundGraph

namespace Instance

variable {b : BoundGraph}

/-- Points along a logarithmic axis are moved by division to values that are not negative. -/
theorem signed_divided (hbases : b.HasNonnegativeBases) {i : Instance Float} (hi : i ∈ b.placed)
    (hlog : i.isLogValued b.plan = true) (hbench : b.DividesAlongLog i.bench) :
    ∀ p ∈ (i.divided b.plan (b.divisors? i.bench)).points, b.Signed p.value := by
  have hplaced : ∀ p ∈ i.points, PositiveOrNaN p.value := fun p hp => (positive_placed b i hi p hp).2 hlog
  have hstay : ∀ p ∈ i.points, b.Signed p.value := fun p hp => BoundGraph.signed_of_positive (hplaced p hp)
  unfold divided
  cases hdivisors : (b.divisors? i.bench : Option (AxisMap Float)) with
  | none => exact hstay
  | some divisors =>
    dsimp only
    split
    · exact hstay
    · intro p hp
      obtain ⟨q, hq, rfl⟩ := List.mem_map.mp hp
      have hnormalize : b.plan.options.normalize = true := by
        by_contra hnone
        rw [BoundGraph.divisors?, if_neg hnone] at hdivisors
        cases hdivisors
      refine ⟨?_, fun hnone => absurd hnormalize (ne_true_of_eq_false hnone)⟩
      unfold normalizePoint
      split
      · rename_i d hd
        exact (hplaced q hq).div (hbench.positive hdivisors (Option.filter_eq_some_iff.mp hd).1)
      · refine hbases hnormalize _ ?_ hlog
        unfold valueSide bucketSide
        cases i.direction <;> simp

/-! ## §3 Sums and stacks -/

theorem nonnegative_zero : NonnegativeOrNaN (Arithmetic.ofNatural 0) :=
  .inl (by decide +kernel)

/-- Running sums keep the signs along logarithmic axes. -/
theorem signed_summed (hbases : b.HasNonnegativeBases) : AllPoints (fun i (p : PlacedPoint Float) =>
    i.isLogValued b.plan = true → b.DividesAlongLog i.bench → b.Signed p.value) b.summed :=
  AllPoints.summed
    (fun i amount => i.isLogValued b.plan = true → b.DividesAlongLog i.bench → NonnegativeOrNaN amount)
    (fun _ _ _ hp hamount hlog hbench => (hp hlog hbench).add (hamount hlog hbench))
    (fun _ _ hp hlog hbench => (hp hlog hbench).nonnegative) (fun _ _ _ => nonnegative_zero)
    fun _ hi p hp hlog hbench => signed_divided hbases hi hlog hbench p hp

variable {own : Nat × Int → Prop}

/-- So do stacks, at the places `own` where all stacked points stand along logarithmic axes. -/
theorem signed_stack {x y : AxisPlacement} {instances : List (Instance Float)}
    (h : AllPoints (fun i p => i.isLogValued b.plan = true → own (p.place i.bench) → b.Signed p.value) instances)
    (hothers : AllPoints (fun i p => i.isStacked = true → i.isLogValued b.plan = false → ¬own (p.place i.bench))
      instances) :
    AllPoints (fun i p => i.isLogValued b.plan = true → own (p.place i.bench) → b.Signed p.value)
      (stack x y instances) := by
  have hnone : AllowedHeights (fun place amount => own place → NonnegativeOrNaN amount) [] := by
    intro place _
    rw [List.lookup_nil, Option.getD_none]
    exact nonnegative_zero
  have hstacked : AllPoints (fun i p => (i.isLogValued b.plan = true → own (p.place i.bench) → b.Signed p.value)
      ∧ (i.isStacked = true → i.isLogValued b.plan = false → ¬own (p.place i.bench))) (stack x y instances) := by
    refine AllPoints.stackFrom (fun place amount => own place → NonnegativeOrNaN amount)
      (fun i p amount hp hamount => ⟨fun hlog hown => (hp.1 hlog hown).add (hamount hown), hp.2⟩) ?_
      hnone fun i hi p hp => ⟨h i hi p hp, hothers i hi p hp⟩
    intro i p hasked hp hown
    cases hlog : i.isLogValued b.plan with
    | true => exact (hp.1 hlog hown).nonnegative
    | false => exact absurd hown (hp.2 hasked hlog)
  exact hstacked.mono fun _ _ hp => hp.1

/-- The final points have the signs of their logarithmic axes at the places `own`. -/
theorem signed_finished (hbases : b.HasNonnegativeBases) (hown : ∀ place, own place → b.DividesAlongLog place.1)
    (hothers : b.plan.options.stack = true → AllPoints (fun i (p : PlacedPoint Float) =>
      i.isStacked = true → i.isLogValued b.plan = false → ¬own (p.place i.bench)) (finished b.plan (ofGraph b))) :
    AllPoints (fun i (p : PlacedPoint Float) =>
      i.isLogValued b.plan = true → own (p.place i.bench) → b.Signed p.value) (finished b.plan (ofGraph b)) := by
  have hsummed : AllPoints (fun i (p : PlacedPoint Float) =>
      i.isLogValued b.plan = true → own (p.place i.bench) → b.Signed p.value) b.summed :=
    (signed_summed hbases).mono fun i p hp hlog hplace => hp hlog (hown _ hplace)
  rw [finished_ofGraph] at hothers ⊢
  split
  · rename_i hstack
    rw [if_pos hstack] at hothers
    refine signed_stack hsummed fun i hi p hp => ?_
    -- Stacking moves no point to another place, so `p` is where a stacked point is.
    obtain ⟨j, hj, hbare, q, hq, hqp⟩ := exists_of_map_outline_eq (map_outline_stackFrom ..) hi hp
    have hbench : j.bench = i.bench := (congrArg bench hbare :)
    have hother := hothers hstack j hj q hq
    rw [hbare, PlacedPoint.place_eq_of_outline hqp] at hother
    exact hother
  · exact hsummed

/-- The final points are positive along a logarithmic bucket axis. -/
theorem positive_bucket_finished (b : BoundGraph) : AllPoints (fun i (p : PlacedPoint Float) =>
    (i.bucketSide b.plan.x b.plan.y).isLog = true → PositiveOrNaN p.bucket) (finished b.plan (ofGraph b)) := by
  intro i hi p hp hlog
  obtain ⟨j, hj, hbare, q, hq, hqp⟩ := exists_of_map_outline_eq (map_outline_finished ..).symm hi hp
  have hbucket : q.bucket = p.bucket := congrArg (fun o => o.2.2.2) hqp
  rw [← hbucket]
  exact (positive_placed b j hj q hq).1 (hbare ▸ hlog)

end Instance

/-! ## §4 Layouts -/

namespace GraphLayout

variable {styles : StyleRegistry} {b : BoundGraph} {g : GraphLayout Float}

/-- The points at a place of a bench have to do with points along logarithmic axes only: those of the base curve, where
    the graph normalizes, and the stacked ones at the place, where it stacks. -/
structure StandsOnLog (g : GraphLayout Float) (b : BoundGraph) (place : Nat × Int) : Prop where
  base : b.DividesAlongLog place.1
  stack : b.plan.options.stack = true → ∀ e ∈ g.drawn b, e.1.isLogValued b.plan = false →
    e.1.curve.options.noStack = false → ∀ p ∈ e.2, p.place e.1 ≠ place

/-- Where all value axes are logarithmic, all places are such. -/
theorem standsOnLog_of_forall
    (hlog : ∀ i ∈ (Instance.ofGraph b : List (Instance Float)), i.isLogValued b.plan = true) (place : Nat × Int) :
    g.StandsOnLog b place where
  base := fun _ i hi => hlog i (List.mem_of_find?_eq_some hi)
  stack := by
    intro _ e he hother
    obtain ⟨n, hn, rfl⟩ := List.mem_map.mp he
    have hmem := (List.mem_filter.mp (List.fst_mem_of_mem_zipIdx hn)).1
    exact absurd (hlog n.1 hmem) (ne_true_of_eq_false hother)

/-- A drawn point is positive along a logarithmic bucket axis. Along a logarithmic value axis it is positive if the graph
    does not normalize, and not negative if it does and the bases of its logarithmic axes are not; provided that the
    points that it is divided by or stacked on stand along a logarithmic axis too. -/
theorem signs_of_mem_drawn (h : ofBound styles b = .ok g) {e : Instance Float × List (PlotPoint Float)}
    (he : e ∈ g.drawn b) {p : PlotPoint Float} (hp : p ∈ e.2) :
    ((e.1.bucketSide b.plan.x b.plan.y).isLog = true → PositiveOrNaN (e.1.bucketSide p.x p.y))
    ∧ (e.1.isLogValued b.plan = true → g.StandsOnLog b (p.place e.1) →
      (b.plan.options.normalize = false → PositiveOrNaN (e.1.valueSide p.x p.y))
      ∧ (b.HasNonnegativeBases → NonnegativeOrNaN (e.1.valueSide p.x p.y))) := by
  have hdrawn := drawn_ofBound h
  have hothers : b.plan.options.stack = true → Instance.AllPoints (fun i (p : PlacedPoint Float) =>
      i.isStacked = true → i.isLogValued b.plan = false → ¬g.StandsOnLog b (p.place i.bench))
      (Instance.finished b.plan (Instance.ofGraph b)) := by
    intro hstack i hi q hq hasked hlog hplace
    obtain ⟨hshown, hraised⟩ := Bool.and_eq_true_iff.mp hasked
    have hnoStack : i.bare.curve.options.noStack = false := by simpa using hraised
    have hmem : i.drawing ∈ g.drawn b := hdrawn ▸ List.mem_map_of_mem (List.mem_filter.mpr ⟨hi, hshown⟩)
    exact hplace.stack hstack i.drawing hmem hlog hnoStack (i.plotted q) (List.mem_map_of_mem hq) (i.place_plotted q)
  rw [hdrawn] at he
  obtain ⟨i, hi, rfl⟩ := List.mem_map.mp he
  obtain ⟨q, hq, rfl⟩ := List.mem_map.mp hp
  have hmem := (List.mem_filter.mp hi).1
  have hbucket : i.bucketSide (i.plotPoint q).x (i.plotPoint q).y = q.bucket := i.bucketSide_plotPoint q
  have hvalue : i.valueSide (i.plotPoint q).x (i.plotPoint q).y = q.value := i.valueSide_plotPoint q
  show (_ → PositiveOrNaN (i.bucketSide (i.plotPoint q).x (i.plotPoint q).y))
    ∧ (_ → g.StandsOnLog b ((i.plotted q).place i) →
      (_ → PositiveOrNaN (i.valueSide (i.plotPoint q).x (i.plotPoint q).y))
      ∧ (_ → NonnegativeOrNaN (i.valueSide (i.plotPoint q).x (i.plotPoint q).y)))
  rw [hbucket, hvalue, Instance.place_plotted]
  have hsigned : b.HasNonnegativeBases → i.isLogValued b.plan = true → g.StandsOnLog b (q.place i.bench) →
      b.Signed q.value :=
    fun hbases hlog hplace => Instance.signed_finished hbases (fun _ h => h.base) hothers i hmem q hq hlog hplace
  refine ⟨Instance.positive_bucket_finished b i hmem q hq, fun hlog hplace => ⟨fun hnone => ?_, fun hbases => ?_⟩⟩
  · have hbases : b.HasNonnegativeBases := fun hnormalize => absurd hnormalize (ne_true_of_eq_false hnone)
    exact (hsigned hbases hlog hplace).positive hnone
  · exact (hsigned hbases hlog hplace).nonnegative

end GraphLayout

/-! A curve that is divided by a base curve at its first position, and has no divisor at its second one. The base of the
axis is zero, as it is unless the description says otherwise. -/

def sampleLog : BoundGraph :=
  .ofCurves .linear .log { GraphOptions.none with normalize := true }
    [.ofPairs 0 { CurveOptions.none with base := true } [(.number 1.0, .number 10.0)],
      .ofPairs 1 .none [(.number 1.0, .number 20.0), (.number 2.0, .number 30.0)]]

theorem isLogValued_sampleLog (i : Instance Float) (hi : i ∈ Instance.ofGraph sampleLog) :
    i.isLogValued sampleLog.plan = true := by
  have hall : (Instance.ofGraph sampleLog : List (Instance Float)).all (Instance.isLogValued sampleLog.plan) = true := by
    decide +kernel
  exact List.all_eq_true.mp hall i hi

theorem signs_of_mem_drawn_sample : ∃ (g : GraphLayout Float) (e : Instance Float × List (PlotPoint Float))
    (p : PlotPoint Float), GraphLayout.ofBound .empty sampleLog = .ok g ∧ e ∈ g.drawn sampleLog ∧ p ∈ e.2
    ∧ (p.x, p.y) = (2.0, 0.0) ∧ e.1.isLogValued sampleLog.plan = true
    ∧ g.StandsOnLog sampleLog (p.place e.1) ∧ sampleLog.HasNonnegativeBases
    ∧ NonnegativeOrNaN (e.1.valueSide p.x p.y) := by
  have hrun : (GraphLayout.ofBound (α := Float) .empty sampleLog).toOption.map (fun g =>
      (g.drawn sampleLog)[1]?.bind fun e => e.2[1]?.map fun p =>
        (p.x, p.y, e.1.isLogValued sampleLog.plan)) = some (some (2.0, 0.0, true)) := by
    decide +kernel
  obtain ⟨g, hg, hdrawn⟩ := exists_eq_ok hrun
  obtain ⟨e, he, hpoints⟩ := Option.bind_eq_some_iff.mp hdrawn
  obtain ⟨p, hp, hpoint⟩ := Option.map_eq_some_iff.mp hpoints
  have hmem := List.mem_of_getElem? he
  have hmem' := List.mem_of_getElem? hp
  have hplace : g.StandsOnLog sampleLog (p.place e.1) := GraphLayout.standsOnLog_of_forall isLogValued_sampleLog _
  have hlog : e.1.isLogValued sampleLog.plan = true := congrArg (·.2.2) hpoint
  have hbases : sampleLog.HasNonnegativeBases := by
    intro _ a ha _
    have hzero : a.base = 0.0 := by
      obtain rfl | ha := List.mem_cons.mp ha
      · rfl
      · obtain rfl := List.mem_singleton.mp ha
        rfl
    exact hzero ▸ .inl (by decide)
  exact ⟨g, e, p, hg, hmem, hmem', congrArg (fun t => (t.1, t.2.1)) hpoint, hlog, hplace, hbases,
    ((GraphLayout.signs_of_mem_drawn hg hmem hmem').2 hlog hplace).2 hbases⟩

/-- The point without a divisor is plotted at zero. -/
theorem zeroOnLogAxis_sample : sampleLog.plan.y.isLog = true
    ∧ ∃ g : GraphLayout Float, GraphLayout.ofBound .empty sampleLog = .ok g
      ∧ g.points.map (fun p => (p.x, p.y)) = [(1.0, 10.0), (1.0, 2.0), (2.0, 0.0)]
      ∧ ¬∀ p ∈ g.points, 0.0 < p.y := by
  have hrun : (GraphLayout.ofBound (α := Float) .empty sampleLog).toOption.map (fun g =>
      g.points.map fun p => (p.x, p.y)) = some [(1.0, 10.0), (1.0, 2.0), (2.0, 0.0)] := by
    decide +kernel
  obtain ⟨g, hg, hpoints⟩ := exists_eq_ok hrun
  refine ⟨rfl, g, hg, hpoints, fun hpositive => ?_⟩
  have hall : ∀ t ∈ g.points.map (fun p => (p.x, p.y)), 0.0 < t.2 :=
    List.forall_mem_map.mpr hpositive
  rw [hpoints] at hall
  exact absurd (hall (2.0, 0.0) (by simp)) (by decide)

end BenchPlot
