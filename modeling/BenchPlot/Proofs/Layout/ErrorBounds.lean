import Mathlib
import BenchPlot.Proofs.Layout.CategoryAxes
import BenchPlot.Proofs.Layout.PointInvariants
import BenchPlot.Proofs.Statistics.Bounds

/-!
# Error bounds

In exact numbers every placed point has its value between its bounds, and moving a point keeps it there. Division by a
positive number does so too, and a point that moves to the base of its axis takes its bounds with it. But a negative
divisor exchanges the bounds, so that the lower one is above the value.

Main statement: `GraphLayout.bounds_of_mem_drawn`.
-/

namespace BenchPlot

/-! ## §1 Points and their divisors -/

/-- What a graph divides the points of an instance by at a bucket, if there is a divisor. Base curves are not divided,
    nor are categories. -/
def BoundGraph.divisorAt? {α : Type} [Coordinate α] (b : BoundGraph) (i : Instance α) (k : Value) : Option α :=
  if i.curve.options.base || (i.valueSide b.plan.x b.plan.y).isCategory then none
  else (b.divisors? i.bench).bind fun divisors => divisors.find? ⟨k⟩

variable {K : Type} [ExactNumbers K]

/-- A point that was divided by `divisor`, if there is one, has its value between its bounds; between the exchanged
    bounds, if the divisor is negative. -/
structure PlacedPoint.Bounded (divisor : Option K) (p : PlacedPoint K) : Prop where
  kept : (∀ d ∈ divisor, 0 ≤ d) → p.value ∈ Set.Icc p.low p.high
  exchanged : ∀ d ∈ divisor, d < 0 → p.value ∈ Set.Icc p.high p.low

namespace PlacedPoint

/-- A point without a divisor is bounded if its value is between its bounds. -/
theorem bounded_none {p : PlacedPoint K} (h : p.value ∈ Set.Icc p.low p.high) : p.Bounded none :=
  ⟨fun _ => h, fun _ hd => absurd hd (Option.not_mem_none _)⟩

/-- A point that is its own bounds is bounded, whatever its divisor. -/
theorem bounded_flat {p : PlacedPoint K} (hlow : p.low = p.value) (hhigh : p.high = p.value) (divisor : Option K) :
    p.Bounded divisor := by
  have hlow' : p.value ≤ p.low := hlow.ge
  have hhigh' : p.value ≤ p.high := hhigh.ge
  exact ⟨fun _ => ⟨hlow.le, hhigh'⟩, fun _ _ _ => ⟨hhigh.le, hlow'⟩⟩

/-- Moving a point moves its bounds with it. -/
theorem Bounded.shift {divisor : Option K} {p : PlacedPoint K} (h : p.Bounded divisor) (amount : K) :
    (p.shift amount).Bounded divisor where
  kept := fun hd => ⟨add_le_add_left (h.kept hd).1 amount, add_le_add_left (h.kept hd).2 amount⟩
  exchanged := fun d hd hneg =>
    ⟨add_le_add_left (h.exchanged d hd hneg).1 amount, add_le_add_left (h.exchanged d hd hneg).2 amount⟩

/-- Division by a negative number exchanges the bounds. -/
theorem bounded_normalizePoint {p : PlacedPoint K} (h : p.value ∈ Set.Icc p.low p.high) (divisors : AxisMap K)
    (fallback : K) : (Instance.normalizePoint divisors fallback p).Bounded (divisors.find? ⟨p.key⟩) := by
  unfold Instance.normalizePoint
  split
  · rename_i d hd
    obtain ⟨hfound, hnonzero⟩ := Option.filter_eq_some_iff.mp hd
    rw [hfound]
    refine ⟨fun hdivisor => ?_, fun d' hd' hneg => ?_⟩
    · have hnonneg : 0 ≤ d := hdivisor d rfl
      exact ⟨div_le_div_of_nonneg_right h.1 hnonneg, div_le_div_of_nonneg_right h.2 hnonneg⟩
    · obtain rfl := Option.some.inj hd'
      exact ⟨div_le_div_of_nonpos_of_le hneg.le h.2, div_le_div_of_nonpos_of_le hneg.le h.1⟩
  · exact bounded_flat rfl rfl _

end PlacedPoint

namespace Instance

/-- A placed point has its value between its bounds. -/
theorem mem_Icc_of_placePoint? {bucketAxis valueAxis : AxisPlacement} {direction : Direction} {member : Nat}
    {c : Value × Triple (Reduced K)} (hc : c.2.Brackets) {p : PlacedPoint K}
    (h : placePoint? bucketAxis valueAxis direction member c = some p) : p.value ∈ Set.Icc p.low p.high := by
  unfold placePoint? at h
  split at h
  · rename_i bucket value _ hvalue
    cases h
    show value ∈ Set.Icc (bound valueAxis value c.2.low) (bound valueAxis value c.2.high)
    unfold bound
    cases hcategory : valueAxis.plan.isCategory with
    | true => exact ⟨le_refl value, le_refl value⟩
    | false =>
      rw [AxisPlacement.place?, hcategory, if_neg Bool.false_ne_true] at hvalue
      exact hc value (Option.filter_eq_some_iff.mp hvalue).1
  · cases h

/-- The reduced buckets of a graph have their values between their bounds. -/
theorem brackets_of_mem_ofGraph {b : BoundGraph} {i : Instance K} (hi : i ∈ ofGraph b) {c : Value × Triple (Reduced K)}
    (hc : c ∈ i.buckets) : c.2.Brackets := by
  obtain ⟨bench, _, hi⟩ := List.mem_flatMap.mp hi
  obtain ⟨curve, _, hi⟩ := List.mem_flatMap.mp hi
  obtain ⟨d, _, rfl⟩ := List.mem_map.mp hi
  have hreduced : ∀ {a : Aggregation} {bucketAxis valueAxis : AxisPlan} {m : AxisMap (List Value)},
      c ∈ reduce a bucketAxis valueAxis m → c.2.Brackets := by
    intro a bucketAxis valueAxis m hmem
    obtain ⟨entry, _, hmem⟩ := List.mem_flatMap.mp hmem
    obtain ⟨t, ht, rfl⟩ := List.mem_map.mp hmem
    exact Aggregation.brackets_apply a (List.mem_filter.mp ht).1
  dsimp only at hc
  split at hc
  · exact hreduced hc
  · exact hreduced hc

/-- What holds of the points of a graph before they are moved: the key of a point is its bucket, and it is bounded by
    its divisor. -/
def Bounded (b : BoundGraph) (i : Instance K) (p : PlacedPoint K) : Prop :=
  p.key = i.bucketSide p.rawX p.rawY ∧ p.Bounded (b.divisorAt? i p.key)

/-- Placed points are between their bounds and have their buckets as keys. -/
theorem allPoints_placed (b : BoundGraph) : AllPoints (fun i (p : PlacedPoint K) =>
    p.key = i.bucketSide p.rawX p.rawY ∧ p.value ∈ Set.Icc p.low p.high) b.placed := by
  intro i hi p hp
  obtain ⟨member, hmember⟩ := List.mem_iff_getElem?.mp hi
  rw [BoundGraph.placed, getElem?_placeAll] at hmember
  obtain ⟨j, hj, rfl⟩ := Option.map_eq_some_iff.mp hmember
  refine ⟨key_of_mem_placed hp, ?_⟩
  obtain ⟨c, hc, hp⟩ := List.mem_filterMap.mp hp
  exact mem_Icc_of_placePoint? (brackets_of_mem_ofGraph (List.mem_of_getElem? hj) hc) hp

/-- Division bounds the points of a placed instance by their divisors. -/
theorem bounded_divided {b : BoundGraph} {i : Instance K} (hi : i ∈ b.placed) :
    ∀ p ∈ (i.divided b.plan (b.divisors? i.bench)).points, Bounded b i.bare p := by
  have hplaced := allPoints_placed b i hi
  have hstay : (∀ k, b.divisorAt? i.bare k = none) → ∀ p ∈ i.points, Bounded b i.bare p := by
    intro hnone p hp
    obtain ⟨hkey, hmem⟩ := hplaced p hp
    exact ⟨hkey, hnone p.key ▸ PlacedPoint.bounded_none hmem⟩
  unfold divided
  cases hdivisors : (b.divisors? i.bench : Option (AxisMap K)) with
  | none =>
    have hnone : ∀ k, b.divisorAt? i.bare k = none := by
      intro k
      have hbench : (b.divisors? i.bare.bench : Option (AxisMap K)) = none := hdivisors
      rw [BoundGraph.divisorAt?, hbench, Option.bind_none, ite_self]
    exact hstay hnone
  | some divisors =>
    dsimp only
    cases hexcepted : i.curve.options.base || (i.valueSide b.plan.x b.plan.y).isCategory with
    | true => exact hstay fun k => if_pos hexcepted
    | false =>
      rw [if_neg Bool.false_ne_true]
      intro p hp
      obtain ⟨q, hq, rfl⟩ := List.mem_map.mp hp
      obtain ⟨hkey, hmem⟩ := hplaced q hq
      have houtline := outline_normalizePoint divisors (Arithmetic.ofFloat (i.valueSide b.plan.x b.plan.y).base) q
      have hkey' : (normalizePoint divisors (Arithmetic.ofFloat (i.valueSide b.plan.x b.plan.y).base) q).key = q.key :=
        congrArg (fun o => o.2.2.1) houtline
      refine ⟨?_, ?_⟩
      · rw [hkey', hkey]
        exact (congrArg (fun o => i.bucketSide o.1 o.2.1) houtline).symm
      · have hdivisor : b.divisorAt? i.bare q.key = divisors.find? ⟨q.key⟩ := by
          have hbench : (b.divisors? i.bare.bench : Option (AxisMap K)) = some divisors := hdivisors
          rw [BoundGraph.divisorAt?, hbench]
          exact if_neg (ne_true_of_eq_false hexcepted)
        rw [hkey', hdivisor]
        exact PlacedPoint.bounded_normalizePoint hmem divisors _

/-- The final points of a graph are bounded by their divisors. -/
theorem allPoints_bounded_finished (b : BoundGraph) : AllPoints (Bounded (K := K) b) (finished b.plan (ofGraph b)) := by
  have hshift : ∀ (i : Instance K) (p : PlacedPoint K) (amount : K), Bounded b i p → Bounded b i (p.shift amount) :=
    fun _ _ amount hp => ⟨hp.1, hp.2.shift amount⟩
  have hsummed : AllPoints (Bounded (K := K) b) b.summed :=
    AllPoints.summed (fun _ _ => True) (fun i p amount hp _ => hshift i p amount hp) (fun _ _ _ => trivial)
      (fun _ => trivial) fun i hi => bounded_divided hi
  rw [finished_ofGraph]
  split
  · exact hsummed.stackFrom (fun _ _ => True) (fun i p amount hp _ => hshift i p amount hp)
      (fun _ _ _ _ => trivial) fun _ => trivial
  · exact hsummed

end Instance

/-! ## §3 Layouts -/

/-- In exact numbers the value of a drawn point lies between its bounds, unless it was divided by a negative number: then
    it lies between the exchanged bounds. -/
theorem GraphLayout.bounds_of_mem_drawn {styles : StyleRegistry} {b : BoundGraph} {g : GraphLayout K}
    (h : ofBound styles b = .ok g) {e : Instance K × List (PlotPoint K)} (he : e ∈ g.drawn b) {p : PlotPoint K}
    (hp : p ∈ e.2) :
    ((∀ d ∈ b.divisorAt? e.1 (e.1.bucketSide p.rawX p.rawY), 0 ≤ d) →
      p.low ≤ e.1.valueSide p.x p.y ∧ e.1.valueSide p.x p.y ≤ p.high)
    ∧ ∀ d ∈ b.divisorAt? e.1 (e.1.bucketSide p.rawX p.rawY), d < 0 →
      p.high ≤ e.1.valueSide p.x p.y ∧ e.1.valueSide p.x p.y ≤ p.low := by
  rw [drawn_ofBound h] at he
  obtain ⟨i, hi, rfl⟩ := List.mem_map.mp he
  obtain ⟨q, hq, rfl⟩ := List.mem_map.mp hp
  obtain ⟨hkey, hkept, hexchanged⟩ := Instance.allPoints_bounded_finished b i (List.mem_filter.mp hi).1 q hq
  have hvalue : i.bare.valueSide (i.plotPoint q).x (i.plotPoint q).y = q.value := i.valueSide_plotPoint q
  rw [hkey] at hkept hexchanged
  show ((∀ d ∈ b.divisorAt? i.bare (i.bare.bucketSide q.rawX q.rawY), 0 ≤ d) →
      q.low ≤ i.bare.valueSide (i.plotPoint q).x (i.plotPoint q).y
        ∧ i.bare.valueSide (i.plotPoint q).x (i.plotPoint q).y ≤ q.high)
    ∧ ∀ d ∈ b.divisorAt? i.bare (i.bare.bucketSide q.rawX q.rawY), d < 0 →
      q.high ≤ i.bare.valueSide (i.plotPoint q).x (i.plotPoint q).y
        ∧ i.bare.valueSide (i.plotPoint q).x (i.plotPoint q).y ≤ q.low
  rw [hvalue]
  exact ⟨hkept, hexchanged⟩

/-! A curve with the mean of two values, and a base curve with a value below zero. The sort of the median does not
evaluate, so the instances are rewritten first. -/

def belowZero : BoundCurve :=
  .ofPairs 0 { CurveOptions.none with base := true } [(.number 1.0, .number (-2.0))]

def meanOfTwo : BoundCurve :=
  let curve := BoundCurve.ofPairs 1 .none [(.number 1.0, .number 1.0), (.number 1.0, .number 3.0)]
  { curve with plan := { curve.plan with aggregation := some .mean } }

def sampleNegative : BoundGraph :=
  .ofCurves .linear .linear { GraphOptions.none with normalize := true } [belowZero, meanOfTwo]

theorem apply_mean_sample :
    (Aggregation.mean.apply [.number 1.0, .number 3.0] : List (Triple (Reduced ℚ))) = [.spread 2 1 3] := by
  have hmean : Statistics.mean? [(1 : ℚ), 3] = some 2 := by decide +kernel
  have hmedian : Statistics.median? [(1 : ℚ), 3] = some 2 := by
    rw [Statistics.median?, Statistics.sorted_pair]
    decide +kernel
  have hleast : Arithmetic.least [(1 : ℚ), 3] = 1 := by decide +kernel
  have hgreatest : Arithmetic.greatest [(1 : ℚ), 3] = 3 := by decide +kernel
  have hnumbers : ([.number 1.0, .number 3.0].filterMap Value.toNumber?).map Decimal.toRational = [1, 3] := by
    decide +kernel
  have hreduced : Aggregation.reduceNumbers .mean [(1 : ℚ), 3] = some (.spread 2 1 3) := by
    rw [Aggregation.reduceNumbers, hmedian, hmean, hleast, hgreatest]
    rfl
  have happly : (Aggregation.mean.apply [.number 1.0, .number 3.0] : List (Triple (Reduced ℚ)))
      = (Aggregation.reduceNumbers .mean
        (([.number 1.0, .number 3.0].filterMap Value.toNumber?).map Decimal.toRational)).toList := rfl
  rw [happly, hnumbers, hreduced]
  rfl

theorem ofGraph_sampleNegative : (Instance.ofGraph sampleNegative : List (Instance ℚ))
    = Instance.ofCurve sampleNegative.plan 0 belowZero
      ++ [⟨meanOfTwo.plan, 0, "", none, true, .byX, [(.number 1.0, .spread 2 1 3)], []⟩] := by
  have hgraph : (Instance.ofGraph sampleNegative : List (Instance ℚ)) = Instance.ofCurve sampleNegative.plan 0 belowZero
      ++ [⟨meanOfTwo.plan, 0, "", none, true, .byX,
        (((Aggregation.mean.apply [.number 1.0, .number 3.0] : List (Triple (Reduced ℚ))).filter fun _ => true).map
          fun t => (.number 1.0, t)) ++ [], []⟩] := rfl
  rw [hgraph, apply_mean_sample]
  rfl

theorem bounds_of_mem_drawn_sample : ∃ (g : GraphLayout ℚ) (e : Instance ℚ × List (PlotPoint ℚ)) (p : PlotPoint ℚ),
    GraphLayout.ofBound .empty sampleNegative = .ok g ∧ e ∈ g.drawn sampleNegative ∧ p ∈ e.2
    ∧ sampleNegative.divisorAt? e.1 (e.1.bucketSide p.rawX p.rawY) = some (-2)
    ∧ p.high ≤ e.1.valueSide p.x p.y ∧ e.1.valueSide p.x p.y ≤ p.low := by
  have hrun : (GraphLayout.ofBound (α := ℚ) .empty sampleNegative).toOption.map (fun g =>
      (g.drawn sampleNegative)[1]?.bind fun e => e.2[0]?.bind fun p =>
        sampleNegative.divisorAt? e.1 (e.1.bucketSide p.rawX p.rawY)) = some (some (-2 : ℚ)) := by
    unfold GraphLayout.ofBound GraphLayout.drawn BoundGraph.divisorAt? BoundGraph.divisors? BoundGraph.placed
    rw [ofGraph_sampleNegative]
    decide +kernel
  obtain ⟨g, hg, hdrawn⟩ := exists_eq_ok hrun
  obtain ⟨e, he, hpoints⟩ := Option.bind_eq_some_iff.mp hdrawn
  obtain ⟨p, hp, hdivisor⟩ := Option.bind_eq_some_iff.mp hpoints
  have hmem := List.mem_of_getElem? he
  have hmem' := List.mem_of_getElem? hp
  exact ⟨g, e, p, hg, hmem, hmem', hdivisor,
    (GraphLayout.bounds_of_mem_drawn hg hmem hmem').2 (-2) hdivisor (by decide +kernel)⟩

/-- The mean of the second curve is plotted below its lower bound, and above its upper one. -/
theorem exchangedBounds_sample : ∃ g : GraphLayout ℚ, GraphLayout.ofBound .empty sampleNegative = .ok g
    ∧ g.points.map (fun p => (p.y, p.low, p.high)) = [(-2, -2, -2), (-1, -1 / 2, -3 / 2)]
    ∧ ¬∀ p ∈ g.points, p.low ≤ p.y ∧ p.y ≤ p.high := by
  have hrun : (GraphLayout.ofBound (α := ℚ) .empty sampleNegative).toOption.map (fun g =>
      g.points.map fun p => (p.y, p.low, p.high)) = some [(-2, -2, -2), (-1, -1 / 2, -3 / 2)] := by
    unfold GraphLayout.ofBound
    rw [ofGraph_sampleNegative]
    decide +kernel
  obtain ⟨g, hg, hpoints⟩ := exists_eq_ok hrun
  refine ⟨g, hg, hpoints, fun hbounds => ?_⟩
  have hall : ∀ t ∈ g.points.map (fun p => (p.y, p.low, p.high)), t.2.1 ≤ t.1 ∧ t.1 ≤ t.2.2 :=
    List.forall_mem_map.mpr hbounds
  rw [hpoints] at hall
  exact absurd hall (by decide +kernel)

end BenchPlot
