import BenchPlot.Proofs.Layout.Drawing
import BenchPlot.Proofs.Layout.Places

/-!
# Points along axes of categories

Which of the reduced pairs of a shown instance are plotted, and where. A pair becomes one point if both its values
have a place along their axes, and no point otherwise. A point stands at the category of its value, beside it by
the offset of its bar, whatever passes the graph asks for; only accumulating moves values along categories, where
the bucket axis has none.

Main statements: `GraphLayout.exists_plotsPairs` and `GraphLayout.standsAtCategories_ofBound`.
-/

namespace BenchPlot

namespace Instance

variable {α : Type}

/-! ## §1 Placed instances -/

/-- The reduced pairs of an instance: its x values with its y values. -/
def pairs [Coordinate α] (i : Instance α) : List (Value × Value) :=
  i.buckets.map fun b => (i.bucketSide b.1 b.2.value.toValue, i.bucketSide b.2.value.toValue b.1)

variable [Coordinate α]

/-- What is known of the point of a reduced bucket. -/
theorem placePoint?_eq_some {bucketAxis valueAxis : AxisPlacement} {direction : Direction} {member : Nat}
    {b : Value × Triple (Reduced α)} {p : PlacedPoint α}
    (h : placePoint? bucketAxis valueAxis direction member b = some p) :
    bucketAxis.place? member (.given b.1 : Reduced Float) = some p.bucket
      ∧ valueAxis.place? member b.2.value = some p.value
      ∧ (direction = .byX → p.rawX = b.1 ∧ p.rawY = b.2.value.toValue)
      ∧ (direction = .byY → p.rawX = b.2.value.toValue ∧ p.rawY = b.1) := by
  unfold placePoint? at h
  split at h
  · rename_i bucket value hbucket hvalue
    cases h
    refine ⟨hbucket, hvalue, ?_, ?_⟩
    · rintro rfl
      exact ⟨rfl, rfl⟩
    · rintro rfl
      exact ⟨rfl, rfl⟩
  · cases h

/-- A reduced bucket has a point iff both its values are placed. -/
theorem isSome_placePoint? (bucketAxis valueAxis : AxisPlacement) (direction : Direction) (member : Nat)
    (b : Value × Triple (Reduced α)) : (placePoint? bucketAxis valueAxis direction member b).isSome
      = ((bucketAxis.place? member (.given b.1 : Reduced Float)).isSome
        && (valueAxis.place? member b.2.value).isSome) := by
  unfold placePoint?
  cases bucketAxis.place? member (.given b.1 : Reduced Float) <;> cases valueAxis.place? member b.2.value <;> rfl

/-- The values of a placed point. -/
theorem raw_of_placePoint? {x y : AxisPlacement} {i : Instance α} {member : Nat} {b : Value × Triple (Reduced α)}
    {p : PlacedPoint α} (h : placePoint? (i.bucketSide x y) (i.valueSide x y) i.direction member b = some p) :
    (p.rawX, p.rawY) = (i.bucketSide b.1 b.2.value.toValue, i.bucketSide b.2.value.toValue b.1) := by
  obtain ⟨-, -, hbyX, hbyY⟩ := placePoint?_eq_some h
  unfold bucketSide
  cases hdirection : i.direction with
  | byX => exact Prod.ext (hbyX hdirection).1 (hbyX hdirection).2
  | byY => exact Prod.ext (hbyY hdirection).1 (hbyY hdirection).2

/-- A finished instance is an instance of the graph under the same number, and its points have the outlines of
    the placed ones. -/
theorem exists_placed_of_finished {g : GraphPlan} {instances : List (Instance α)} {member : Nat} {i : Instance α}
    (h : (finished g instances)[member]? = some i) :
    ∃ j, instances[member]? = some j ∧ j.bare = i.bare
      ∧ i.points.map PlacedPoint.outline
        = (placed (axes g instances).1 (axes g instances).2 member j).points.map PlacedPoint.outline := by
  have houtline : (finished g instances)[member]?.map outline
      = (placeAll (axes g instances).1 (axes g instances).2 instances)[member]?.map outline := by
    rw [← List.getElem?_map, map_outline_finished, List.getElem?_map]
  rw [h, getElem?_placeAll, Option.map_map, Option.map_some] at houtline
  obtain ⟨j, hj, heq⟩ := Option.map_eq_some_iff.mp houtline.symm
  exact ⟨j, hj, congrArg Prod.fst heq, (congrArg Prod.snd heq).symm⟩

/-! ## §2 Values that stay along categories -/

theorem getElem?_normalize {g : GraphPlan} {instances : List (Instance α)} {member : Nat} {i : Instance α}
    (h : instances[member]? = some i) (hvalue : (i.valueSide g.x g.y).isCategory = true) :
    (normalize g instances)[member]? = some i := by
  rw [normalize_eq_map, List.getElem?_map, h, Option.map_some]
  congr 1
  unfold divided
  split
  · rfl
  · dsimp only
    rw [hvalue, Bool.or_true, if_pos rfl]

/-- Whether the values of an instance are summed up along its bucket axis. -/
def accumulates (g : GraphPlan) (i : Instance α) : Bool :=
  i.curve.options.accum && !(i.bucketSide g.x g.y).isCategory

theorem getElem?_accumulate {g : GraphPlan} {x y : AxisPlacement} (hx : x.plan = g.x) (hy : y.plan = g.y)
    {instances : List (Instance α)} {member : Nat} {i : Instance α} (h : instances[member]? = some i)
    (hstill : i.accumulates g = false) : (accumulate x y instances)[member]? = some i := by
  rw [accumulate_eq_map, List.getElem?_map, h, Option.map_some, accumulated, plan_bucketSide, hx, hy]
  rw [accumulates] at hstill
  rw [hstill, if_neg Bool.false_ne_true]

theorem getElem?_stackFrom {g : GraphPlan} {x y : AxisPlacement} (hx : x.plan = g.x) (hy : y.plan = g.y)
    {instances : List (Instance α)} {member : Nat} {i : Instance α} (heights : Heights α)
    (h : instances[member]? = some i) (hvalue : (i.valueSide g.x g.y).isCategory = true) :
    (stackFrom x y heights instances)[member]? = some i := by
  induction instances generalizing member heights with
  | nil => cases h
  | cons j rest ih =>
    cases member with
    | zero =>
      obtain rfl : j = i := Option.some.inj h
      have hstays : (j.isStacked && !(j.valueSide x y).plan.isCategory) = false := by
        rw [plan_valueSide, hx, hy, hvalue, Bool.not_true, Bool.and_false]
      rw [stackFrom_cons, raised, hstays]
      rfl
    | succ member =>
      rw [stackFrom_cons]
      exact ih _ h

/-- An instance with values along categories that does not accumulate stays as it is placed. -/
theorem getElem?_finished {g : GraphPlan} {instances : List (Instance α)} {member : Nat} {i : Instance α}
    (h : instances[member]? = some i) (hvalue : (i.valueSide g.x g.y).isCategory = true)
    (hstill : i.accumulates g = false) :
    (finished g instances)[member]?
      = some (placed (axes g instances).1 (axes g instances).2 member i) := by
  have hplaced : (placeAll (axes g instances).1 (axes g instances).2 instances)[member]?
      = some (placed (axes g instances).1 (axes g instances).2 member i) := by
    rw [getElem?_placeAll, h, Option.map_some]
  have hx : (axes g instances).1.plan = g.x := AxisPlacement.plan_new
  have hy : (axes g instances).2.plan = g.y := AxisPlacement.plan_new
  have hnormalized : (if g.options.normalize
      then normalize g (placeAll (axes g instances).1 (axes g instances).2 instances)
      else placeAll (axes g instances).1 (axes g instances).2 instances)[member]?
      = some (placed (axes g instances).1 (axes g instances).2 member i) := by
    split
    · exact getElem?_normalize hplaced hvalue
    · exact hplaced
  have haccumulated := getElem?_accumulate hx hy hnormalized hstill
  unfold finished
  dsimp only
  split
  · exact getElem?_stackFrom hx hy [] haccumulated hvalue
  · exact haccumulated

end Instance

/-! ## §3 Plotted pairs -/

/-- The values of the shown instances of a bound graph along the axis along which the instances of a direction
    group their pairs. -/
def BoundGraph.observed (b : BoundGraph) (d : Direction) : List Value :=
  Instance.observed d (Instance.ofGraph b : List (Instance Float))

/-- Whether both values of a pair have a place along the axes of a graph. -/
def BoundGraph.places (b : BoundGraph) (p : Value × Value) : Bool :=
  b.plan.x.hasPlace (b.observed .byX) p.1 && b.plan.y.hasPlace (b.observed .byY) p.2

/-- What the elements of a list become, where some become nothing, is what is kept of their images. -/
theorem map_filterMap_eq_filter {β γ δ : Type} {f : β → Option γ} {raw : γ → δ} {image : β → δ} {keeps : δ → Bool}
    (hraw : ∀ a c, f a = some c → raw c = image a) (hkeeps : ∀ a, (f a).isSome = keeps (image a)) (l : List β) :
    (l.filterMap f).map raw = (l.map image).filter keeps := by
  induction l with
  | nil => rfl
  | cons a rest ih =>
    have hkept := hkeeps a
    rw [List.map_cons, List.filter_cons]
    cases ha : f a with
    | none =>
      rw [ha] at hkept
      rw [List.filterMap_cons_none ha, ← hkept, ih]
      rfl
    | some c =>
      rw [ha] at hkept
      rw [List.filterMap_cons_some ha, ← hkept, List.map_cons, ih, hraw a c ha]
      rfl

/-- The placed points of an instance are its pairs that have a place. -/
theorem Instance.map_raw_placed (b : BoundGraph) (member : Nat) (i : Instance Float) :
    ((i.placed (axes b.plan (ofGraph b : List (Instance Float))).1 (axes b.plan (ofGraph b : List (Instance Float))).2
      member).points.map fun p => (p.rawX, p.rawY)) = i.pairs.filter b.places := by
  have hx : ∀ v : Reduced Float, ((axes b.plan (ofGraph b : List (Instance Float))).1.place? member v).isSome
      = b.plan.x.hasPlace (b.observed .byX) v.toValue := fun v => AxisPlacement.isSome_place? member v
  have hy : ∀ v : Reduced Float, ((axes b.plan (ofGraph b : List (Instance Float))).2.place? member v).isSome
      = b.plan.y.hasPlace (b.observed .byY) v.toValue := fun v => AxisPlacement.isSome_place? member v
  refine map_filterMap_eq_filter (fun c p h => raw_of_placePoint? h) (fun c => ?_) i.buckets
  rw [isSome_placePoint?]
  unfold valueSide bucketSide
  cases i.direction with
  | byX => exact congrArg₂ and (hx (.given c.1)) (hy c.2.value)
  | byY => exact (Bool.and_comm ..).trans (congrArg₂ and (hx c.2.value) (hy (.given c.1)))

/-- An axis of categories has a tick for each text that has a place, and leaves out an observed value only if
    another value at its position has another text. -/
structure AxisLayout.ShowsValues (l : AxisLayout) (a : AxisPlan) (observed : List Value) : Prop where
  tick : a.isCategory = true → ∀ v, a.hasPlace observed v = true ↔ ∃ t ∈ l.ticks, t.label = v.display
  rival : a.isCategory = true → ∀ v ∈ observed, a.hasPlace observed v = false →
    ∃ w ∈ observed, w.axisPlace = v.axisPlace ∧ w.display ≠ v.display

theorem AxisPlacement.showsValues_layout (plan : AxisPlan) (observed : List Value) (bars : List Nat) :
    (new plan observed bars).layout.ShowsValues plan observed where
  tick h v := by
    have hcategories : v.display ∈ (new plan observed bars).categories ↔ plan.hasPlace observed v = true :=
      mem_categories_new h
    rw [← hcategories]
    constructor
    · intro hmem
      obtain ⟨index, hindex⟩ := List.mem_iff_getElem?.mp hmem
      have hnumbered : (v.display, index) ∈ (new plan observed bars).categories.zipIdx :=
        List.mem_zipIdx_iff_getElem?.mpr hindex
      exact ⟨_, List.mem_map_of_mem hnumbered, rfl⟩
    · rintro ⟨t, ht, hlabel⟩
      obtain ⟨c, hc, rfl⟩ := List.mem_map.mp ht
      exact hlabel ▸ List.fst_mem_of_mem_zipIdx hc
  rival h _ hv hplace := AxisPlan.exists_rival h hv hplace

namespace GraphLayout

variable {styles : StyleRegistry} {b : BoundGraph} {g : GraphLayout Float}

/-- A layout has a curve for each shown instance, and of its pairs exactly those as points, each once and in their
    order, whose values have a place along both axes. -/
structure PlotsPairs (g : GraphLayout Float) (b : BoundGraph) : Prop where
  curves : g.curves.map (fun c => (c.id, c.curve))
    = ((Instance.ofGraph b : List (Instance Float)).filter Instance.isShown).zipIdx.map fun i => (i.2, i.1.curve.id)
  points : g.points.map PlotPoint.unnumbered = (g.drawn b).flatMap Prod.snd
  pairs : ∀ e ∈ g.drawn b, e.2.map PlotPoint.raw = e.1.pairs.filter b.places
  x : g.x.ShowsValues b.plan.x (b.observed .byX)
  y : g.y.ShowsValues b.plan.y (b.observed .byY)

/-- What is drawn is a shown instance of the graph with the outlines of its placed points. -/
theorem exists_placed_of_shown {i : Instance Float} (h : i ∈ shown b) :
    ∃ member j, (Instance.ofGraph b : List (Instance Float))[member]? = some j ∧ i.bare = j
      ∧ i.points.map PlacedPoint.outline
        = (j.placed (Instance.axes b.plan (Instance.ofGraph b : List (Instance Float))).1
          (Instance.axes b.plan (Instance.ofGraph b : List (Instance Float))).2 member).points.map
          PlacedPoint.outline := by
  obtain ⟨member, hmember⟩ := List.mem_iff_getElem?.mp (List.mem_filter.mp h).1
  obtain ⟨j, hj, hbare, houtline⟩ := Instance.exists_placed_of_finished hmember
  rw [Instance.bare_of_mem_ofGraph (List.mem_of_getElem? hj)] at hbare
  exact ⟨member, j, hj, hbare.symm, houtline⟩

/-- The pairs of an instance become its points where both their values have a place. -/
theorem map_raw_drawing {i : Instance Float} (h : i ∈ shown b) :
    i.drawing.2.map PlotPoint.raw = i.drawing.1.pairs.filter b.places := by
  obtain ⟨member, j, _, hbare, houtline⟩ := exists_placed_of_shown h
  have hraw := congrArg (List.map fun o => (o.1, o.2.1)) houtline
  rw [List.map_map, List.map_map] at hraw
  show (i.plotPoints 0).map PlotPoint.raw = i.bare.pairs.filter b.places
  rw [hbare, ← Instance.map_raw_placed b member j, Instance.plotPoints, List.map_map]
  exact hraw

/-- A graph whose shown curves have known styles is laid out, and each pair of a shown instance is plotted exactly
    once unless one of its values has no place: it is no number along an axis of numbers, or not positive along a
    logarithmic one, or along an axis of categories its text is not listed and gives way to the text of a later
    value at the same position. -/
theorem exists_plotsPairs (h : ∀ i ∈ (Instance.ofGraph b : List (Instance Float)), i.isShown = true →
    i.curve.stylesKnown styles = true) : ∃ g : GraphLayout Float, ofBound styles b = .ok g ∧ g.PlotsPairs b := by
  obtain ⟨g, hg⟩ := exists_ofBound_iff.2 h
  obtain ⟨hx, hy, -, -⟩ := ofBound_eq_ok hg
  refine ⟨g, hg, curves_ofBound hg, map_unnumbered_points hg, ?_, ?_, ?_⟩
  · intro e he
    rw [drawn_ofBound hg] at he
    obtain ⟨i, hi, rfl⟩ := List.mem_map.mp he
    exact map_raw_drawing hi
  · rw [hx]
    exact AxisPlacement.showsValues_layout ..
  · rw [hy]
    exact AxisPlacement.showsValues_layout ..

end GraphLayout

/-- Two curves, one at the text `1` and one at the text `1.0`, which stand at one position. -/
def sampleTexts : BoundGraph :=
  .ofCurves .category .linear .none
    [.ofPairs 0 .none [(.text "1", .number 10.0)], .ofPairs 1 .none [(.text "1.0", .number 20.0)]]

theorem plotsPairs_sample : (∀ i ∈ (Instance.ofGraph sampleTexts : List (Instance Float)), i.isShown = true →
    i.curve.stylesKnown .empty = true) ∧ ∃ g : GraphLayout Float, GraphLayout.ofBound .empty sampleTexts = .ok g
      ∧ g.PlotsPairs sampleTexts :=
  ⟨by decide +kernel, GraphLayout.exists_plotsPairs (by decide +kernel)⟩

/-- The text of the later curve is the only category, and the pair of the earlier one is not plotted. -/
theorem lostText_sample : sampleTexts.plan.x.isCategory = true ∧ sampleTexts.plan.y.scale.scaleKind = .linear
    ∧ ∃ g : GraphLayout Float, GraphLayout.ofBound .empty sampleTexts = .ok g
      ∧ g.x.ticks.map Tick.label = ["1.0"]
      ∧ (g.drawn sampleTexts).map (fun e => (e.1.pairs.map fun p => (p.1.display, p.2.display), e.2.length))
        = [([("1", "10")], 0), ([("1.0", "20")], 1)] := by
  have hrun : (GraphLayout.ofBound (α := Float) .empty sampleTexts).toOption.map (fun g => (g.x.ticks.map Tick.label,
      (g.drawn sampleTexts).map fun e => (e.1.pairs.map fun p => (p.1.display, p.2.display), e.2.length)))
      = some (["1.0"], [([("1", "10")], 0), ([("1.0", "20")], 1)]) := by
    decide +kernel
  obtain ⟨g, hg, hresult⟩ := exists_eq_ok hrun
  exact ⟨rfl, rfl, g, hg, congrArg Prod.fst hresult, congrArg Prod.snd hresult⟩

/-! ## §4 Coordinates along categories -/

/-- A coordinate stands at the category of a value: at the first tick with its text, moved by an offset. -/
def AxisLayout.StandsAt (l : AxisLayout) (raw : Value) (offset : Int) (x : Float) : Prop :=
  ∃ t, (l.ticks.find? fun t => t.label == raw.display) = some t ∧ x = Decimal.ofInteger (t.position + offset)

/-- A value that is placed along an axis of categories stands at its category. -/
theorem AxisPlacement.standsAt_of_place? {plan : AxisPlan} {observed : List Value} {bars : List Nat} {member : Nat}
    {v : Reduced Float} {x : Float} (hcategory : plan.isCategory = true)
    (h : (new plan observed bars).place? member v = some x) :
    (new plan observed bars).layout.StandsAt v.toValue (barOffset bars member) x := by
  rw [place?, plan_new, if_pos hcategory, position?_eq, Option.map_map] at h
  obtain ⟨t, ht, rfl⟩ := Option.map_eq_some_iff.mp h
  have hoffset : (new plan observed bars).offset member = barOffset bars member := offset_new hcategory member
  exact ⟨t, ht, hoffset ▸ rfl⟩

theorem AxisLayout.isCategory_layout {plan : AxisPlan} {observed : List Value} {bars : List Nat} :
    (AxisPlacement.new plan observed bars).layout.isCategory = plan.isCategory := by
  rw [AxisLayout.isCategory, AxisPlacement.layout, AxisPlacement.plan_new]
  rfl

/-- The offset of the bar of an instance along the x axis of a graph, and along its y axis. -/
def BoundGraph.offsets (b : BoundGraph) (member : Nat) : Int × Int :=
  (AxisPlacement.barOffset
      (Instance.bars b.plan.options.xoffset CurveOptions.bar (Instance.ofGraph b : List (Instance Float))) member,
    AxisPlacement.barOffset
      (Instance.bars b.plan.options.yoffset CurveOptions.hbar (Instance.ofGraph b : List (Instance Float))) member)

/-- A placed point stands at the categories of its values. -/
theorem Instance.standsAt_placed {b : BoundGraph} {member : Nat} {i : Instance Float} {p : PlacedPoint Float}
    (hp : p ∈ (i.placed (axes b.plan (ofGraph b : List (Instance Float))).1
      (axes b.plan (ofGraph b : List (Instance Float))).2 member).points) :
    (b.plan.x.isCategory = true → (axes b.plan (ofGraph b : List (Instance Float))).1.layout.StandsAt p.rawX
      (b.offsets member).1 (i.bucketSide p.bucket p.value))
    ∧ (b.plan.y.isCategory = true → (axes b.plan (ofGraph b : List (Instance Float))).2.layout.StandsAt p.rawY
      (b.offsets member).2 (i.bucketSide p.value p.bucket)) := by
  obtain ⟨c, _, hplaced⟩ := List.mem_filterMap.mp hp
  obtain ⟨hbucket, hvalue, hbyX, hbyY⟩ := placePoint?_eq_some hplaced
  unfold valueSide bucketSide at *
  cases hdirection : i.direction with
  | byX =>
    rw [hdirection] at hbucket hvalue
    rw [(hbyX hdirection).1, (hbyX hdirection).2]
    exact ⟨fun hx => AxisPlacement.standsAt_of_place? hx hbucket,
      fun hy => AxisPlacement.standsAt_of_place? hy hvalue⟩
  | byY =>
    rw [hdirection] at hbucket hvalue
    rw [(hbyY hdirection).1, (hbyY hdirection).2]
    exact ⟨fun hx => AxisPlacement.standsAt_of_place? hx hvalue,
      fun hy => AxisPlacement.standsAt_of_place? hy hbucket⟩

/-- What is kept of a list stands behind as many kept elements as it does in the list. -/
theorem exists_getElem?_of_filter {β : Type} {keeps : β → Bool} {l : List β} {n : Nat} {a : β}
    (h : (l.filter keeps)[n]? = some a) :
    ∃ m, l[m]? = some a ∧ keeps a = true ∧ n = (l.take m).countP keeps := by
  induction l generalizing n with
  | nil => cases h
  | cons c rest ih =>
    rw [List.filter_cons] at h
    split at h
    · rename_i hc
      cases n with
      | zero =>
        obtain rfl : c = a := Option.some.inj h
        exact ⟨0, rfl, hc, rfl⟩
      | succ n =>
        obtain ⟨m, hm, ha, rfl⟩ := ih h
        exact ⟨m + 1, hm, ha, by rw [List.take_succ_cons, List.countP_cons_of_pos hc]⟩
    · rename_i hc
      obtain ⟨m, hm, ha, rfl⟩ := ih h
      exact ⟨m + 1, hm, ha, by rw [List.take_succ_cons, List.countP_cons_of_neg hc]⟩

namespace GraphLayout

variable {styles : StyleRegistry} {b : BoundGraph} {g : GraphLayout Float}

/-- A point of the instance with number `member` stands at the categories of its values, along the axes that have
    categories. Where the values of the instance are summed up, this is said of its bucket axis only. -/
structure StandsAtCategories (g : GraphLayout Float) (b : BoundGraph) (member : Nat) (i : Instance Float)
    (p : PlotPoint Float) : Prop where
  x : g.x.isCategory = true → (i.direction = .byX ∨ i.accumulates b.plan = false) →
    g.x.StandsAt p.rawX (b.offsets member).1 p.x
  y : g.y.isCategory = true → (i.direction = .byY ∨ i.accumulates b.plan = false) →
    g.y.StandsAt p.rawY (b.offsets member).2 p.y

/-- The number of a shown instance among all instances, and what it is before it is placed. -/
theorem exists_member_of_shown {id : Nat} {j : Instance Float} (h : (shown b)[id]? = some j) :
    ∃ member, (Instance.finished b.plan (Instance.ofGraph b : List (Instance Float)))[member]? = some j
      ∧ j.isShown = true
      ∧ id = ((Instance.ofGraph b : List (Instance Float)).take member).countP Instance.isShown := by
  obtain ⟨member, hmember, hshown, rfl⟩ := exists_getElem?_of_filter h
  have hcount := congrArg (fun l => (l.take member).countP Instance.isShown)
    (Instance.map_bare_finished_ofGraph (α := Float) b)
  rw [← List.map_take, List.countP_map] at hcount
  exact ⟨member, hmember, hshown, hcount⟩

theorem isCategory_ofBound (h : ofBound styles b = .ok g) :
    g.x.isCategory = b.plan.x.isCategory ∧ g.y.isCategory = b.plan.y.isCategory := by
  obtain ⟨hx, hy, -, -⟩ := ofBound_eq_ok h
  rw [hx, hy]
  exact ⟨AxisLayout.isCategory_layout, AxisLayout.isCategory_layout⟩

/-- A point of a finished instance is the placed one but for its value and bounds. It is the placed one where the
    values are categories and are not summed up. -/
theorem exists_placed_point {member : Nat} {i j : Instance Float}
    (hi : (Instance.ofGraph b : List (Instance Float))[member]? = some i)
    (hj : (Instance.finished b.plan (Instance.ofGraph b : List (Instance Float)))[member]? = some j)
    {q : PlacedPoint Float} (hq : q ∈ j.points) :
    ∃ p ∈ (i.placed (Instance.axes b.plan (Instance.ofGraph b : List (Instance Float))).1
        (Instance.axes b.plan (Instance.ofGraph b : List (Instance Float))).2 member).points,
      p.outline = q.outline
        ∧ ((i.valueSide b.plan.x b.plan.y).isCategory = true → i.accumulates b.plan = false → p = q) := by
  obtain ⟨i', hi', -, houtline⟩ := Instance.exists_placed_of_finished hj
  obtain rfl : i = i' := Option.some.inj (hi.symm.trans hi')
  by_cases hstill : (i.valueSide b.plan.x b.plan.y).isCategory = true ∧ i.accumulates b.plan = false
  · have hplaced := Instance.getElem?_finished hi hstill.1 hstill.2
    obtain rfl := Option.some.inj (hj.symm.trans hplaced)
    exact ⟨q, hq, rfl, fun _ _ => rfl⟩
  · obtain ⟨p, hp, heq⟩ := List.mem_map.mp (houtline ▸ List.mem_map_of_mem hq)
    exact ⟨p, hp, heq, fun hvalue haccumulates => absurd ⟨hvalue, haccumulates⟩ hstill⟩

/-- Points of one instance with the same bucket have the same coordinates along categories, if they have the same
    value where it stands along categories and is not summed up. -/
theorem coordinates_eq {graph : GraphPlan} {i j : Instance Float} (hdirection : i.direction = j.direction)
    {p q : PlacedPoint Float} (hbucket : p.bucket = q.bucket)
    (hvalue : (i.valueSide graph.x graph.y).isCategory = true → i.accumulates graph = false → p.value = q.value) :
    (graph.x.isCategory = true → (i.direction = .byX ∨ i.accumulates graph = false) →
      i.bucketSide p.bucket p.value = j.bucketSide q.bucket q.value)
    ∧ (graph.y.isCategory = true → (i.direction = .byY ∨ i.accumulates graph = false) →
      i.bucketSide p.value p.bucket = j.bucketSide q.value q.bucket) := by
  unfold Instance.valueSide at hvalue
  unfold Instance.bucketSide at *
  rw [← hdirection]
  cases hd : i.direction with
  | byX =>
    rw [hd] at hvalue
    refine ⟨fun _ _ => hbucket, fun hy hside => hvalue hy (hside.resolve_left ?_)⟩
    decide
  | byY =>
    rw [hd] at hvalue
    refine ⟨fun hx hside => hvalue hx (hside.resolve_left ?_), fun _ _ => hbucket⟩
    decide

/-- Every point of a layout stands at the categories of its values, beside them by the offset of the bar of its
    instance, whatever is normalized and stacked. Accumulating moves the values of an instance, and only those,
    where its bucket axis has no categories. -/
theorem standsAtCategories_ofBound (h : ofBound styles b = .ok g) : ∀ p ∈ g.points, ∃ member i,
    (Instance.ofGraph b : List (Instance Float))[member]? = some i ∧ i.isShown = true
      ∧ p.curve = ((Instance.ofGraph b : List (Instance Float)).take member).countP Instance.isShown
      ∧ g.StandsAtCategories b member i p := by
  intro p hp
  obtain ⟨hx, hy, -, hpoints⟩ := ofBound_eq_ok h
  rw [hpoints] at hp
  obtain ⟨⟨j, id⟩, hj, hp⟩ := List.mem_flatMap.mp hp
  obtain ⟨q, hq, rfl⟩ := List.mem_map.mp hp
  obtain ⟨member, hmember, hshown, hid⟩ := exists_member_of_shown (List.mem_zipIdx_iff_getElem?.mp hj)
  obtain ⟨i, hi, hbare, -⟩ := Instance.exists_placed_of_finished hmember
  have hdirection : i.direction = j.direction := (congrArg Instance.direction hbare :)
  have hisShown : i.isShown = j.isShown := (congrArg Instance.isShown hbare :)
  -- The point was placed at its categories; it still stands there.
  obtain ⟨placed, hplaced, houtline, hsame⟩ := exists_placed_point hi hmember hq
  obtain ⟨hstandsX, hstandsY⟩ := Instance.standsAt_placed hplaced
  have hrawX : placed.rawX = q.rawX := congrArg (fun o => o.1) houtline
  have hrawY : placed.rawY = q.rawY := congrArg (fun o => o.2.1) houtline
  have hbucket : placed.bucket = q.bucket := congrArg (fun o => o.2.2.2) houtline
  obtain ⟨hsameX, hsameY⟩ := coordinates_eq hdirection hbucket fun hvalue hstill =>
    congrArg PlacedPoint.value (hsame hvalue hstill)
  refine ⟨member, i, hi, hisShown.trans hshown, hid, fun hcategory hside => ?_, fun hcategory hside => ?_⟩
  · rw [(isCategory_ofBound h).1] at hcategory
    rw [hx]
    show AxisLayout.StandsAt _ q.rawX _ (j.bucketSide q.bucket q.value)
    rw [← hsameX hcategory hside, ← hrawX]
    exact hstandsX hcategory
  · rw [(isCategory_ofBound h).2] at hcategory
    rw [hy]
    show AxisLayout.StandsAt _ q.rawY _ (j.bucketSide q.value q.bucket)
    rw [← hsameY hcategory hside, ← hrawY]
    exact hstandsY hcategory

end GraphLayout

/-- Two stacked curves of bars in groups, and a third curve that is no bar. -/
def sampleBars : BoundGraph :=
  .ofCurves .category .linear { GraphOptions.none with stack := true, xoffset := true }
    [.ofPairs 0 { CurveOptions.none with bar := true } [(.text "read", .number 1.0), (.text "write", .number 2.0)],
      .ofPairs 1 { CurveOptions.none with bar := true } [(.text "write", .number 3.0)],
      .ofPairs 2 .none [(.text "read", .number 4.0)]]

theorem standsAtCategories_sample : ∃ g : GraphLayout Float, GraphLayout.ofBound .empty sampleBars = .ok g
    ∧ ∀ p ∈ g.points, ∃ member i, (Instance.ofGraph sampleBars : List (Instance Float))[member]? = some i
      ∧ i.isShown = true
      ∧ p.curve = ((Instance.ofGraph sampleBars : List (Instance Float)).take member).countP Instance.isShown
      ∧ g.StandsAtCategories sampleBars member i p := by
  have hlaid : ∃ g : GraphLayout Float, GraphLayout.ofBound .empty sampleBars = .ok g :=
    GraphLayout.exists_ofBound_iff.2 (by decide +kernel)
  obtain ⟨g, hg⟩ := hlaid
  exact ⟨g, hg, GraphLayout.standsAtCategories_ofBound hg⟩

/-- A curve that sums up its values, which are texts along an axis of categories. -/
def sampleSums : BoundGraph :=
  .ofCurves .linear .category .none
    [.ofPairs 0 { CurveOptions.none with accum := true } [(.number 1.0, .text "a"), (.number 2.0, .text "a")]]

/-- The second point of the curve has left its category. -/
theorem movedCategory_sample : ∃ g : GraphLayout Float, GraphLayout.ofBound .empty sampleSums = .ok g
    ∧ g.y.isCategory = true ∧ g.y.ticks = [⟨"a", 1⟩] ∧ sampleSums.offsets 0 = (0, 0)
    ∧ g.points.map (fun p => (p.rawY.display, p.y)) = [("a", 1.0), ("a", 2.0)] := by
  have hrun : (GraphLayout.ofBound (α := Float) .empty sampleSums).toOption.map (fun g =>
      (g.y.isCategory, g.y.ticks, g.points.map fun p => (p.rawY.display, p.y)))
      = some (true, [⟨"a", 1⟩], [("a", 1.0), ("a", 2.0)]) := by
    decide +kernel
  obtain ⟨g, hg, hresult⟩ := exists_eq_ok hrun
  simp only [Prod.mk.injEq] at hresult
  exact ⟨g, hg, hresult.1, hresult.2.1, by decide +kernel, hresult.2.2⟩

end BenchPlot
