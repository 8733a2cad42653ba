import BenchPlot.Proofs.Layout.Drawing
import BenchPlot.Proofs.Layout.Places

/-!
# Hidden curves

A hidden curve is reduced and placed with the others and then left out. It gives no axis a category and no group a
bar, and it raises no stack; so the shown instances are laid out as if it were not there, unless they are divided by
it. Only their numbers among the instances are others then, and a number says no more than which bar an instance is.

Main statement: `GraphLayout.ofBound_withoutCurve`.
-/

namespace BenchPlot

/-! ## §1 Lists with elements left out -/

/-- The number that element `member` of a list has once `count` elements are put in front of those from number
    `start` on. -/
def numberBehind (start count member : Nat) : Nat :=
  if member < start then member else member + count

theorem numberBehind_injective (start count : Nat) : Function.Injective (numberBehind start count) := by
  intro m n h
  unfold numberBehind at h
  split at h <;> split at h <;> omega

section Numbers

variable {β : Type} {before between after : List β}

/-- The elements around a part of a list are those of the list without it, with other numbers. -/
theorem zipIdx_with_between : (before ++ between ++ after).zipIdx
    = before.zipIdx.map (Prod.map id (numberBehind before.length between.length))
      ++ between.zipIdx before.length
      ++ (after.zipIdx before.length).map (Prod.map id (numberBehind before.length between.length)) := by
  have hbefore : before.zipIdx.map (Prod.map id (numberBehind before.length between.length)) = before.zipIdx := by
    refine (List.map_congr_left fun e he => ?_).trans (List.map_id _)
    have hlt : e.2 < before.length := by simpa using List.snd_lt_of_mem_zipIdx he
    exact Prod.ext rfl (if_pos hlt)
  have hafter : (after.zipIdx before.length).map (Prod.map id (numberBehind before.length between.length))
      = after.zipIdx (between.length + before.length) := by
    rw [← List.map_snd_add_zipIdx_eq_zipIdx]
    refine List.map_congr_left fun e he => Prod.ext rfl (if_neg ?_)
    exact Nat.not_lt.mpr (List.le_snd_of_mem_zipIdx he)
  rw [List.zipIdx_append, List.zipIdx_append, hbefore, hafter, List.length_append, Nat.zero_add, Nat.zero_add,
    Nat.add_comm between.length]

/-- What the elements of a list make together, split at one of them. -/
theorem flatMap_of_getElem? {γ : Type} {l : List β} {n : Nat} {a : β} (h : l[n]? = some a) (f : β → List γ) :
    l.flatMap f = (l.take n).flatMap f ++ f a ++ (l.drop (n + 1)).flatMap f := by
  obtain ⟨hn, rfl⟩ := List.getElem?_eq_some_iff.mp h
  have hsplit : l = l.take n ++ l[n] :: l.drop (n + 1) := by
    rw [← List.drop_eq_getElem_cons hn, List.take_append_drop]
  conv_lhs => rw [hsplit]
  rw [List.flatMap_append, List.flatMap_cons, List.append_assoc]

theorem flatMap_eraseIdx {γ : Type} (l : List β) (n : Nat) (f : β → List γ) :
    (l.eraseIdx n).flatMap f = (l.take n).flatMap f ++ (l.drop (n + 1)).flatMap f := by
  rw [List.eraseIdx_eq_take_drop_succ, List.flatMap_append]

theorem flatMap_modify {γ : Type} {l : List β} {n : Nat} {a : β} (h : l[n]? = some a) (g : β → β)
    (f : β → List γ) :
    (l.modify n g).flatMap f = (l.take n).flatMap f ++ f (g a) ++ (l.drop (n + 1)).flatMap f := by
  obtain ⟨hn, rfl⟩ := List.getElem?_eq_some_iff.mp h
  rw [List.modify_eq_take_cons_drop hn, List.flatMap_append, List.flatMap_cons, List.append_assoc]

end Numbers

/-! ## §2 Axes under other numbers -/

namespace AxisPlacement

/-- Two axes that differ at most in the numbers of the instances: `number member` is along `a` what `member` is along
    `a'`. -/
structure Renumbers (number : Nat → Nat) (a a' : AxisPlacement) : Prop where
  plan : a.plan = a'.plan
  ticks : a.ticks = a'.ticks
  offset : ∀ member, a.offset (number member) = a'.offset member

theorem barOffset_map {number : Nat → Nat} (hnumber : Function.Injective number) (bars : List Nat) (member : Nat) :
    barOffset (bars.map number) (number member) = barOffset bars member := by
  have hfound : (fun bar => bar == number member) ∘ number = fun bar => bar == member :=
    funext fun bar => decide_eq_decide.mpr hnumber.eq_iff
  rw [barOffset, List.findIdx?_map, hfound, List.length_map]
  rfl

/-- Bars under other numbers make the same axis under these numbers. -/
theorem renumbers_new {number : Nat → Nat} (hnumber : Function.Injective number) (plan : AxisPlan)
    (observed : List Value) (bars : List Nat) :
    Renumbers number (new plan observed (bars.map number)) (new plan observed bars) where
  plan := plan_new.trans plan_new.symm
  ticks := by
    unfold new
    split
    · rw [List.isEmpty_map, List.length_map]
      rfl
    · rfl
  offset member := by
    cases h : plan.isCategory with
    | true => rw [offset_new h, offset_new h, barOffset_map hnumber]
    | false =>
      rw [new, new, h, if_neg Bool.false_ne_true, if_neg Bool.false_ne_true]
      rfl

variable {number : Nat → Nat} {a a' : AxisPlacement}

theorem Renumbers.layout (h : Renumbers number a a') : a.layout = a'.layout := by
  rw [AxisPlacement.layout, AxisPlacement.layout, h.plan, h.ticks]

/-- A value has the same place along both axes. -/
theorem Renumbers.place? {α : Type} [Coordinate α] (h : Renumbers number a a') (member : Nat) (v : Reduced α) :
    a.place? (number member) v = a'.place? member v := by
  have hposition : ∀ label, a.position? (number member) label = a'.position? member label := by
    intro label
    rw [position?_eq, position?_eq, h.ticks, h.offset]
  unfold AxisPlacement.place? leavesOut
  rw [h.plan, hposition]

end AxisPlacement

namespace Instance

variable {α : Type} [Coordinate α]

/-- A bucket has the same point along both pairs of axes. -/
theorem placePoint?_renumbered {number : Nat → Nat} {bucketAxis bucketAxis' valueAxis valueAxis' : AxisPlacement}
    (hbucket : bucketAxis.Renumbers number bucketAxis') (hvalue : valueAxis.Renumbers number valueAxis')
    (direction : Direction) (member : Nat) (b : Value × Triple (Reduced α)) :
    placePoint? bucketAxis valueAxis direction (number member) b
      = placePoint? bucketAxis' valueAxis' direction member b := by
  unfold placePoint? bound
  rw [hbucket.place?, hvalue.place?, hvalue.plan]

theorem placed_renumbered {number : Nat → Nat} {x x' y y' : AxisPlacement} (hx : x.Renumbers number x')
    (hy : y.Renumbers number y') (member : Nat) (i : Instance α) :
    i.placed x y (number member) = i.placed x' y' member := by
  have hsame : placePoint? (i.bucketSide x y) (i.valueSide x y) i.direction (number member)
      = placePoint? (α := α) (i.bucketSide x' y') (i.valueSide x' y') i.direction member := by
    funext b
    unfold valueSide bucketSide
    cases i.direction with
    | byX => exact placePoint?_renumbered hx hy ..
    | byY => exact placePoint?_renumbered hy hx ..
  rw [placed, placed, hsame]

end Instance

/-! ## §3 Instances around hidden ones -/

namespace Instance

variable {α : Type}

section Hidden

variable {before hidden after : List (Instance α)} (hhidden : ∀ i ∈ hidden, i.isShown = false)
include hhidden

theorem filter_isShown_with_hidden :
    (before ++ hidden ++ after).filter isShown = (before ++ after).filter isShown := by
  have hnone : hidden.filter isShown = [] := List.filter_eq_nil_iff.mpr fun i hi => ne_true_of_eq_false (hhidden i hi)
  rw [List.filter_append, List.filter_append, hnone, List.append_nil, List.filter_append]

/-- The bars of a group are the same instances, under other numbers. -/
theorem bars_with_hidden (grouped : Bool) (isBar : CurveOptions → Bool) :
    bars grouped isBar (before ++ hidden ++ after)
      = (bars grouped isBar (before ++ after)).map (numberBehind before.length hidden.length) := by
  have hnone : (hidden.zipIdx before.length).filter (fun e => e.1.isShown && isBar e.1.curve.options) = [] := by
    refine List.filter_eq_nil_iff.mpr fun e he => ?_
    rw [hhidden e.1 (List.fst_mem_of_mem_zipIdx he), Bool.false_and]
    exact Bool.false_ne_true
  unfold bars
  cases grouped with
  | false => rfl
  | true =>
    rw [if_pos rfl, if_pos rfl, zipIdx_with_between, List.filter_append, List.filter_append, hnone, List.append_nil,
      List.filter_map, List.filter_map, List.zipIdx_append, Nat.zero_add, List.filter_append, List.map_append,
      List.map_append, List.map_append, List.map_map, List.map_map, List.map_map, List.map_map]
    rfl

variable [Coordinate α] (before after)

/-- Both axes are the same, under other numbers. -/
theorem axes_with_hidden (g : GraphPlan) :
    (axes g (before ++ hidden ++ after)).1.Renumbers (numberBehind before.length hidden.length)
        (axes g (before ++ after)).1
      ∧ (axes g (before ++ hidden ++ after)).2.Renumbers (numberBehind before.length hidden.length)
        (axes g (before ++ after)).2 := by
  unfold axes observed
  rw [filter_isShown_with_hidden hhidden, bars_with_hidden hhidden, bars_with_hidden hhidden]
  exact ⟨AxisPlacement.renumbers_new (numberBehind_injective ..) .., AxisPlacement.renumbers_new
    (numberBehind_injective ..) ..⟩

/-- The instances around hidden ones are placed as they are without them. -/
theorem exists_placeAll_with_hidden (g : GraphPlan) : ∃ before' hidden' after' : List (Instance α),
    placeAll (axes g (before ++ hidden ++ after)).1 (axes g (before ++ hidden ++ after)).2 (before ++ hidden ++ after)
        = before' ++ hidden' ++ after'
      ∧ placeAll (axes g (before ++ after)).1 (axes g (before ++ after)).2 (before ++ after) = before' ++ after'
      ∧ hidden'.map bare = hidden.map bare := by
  obtain ⟨hx, hy⟩ := axes_with_hidden before after hhidden g
  -- No more is used of the axes than that they renumber each other.
  generalize axes g (before ++ hidden ++ after) = whole at hx hy ⊢
  generalize axes g (before ++ after) = rest at hx hy ⊢
  have hplaced : ∀ l : List (Instance α × Nat),
      (l.map (Prod.map id (numberBehind before.length hidden.length))).map (fun e => e.1.placed whole.1 whole.2 e.2)
        = l.map fun e => e.1.placed rest.1 rest.2 e.2 := by
    intro l
    rw [List.map_map]
    exact List.map_congr_left fun e _ => placed_renumbered hx hy e.2 e.1
  refine ⟨before.zipIdx.map fun e => e.1.placed rest.1 rest.2 e.2,
    (hidden.zipIdx before.length).map fun e => e.1.placed whole.1 whole.2 e.2,
    (after.zipIdx before.length).map fun e => e.1.placed rest.1 rest.2 e.2, ?_, ?_, ?_⟩
  · show (before ++ hidden ++ after).zipIdx.map (fun e => e.1.placed whole.1 whole.2 e.2) = _
    rw [zipIdx_with_between, List.map_append, List.map_append, hplaced, hplaced]
  · show (before ++ after).zipIdx.map (fun e => e.1.placed rest.1 rest.2 e.2) = _
    rw [List.zipIdx_append, List.map_append, Nat.zero_add]
  · rw [List.map_map, ← List.zipIdx_map_fst before.length hidden, List.map_map, List.zipIdx_map_fst]
    rfl

end Hidden

/-! ## §4 What the shown instances depend on -/

theorem isShown_of_outline {i j : Instance α} (h : i.outline = j.outline) : i.isShown = j.isShown :=
  congrArg (fun o : Instance α × List (Value × Value × Value × Float) => o.1.isShown) h

/-- A pass that works on each instance works on the shown ones. -/
theorem filter_isShown_map {f : Instance α → Instance α} (h : ∀ i, (f i).outline = i.outline)
    (instances : List (Instance α)) : (instances.map f).filter isShown = (instances.filter isShown).map f := by
  have hshown : isShown ∘ f = isShown := funext fun i => isShown_of_outline (h i)
  rw [List.filter_map, hshown]

variable [Coordinate α]

/-- Hidden instances raise no stack. -/
theorem filter_isShown_stackFrom (x y : AxisPlacement) (heights : Heights α) (instances : List (Instance α)) :
    (stackFrom x y heights instances).filter isShown = stackFrom x y heights (instances.filter isShown) := by
  induction instances generalizing heights with
  | nil => rfl
  | cons i rest ih =>
    have hshown : (raised x y heights i).1.isShown = i.isShown := isShown_of_outline (outline_raised ..)
    rw [stackFrom_cons, List.filter_cons, List.filter_cons, hshown, ih]
    cases hi : i.isShown with
    | true => rw [if_pos rfl, if_pos rfl, stackFrom_cons]
    | false =>
      have hstays : raised x y heights i = (i, heights) := by
        unfold raised isStacked
        rw [hi, Bool.false_and, Bool.false_and, if_neg Bool.false_ne_true]
      rw [if_neg Bool.false_ne_true, if_neg Bool.false_ne_true, hstays]

/-- The passes over the placed instances that are shown, where `divisors` has the divisors of each bench. -/
def passed (g : GraphPlan) (x y : AxisPlacement) (divisors : Nat → Option (AxisMap α))
    (placed : List (Instance α)) : List (Instance α) :=
  let normalized := if g.options.normalize then placed.map fun i => i.divided g (divisors i.bench) else placed
  let accumulated := normalized.map (accumulated x y)
  if g.options.stack then stack x y accumulated else accumulated

/-- Of the hidden instances no more than their values as divisors is left. -/
theorem filter_isShown_finished (g : GraphPlan) (instances : List (Instance α)) :
    (finished g instances).filter isShown
      = passed g (axes g instances).1 (axes g instances).2
        (divisors? (placeAll (axes g instances).1 (axes g instances).2 instances))
        ((placeAll (axes g instances).1 (axes g instances).2 instances).filter isShown) := by
  have hnormalized : ∀ placed : List (Instance α),
      (if g.options.normalize then normalize g placed else placed).filter isShown
        = if g.options.normalize then (placed.filter isShown).map fun i => i.divided g (divisors? placed i.bench)
          else placed.filter isShown := by
    intro placed
    split
    · rw [normalize_eq_map, filter_isShown_map fun i => outline_divided ..]
    · rfl
  unfold finished passed
  dsimp only
  -- Division and accumulation work on each instance, and stacking passes over the hidden ones.
  split
  · rw [stack, filter_isShown_stackFrom, accumulate_eq_map, filter_isShown_map fun i => outline_accumulated ..,
      hnormalized]
    rfl
  · rw [accumulate_eq_map, filter_isShown_map fun i => outline_accumulated .., hnormalized]

/-- The passes look at the plans of the axes only. -/
theorem passed_congr {g : GraphPlan} {x x' y y' : AxisPlacement} (hx : x.plan = x'.plan) (hy : y.plan = y'.plan)
    {divisors divisors' : Nat → Option (AxisMap α)}
    (hdivisors : g.options.normalize = true → ∀ bench, divisors bench = divisors' bench)
    (placed : List (Instance α)) : passed g x y divisors placed = passed g x' y' divisors' placed := by
  have haccumulated : accumulated (α := α) x y = accumulated x' y' := by
    funext i
    unfold accumulated
    rw [plan_bucketSide, plan_bucketSide, hx, hy]
  have hstacked : ∀ (heights : Heights α) (instances : List (Instance α)),
      stackFrom x y heights instances = stackFrom x' y' heights instances := by
    intro heights instances
    induction instances generalizing heights with
    | nil => rfl
    | cons i rest ih =>
      have hraised : raised x y heights i = raised x' y' heights i := by
        unfold raised
        rw [plan_valueSide, plan_valueSide, hx, hy]
      rw [stackFrom_cons, stackFrom_cons, hraised, ih]
  unfold passed stack
  rw [haccumulated]
  cases hnormalize : g.options.normalize with
  | false => simp only [Bool.false_eq_true, if_false, hstacked]
  | true => simp only [if_true, hstacked, funext (hdivisors hnormalize)]

/-- Instances that are hidden and are no divisors leave the shown ones as they are without them. -/
theorem filter_isShown_finished_with_hidden {g : GraphPlan} (before after : List (Instance α))
    {hidden : List (Instance α)} (hhidden : ∀ i ∈ hidden, i.isShown = false)
    (hbase : g.options.normalize = true → ∀ i ∈ hidden, i.curve.options.base = false) :
    (finished g (before ++ hidden ++ after)).filter isShown = (finished g (before ++ after)).filter isShown := by
  obtain ⟨before', hidden', after', hplaced, hplaced', hbare⟩ :=
    exists_placeAll_with_hidden before after hhidden g
  obtain ⟨hx, hy⟩ := axes_with_hidden before after hhidden g
  have horigin : ∀ i ∈ hidden', ∃ j ∈ hidden, j.bare = i.bare := fun i hi =>
    List.mem_map.mp (hbare ▸ List.mem_map_of_mem hi)
  have hhidden' : ∀ i ∈ hidden', i.isShown = false := by
    intro i hi
    obtain ⟨j, hj, hji⟩ := horigin i hi
    exact (congrArg isShown hji :).symm.trans (hhidden j hj)
  rw [filter_isShown_finished, filter_isShown_finished, hplaced, hplaced', filter_isShown_with_hidden hhidden']
  refine passed_congr hx.plan hy.plan (fun hnormalize bench => ?_) _
  -- A graph that normalizes finds its divisors among the base curves, and the hidden instances are of none of these.
  have hnone : hidden'.find? (fun i => i.bench == bench && i.curve.options.base && i.first) = none := by
    refine List.find?_eq_none.mpr fun i hi => ?_
    obtain ⟨j, hj, hji⟩ := horigin i hi
    have hbase' : i.curve.options.base = false :=
      (congrArg (fun i : Instance α => i.curve.options.base) hji :).symm.trans (hbase hnormalize j hj)
    rw [hbase', Bool.and_false, Bool.false_and]
    exact Bool.false_ne_true
  rw [divisors?, divisors?, List.find?_append, List.find?_append, hnone, Option.or_none, List.find?_append]

end Instance

/-! ## §5 Curves that are left out -/

/-- A bench without the curve at a place of it. -/
def BoundBench.withoutCurve (bench : BoundBench) (place : Nat) : BoundBench :=
  { bench with curves := bench.curves.eraseIdx place }

/-- A bound graph without the curve at a place of one of its benches. -/
def BoundGraph.withoutCurve (b : BoundGraph) (bench place : Nat) : BoundGraph :=
  { b with benches := b.benches.modify bench fun e => e.withoutCurve place }

/-- Without a curve a graph has the instances of the other curves, in their order. -/
theorem Instance.exists_ofGraph_withoutCurve {α : Type} [Coordinate α] {b : BoundGraph} {m n : Nat}
    {bench : BoundBench} {c : BoundCurve} (hbench : b.benches[m]? = some bench) (hc : bench.curves[n]? = some c) :
    ∃ before after : List (Instance α), ofGraph b = before ++ ofCurve b.plan bench.plan.id c ++ after
      ∧ ofGraph (b.withoutCurve m n) = before ++ after := by
  let own : BoundBench → List (Instance α) := fun e => e.curves.flatMap (ofCurve b.plan e.plan.id)
  let earlier := (bench.curves.take n).flatMap (ofCurve (α := α) b.plan bench.plan.id)
  let later := (bench.curves.drop (n + 1)).flatMap (ofCurve (α := α) b.plan bench.plan.id)
  have hown : own bench = earlier ++ ofCurve b.plan bench.plan.id c ++ later := flatMap_of_getElem? hc _
  have herased : own (bench.withoutCurve n) = earlier ++ later := flatMap_eraseIdx ..
  refine ⟨(b.benches.take m).flatMap own ++ earlier, later ++ (b.benches.drop (m + 1)).flatMap own, ?_, ?_⟩
  · show b.benches.flatMap own = _
    rw [flatMap_of_getElem? hbench, hown]
    simp only [List.append_assoc]
  · show (b.benches.modify m _).flatMap own = _
    rw [flatMap_modify hbench, herased]
    simp only [List.append_assoc]

namespace GraphLayout

variable {α : Type} [Coordinate α]

/-- A graph is laid out alike with a curve and without it, if the curve is hidden and is no base curve of a graph
    that normalizes: with the same ticks, curves, styles and points, or with the same failure. -/
theorem ofBound_withoutCurve (styles : StyleRegistry) {b : BoundGraph} {m n : Nat} {bench : BoundBench}
    {c : BoundCurve} (hbench : b.benches[m]? = some bench) (hc : bench.curves[n]? = some c)
    (hskip : c.plan.options.skip = true)
    (hbase : c.plan.options.base = false ∨ b.plan.options.normalize = false) :
    (ofBound styles (b.withoutCurve m n) : Except LayoutError (GraphLayout α)) = ofBound styles b := by
  obtain ⟨before, after, hwith, hwithout⟩ := Instance.exists_ofGraph_withoutCurve (α := α) hbench hc
  have hcurve : ∀ i ∈ (Instance.ofCurve b.plan bench.plan.id c : List (Instance α)), i.curve = c.plan := by
    intro i hi
    obtain ⟨d, _, rfl⟩ := List.mem_map.mp hi
    rfl
  have hhidden : ∀ i ∈ (Instance.ofCurve b.plan bench.plan.id c : List (Instance α)), i.isShown = false := by
    intro i hi
    rw [Instance.isShown, hcurve i hi, hskip, Bool.not_true]
  have hnobase : b.plan.options.normalize = true →
      ∀ i ∈ (Instance.ofCurve b.plan bench.plan.id c : List (Instance α)), i.curve.options.base = false := by
    intro hnormalize i hi
    rw [hcurve i hi]
    exact hbase.resolve_right fun hoff => Bool.false_ne_true (hoff.symm.trans hnormalize)
  obtain ⟨hx, hy⟩ := Instance.axes_with_hidden before after hhidden b.plan
  have hshown := Instance.filter_isShown_finished_with_hidden before after hhidden hnobase
  rw [← hwith, ← hwithout] at hx hy hshown
  unfold ofBound
  dsimp only
  rw [hx.layout, hy.layout, hshown]
  rfl

end GraphLayout

/-- Bars of three curves that are divided by the first one and stacked. The second curve is hidden, and has a value
    that no other curve has. -/
def sampleHidden : BoundGraph :=
  .ofCurves .category .linear { GraphOptions.none with stack := true, normalize := true, xoffset := true }
    [.ofPairs 0 { CurveOptions.none with bar := true, base := true }
        [(.text "read", .number 2.0), (.text "write", .number 4.0)],
      .ofPairs 1 { CurveOptions.none with bar := true, skip := true }
        [(.text "copy", .number 5.0), (.text "write", .number 3.0)],
      .ofPairs 2 { CurveOptions.none with bar := true } [(.text "write", .number 8.0)]]

theorem withoutCurve_sample : ∃ bench c, sampleHidden.benches[0]? = some bench ∧ bench.curves[1]? = some c
    ∧ c.plan.options.skip = true ∧ (c.plan.options.base = false ∨ sampleHidden.plan.options.normalize = false)
    ∧ (∃ g : GraphLayout Float, GraphLayout.ofBound .empty sampleHidden = .ok g)
    ∧ (GraphLayout.ofBound .empty (sampleHidden.withoutCurve 0 1) : Except LayoutError (GraphLayout Float))
      = GraphLayout.ofBound .empty sampleHidden :=
  ⟨_, _, rfl, rfl, rfl, .inl rfl, GraphLayout.exists_ofBound_iff.2 (by decide +kernel),
    GraphLayout.ofBound_withoutCurve .empty rfl rfl rfl (.inl rfl)⟩

end BenchPlot
