import BenchPlot.Proofs.Layout.BuiltPlans
import BenchPlot.Proofs.Plan.Instances
import BenchPlot.Proofs.SortedMap
import BenchPlot.Proofs.Value.AxisOrder

/-!
# Division by base curves

A graph that normalizes divides the points of a bench by those of its base curve. The divisor of a point is the first
value that the first instance of the base curve has at the bucket of the point; where there is none, or where it is
zero, the point moves to the base of its axis. It does not matter where the base curve stands among the curves of its
bench, nor whether it is shown.

Main statements: `Instance.find?_firstValues` and `GraphLayout.drawn_divided`.
-/

namespace BenchPlot

variable {α : Type}

/-! ## §1 Divisors -/

namespace Instance

theorem sorted_firstValues (points : List (PlacedPoint α)) : (firstValues points).Sorted := by
  induction points using List.reverseRecOn with
  | nil => exact SortedMap.sorted_empty
  | append_singleton points p ih =>
    rw [firstValues, List.foldl_append]
    exact ih.alter _ _

/-- At each position stands the value of the first point there. -/
theorem find?_firstValues (points : List (PlacedPoint α)) (k : AxisKey) :
    (firstValues points).find? k = (points.find? fun p => compare k ⟨p.key⟩ == .eq).map PlacedPoint.value := by
  induction points using List.reverseRecOn with
  | nil => rfl
  | append_singleton points p ih =>
    have halter : firstValues (points ++ [p])
        = (firstValues points).alter ⟨p.key⟩ fun present => present.getD p.value := by
      rw [firstValues, List.foldl_append]
      rfl
    rw [halter, (sorted_firstValues points).find?_alter, ih, List.find?_append, List.find?_singleton]
    cases hfound : points.find? fun p => compare k ⟨p.key⟩ == .eq with
    | some q => simp
    | none => split <;> simp_all

variable [Coordinate α]

/-- The first value that an instance has at the position of `k` along axes of numbers. -/
def firstValue? (g : GraphPlan) (i : Instance α) (k : Value) : Option α :=
  ((i.placedAlong g).points.find? fun p => compare (⟨k⟩ : AxisKey) ⟨p.key⟩ == .eq).map PlacedPoint.value

end Instance

/-! ## §2 Divided points -/

variable [Coordinate α]

/-- A point of an instance divided by `divisor`. Without a divisor, or with zero, it moves to `fallback`. -/
structure PlotPoint.DividedBy (i : Instance α) (divisor : Option α) (fallback : α) (p q : PlotPoint α) : Prop where
  raw : q.raw = p.raw
  bucket : i.bucketSide q.x q.y = i.bucketSide p.x p.y
  divided : ∀ d ∈ divisor, Arithmetic.isZero d = false →
    i.valueSide q.x q.y = i.valueSide p.x p.y / d ∧ q.low = p.low / d ∧ q.high = p.high / d
  moved : (∀ d ∈ divisor, Arithmetic.isZero d = true) →
    i.valueSide q.x q.y = fallback ∧ q.low = fallback ∧ q.high = fallback

namespace Instance

/-- A normalized point is divided by the divisor at its key. -/
theorem dividedBy_normalizePoint (i : Instance α) (divisors : AxisMap α) (fallback : α) (p : PlacedPoint α) :
    PlotPoint.DividedBy i.bare (divisors.find? ⟨p.key⟩) fallback (i.plotPoint p)
      (i.plotPoint (normalizePoint divisors fallback p)) where
  raw := congrArg (fun o => (o.1, o.2.1)) (outline_normalizePoint divisors fallback p)
  bucket := by
    have hbucket : (normalizePoint divisors fallback p).bucket = p.bucket :=
      congrArg (fun o => o.2.2.2) (outline_normalizePoint divisors fallback p)
    have hplace := i.bucketSide_plotPoint (normalizePoint divisors fallback p)
    rw [hbucket, ← i.bucketSide_plotPoint p] at hplace
    exact hplace
  divided := by
    intro d hd hnonzero
    have hpoint : normalizePoint divisors fallback p
        = { p with value := p.value / d, low := p.low / d, high := p.high / d } := by
      rw [normalizePoint, Option.mem_def.mp hd, Option.filter, hnonzero]
      rfl
    have hvalue := i.valueSide_plotPoint (normalizePoint divisors fallback p)
    rw [hpoint] at hvalue ⊢
    exact ⟨hvalue.trans (congrArg (· / d) (i.valueSide_plotPoint p).symm), rfl, rfl⟩
  moved := by
    intro hzero
    have hnone : (divisors.find? ⟨p.key⟩).filter (fun d => !Arithmetic.isZero d) = none :=
      Option.filter_eq_none_iff.mpr fun d hd => by rw [hzero d hd]; decide
    have hpoint : normalizePoint divisors fallback p
        = { p with value := fallback, low := fallback, high := fallback } := by
      rw [normalizePoint, hnone]
    have hvalue := i.valueSide_plotPoint (normalizePoint divisors fallback p)
    rw [hpoint] at hvalue ⊢
    exact ⟨hvalue, rfl, rfl⟩

/-- An instance as it is drawn without normalizing and with it, where the first instance of the base curve of its bench
    is `first`. -/
structure DrawnDivided (g : GraphPlan) (first : Instance α) (e e' : Instance α × List (PlotPoint α)) : Prop where
  of_same : e'.1 = e.1
  base : e.1.curve.options.base = true → e'.2 = e.2
  others : e.1.curve.options.base = false →
    List.Forall₂ (fun p q => p.DividedBy e.1 (first.firstValue? g (e.1.bucketSide p.rawX p.rawY))
      (Arithmetic.ofFloat (e.1.valueSide g.x g.y).base) q) e.2 e'.2

/-- An instance along axes of numbers is divided by the first values of another one. -/
theorem drawnDivided_divided {g : GraphPlan} (hx : g.x.isCategory = false) (hy : g.y.isCategory = false)
    (first i : Instance α) : DrawnDivided g first (i.placedAlong g).drawing
      ((i.placedAlong g).divided g (some (firstValues (first.placedAlong g).points))).drawing where
  of_same := (congrArg Prod.fst (outline_divided g _ (i.placedAlong g)) :)
  base := by
    intro hbase
    rw [divided]
    have hcurve : (i.placedAlong g).curve.options.base = true := hbase
    rw [hcurve, Bool.true_or, if_pos rfl]
  others := by
    intro hbase
    have hcurve : (i.placedAlong g).curve.options.base = false := hbase
    have hnumbers : ((i.placedAlong g).valueSide g.x g.y).isCategory = false := by
      unfold valueSide bucketSide
      split
      · exact hy
      · exact hx
    rw [divided]
    rw [hcurve, hnumbers, Bool.false_or, if_neg Bool.false_ne_true, drawing_eq, drawing_eq, List.map_map,
      List.forall₂_map_left_iff, List.forall₂_map_right_iff, List.forall₂_same]
    intro p hp
    have hdivided := dividedBy_normalizePoint (i.placedAlong g) (firstValues (first.placedAlong g).points)
      (Arithmetic.ofFloat ((i.placedAlong g).valueSide g.x g.y).base) p
    rw [find?_firstValues, key_of_mem_placed hp] at hdivided
    exact hdivided

end Instance

/-! ## §3 Benches with a base curve -/

/-- A bench with a base curve, which stands between other curves. -/
structure BoundBench.HasBase (bench : BoundBench) (before : List BoundCurve) (base : BoundCurve)
    (after : List BoundCurve) : Prop where
  curves : bench.curves = before ++ base :: after
  base : base.plan.options.base = true
  others : ∀ c ∈ before ++ after, c.plan.options.base = false

/-- The instances of a bench. -/
def BoundBench.instances (g : GraphPlan) (bench : BoundBench) : List (Instance α) :=
  bench.curves.flatMap (Instance.ofCurve g bench.plan.id)

namespace Instance

theorem curve_of_mem_ofCurve {g : GraphPlan} {bench : Nat} {c : BoundCurve} {i : Instance α}
    (h : i ∈ ofCurve g bench c) : i.curve = c.plan ∧ i.bench = bench := by
  obtain ⟨d, _, rfl⟩ := List.mem_map.mp h
  exact ⟨rfl, rfl⟩

/-- Curves that are no base curves have no instance to divide by. -/
theorem find?_base_eq_none {g : GraphPlan} {bench : Nat} {curves : List BoundCurve}
    (h : ∀ c ∈ curves, c.plan.options.base = false) :
    (curves.flatMap (ofCurve (α := α) g bench)).find? (fun i => i.curve.options.base && i.first) = none := by
  refine List.find?_eq_none.mpr fun i hi => ?_
  obtain ⟨c, hc, hi⟩ := List.mem_flatMap.mp hi
  rw [(curve_of_mem_ofCurve hi).1, h c hc, Bool.false_and]
  exact Bool.false_ne_true

/-- A base curve is divided by through its first instance. -/
theorem find?_base_eq_head? {g : GraphPlan} {bench : Nat} {c : BoundCurve} (h : c.plan.options.base = true) :
    (ofCurve (α := α) g bench c).find? (fun i => i.curve.options.base && i.first) = (ofCurve g bench c).head? := by
  unfold ofCurve
  cases c.instances with
  | nil => rfl
  | cons d rest => rw [List.zipIdx_cons, List.map_cons, List.find?_cons_of_pos (by simpa using h), List.head?_cons]

theorem find?_base_of_hasBase {g : GraphPlan} {bench : BoundBench} {before after : List BoundCurve}
    {base : BoundCurve} (h : bench.HasBase before base after) {first : Instance α}
    (hfirst : (ofCurve g bench.plan.id base).head? = some first) :
    (bench.instances g).find? (fun i => i.curve.options.base && i.first) = some first := by
  rw [BoundBench.instances, h.curves, List.flatMap_append, List.flatMap_cons, List.find?_append, List.find?_append,
    find?_base_eq_none fun c hc => h.others c (List.mem_append_left _ hc), find?_base_eq_head? h.base, hfirst]
  rfl

/-- A curve of a bound plan has a first instance, if only an empty one. -/
theorem exists_first_of_bind {p : Plan} {store : Store} {scope : Scope} {graphs : List BoundGraph}
    (h : p.bind store scope = .ok graphs) : ∀ b ∈ graphs, ∀ bench ∈ b.benches, ∀ c ∈ bench.curves,
      ∃ first : Instance α, (ofCurve b.plan bench.plan.id c).head? = some first := by
  intro b hb bench hbench c hc
  obtain ⟨_, _, hgraph⟩ := Plan.exists_bindGraph_of_bind h hb
  obtain ⟨_, _, hbound⟩ := exists_mem_of_forall₂
    (R := flip fun plan bench => p.bindBench store scope plan = .ok bench)
    (Plan.bindBench_of_bindGraph hgraph).2.flip hbench
  obtain ⟨binding, _, hbound⟩ := bind_eq_ok.1 hbound
  obtain ⟨curves, hcurves, hbound⟩ := bind_eq_ok.1 hbound
  cases hbound
  obtain ⟨_, _, hcurve⟩ := exists_mem_of_forall₂ (R := flip fun plan c => binding.bindCurve plan = .ok c)
    (forall₂_of_mapM_eq_ok hcurves).flip hc
  obtain ⟨_, _, instances, _, _, _, hinstances⟩ := BenchBinding.bindCurve_eq_ok hcurve
  have hsome : c.instances ≠ [] := by
    rw [hinstances]
    split
    · exact List.cons_ne_nil _ _
    · rename_i hnonempty
      exact fun hnil => hnonempty (List.isEmpty_iff.mpr hnil)
  obtain ⟨d, rest, hd⟩ := List.exists_cons_of_ne_nil hsome
  rw [ofCurve, hd, List.zipIdx_cons, List.map_cons, List.head?_cons]
  exact ⟨_, rfl⟩

/-- The instances of a bench that do not belong to its base curve. -/
theorem filter_not_base_of_hasBase {g : GraphPlan} {bench : BoundBench} {before after : List BoundCurve}
    {base : BoundCurve} (h : bench.HasBase before base after) :
    (bench.instances (α := α) g).filter (fun i => !i.curve.options.base)
      = (before ++ after).flatMap (ofCurve g bench.plan.id) := by
  have hkept : ∀ curves : List BoundCurve, (∀ c ∈ curves, c.plan.options.base = false) →
      (curves.flatMap (ofCurve (α := α) g bench.plan.id)).filter (fun i => !i.curve.options.base)
        = curves.flatMap (ofCurve g bench.plan.id) := by
    intro curves hcurves
    refine List.filter_eq_self.mpr fun i hi => ?_
    obtain ⟨c, hc, hi⟩ := List.mem_flatMap.mp hi
    rw [(curve_of_mem_ofCurve hi).1, hcurves c hc, Bool.not_false]
  have hdropped : (ofCurve (α := α) g bench.plan.id base).filter (fun i => !i.curve.options.base) = [] := by
    refine List.filter_eq_nil_iff.mpr fun i hi => ?_
    rw [(curve_of_mem_ofCurve hi).1, h.base, Bool.not_true]
    exact Bool.false_ne_true
  rw [BoundBench.instances, h.curves, List.flatMap_append, List.flatMap_cons, List.filter_append, List.filter_append,
    hdropped, hkept before fun c hc => h.others c (List.mem_append_left _ hc),
    hkept after fun c hc => h.others c (List.mem_append_right _ hc), List.nil_append, List.flatMap_append]

/-- The instances of a bench are those with its number, if no other bench has it. -/
theorem instances_eq_filter {b : BoundGraph} (hids : (b.benches.map fun bench => bench.plan.id).Nodup)
    {bench : BoundBench} (hbench : bench ∈ b.benches) :
    bench.instances b.plan = (ofGraph (α := α) b).filter fun i => i.bench == bench.plan.id :=
  (List.flatMap_singleton ..).symm.trans (BoundGraph.isPart_only hids hbench).instances

/-- The base curve of a bench is found among its own instances. -/
theorem base?_ofGraph {b : BoundGraph} (hids : (b.benches.map fun bench => bench.plan.id).Nodup) {bench : BoundBench}
    (hbench : bench ∈ b.benches) : base? (ofGraph (α := α) b) bench.plan.id
      = (bench.instances b.plan).find? fun i => i.curve.options.base && i.first := by
  rw [instances_eq_filter hids hbench, List.find?_filter, base?]
  congr 1
  funext i
  rw [Bool.decide_and, Bool.decide_eq_true, Bool.decide_eq_true, Bool.and_assoc]

end Instance

/-! ## §4 Graphs that normalize -/

/-- A graph along axes of numbers that normalizes, and neither stacks nor accumulates. -/
structure BoundGraph.NormalizesOnly (b : BoundGraph) : Prop where
  x : b.plan.x.isCategory = false
  y : b.plan.y.isCategory = false
  normalize : b.plan.options.normalize = true
  stack : b.plan.options.stack = false
  accum : ∀ bench ∈ b.benches, ∀ c ∈ bench.curves, c.plan.options.accum = false

/-- The graph without normalizing. -/
def BoundGraph.unnormalized (b : BoundGraph) : BoundGraph :=
  { b with plan := { b.plan with options := { b.plan.options with normalize := false } } }

/-- The graph with other curves for the bench at a place. -/
def BoundGraph.withCurves (b : BoundGraph) (place : Nat) (curves : List BoundCurve) : BoundGraph :=
  { b with benches := b.benches.modify place fun bench => { bench with curves := curves } }

/-- The curve with another say about being hidden. -/
def BoundCurve.withSkip (c : BoundCurve) (skip : Bool) : BoundCurve :=
  { c with plan := { c.plan with options := { c.plan.options with skip := skip } } }

namespace BoundBench.HasBase

variable {bench : BoundBench} {before after before' after' : List BoundCurve} {base : BoundCurve}

/-- A base curve that is put elsewhere, and hidden or shown, is a base curve still. -/
theorem moved (h : bench.HasBase before base after) (hothers : before' ++ after' = before ++ after) (skip : Bool) :
    { bench with curves := before' ++ base.withSkip skip :: after' }.HasBase before' (base.withSkip skip) after' :=
  ⟨rfl, h.base, hothers ▸ h.others⟩

/-- Only the base curve may be a new one then. -/
theorem forall_moved {P : CurvePlan → Prop} (h : bench.HasBase before base after)
    (hothers : before' ++ after' = before ++ after) {skip : Bool} (hcurves : ∀ c ∈ bench.curves, P c.plan)
    (hbase : P base.plan → P (base.withSkip skip).plan) :
    ∀ c ∈ before' ++ base.withSkip skip :: after', P c.plan := by
  rw [h.curves, List.forall_mem_append, List.forall_mem_cons] at hcurves
  obtain ⟨hbefore, hown, hafter⟩ := hcurves
  have hkept : ∀ c ∈ before' ++ after', P c.plan := by
    rw [hothers]
    exact List.forall_mem_append.mpr ⟨hbefore, hafter⟩
  obtain ⟨hbefore', hafter'⟩ := List.forall_mem_append.mp hkept
  exact List.forall_mem_append.mpr ⟨hbefore', List.forall_mem_cons.mpr ⟨hbase hown, hafter'⟩⟩

end BoundBench.HasBase

namespace BoundGraph

variable {b : BoundGraph} {place : Nat} {bench : BoundBench} {curves : List BoundCurve}

theorem getElem?_benches_withCurves (h : b.benches[place]? = some bench) :
    (b.withCurves place curves).benches[place]? = some { bench with curves := curves } := by
  rw [withCurves, List.getElem?_modify_eq, h]
  rfl

theorem map_id_withCurves : (b.withCurves place curves).benches.map (fun bench => bench.plan.id)
    = b.benches.map fun bench => bench.plan.id := by
  refine List.ext_getElem? fun n => ?_
  rw [withCurves, List.getElem?_map, List.getElem?_modify, List.getElem?_map]
  split <;> cases b.benches[n]? <;> rfl

/-- What holds of the plans of all curves holds of them with other curves of which it holds. -/
theorem forall_curves_withCurves {P : CurvePlan → Prop} (hb : ∀ bench ∈ b.benches, ∀ c ∈ bench.curves, P c.plan)
    (hcurves : ∀ c ∈ curves, P c.plan) :
    ∀ bench ∈ (b.withCurves place curves).benches, ∀ c ∈ bench.curves, P c.plan := by
  intro bench hbench
  obtain ⟨n, hn⟩ := List.mem_iff_getElem?.mp hbench
  rw [withCurves, List.getElem?_modify] at hn
  obtain ⟨own, hown, rfl⟩ := Option.map_eq_some_iff.mp hn
  split
  · exact hcurves
  · exact hb own (List.mem_of_getElem? hown)

theorem NormalizesOnly.withCurves (h : b.NormalizesOnly) (hcurves : ∀ c ∈ curves, c.plan.options.accum = false) :
    (b.withCurves place curves).NormalizesOnly :=
  ⟨h.x, h.y, h.normalize, h.stack, forall_curves_withCurves (P := fun c => c.options.accum = false) h.accum hcurves⟩

end BoundGraph

namespace GraphLayout

variable {styles : StyleRegistry} {b : BoundGraph} {g : GraphLayout α}

/-- What a layout draws of a bench. -/
def drawnOf (g : GraphLayout α) (b : BoundGraph) (bench : Nat) : List (Instance α × List (PlotPoint α)) :=
  (g.drawn b).filter fun e => e.1.bench == bench

/-- Along axes of numbers, without stacking and accumulating, an instance is drawn as it is placed and divided. -/
theorem drawn_eq_map (hx : b.plan.x.isCategory = false) (hy : b.plan.y.isCategory = false)
    (hstack : b.plan.options.stack = false)
    (haccum : ∀ bench ∈ b.benches, ∀ c ∈ bench.curves, c.plan.options.accum = false) (h : ofBound styles b = .ok g) :
    g.drawn b = ((Instance.ofGraph b).filter Instance.isShown).map fun i =>
      (if b.plan.options.normalize then
        (i.placedAlong b.plan).divided b.plan (Instance.divisorsAlong? b.plan (Instance.ofGraph b) i.bench)
      else i.placedAlong b.plan).drawing := by
  have hshown : (Instance.isShown ∘ fun i : Instance α =>
      i.summed b.plan (Instance.divisorsAlong? b.plan (Instance.ofGraph b) i.bench)) = Instance.isShown :=
    funext fun i => (congrArg Instance.isShown (Instance.bare_summed _ i) :)
  rw [drawn_ofBound h, shown, Instance.finished_of_numbers hx hy, hstack, if_neg Bool.false_ne_true,
    Instance.summedAll, List.filter_map, hshown, List.map_map]
  refine List.map_congr_left fun i hi => ?_
  obtain ⟨bench, hbench, hi⟩ := List.mem_flatMap.mp (List.mem_filter.mp hi).1
  obtain ⟨c, hc, hi⟩ := List.mem_flatMap.mp hi
  have haccum' : ∀ divisors : Option (AxisMap α),
      (if b.plan.options.normalize then (i.placedAlong b.plan).divided b.plan divisors
        else i.placedAlong b.plan).curve.options.accum = false := by
    intro divisors
    have hcurve : ∀ j : Instance α, j.bare = i.bare → j.curve.options.accum = false := by
      intro j hj
      have hcurve : j.curve = i.curve := (congrArg Instance.curve hj :)
      rw [hcurve, (Instance.curve_of_mem_ofCurve hi).1, haccum bench hbench c hc]
    split
    · exact hcurve _ (congrArg Prod.fst (Instance.outline_divided ..))
    · exact hcurve _ rfl
  rw [Function.comp_apply, Instance.summed, Instance.accumulated, haccum', Bool.false_and, if_neg Bool.false_ne_true]

/-- What is drawn of a bench is drawn of its instances. -/
theorem drawnOf_eq_map (hids : (b.benches.map fun bench => bench.plan.id).Nodup) {bench : BoundBench}
    (hbench : bench ∈ b.benches) {f : Instance α → Instance α} (hf : ∀ i, (f i).bare = i.bare)
    (h : g.drawn b = ((Instance.ofGraph b).filter Instance.isShown).map fun i => (f i).drawing) :
    g.drawnOf b bench.plan.id
      = ((bench.instances b.plan).filter Instance.isShown).map fun i => (f i).drawing := by
  have hkey : ((fun e : Instance α × List (PlotPoint α) => e.1.bench == bench.plan.id) ∘ fun i => (f i).drawing)
      = fun i => i.bench == bench.plan.id :=
    funext fun i => (congrArg (fun j : Instance α => j.bench == bench.plan.id) (hf i) :)
  rw [drawnOf, h, List.filter_map, hkey, List.filter_comm, Instance.instances_eq_filter hids hbench]

/-- A graph that only normalizes draws each instance of a bench divided by the base curve of the bench. -/
theorem drawnOf_of_normalizesOnly (hb : b.NormalizesOnly) (hids : (b.benches.map fun bench => bench.plan.id).Nodup)
    {bench : BoundBench} (hbench : bench ∈ b.benches) (h : ofBound styles b = .ok g) :
    g.drawnOf b bench.plan.id = ((bench.instances b.plan).filter Instance.isShown).map fun i =>
      ((i.placedAlong b.plan).divided b.plan
        (Instance.divisorsAlong? b.plan (Instance.ofGraph b) bench.plan.id)).drawing := by
  have hdrawn := drawn_eq_map hb.x hb.y hb.stack hb.accum h
  rw [hb.normalize] at hdrawn
  have hbare : ∀ i : Instance α, ((i.placedAlong b.plan).divided b.plan
      (Instance.divisorsAlong? b.plan (Instance.ofGraph b) i.bench)).bare = i.bare :=
    fun i => congrArg Prod.fst (Instance.outline_divided ..)
  refine (drawnOf_eq_map hids hbench hbare hdrawn).trans ?_
  refine List.map_congr_left fun i hi => ?_
  rw [Instance.instances_eq_filter hids hbench] at hi
  rw [eq_of_beq (List.mem_filter.mp (List.mem_filter.mp hi).1).2]

/-- Without normalizing it draws each instance as it is placed. -/
theorem drawnOf_unnormalized (hb : b.NormalizesOnly) (hids : (b.benches.map fun bench => bench.plan.id).Nodup)
    {bench : BoundBench} (hbench : bench ∈ b.benches) (h : ofBound styles b.unnormalized = .ok g) :
    g.drawnOf b.unnormalized bench.plan.id
      = ((bench.instances b.plan).filter Instance.isShown).map fun i => (i.placedAlong b.plan).drawing :=
  drawnOf_eq_map (b := b.unnormalized) hids hbench (fun _ => rfl) (drawn_eq_map hb.x hb.y hb.stack hb.accum h)

/-- What is drawn of the curves of a bench that are not its base curve depends on the first instance of the base curve
    only. -/
theorem drawnOf_others (hb : b.NormalizesOnly) (hids : (b.benches.map fun bench => bench.plan.id).Nodup)
    {bench : BoundBench} (hbench : bench ∈ b.benches) {before after : List BoundCurve} {base : BoundCurve}
    (hbase : bench.HasBase before base after) {first : Instance α}
    (hfirst : (Instance.ofCurve b.plan bench.plan.id base).head? = some first) (h : ofBound styles b = .ok g) :
    (g.drawnOf b bench.plan.id).filter (fun e => !e.1.curve.options.base)
      = (((before ++ after).flatMap (Instance.ofCurve b.plan bench.plan.id)).filter Instance.isShown).map fun i =>
        ((i.placedAlong b.plan).divided b.plan (some (Instance.firstValues (first.placedAlong b.plan).points))).drawing := by
  rw [drawnOf_of_normalizesOnly hb hids hbench h, Instance.divisorsAlong?, Instance.base?_ofGraph hids hbench,
    Instance.find?_base_of_hasBase hbase hfirst, Option.map_some, ← Instance.filter_not_base_of_hasBase hbase,
    List.filter_comm, List.filter_map]
  refine congrArg (List.map _) (congrArg (List.filter · _) (funext fun i => ?_))
  have hbare := congrArg Prod.fst (Instance.outline_divided b.plan
    (some (Instance.firstValues (first.placedAlong b.plan).points)) (i.placedAlong b.plan))
  exact (congrArg (fun j : Instance α => !j.curve.options.base) hbare :)

/-- A bench without a base curve is drawn as it is without normalizing. -/
theorem drawnOf_of_no_base {g₀ : GraphLayout α} (hb : b.NormalizesOnly)
    (hids : (b.benches.map fun bench => bench.plan.id).Nodup) {bench : BoundBench} (hbench : bench ∈ b.benches)
    (h : ofBound styles b = .ok g) (h₀ : ofBound styles b.unnormalized = .ok g₀)
    (hnone : ∀ c ∈ bench.curves, c.plan.options.base = false) :
    g.drawnOf b bench.plan.id = g₀.drawnOf b.unnormalized bench.plan.id := by
  rw [drawnOf_of_normalizesOnly hb hids hbench h, drawnOf_unnormalized hb hids hbench h₀, Instance.divisorsAlong?,
    Instance.base?_ofGraph hids hbench, BoundBench.instances, Instance.find?_base_eq_none hnone]
  rfl

/-- A bench with a base curve is drawn divided by it. -/
theorem drawnDivided_of_hasBase {g₀ : GraphLayout α} (hb : b.NormalizesOnly)
    (hids : (b.benches.map fun bench => bench.plan.id).Nodup) {bench : BoundBench} (hbench : bench ∈ b.benches)
    (h : ofBound styles b = .ok g) (h₀ : ofBound styles b.unnormalized = .ok g₀) {before after : List BoundCurve}
    {base : BoundCurve} (hbase : bench.HasBase before base after) {first : Instance α}
    (hfirst : (Instance.ofCurve b.plan bench.plan.id base).head? = some first) :
    List.Forall₂ (Instance.DrawnDivided b.plan first) (g₀.drawnOf b.unnormalized bench.plan.id)
      (g.drawnOf b bench.plan.id) := by
  rw [drawnOf_of_normalizesOnly hb hids hbench h, drawnOf_unnormalized hb hids hbench h₀, Instance.divisorsAlong?,
    Instance.base?_ofGraph hids hbench, Instance.find?_base_of_hasBase hbase hfirst, Option.map_some,
    List.forall₂_map_left_iff, List.forall₂_map_right_iff, List.forall₂_same]
  exact fun i _ => Instance.drawnDivided_divided hb.x hb.y first i

/-- Hiding or showing a curve changes none of its points along axes of numbers. -/
theorem head?_ofCurve_withSkip {plan : GraphPlan} {bench : Nat} {c : BoundCurve} {first : Instance α}
    (h : (Instance.ofCurve plan bench c).head? = some first) (skip : Bool) :
    ∃ first' : Instance α, (Instance.ofCurve plan bench (c.withSkip skip)).head? = some first'
      ∧ (first'.placedAlong plan).points = (first.placedAlong plan).points := by
  unfold Instance.ofCurve at h ⊢
  rw [List.head?_map] at h ⊢
  obtain ⟨d, hd, rfl⟩ := Option.map_eq_some_iff.mp h
  exact ⟨_, Option.map_eq_some_iff.mpr ⟨d, hd, rfl⟩, rfl⟩

/-- The other curves of a bench are drawn alike wherever its base curve stands, and whether it is shown. -/
theorem exists_drawnOf_withCurves (hb : b.NormalizesOnly) (hids : (b.benches.map fun bench => bench.plan.id).Nodup)
    (hstyles : ∀ bench ∈ b.benches, ∀ c ∈ bench.curves, c.plan.stylesKnown styles = true)
    {place : Nat} {bench : BoundBench} (hbench : b.benches[place]? = some bench) (h : ofBound styles b = .ok g)
    {before after before' after' : List BoundCurve} {base : BoundCurve} (hbase : bench.HasBase before base after)
    {first : Instance α} (hfirst : (Instance.ofCurve b.plan bench.plan.id base).head? = some first)
    (hothers : before' ++ after' = before ++ after) (skip : Bool) :
    ∃ g' : GraphLayout α, ofBound styles (b.withCurves place (before' ++ base.withSkip skip :: after')) = .ok g'
      ∧ (g'.drawnOf (b.withCurves place (before' ++ base.withSkip skip :: after')) bench.plan.id).filter
          (fun e => !e.1.curve.options.base)
        = (g.drawnOf b bench.plan.id).filter fun e => !e.1.curve.options.base := by
  have hmem := List.mem_of_getElem? hbench
  have hmoved := hbase.moved hothers skip
  have hb' : (b.withCurves place (before' ++ base.withSkip skip :: after')).NormalizesOnly :=
    hb.withCurves (hbase.forall_moved (P := fun c => c.options.accum = false) hothers (hb.accum bench hmem) id)
  obtain ⟨g', hg'⟩ : ∃ g' : GraphLayout α,
      ofBound styles (b.withCurves place (before' ++ base.withSkip skip :: after')) = .ok g' :=
    Plan.exists_ofBound_of_stylesKnown (BoundGraph.forall_curves_withCurves (P := fun c => c.stylesKnown styles = true)
      hstyles (hbase.forall_moved (P := fun c => c.stylesKnown styles = true) hothers (hstyles bench hmem) id))
  refine ⟨g', hg', ?_⟩
  obtain ⟨first', hfirst', hpoints⟩ := head?_ofCurve_withSkip hfirst skip
  have hids' : ((b.withCurves place (before' ++ base.withSkip skip :: after')).benches.map
      fun bench => bench.plan.id).Nodup := by
    rw [BoundGraph.map_id_withCurves]
    exact hids
  have hmem' : { bench with curves := before' ++ base.withSkip skip :: after' }
      ∈ (b.withCurves place (before' ++ base.withSkip skip :: after')).benches :=
    List.mem_of_getElem? (BoundGraph.getElem?_benches_withCurves hbench)
  have hmovedDrawn := drawnOf_others hb' hids' hmem' hmoved hfirst' hg'
  rw [hothers] at hmovedDrawn
  refine hmovedDrawn.trans ((drawnOf_others hb hids hmem hbase hfirst h).trans ?_).symm
  rw [← hpoints]
  rfl

/-- A graph of a described plan that only normalizes is laid out, with and without normalizing. A bench without a base
    curve is drawn alike. A bench with one is drawn with the points of the other curves divided by the first instance of
    the base curve, and the other curves are drawn alike wherever the base curve stands among them, and whether it is
    hidden or shown. -/
theorem drawn_divided {scope scope' : Scope} {d : Document} {p : Plan} (hp : Plan.ofDocument scope d = .ok (p, scope'))
    (hplan : p.Binds b) (hb : b.NormalizesOnly) :
    ∃ g g₀ : GraphLayout α, ofBound scope'.styles b = .ok g ∧ ofBound scope'.styles b.unnormalized = .ok g₀
      ∧ ∀ place bench, b.benches[place]? = some bench →
        ((∀ c ∈ bench.curves, c.plan.options.base = false) →
          g.drawnOf b bench.plan.id = g₀.drawnOf b.unnormalized bench.plan.id)
        ∧ ∀ before base after, bench.HasBase before base after →
          ∀ first : Instance α, (Instance.ofCurve b.plan bench.plan.id base).head? = some first →
            List.Forall₂ (Instance.DrawnDivided b.plan first) (g₀.drawnOf b.unnormalized bench.plan.id)
              (g.drawnOf b bench.plan.id)
            ∧ ∀ before' after' skip, before' ++ after' = before ++ after →
              ∃ g' : GraphLayout α,
                ofBound scope'.styles (b.withCurves place (before' ++ base.withSkip skip :: after')) = .ok g'
                ∧ (g'.drawnOf (b.withCurves place (before' ++ base.withSkip skip :: after')) bench.plan.id).filter
                    (fun e => !e.1.curve.options.base)
                  = (g.drawnOf b bench.plan.id).filter fun e => !e.1.curve.options.base := by
  have hids := (Plan.numbered_ofDocument hp).nodup_benches hplan
  have hstyles : ∀ bench ∈ b.benches, ∀ c ∈ bench.curves, c.plan.stylesKnown scope'.styles = true :=
    fun bench hbench c hc => Plan.stylesKnown_ofDocument hp c.plan (hplan.mem_curves bench hbench c hc)
  obtain ⟨g, hg⟩ := Plan.exists_ofBound_of_stylesKnown (α := α) hstyles
  obtain ⟨g₀, hg₀⟩ := Plan.exists_ofBound_of_stylesKnown (α := α) (b := b.unnormalized) hstyles
  refine ⟨g, g₀, hg, hg₀, fun place bench hbench => ⟨fun hnone => ?_, fun before base after hbase first hfirst => ?_⟩⟩
  · exact drawnOf_of_no_base hb hids (List.mem_of_getElem? hbench) hg hg₀ hnone
  · exact ⟨drawnDivided_of_hasBase hb hids (List.mem_of_getElem? hbench) hg hg₀ hbase hfirst,
      fun before' after' skip hothers => exists_drawnOf_withCurves hb hids hstyles hbench hg hbase hfirst hothers skip⟩

end GraphLayout

/-! A description of a graph that normalizes, with a bench that has a base curve and a bench that has none. -/

def ratioSection : Section :=
  ⟨.graph, ⟨"plan", 1⟩, [⟨"xtype", "linear", ⟨"plan", 2⟩⟩, ⟨"ytype", "linear", ⟨"plan", 3⟩⟩,
    ⟨"options", "normalize", ⟨"plan", 4⟩⟩]⟩

def baseCurveSection : Section :=
  ⟨.curve, ⟨"plan", 7⟩, [⟨"xval", "$X", ⟨"plan", 8⟩⟩, ⟨"yval", "$Y", ⟨"plan", 9⟩⟩, ⟨"options", "base", ⟨"plan", 10⟩⟩]⟩

def ratioGraph (benches : List Nat) : GraphPlan :=
  { stackedGraph benches with options := { GraphOptions.none with normalize := true } }

def ratioCurve (id bench : Nat) : CurvePlan :=
  { runsCurve id with bench := bench }

def baseCurve (id bench : Nat) : CurvePlan :=
  { ratioCurve id bench with options := { CurveOptions.none with base := true } }

/-- The plan of the description. -/
def ratioPlan : Plan :=
  ⟨none, [ratioGraph [0, 1]], [runsBench 0 [0, 1], runsBench 1 [2]],
    [ratioCurve 0 0, baseCurve 1 0, ratioCurve 2 1]⟩

theorem ratioGraph_ofSection :
    GraphPlan.ofSection ⟨.new ∅ ∅, none, none⟩ 0 ratioSection = .ok (ratioGraph []) := by
  have hoptions : ratioSection.options ⟨false, false, false, false, false⟩ GraphOptions.set? .unknownGraphOption
      = .ok { GraphOptions.none with normalize := true } := by cbv
  have hscale : StyleRegistry.empty.resolve .scale (some "linear") 0 = .ok (.scale .linear) := by cbv
  have hx : AxisPlan.ofSection (.new ∅ ∅) ratioSection "x" ⟨"xtype", "linear", ⟨"plan", 2⟩⟩
      = .ok (.plain .linear) := by
    rw [AxisPlan.ofSection, show (Scope.new ∅ ∅).styles = StyleRegistry.empty from rfl, hscale]
    rfl
  have hy : AxisPlan.ofSection (.new ∅ ∅) ratioSection "y" ⟨"ytype", "linear", ⟨"plan", 3⟩⟩
      = .ok (.plain .linear) := by
    rw [AxisPlan.ofSection, show (Scope.new ∅ ∅).styles = StyleRegistry.empty from rfl, hscale]
    rfl
  refine bind_eq_ok.2 ⟨_, rfl, bind_eq_ok.2 ⟨_, rfl, bind_eq_ok.2 ⟨_, hoptions, bind_eq_ok.2 ⟨_, rfl, ?_⟩⟩⟩⟩
  exact bind_eq_ok.2 ⟨_, rfl, bind_eq_ok.2 ⟨_, hx, bind_eq_ok.2 ⟨_, hy, rfl⟩⟩⟩

theorem ratioPlan_ofDocument : Plan.ofDocument (.new ∅ ∅)
    ⟨[ratioSection, runsSection, runsCurveSection, baseCurveSection, runsSection, runsCurveSection]⟩
      = .ok (ratioPlan, .new ∅ ∅) := by
  have hcurve : CurvePlan.ofSection ⟨.new ∅ ∅, none, none⟩ 0 0 0 runsCurveSection = .ok (ratioCurve 0 0) := by cbv
  have hbase : CurvePlan.ofSection ⟨.new ∅ ∅, none, none⟩ 1 0 1 baseCurveSection = .ok (baseCurve 1 0) := by cbv
  have hcurve' : CurvePlan.ofSection ⟨.new ∅ ∅, none, none⟩ 2 1 2 runsCurveSection = .ok (ratioCurve 2 1) := by cbv
  have hsections : [ratioSection, runsSection, runsCurveSection, baseCurveSection, runsSection,
      runsCurveSection].foldlM (Plan.addSection ⟨.new ∅ ∅, none, none⟩) (.empty, 0) = .ok (ratioPlan, 3) :=
    bind_eq_ok.2 ⟨_, map_eq_ok.2 ⟨_, ratioGraph_ofSection, rfl⟩,
      bind_eq_ok.2 ⟨_, map_eq_ok.2 ⟨_, runsBench_ofSection 0, rfl⟩,
        bind_eq_ok.2 ⟨_, map_eq_ok.2 ⟨_, hcurve, rfl⟩,
          bind_eq_ok.2 ⟨_, map_eq_ok.2 ⟨_, hbase, rfl⟩,
            bind_eq_ok.2 ⟨_, map_eq_ok.2 ⟨_, runsBench_ofSection 1, rfl⟩,
              bind_eq_ok.2 ⟨_, map_eq_ok.2 ⟨_, hcurve', rfl⟩, rfl⟩⟩⟩⟩⟩⟩
  exact map_eq_ok.2 ⟨_, hsections, rfl⟩

/-- A curve with the given pairs. -/
def CurvePlan.withPairs (c : CurvePlan) (pairs : List (Value × Value)) : BoundCurve :=
  ⟨c, [(CurveData.new "" none []).pushAll pairs]⟩

/-- The curve to be divided, and the base curve: it has two values at `1`, zero at `2` and nothing at `3`. -/
def dividedCurve : BoundCurve :=
  (ratioCurve 0 0).withPairs [(.number 1.0, .number 20.0), (.number 2.0, .number 30.0), (.number 3.0, .number 5.0)]

def divisorCurve : BoundCurve :=
  (baseCurve 1 0).withPairs [(.number 1.0, .number 10.0), (.number 1.0, .number 7.0), (.number 2.0, .number 0.0)]

/-- The graph of the description with data. -/
def ratioRuns : BoundGraph :=
  ⟨ratioGraph [0, 1], [⟨runsBench 0 [0, 1], "RUNS", [dividedCurve, divisorCurve]⟩,
    ⟨runsBench 1 [2], "RUNS", [(ratioCurve 2 1).withPairs [(.number 1.0, .number 4.0)]]⟩]⟩

theorem binds_ratioRuns : ratioPlan.Binds ratioRuns where
  graph := List.mem_singleton_self _
  benches := rfl
  curves := List.forall_mem_cons.mpr ⟨rfl, List.forall_mem_singleton.mpr rfl⟩

theorem normalizesOnly_ratioRuns : ratioRuns.NormalizesOnly :=
  ⟨rfl, rfl, rfl, rfl, by decide⟩

theorem hasBase_ratioRuns : (BoundBench.mk (runsBench 0 [0, 1]) "RUNS" [dividedCurve, divisorCurve]).HasBase
    [dividedCurve] divisorCurve [] :=
  ⟨rfl, rfl, by decide⟩

theorem drawn_divided_sample : ∃ g g₀ : GraphLayout Float, GraphLayout.ofBound .empty ratioRuns = .ok g
    ∧ GraphLayout.ofBound .empty ratioRuns.unnormalized = .ok g₀
    ∧ (g.drawnOf ratioRuns 0).map (fun e => e.2.map fun p => (p.x, p.y))
      = [[(1.0, 2.0), (2.0, 0.0), (3.0, 0.0)], [(1.0, 10.0), (1.0, 7.0), (2.0, 0.0)]]
    ∧ g.drawnOf ratioRuns 1 = g₀.drawnOf ratioRuns.unnormalized 1
    ∧ (∃ first : Instance Float, (Instance.ofCurve ratioRuns.plan 0 divisorCurve).head? = some first
      ∧ List.Forall₂ (Instance.DrawnDivided ratioRuns.plan first) (g₀.drawnOf ratioRuns.unnormalized 0)
        (g.drawnOf ratioRuns 0))
    ∧ ∃ g' : GraphLayout Float,
      GraphLayout.ofBound .empty (ratioRuns.withCurves 0 [divisorCurve.withSkip true, dividedCurve]) = .ok g'
      ∧ (g'.drawnOf (ratioRuns.withCurves 0 [divisorCurve.withSkip true, dividedCurve]) 0).filter
          (fun e => !e.1.curve.options.base)
        = (g.drawnOf ratioRuns 0).filter fun e => !e.1.curve.options.base := by
  have hrun : (GraphLayout.ofBound (α := Float) .empty ratioRuns).toOption.map (fun g =>
      (g.drawnOf ratioRuns 0).map fun e => e.2.map fun p => (p.x, p.y))
      = some [[(1.0, 2.0), (2.0, 0.0), (3.0, 0.0)], [(1.0, 10.0), (1.0, 7.0), (2.0, 0.0)]] := by
    decide +kernel
  obtain ⟨g₁, hg₁, hpoints⟩ := exists_eq_ok hrun
  obtain ⟨g, g₀, hg, hg₀, hbenches⟩ :=
    GraphLayout.drawn_divided (α := Float) ratioPlan_ofDocument binds_ratioRuns normalizesOnly_ratioRuns
  obtain rfl : g = g₁ := Except.ok.inj (hg.symm.trans hg₁)
  have hsame := (hbenches 1 _ rfl).1 (List.forall_mem_singleton.mpr rfl)
  obtain ⟨hdivided, hmoved⟩ := (hbenches 0 _ rfl).2 [dividedCurve] divisorCurve [] hasBase_ratioRuns _ rfl
  exact ⟨g, g₀, hg, hg₀, hpoints, hsame, ⟨_, rfl, hdivided⟩, hmoved [] [dividedCurve] true rfl⟩

end BenchPlot
