import BenchPlot.Layout.Graph
import BenchPlot.Proofs.Style
import BenchPlot.Proofs.Store.Accepted
import BenchPlot.Proofs.Store.Row

/-!
# What a layout draws of an instance

A graph is laid out unless a shown instance names a style that is not known. The shown instances become the
curves of the layout in their order, and the points of a curve are those of its instance. The passes over the
placed points change values and bounds only: each instance keeps what it was reduced to, and each point its
values, its bucket and its place along the bucket axis.

Main statements: `GraphLayout.exists_ofBound_iff`, `GraphLayout.pointsOf_ofBound`, `GraphLayout.drawn_ofBound` and
`Instance.map_outline_finished`.
-/

namespace BenchPlot

variable {α : Type}

/-! ## §1 What the passes leave alone -/

/-- What is known of a point without its value: its values as they were given, the key of its bucket and its
    place along the bucket axis. -/
def PlacedPoint.outline (p : PlacedPoint α) : Value × Value × Value × Float :=
  (p.rawX, p.rawY, p.key, p.bucket)

@[simp]
theorem PlacedPoint.outline_shift [Add α] (p : PlacedPoint α) (amount : α) :
    (p.shift amount).outline = p.outline :=
  rfl

namespace Instance

/-- An instance without its points, as it is before it is placed. -/
def bare (i : Instance α) : Instance α :=
  { i with points := [] }

/-- An instance with its points without their values. -/
def outline (i : Instance α) : Instance α × List (Value × Value × Value × Float) :=
  (i.bare, i.points.map PlacedPoint.outline)

/-- The side of an instance of the plans of two axes. -/
theorem plan_bucketSide (x y : AxisPlacement) (i : Instance α) :
    (i.bucketSide x y).plan = i.bucketSide x.plan y.plan := by
  unfold bucketSide
  split <;> rfl

theorem plan_valueSide (x y : AxisPlacement) (i : Instance α) :
    (i.valueSide x y).plan = i.valueSide x.plan y.plan :=
  plan_bucketSide y x i

/-- Changing the points, but none of their outlines, keeps the outline of an instance. -/
theorem outline_with_points {i : Instance α} {points : List (PlacedPoint α)}
    (h : points.map PlacedPoint.outline = i.points.map PlacedPoint.outline) :
    outline { i with points := points } = i.outline :=
  Prod.ext rfl h

/-- A pass that works on each instance keeps the outlines of a list if it keeps each. -/
theorem map_outline_map {f : Instance α → Instance α} (h : ∀ i, (f i).outline = i.outline)
    (instances : List (Instance α)) : (instances.map f).map outline = instances.map outline := by
  rw [List.map_map]
  exact List.map_congr_left fun i _ => h i

/-- Of two lists with the same outlines the one has an instance for each of the other, and a point for each point. -/
theorem exists_of_map_outline_eq {l l' : List (Instance α)} (h : l.map outline = l'.map outline) {i : Instance α}
    (hi : i ∈ l') {p : PlacedPoint α} (hp : p ∈ i.points) :
    ∃ j ∈ l, j.bare = i.bare ∧ ∃ q ∈ j.points, q.outline = p.outline := by
  obtain ⟨j, hj, hij⟩ := List.mem_map.mp (h ▸ List.mem_map_of_mem hi)
  have houtlines : j.points.map PlacedPoint.outline = i.points.map PlacedPoint.outline := congrArg Prod.snd hij
  exact ⟨j, hj, congrArg Prod.fst hij, List.mem_map.mp (houtlines ▸ List.mem_map_of_mem hp)⟩

variable [Coordinate α]

/-- An instance with its points placed, where it is the one with number `member`. -/
def placed (x y : AxisPlacement) (member : Nat) (i : Instance α) : Instance α :=
  { i with points := i.buckets.filterMap (placePoint? (i.bucketSide x y) (i.valueSide x y) i.direction member) }

theorem getElem?_placeAll (x y : AxisPlacement) (instances : List (Instance α)) (member : Nat) :
    (placeAll x y instances)[member]? = instances[member]?.map (placed x y member) := by
  rw [placeAll, List.getElem?_map, List.getElem?_zipIdx, Option.map_map, Nat.zero_add]
  rfl

/-- The key of a placed point is its bucket. -/
theorem key_of_mem_placed {x y : AxisPlacement} {member : Nat} {i : Instance α} {p : PlacedPoint α}
    (h : p ∈ (i.placed x y member).points) : p.key = i.bucketSide p.rawX p.rawY := by
  obtain ⟨c, _, hc⟩ := List.mem_filterMap.mp h
  unfold placePoint? at hc
  split at hc
  · cases hc
    unfold bucketSide
    cases i.direction <;> rfl
  · cases hc

theorem outline_normalizePoint (divisors : AxisMap α) (base : α) (p : PlacedPoint α) :
    (normalizePoint divisors base p).outline = p.outline := by
  unfold normalizePoint
  split <;> rfl

/-- An instance, normalized by the divisors of its bench. -/
def divided (g : GraphPlan) (divisors : Option (AxisMap α)) (i : Instance α) : Instance α :=
  match divisors with
  | none => i
  | some divisors =>
    let axis := i.valueSide g.x g.y
    if i.curve.options.base || axis.isCategory then i
    else { i with points := i.points.map (normalizePoint divisors (Arithmetic.ofFloat axis.base)) }

theorem normalize_eq_map (g : GraphPlan) (instances : List (Instance α)) :
    normalize g instances = instances.map fun i => i.divided g (divisors? instances i.bench) :=
  rfl

theorem outline_divided (g : GraphPlan) (divisors : Option (AxisMap α)) (i : Instance α) :
    (i.divided g divisors).outline = i.outline := by
  unfold divided
  split
  · rfl
  · dsimp only
    split
    · rfl
    · refine outline_with_points ?_
      rw [List.map_map]
      exact List.map_congr_left fun p _ => outline_normalizePoint _ _ p

theorem map_outline_accumulatePoints (total : α) (points : List (PlacedPoint α)) :
    (accumulatePoints total points).map PlacedPoint.outline = points.map PlacedPoint.outline := by
  induction points generalizing total with
  | nil => rfl
  | cons p rest ih => exact congrArg₂ List.cons (p.outline_shift total) (ih _)

/-- An instance, accumulated if its curve asks for it. -/
def accumulated (x y : AxisPlacement) (i : Instance α) : Instance α :=
  if i.curve.options.accum && !(i.bucketSide x y).plan.isCategory then
    { i with points := accumulatePoints (Arithmetic.ofNatural 0) i.points }
  else i

theorem accumulate_eq_map (x y : AxisPlacement) (instances : List (Instance α)) :
    accumulate x y instances = instances.map (accumulated x y) :=
  rfl

theorem outline_accumulated (x y : AxisPlacement) (i : Instance α) : (i.accumulated x y).outline = i.outline := by
  unfold accumulated
  split
  · exact outline_with_points (map_outline_accumulatePoints _ _)
  · rfl

theorem map_outline_stackPoints (bench : Nat) (heights : Heights α) (points : List (PlacedPoint α)) :
    (stackPoints bench heights points).1.map PlacedPoint.outline = points.map PlacedPoint.outline := by
  induction points generalizing heights with
  | nil => rfl
  | cons p rest ih => exact congrArg₂ List.cons (p.outline_shift _) (ih _)

/-- Whether an instance is to be stacked: it is shown, and not excepted. -/
def isStacked (i : Instance α) : Bool :=
  i.isShown && !i.curve.options.noStack

/-- An instance on top of the stacks if it is to be stacked, and the stacks with it. -/
def raised (x y : AxisPlacement) (heights : Heights α) (i : Instance α) : Instance α × Heights α :=
  if i.isStacked && !(i.valueSide x y).plan.isCategory then
    ({ i with points := (stackPoints i.bench heights i.points).1 }, (stackPoints i.bench heights i.points).2)
  else (i, heights)

theorem stackFrom_cons (x y : AxisPlacement) (heights : Heights α) (i : Instance α) (rest : List (Instance α)) :
    stackFrom x y heights (i :: rest)
      = (raised x y heights i).1 :: stackFrom x y (raised x y heights i).2 rest := by
  have hstays : (!i.isShown || i.curve.options.noStack || (i.valueSide x y).plan.isCategory)
      = !(i.isStacked && !(i.valueSide x y).plan.isCategory) := by
    unfold isStacked
    cases i.isShown <;> cases i.curve.options.noStack <;> simp
  rw [stackFrom, hstays, raised]
  cases i.isStacked && !(i.valueSide x y).plan.isCategory with
  | true => rfl
  | false => rfl

theorem outline_raised (x y : AxisPlacement) (heights : Heights α) (i : Instance α) :
    (raised x y heights i).1.outline = i.outline := by
  unfold raised
  split
  · exact outline_with_points (map_outline_stackPoints ..)
  · rfl

theorem bare_raised (x y : AxisPlacement) (heights : Heights α) (i : Instance α) :
    (raised x y heights i).1.bare = i.bare :=
  congrArg Prod.fst (outline_raised x y heights i)

theorem map_outline_stackFrom (x y : AxisPlacement) (heights : Heights α) (instances : List (Instance α)) :
    (stackFrom x y heights instances).map outline = instances.map outline := by
  induction instances generalizing heights with
  | nil => rfl
  | cons i rest ih =>
    rw [stackFrom_cons, List.map_cons, List.map_cons, outline_raised, ih]

/-- The passes keep the outlines of the placed instances. -/
theorem map_outline_finished (g : GraphPlan) (instances : List (Instance α)) :
    (finished g instances).map outline
      = (placeAll (axes g instances).1 (axes g instances).2 instances).map outline := by
  have hnormalized : ∀ placed : List (Instance α),
      (if g.options.normalize then normalize g placed else placed).map outline = placed.map outline := by
    intro placed
    split
    · rw [normalize_eq_map, map_outline_map fun i => outline_divided ..]
    · rfl
  unfold finished
  dsimp only
  split
  · rw [stack, map_outline_stackFrom, accumulate_eq_map, map_outline_map fun i => outline_accumulated .., hnormalized]
  · rw [accumulate_eq_map, map_outline_map fun i => outline_accumulated .., hnormalized]

theorem map_bare_placeAll (x y : AxisPlacement) (instances : List (Instance α)) :
    (placeAll x y instances).map bare = instances.map bare := by
  have hnumbered : instances.map bare = (instances.zipIdx.map Prod.fst).map bare := by
    rw [List.zipIdx_map_fst]
  rw [hnumbered, placeAll, List.map_map, List.map_map]
  exact List.map_congr_left fun i _ => rfl

/-- Laying out keeps what the instances were reduced to. -/
theorem map_bare_finished (g : GraphPlan) (instances : List (Instance α)) :
    (finished g instances).map bare = instances.map bare := by
  have houtline := congrArg (List.map Prod.fst) (map_outline_finished g instances)
  rw [List.map_map, List.map_map] at houtline
  exact houtline.trans (map_bare_placeAll ..)

/-- The instances of a bound graph have no points before they are placed. -/
theorem bare_of_mem_ofGraph {b : BoundGraph} {i : Instance α} (h : i ∈ ofGraph b) : i.bare = i := by
  obtain ⟨bench, _, h⟩ := List.mem_flatMap.mp h
  obtain ⟨c, _, h⟩ := List.mem_flatMap.mp h
  obtain ⟨d, _, rfl⟩ := List.mem_map.mp h
  rfl

theorem map_bare_ofGraph (b : BoundGraph) : (ofGraph b : List (Instance α)).map bare = ofGraph b :=
  (List.map_congr_left fun _ h => bare_of_mem_ofGraph h).trans (List.map_id _)

/-- The finished instances of a bound graph are its instances with points. -/
theorem map_bare_finished_ofGraph (b : BoundGraph) :
    (finished b.plan (ofGraph b : List (Instance α))).map bare = ofGraph b := by
  rw [map_bare_finished, map_bare_ofGraph]

end Instance

/-! ## §2 Styles -/

/-- Whether every kind that a curve names is known. -/
def CurvePlan.stylesKnown (styles : StyleRegistry) (c : CurvePlan) : Bool :=
  c.line.all (styles.isKnown .line) && c.mark.all (styles.isKnown .mark) && c.color.all (styles.isKnown .color)

/-- A pass over a list is accepted iff each element is. -/
theorem exists_mapM_eq_ok_iff {ε β γ : Type} {f : β → Except ε γ} {l : List β} :
    (∃ r, l.mapM f = .ok r) ↔ ∀ a ∈ l, ∃ c, f a = .ok c := by
  constructor
  · rintro ⟨r, h⟩ a ha
    obtain ⟨c, _, hc⟩ := exists_mem_of_forall₂ (forall₂_of_mapM_eq_ok h) ha
    exact ⟨c, hc⟩
  · intro h
    induction l with
    | nil => exact ⟨[], rfl⟩
    | cons a rest ih =>
      obtain ⟨c, hc⟩ := h a (List.mem_cons_self ..)
      obtain ⟨r, hr⟩ := ih fun b hb => h b (List.mem_cons_of_mem _ hb)
      exact ⟨c :: r, by rw [List.mapM_cons, hc, hr]; rfl⟩

namespace Instance

theorem exists_style_iff {styles : StyleRegistry} (i : Instance α) (id : Nat) {category : StyleCategory}
    {name : Option String} :
    (∃ k, i.style styles id category name = .ok k) ↔ name.all (styles.isKnown category) = true := by
  rw [← StyleRegistry.exists_resolve_iff id]
  exact exists_congr fun k => mapError_eq_ok

/-- An instance becomes a curve iff the styles of its curve are known, whatever number it gets. -/
theorem exists_curveLayout_iff {styles : StyleRegistry} {i : Instance α} {id : Nat} :
    (∃ c, i.curveLayout styles id = .ok c) ↔ i.curve.stylesKnown styles = true := by
  unfold curveLayout CurvePlan.stylesKnown
  rw [Bool.and_eq_true, Bool.and_eq_true, ← exists_style_iff i id,
    ← exists_style_iff i id, ← exists_style_iff i id]
  constructor
  · rintro ⟨c, h⟩
    obtain ⟨line, hline, h⟩ := bind_eq_ok.1 h
    obtain ⟨mark, hmark, h⟩ := bind_eq_ok.1 h
    obtain ⟨color, hcolor, _⟩ := bind_eq_ok.1 h
    exact ⟨⟨⟨line, hline⟩, mark, hmark⟩, color, hcolor⟩
  · rintro ⟨⟨⟨line, hline⟩, mark, hmark⟩, color, hcolor⟩
    rw [hline, hmark, hcolor]
    exact ⟨_, rfl⟩

theorem numbered_of_curveLayout {styles : StyleRegistry} {i : Instance α} {id : Nat} {c : CurveLayout}
    (h : i.curveLayout styles id = .ok c) : (c.id, c.curve) = (id, i.curve.id) := by
  unfold curveLayout at h
  obtain ⟨line, _, h⟩ := bind_eq_ok.1 h
  obtain ⟨mark, _, h⟩ := bind_eq_ok.1 h
  obtain ⟨color, _, h⟩ := bind_eq_ok.1 h
  cases h
  rfl

end Instance

/-! ## §3 Points of curves -/

/-- The pieces that a list is drawn as, where each piece says whether its element is kept. -/
theorem filter_flatMap_of_marked {β γ : Type} {f : β → List γ} {keep : γ → Bool} {keeps : β → Bool}
    (hmark : ∀ a, ∀ c ∈ f a, keep c = keeps a) (l : List β) :
    (l.flatMap f).filter keep = (l.filter keeps).flatMap f := by
  induction l with
  | nil => rfl
  | cons a rest ih =>
    rw [List.flatMap_cons, List.filter_append, List.filter_cons, ih]
    cases ha : keeps a with
    | true =>
      have hall : (f a).filter keep = f a := List.filter_eq_self.mpr fun c hc => (hmark a c hc).trans ha
      rw [hall, if_pos rfl, List.flatMap_cons]
    | false =>
      have hnone : (f a).filter keep = [] :=
        List.filter_eq_nil_iff.mpr fun c hc => ne_true_of_eq_false ((hmark a c hc).trans ha)
      rw [hnone, if_neg Bool.false_ne_true, List.nil_append]

/-- One element alone has its key, if the keys are distinct. -/
theorem filter_key_eq {β : Type} {key : β → Nat} {l : List β} (hkeys : (l.map key).Nodup) {a : β} (ha : a ∈ l) :
    l.filter (fun b => key b == key a) = [a] := by
  obtain ⟨before, after, rfl⟩ := List.append_of_mem ha
  rw [List.map_append, List.map_cons, List.nodup_middle, ← List.map_append] at hkeys
  have hothers : ∀ b ∈ before ++ after, (key b == key a) = false := by
    intro b hb
    refine beq_eq_false_iff_ne.mpr fun heq => ?_
    exact (List.nodup_cons.mp hkeys).1 (heq ▸ List.mem_map_of_mem hb)
  have hnone : ∀ l : List β, (∀ b ∈ l, b ∈ before ++ after) → l.filter (fun b => key b == key a) = [] :=
    fun l hl => List.filter_eq_nil_iff.mpr fun b hb => ne_true_of_eq_false (hothers b (hl b hb))
  rw [List.filter_append, List.filter_cons, if_pos (beq_self_eq_true (key a)),
    hnone before fun b hb => List.mem_append_left _ hb, hnone after fun b hb => List.mem_append_right _ hb]
  rfl

namespace GraphLayout

variable [Coordinate α] {styles : StyleRegistry} {b : BoundGraph} {g : GraphLayout α}

/-- The shown instances of a bound graph, finished. -/
def shown (b : BoundGraph) : List (Instance α) :=
  (Instance.finished b.plan (Instance.ofGraph b)).filter Instance.isShown

theorem map_bare_shown (b : BoundGraph) :
    (shown b : List (Instance α)).map Instance.bare = (Instance.ofGraph b).filter Instance.isShown := by
  rw [← Instance.map_bare_finished_ofGraph, List.filter_map]
  rfl

/-- A graph that is laid out has the axes of its instances, and a curve with points for each shown one. -/
theorem ofBound_eq_ok (h : ofBound styles b = .ok g) :
    g.x = (Instance.axes b.plan (Instance.ofGraph b : List (Instance α))).1.layout
      ∧ g.y = (Instance.axes b.plan (Instance.ofGraph b : List (Instance α))).2.layout
      ∧ List.Forall₂ (fun (i : Instance α × Nat) c => i.1.curveLayout styles i.2 = .ok c) (shown b).zipIdx g.curves
      ∧ g.points = (shown b).zipIdx.flatMap fun i => i.1.plotPoints i.2 := by
  obtain ⟨curves, hcurves, rfl⟩ := map_eq_ok.1 h
  exact ⟨rfl, rfl, forall₂_of_mapM_eq_ok hcurves, rfl⟩

/-- The curves of a layout are numbered, and come from the curves of the shown instances. -/
theorem curves_ofBound (h : ofBound styles b = .ok g) : g.curves.map (fun c => (c.id, c.curve))
    = ((Instance.ofGraph b : List (Instance α)).filter Instance.isShown).zipIdx.map fun i => (i.2, i.1.curve.id) := by
  have hcurves : (shown b : List (Instance α)).zipIdx.map (fun i => (i.2, i.1.curve.id))
      = g.curves.map fun c => (c.id, c.curve) := by
    refine List.forall₂_eq_eq_eq ▸ List.forall₂_map_left_iff.mpr (List.forall₂_map_right_iff.mpr ?_)
    exact (ofBound_eq_ok h).2.2.1.imp fun i c hc => (Instance.numbered_of_curveLayout hc).symm
  rw [← hcurves, ← map_bare_shown, List.zipIdx_map, List.map_map]
  rfl

/-- A graph is laid out iff the curves of its shown instances name known styles only. -/
theorem exists_ofBound_iff : (∃ g : GraphLayout α, ofBound styles b = .ok g)
    ↔ ∀ i ∈ (Instance.ofGraph b : List (Instance α)), i.isShown = true → i.curve.stylesKnown styles = true := by
  have hcurves : (∃ g : GraphLayout α, ofBound styles b = .ok g)
      ↔ ∃ curves, (shown b).zipIdx.mapM (fun (i : Instance α × Nat) => i.1.curveLayout styles i.2) = .ok curves := by
    constructor
    · rintro ⟨g, hg⟩
      obtain ⟨curves, hcurves, -⟩ := map_eq_ok.1 hg
      exact ⟨curves, hcurves⟩
    · rintro ⟨curves, hcurves⟩
      exact ⟨_, map_eq_ok.2 ⟨curves, hcurves, rfl⟩⟩
  rw [hcurves, exists_mapM_eq_ok_iff]
  constructor
  · intro h i hi hshown
    have hbare : i ∈ (shown b : List (Instance α)).map Instance.bare :=
      map_bare_shown (α := α) b ▸ List.mem_filter.mpr ⟨hi, hshown⟩
    obtain ⟨j, hj, rfl⟩ := List.mem_map.mp hbare
    obtain ⟨n, hn⟩ := List.mem_iff_getElem?.mp hj
    exact Instance.exists_curveLayout_iff.1 (h (j, n) (List.mem_zipIdx_iff_getElem?.mpr hn))
  · intro h e he
    have hmem : e.1.bare ∈ (Instance.ofGraph b).filter Instance.isShown :=
      map_bare_shown (α := α) b ▸ List.mem_map_of_mem (List.fst_mem_of_mem_zipIdx he)
    obtain ⟨hmem, hshown⟩ := List.mem_filter.mp hmem
    exact Instance.exists_curveLayout_iff.2 (h e.1.bare hmem hshown)

/-- The points of a curve of a layout are those of the shown instance with its number. -/
theorem pointsOf_ofBound (h : ofBound styles b = .ok g) {id : Nat} {i : Instance α}
    (hi : (shown b)[id]? = some i) : g.pointsOf id = i.plotPoints id := by
  have hnumber : ∀ e : Instance α × Nat, ∀ p ∈ e.1.plotPoints e.2, (p.curve == id) = (e.2 == id) := by
    intro e p hp
    obtain ⟨q, _, rfl⟩ := List.mem_map.mp hp
    rfl
  have hkeys : ((shown b : List (Instance α)).zipIdx.map Prod.snd).Nodup := by
    rw [List.zipIdx_map_snd]
    exact List.nodup_range'
  have hmem : (i, id) ∈ (shown b).zipIdx := List.mem_zipIdx_iff_getElem?.mpr hi
  have hone : (shown b).zipIdx.filter (fun e : Instance α × Nat => e.2 == id) = [(i, id)] := filter_key_eq hkeys hmem
  rw [pointsOf, (ofBound_eq_ok h).2.2.2, filter_flatMap_of_marked hnumber, hone, List.flatMap_singleton]

end GraphLayout

/-! ## §4 Drawings -/

/-- The values of a point. -/
def PlotPoint.raw (p : PlotPoint α) : Value × Value :=
  (p.rawX, p.rawY)

/-- A point without the number of its curve. -/
def PlotPoint.unnumbered (p : PlotPoint α) : PlotPoint α :=
  { p with curve := 0 }

/-- An instance before it was placed, with the points that it is plotted with, whatever its number. -/
def Instance.drawing [Coordinate α] (i : Instance α) : Instance α × List (PlotPoint α) :=
  (i.bare, i.plotPoints 0)

/-- A point of an instance as it is plotted, without the number of its curve. -/
def Instance.plotPoint [Coordinate α] (i : Instance α) (p : PlacedPoint α) : PlotPoint α where
  curve := 0
  rawX := p.rawX
  rawY := p.rawY
  x := i.bucketSide (Arithmetic.ofFloat p.bucket) p.value
  y := i.bucketSide p.value (Arithmetic.ofFloat p.bucket)
  low := p.low
  high := p.high

theorem Instance.drawing_eq [Coordinate α] (i : Instance α) : i.drawing = (i.bare, i.points.map i.plotPoint) :=
  rfl

/-- A plotted point has its place along the bucket axis and its value along the value axis. -/
theorem Instance.bucketSide_plotPoint [Coordinate α] (i : Instance α) (p : PlacedPoint α) :
    i.bucketSide (i.plotPoint p).x (i.plotPoint p).y = Arithmetic.ofFloat p.bucket := by
  unfold plotPoint bucketSide
  cases i.direction <;> rfl

theorem Instance.valueSide_plotPoint [Coordinate α] (i : Instance α) (p : PlacedPoint α) :
    i.valueSide (i.plotPoint p).x (i.plotPoint p).y = p.value := by
  unfold plotPoint valueSide bucketSide
  cases i.direction <;> rfl

namespace GraphLayout

variable [Coordinate α] {styles : StyleRegistry} {b : BoundGraph} {g : GraphLayout α}

/-- The shown instances of a bound graph with the points that a layout of it has for them. -/
def drawn (g : GraphLayout α) (b : BoundGraph) : List (Instance α × List (PlotPoint α)) :=
  ((Instance.ofGraph b).filter Instance.isShown).zipIdx.map fun i =>
    (i.1, (g.pointsOf i.2).map PlotPoint.unnumbered)

/-- A layout draws the finished instances that are shown. -/
theorem drawn_ofBound (h : ofBound styles b = .ok g) : g.drawn b = (shown b).map Instance.drawing := by
  have hnumbered : (shown b).map Instance.drawing
      = ((shown b).zipIdx.map Prod.fst).map (Instance.drawing (α := α)) := by
    rw [List.zipIdx_map_fst]
  rw [hnumbered, drawn, ← map_bare_shown, List.zipIdx_map, List.map_map, List.map_map]
  refine List.map_congr_left fun e he => ?_
  have hpoints := pointsOf_ofBound h (List.mem_zipIdx_iff_getElem?.mp he)
  refine Prod.ext rfl ?_
  show (g.pointsOf e.2).map PlotPoint.unnumbered = e.1.plotPoints 0
  rw [hpoints, Instance.plotPoints, List.map_map]
  rfl

/-- The drawings have all points of a layout, in its order. -/
theorem map_unnumbered_points (h : ofBound styles b = .ok g) :
    g.points.map PlotPoint.unnumbered = (g.drawn b).flatMap Prod.snd := by
  have hnumbered : (shown b).flatMap (fun i : Instance α => i.plotPoints 0)
      = ((shown b).zipIdx.map Prod.fst).flatMap fun i : Instance α => i.plotPoints 0 := by
    rw [List.zipIdx_map_fst]
  rw [drawn_ofBound h, List.flatMap_map, (ofBound_eq_ok h).2.2.2, List.map_flatMap]
  refine Eq.trans ?_ hnumbered.symm
  rw [List.flatMap_map]
  refine List.flatMap_congr fun e _ => ?_
  rw [Instance.plotPoints, List.map_map]
  rfl

end GraphLayout

/-! ## §5 Graphs with given pairs -/

/-- An axis with a scale and nothing else. -/
def AxisPlan.plain (scale : ScaleKind) : AxisPlan :=
  ⟨none, .scale scale, [], [], 0.0, none, none⟩

/-- Options of graphs and of curves that ask for nothing. -/
def GraphOptions.none : GraphOptions :=
  ⟨false, false, false, false, false⟩

def CurveOptions.none : CurveOptions :=
  ⟨false, false, false, false, false, false, false⟩

/-- A curve of the first bench with options, and one instance with the given pairs. -/
def BoundCurve.ofPairs (id : Nat) (options : CurveOptions) (pairs : List (Value × Value)) : BoundCurve :=
  ⟨⟨id, 0, ⟨"plan", id⟩, id, ⟨"1", [.literal (.number 1.0)]⟩, ⟨"1", [.literal (.number 1.0)]⟩, .none, .none, .none,
    .none, .none, .none, [], [], options⟩, [(CurveData.new "" .none []).pushAll pairs]⟩

/-- A graph with two plain axes and one bench. -/
def BoundGraph.ofCurves (x y : ScaleKind) (options : GraphOptions) (curves : List BoundCurve) : BoundGraph :=
  ⟨⟨0, ⟨"plan", 1⟩, "", .plain x, .plain y, .none, .inside, options, [0]⟩,
    [⟨⟨0, 0, ⟨"plan", 2⟩, "runs", [], [], false, .none, curves.map fun c => c.plan.id⟩, "RUNS", curves⟩]⟩

end BenchPlot
