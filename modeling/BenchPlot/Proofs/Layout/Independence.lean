import BenchPlot.Proofs.Layout.Selection
import BenchPlot.Proofs.Plan.Numbering
import Mathlib

/-!
# Benches and directions that do not influence each other

Along axes of numbers the benches of a graph are laid out as if each stood alone: divisors are those of a bench, and
stacks are raised for each bench. The curves of one direction are not: within a bench they are divided by its base
curve, whatever its direction, and stacked on all points at their position. Where neither happens they are laid out as
if they stood alone.

Main statements: `GraphLayout.drawn_only` and `GraphLayout.forall₂_drawn_along`.
-/

namespace BenchPlot

variable {α : Type}

/-! ## §1 Parts of a bound graph -/

/-- A bound graph with one bench only. -/
def BoundGraph.only (b : BoundGraph) (bench : BoundBench) : BoundGraph :=
  { b with benches := [bench] }

/-- A bench with its curves of one direction only. -/
def BoundBench.along (bench : BoundBench) (d : Direction) : BoundBench :=
  { bench with curves := bench.curves.filter fun c => Instance.directionOf c.plan == d }

/-- A bound graph with its curves of one direction only. -/
def BoundGraph.along (b : BoundGraph) (d : Direction) : BoundGraph :=
  { b with benches := b.benches.map fun bench => bench.along d }

/-- A bound graph has those instances of another one that `keep` chooses by what they are before they are placed. -/
structure BoundGraph.IsPart [Coordinate α] (part b : BoundGraph) (keep : Instance α → Bool) : Prop where
  plan : part.plan = b.plan
  instances : (Instance.ofGraph part : List (Instance α)) = (Instance.ofGraph b).filter keep
  keep_bare : ∀ i, keep i.bare = keep i

namespace BoundGraph

variable [Coordinate α] {b : BoundGraph}

/-- A bench is a part if no other bench has its number. -/
theorem isPart_only (hids : (b.benches.map fun bench => bench.plan.id).Nodup) {bench : BoundBench}
    (hbench : bench ∈ b.benches) : (b.only bench).IsPart b fun i : Instance α => i.bench == bench.plan.id where
  plan := rfl
  instances := by
    have hmark : ∀ other : BoundBench, ∀ i ∈ other.curves.flatMap (Instance.ofCurve b.plan other.plan.id),
        ((i : Instance α).bench == bench.plan.id) = (other.plan.id == bench.plan.id) := by
      intro other i hi
      obtain ⟨c, _, hi⟩ := List.mem_flatMap.mp hi
      obtain ⟨d, _, rfl⟩ := List.mem_map.mp hi
      rfl
    rw [Instance.ofGraph, Instance.ofGraph, filter_flatMap_of_marked hmark, filter_key_eq hids hbench]
    rfl
  keep_bare := fun _ => rfl

/-- The curves of one direction are a part. -/
theorem isPart_along (d : Direction) : (b.along d).IsPart b fun i : Instance α => i.direction == d where
  plan := rfl
  instances := by
    have hcurve : ∀ bench : Nat, ∀ c : BoundCurve, ∀ i ∈ (Instance.ofCurve b.plan bench c : List (Instance α)),
        (i.direction == d) = (Instance.directionOf c.plan == d) := by
      intro bench c i hi
      obtain ⟨e, _, rfl⟩ := List.mem_map.mp hi
      rfl
    rw [Instance.ofGraph, Instance.ofGraph, List.filter_flatMap, along, List.flatMap_map]
    exact List.flatMap_congr fun bench _ => (filter_flatMap_of_marked (hcurve bench.plan.id) bench.curves).symm
  keep_bare := fun _ => rfl

end BoundGraph

/-! ## §2 Layouts of parts -/

namespace GraphLayout

variable [Coordinate α] {styles : StyleRegistry} {b part : BoundGraph} {g : GraphLayout α}
variable {keep : Instance α → Bool}

/-- A part of a graph that is laid out is laid out. -/
theorem exists_ofBound_part (hpart : part.IsPart b keep) (h : ofBound styles b = .ok g) :
    ∃ g' : GraphLayout α, ofBound styles part = .ok g' := by
  have hknown := exists_ofBound_iff.1 ⟨g, h⟩
  refine exists_ofBound_iff.2 fun i hi hshown => hknown i ?_ hshown
  rw [hpart.instances] at hi
  exact (List.mem_filter.mp hi).1

/-- The shown instances of a part are alike to those of the whole at all places `own` such that the bench has its
    base curve in the part and nothing outside the part is stacked there. -/
theorem forall₂_alike_shown {own : Nat × Int → Prop} (hpart : part.IsPart b keep)
    (hx : b.plan.x.isCategory = false) (hy : b.plan.y.isCategory = false)
    (hbase : b.plan.options.normalize = true → ∀ bench key, own (bench, key) →
      ∀ i, Instance.base? (Instance.ofGraph b : List (Instance α)) bench = some i → keep i = true)
    (hothers : b.plan.options.stack = true → ∀ i ∈ shown b, keep i = false → i.curve.options.noStack = false →
      ∀ p ∈ i.points, ¬own (p.place i.bench)) :
    List.Forall₂ (Instance.Alike own) ((shown b).filter keep) (shown part) := by
  have hstacked : b.plan.options.stack = true → ∀ i ∈ Instance.finished b.plan (Instance.ofGraph b), keep i = false →
      i.isStacked = true → ∀ p ∈ i.points, ¬own (p.place i.bench) := by
    intro hstack i hi hdropped hasked
    obtain ⟨hshown, hstack'⟩ := Bool.and_eq_true_iff.mp hasked
    exact hothers hstack i (List.mem_filter.mpr ⟨hi, hshown⟩) hdropped (by simpa using hstack')
  have halike := Instance.forall₂_alike_finished hx hy hpart.keep_bare hbase hstacked
  rw [shown, shown, List.filter_comm, hpart.plan, hpart.instances]
  refine List.rel_filter (fun i j hij => ?_) halike
  have hshown : i.isShown = j.isShown := (congrArg Instance.isShown hij.bare :)
  exact iff_of_eq (congrArg (· = true) hshown)

theorem filter_drawn (hpart : part.IsPart b keep) (h : ofBound styles b = .ok g) :
    (g.drawn b).filter (fun e => keep e.1) = ((shown b).filter keep).map Instance.drawing := by
  rw [drawn_ofBound h, List.filter_map]
  exact congrArg (List.map Instance.drawing) (congrArg (List.filter · (shown b)) (funext hpart.keep_bare))

/-! ## §3 Benches -/

/-- The points of the curves of a bench, without their numbers. -/
def pointsOfBench (g : GraphLayout α) (b : BoundGraph) (bench : Nat) : List (PlotPoint α) :=
  ((g.drawn b).filter fun e => e.1.bench == bench).flatMap Prod.snd

/-- Along axes of numbers a bench of a graph is laid out as it is when the other benches are removed, whatever the
    graph asks for: with the same instances, and with the same points in the same order. -/
theorem drawn_only {scope scope' : Scope} {d : Document} {p : Plan} (hp : Plan.ofDocument scope d = .ok (p, scope'))
    (hb : p.Binds b) (hx : b.plan.x.isCategory = false) (hy : b.plan.y.isCategory = false)
    (h : ofBound styles b = .ok g) {bench : BoundBench} (hbench : bench ∈ b.benches) :
    ∃ g' : GraphLayout α, ofBound styles (b.only bench) = .ok g'
      ∧ g'.drawn (b.only bench) = (g.drawn b).filter (fun e => e.1.bench == bench.plan.id)
      ∧ g'.points.map PlotPoint.unnumbered = g.pointsOfBench b bench.plan.id := by
  have hids := (Plan.numbered_ofDocument hp).nodup_benches hb
  have hpart := BoundGraph.isPart_only (α := α) hids hbench
  obtain ⟨g', hg'⟩ := exists_ofBound_part hpart h
  have halike : List.Forall₂ (Instance.Alike fun place => place.1 = bench.plan.id)
      ((shown b).filter fun i : Instance α => i.bench == bench.plan.id) (shown (b.only bench)) := by
    refine forall₂_alike_shown hpart hx hy ?_ ?_
    · rintro _ other _ rfl i hi
      have hfound := List.find?_some hi
      rw [Bool.and_eq_true, Bool.and_eq_true] at hfound
      exact hfound.1.1
    · intro _ i _ hdropped _ p _ hown
      exact beq_eq_false_iff_ne.mp hdropped hown
  have hdrawn : g'.drawn (b.only bench) = (g.drawn b).filter fun e => e.1.bench == bench.plan.id := by
    have hown := (List.forall₂_and_left _ _).mpr ⟨fun i hi => eq_of_beq (List.mem_filter.mp hi).2, halike⟩
    rw [filter_drawn hpart h, drawn_ofBound hg']
    refine (map_eq_map_of_forall₂ hown fun i j hij => ?_).symm
    exact congrArg Instance.drawing (hij.2.eq fun _ => hij.1)
  refine ⟨g', hg', hdrawn, ?_⟩
  rw [map_unnumbered_points hg', hdrawn, pointsOfBench]

end GraphLayout

/-! A description of a graph that stacks, with two benches of one benchmark. -/

def stackedSection : Section :=
  ⟨.graph, ⟨"plan", 1⟩, [⟨"xtype", "linear", ⟨"plan", 2⟩⟩, ⟨"ytype", "linear", ⟨"plan", 3⟩⟩,
    ⟨"options", "stack", ⟨"plan", 4⟩⟩]⟩

def runsSection : Section :=
  ⟨.bench, ⟨"plan", 5⟩, [⟨"name", "runs", ⟨"plan", 6⟩⟩]⟩

def runsCurveSection : Section :=
  ⟨.curve, ⟨"plan", 7⟩, [⟨"xval", "$X", ⟨"plan", 8⟩⟩, ⟨"yval", "$Y", ⟨"plan", 9⟩⟩]⟩

def stackedGraph (benches : List Nat) : GraphPlan :=
  ⟨0, ⟨"plan", 1⟩, "", .plain .linear, .plain .linear, none, .inside, { GraphOptions.none with stack := true }, benches⟩

def runsBench (id : Nat) (curves : List Nat) : BenchPlan :=
  ⟨id, 0, ⟨"plan", 5⟩, "runs", [], [], false, none, curves⟩

def runsCurve (id : Nat) : CurvePlan :=
  ⟨id, id, ⟨"plan", 7⟩, id, ⟨"$X", [.column "X"]⟩, ⟨"$Y", [.column "Y"]⟩, none, none, none, none, none, none, [], [],
    .none⟩

/-- The plan of the description. -/
def stackedPlan : Plan :=
  ⟨none, [stackedGraph [0, 1]], [runsBench 0 [0], runsBench 1 [1]], [runsCurve 0, runsCurve 1]⟩

theorem stackedGraph_ofSection (scope : Scope) :
    GraphPlan.ofSection ⟨scope, none, none⟩ 0 stackedSection = .ok (stackedGraph []) := by
  have hoptions : stackedSection.options ⟨false, false, false, false, false⟩ GraphOptions.set? .unknownGraphOption
      = .ok { GraphOptions.none with stack := true } := by cbv
  have hscale : scope.styles.resolve .scale (some "linear") 0 = .ok (.scale .linear) := by cbv
  have hx : AxisPlan.ofSection scope stackedSection "x" ⟨"xtype", "linear", ⟨"plan", 2⟩⟩ = .ok (.plain .linear) := by
    rw [AxisPlan.ofSection, hscale]
    rfl
  have hy : AxisPlan.ofSection scope stackedSection "y" ⟨"ytype", "linear", ⟨"plan", 3⟩⟩ = .ok (.plain .linear) := by
    rw [AxisPlan.ofSection, hscale]
    rfl
  refine bind_eq_ok.2 ⟨_, rfl, bind_eq_ok.2 ⟨_, rfl, bind_eq_ok.2 ⟨_, hoptions, bind_eq_ok.2 ⟨_, rfl, ?_⟩⟩⟩⟩
  exact bind_eq_ok.2 ⟨_, rfl, bind_eq_ok.2 ⟨_, hx, bind_eq_ok.2 ⟨_, hy, rfl⟩⟩⟩

theorem runsBench_ofSection (id : Nat) :
    BenchPlan.ofSection ⟨.new ∅ ∅, none, none⟩ id 0 runsSection = .ok (runsBench id []) := by
  have hname : PlanItem.text (.new ∅ ∅) ⟨"name", "runs", ⟨"plan", 6⟩⟩ = .ok "runs" := by cbv
  exact bind_eq_ok.2 ⟨_, rfl, bind_eq_ok.2 ⟨_, hname, rfl⟩⟩

theorem runsCurve_ofSection (id : Nat) :
    CurvePlan.ofSection ⟨.new ∅ ∅, none, none⟩ id id id runsCurveSection = .ok (runsCurve id) := by
  have hx : Formula.parse "$X" = .ok ⟨"$X", [.column "X"]⟩ := by cbv
  have hy : Formula.parse "$Y" = .ok ⟨"$Y", [.column "Y"]⟩ := by cbv
  have hxval : PlanItem.formula ⟨"xval", "$X", ⟨"plan", 8⟩⟩ = .ok ⟨"$X", [.column "X"]⟩ := mapError_eq_ok.2 hx
  have hyval : PlanItem.formula ⟨"yval", "$Y", ⟨"plan", 9⟩⟩ = .ok ⟨"$Y", [.column "Y"]⟩ := mapError_eq_ok.2 hy
  exact bind_eq_ok.2 ⟨_, rfl, bind_eq_ok.2 ⟨_, hxval, bind_eq_ok.2 ⟨_, rfl, bind_eq_ok.2 ⟨_, hyval, rfl⟩⟩⟩⟩

theorem stackedPlan_ofDocument :
    Plan.ofDocument (.new ∅ ∅) ⟨[stackedSection, runsSection, runsCurveSection, runsSection, runsCurveSection]⟩
      = .ok (stackedPlan, .new ∅ ∅) := by
  have hgraph : Plan.addSection ⟨.new ∅ ∅, none, none⟩ (.empty, 0) stackedSection
      = .ok (⟨none, [stackedGraph []], [], []⟩, 0) := map_eq_ok.2 ⟨_, stackedGraph_ofSection _, rfl⟩
  have hbench : Plan.addSection ⟨.new ∅ ∅, none, none⟩ (⟨none, [stackedGraph []], [], []⟩, 0) runsSection
      = .ok (⟨none, [stackedGraph [0]], [runsBench 0 []], []⟩, 0) := map_eq_ok.2 ⟨_, runsBench_ofSection 0, rfl⟩
  have hcurve : Plan.addSection ⟨.new ∅ ∅, none, none⟩ (⟨none, [stackedGraph [0]], [runsBench 0 []], []⟩, 0)
      runsCurveSection = .ok (⟨none, [stackedGraph [0]], [runsBench 0 [0]], [runsCurve 0]⟩, 1) :=
    map_eq_ok.2 ⟨_, runsCurve_ofSection 0, rfl⟩
  have hbench' : Plan.addSection ⟨.new ∅ ∅, none, none⟩
      (⟨none, [stackedGraph [0]], [runsBench 0 [0]], [runsCurve 0]⟩, 1) runsSection
      = .ok (⟨none, [stackedGraph [0, 1]], [runsBench 0 [0], runsBench 1 []], [runsCurve 0]⟩, 1) :=
    map_eq_ok.2 ⟨_, runsBench_ofSection 1, rfl⟩
  have hcurve' : Plan.addSection ⟨.new ∅ ∅, none, none⟩
      (⟨none, [stackedGraph [0, 1]], [runsBench 0 [0], runsBench 1 []], [runsCurve 0]⟩, 1) runsCurveSection
      = .ok (stackedPlan, 2) := map_eq_ok.2 ⟨_, runsCurve_ofSection 1, rfl⟩
  have hsections : [stackedSection, runsSection, runsCurveSection, runsSection, runsCurveSection].foldlM
      (Plan.addSection ⟨.new ∅ ∅, none, none⟩) (.empty, 0) = .ok (stackedPlan, 2) :=
    bind_eq_ok.2 ⟨_, hgraph, bind_eq_ok.2 ⟨_, hbench, bind_eq_ok.2 ⟨_, hcurve, bind_eq_ok.2 ⟨_, hbench',
      bind_eq_ok.2 ⟨_, hcurve', rfl⟩⟩⟩⟩⟩
  exact map_eq_ok.2 ⟨_, hsections, rfl⟩

/-- A bench with one value at `1`. -/
def BoundBench.ofValue (id : Nat) (value : Float) : BoundBench :=
  ⟨runsBench id [id], "RUNS", [⟨runsCurve id, [(CurveData.new "" none []).pushAll [(.number 1.0, .number value)]]⟩]⟩

/-- The graph with a value for each bench, both at the same position. -/
def stackedRuns : BoundGraph :=
  ⟨stackedGraph [0, 1], [.ofValue 0 10.0, .ofValue 1 20.0]⟩

theorem binds_stackedRuns : stackedPlan.Binds stackedRuns where
  graph := List.mem_singleton_self _
  benches := rfl
  curves := by
    intro bench hbench
    obtain rfl | hbench := List.mem_cons.mp hbench
    · rfl
    · obtain rfl := List.mem_singleton.mp hbench
      rfl

theorem drawn_only_sample : ∃ g : GraphLayout Float, GraphLayout.ofBound .empty stackedRuns = .ok g
    ∧ ∃ g' : GraphLayout Float, GraphLayout.ofBound .empty (stackedRuns.only (.ofValue 1 20.0)) = .ok g'
      ∧ g'.drawn (stackedRuns.only (.ofValue 1 20.0)) = (g.drawn stackedRuns).filter (fun e => e.1.bench == 1)
      ∧ g'.points.map PlotPoint.unnumbered = g.pointsOfBench stackedRuns 1 := by
  have hlaid : ∃ g : GraphLayout Float, GraphLayout.ofBound .empty stackedRuns = .ok g :=
    GraphLayout.exists_ofBound_iff.2 (by decide +kernel)
  obtain ⟨g, hg⟩ := hlaid
  have hbench : BoundBench.ofValue 1 20.0 ∈ stackedRuns.benches := List.mem_cons_of_mem _ (List.mem_singleton_self _)
  exact ⟨g, hg, GraphLayout.drawn_only stackedPlan_ofDocument binds_stackedRuns rfl rfl hg hbench⟩

/-! ## §4 Directions -/

/-- The place where a point of an instance is stacked: its bench and its position along the bucket axis. -/
def PlotPoint.place (i : Instance Float) (p : PlotPoint Float) : Nat × Int :=
  (i.bench, Decimal.orderKey (i.bucketSide p.x p.y))

/-- Two drawings of one instance, whose points have the same values and stand at the same positions along the bucket
    axis. At the places `own` they are the same altogether. -/
structure DrawnAlike (own : Nat × Int → Prop) (e e' : Instance Float × List (PlotPoint Float)) : Prop where
  of_same : e.1 = e'.1
  points : List.Forall₂ (fun p q => p.raw = q.raw ∧ e.1.bucketSide p.x p.y = e.1.bucketSide q.x q.y
    ∧ (own (p.place e.1) → p = q)) e.2 e'.2

namespace Instance

/-- A finished point as it is plotted, without the number of its curve. -/
def plotted (i : Instance Float) (p : PlacedPoint Float) : PlotPoint Float :=
  ⟨0, p.rawX, p.rawY, i.bucketSide p.bucket p.value, i.bucketSide p.value p.bucket, p.low, p.high⟩

theorem drawing_eq_plotted (i : Instance Float) : i.drawing = (i.bare, i.points.map i.plotted) :=
  rfl

/-- A plotted point stands along the bucket axis where it was placed. -/
theorem bucketSide_plotted (i : Instance Float) (p : PlacedPoint Float) :
    i.bucketSide (i.plotted p).x (i.plotted p).y = p.bucket := by
  unfold plotted bucketSide
  cases i.direction <;> rfl

theorem place_plotted (i : Instance Float) (p : PlacedPoint Float) : (i.plotted p).place i = p.place i.bench := by
  rw [PlotPoint.place, bucketSide_plotted, PlacedPoint.place]

/-- Instances that are alike are drawn alike. -/
theorem Alike.drawing {own : Nat × Int → Prop} {i j : Instance Float} (h : Alike own i j) :
    DrawnAlike own i.drawing j.drawing where
  of_same := h.bare
  points := by
    have hplotted : j.plotted = i.plotted := (congrArg plotted h.bare.symm :)
    rw [drawing_eq_plotted, drawing_eq_plotted, hplotted, List.forall₂_map_left_iff, List.forall₂_map_right_iff]
    refine h.points.imp fun p q hpq => ⟨congrArg (fun o => (o.1, o.2.1)) hpq.1, ?_, fun hown => ?_⟩
    · have hbucket : p.bucket = q.bucket := congrArg (fun o => o.2.2.2) hpq.1
      exact (i.bucketSide_plotted p).trans (hbucket.trans (i.bucketSide_plotted q).symm)
    · exact congrArg i.plotted (hpq.2 (i.place_plotted p ▸ hown))

end Instance

namespace GraphLayout

variable {styles : StyleRegistry} {b : BoundGraph} {g : GraphLayout Float}

/-- The curves of the other direction have no say about the points of direction `d` at a place: where the graph
    normalizes, the base curve of the bench has direction `d`, and where it stacks, no point of the bench that is
    stacked and has the other direction stands there. -/
structure Undisturbed (g : GraphLayout Float) (b : BoundGraph) (d : Direction) (place : Nat × Int) : Prop where
  base : b.plan.options.normalize = true →
    ∀ i, Instance.base? (Instance.ofGraph b : List (Instance Float)) place.1 = some i → i.direction = d
  stack : b.plan.options.stack = true → ∀ e ∈ g.drawn b, e.1.direction ≠ d → e.1.curve.options.noStack = false →
    ∀ p ∈ e.2, p.place e.1 ≠ place

/-- Along axes of numbers the instances of one direction are laid out with the same values at the same positions when
    the curves of the other direction are removed, and every point with the same coordinates and bounds on which
    those have no say. -/
theorem forall₂_drawn_along (hx : b.plan.x.isCategory = false) (hy : b.plan.y.isCategory = false)
    (h : ofBound styles b = .ok g) (d : Direction) : ∃ g' : GraphLayout Float, ofBound styles (b.along d) = .ok g'
      ∧ List.Forall₂ (DrawnAlike (g.Undisturbed b d)) ((g.drawn b).filter fun e => e.1.direction == d)
        (g'.drawn (b.along d)) := by
  have hpart := BoundGraph.isPart_along (α := Float) (b := b) d
  obtain ⟨g', hg'⟩ := exists_ofBound_part hpart h
  refine ⟨g', hg', ?_⟩
  have halike : List.Forall₂ (Instance.Alike (g.Undisturbed b d))
      ((shown b).filter fun i : Instance Float => i.direction == d) (shown (b.along d)) := by
    refine forall₂_alike_shown hpart hx hy ?_ ?_
    · intro hnormalize bench key hown i hi
      exact beq_iff_eq.mpr (hown.base hnormalize i hi)
    · intro hstack i hi hdropped hasked p hp hown
      have hdrawn : i.drawing ∈ g.drawn b := drawn_ofBound h ▸ List.mem_map_of_mem hi
      exact hown.stack hstack i.drawing hdrawn (beq_eq_false_iff_ne.mp hdropped) hasked (i.plotted p)
        (List.mem_map_of_mem hp) (i.place_plotted p)
  rw [filter_drawn hpart h, drawn_ofBound hg', List.forall₂_map_left_iff, List.forall₂_map_right_iff]
  exact halike.imp fun i j hij => hij.drawing

end GraphLayout

/-- A graph with a curve of each direction. The first point of the second curve stands along its bucket axis where
    the first curve has its point. -/
def sampleDirections (options : GraphOptions) (first : CurveOptions) : BoundGraph :=
  .ofCurves .linear .linear options
    [.ofPairs 0 first [(.number 1.0, .number 10.0)],
      .ofPairs 1 { CurveOptions.none with hbar := true } [(.number 5.0, .number 1.0), (.number 6.0, .number 2.0)]]

/-- The graph with its curves stacked, and with the second curve divided by the first. -/
def stackedDirections : BoundGraph :=
  sampleDirections { GraphOptions.none with stack := true } .none

def dividedDirections : BoundGraph :=
  sampleDirections { GraphOptions.none with normalize := true } { CurveOptions.none with base := true }

theorem drawn_along_sample : ∃ g : GraphLayout Float, GraphLayout.ofBound .empty stackedDirections = .ok g
    ∧ g.Undisturbed stackedDirections .byY (0, Decimal.orderKey 2.0)
    ∧ ∃ g' : GraphLayout Float, GraphLayout.ofBound .empty (stackedDirections.along .byY) = .ok g'
      ∧ List.Forall₂ (DrawnAlike (g.Undisturbed stackedDirections .byY))
        ((g.drawn stackedDirections).filter fun e => e.1.direction == .byY)
        (g'.drawn (stackedDirections.along .byY)) := by
  have hrun : (GraphLayout.ofBound (α := Float) .empty stackedDirections).toOption.map (fun g =>
      (g.drawn stackedDirections).all fun e => e.1.direction == .byY
        || e.2.all fun p => p.place e.1 != (0, Decimal.orderKey 2.0)) = some true := by
    decide +kernel
  obtain ⟨g, hg, hplaces⟩ := exists_eq_ok hrun
  have hundisturbed : g.Undisturbed stackedDirections .byY (0, Decimal.orderKey 2.0) := by
    refine ⟨fun hnormalize => absurd hnormalize Bool.false_ne_true, fun _ e he hdirection _ p hp => ?_⟩
    have hplace := List.all_eq_true.mp hplaces e he
    rw [beq_eq_false_iff_ne.mpr hdirection, Bool.false_or, List.all_eq_true] at hplace
    exact bne_iff_ne.mp (hplace p hp)
  exact ⟨g, hg, hundisturbed, GraphLayout.forall₂_drawn_along rfl rfl hg .byY⟩

/-- The coordinates of the points of the instances of a direction. -/
def GraphLayout.coordinates (g : GraphLayout Float) (b : BoundGraph) (d : Direction) : List (List (Float × Float)) :=
  ((g.drawn b).filter fun e => e.1.direction == d).map fun e => e.2.map fun p => (p.x, p.y)

/-- The first curve raises a point of the second one, or divides it and moves the other to the base of the axis. Alone
    the second curve has its points at its values. -/
theorem disturbedDirection_sample :
    (∃ g g' : GraphLayout Float, GraphLayout.ofBound .empty stackedDirections = .ok g
      ∧ GraphLayout.ofBound .empty (stackedDirections.along .byY) = .ok g'
      ∧ g.coordinates stackedDirections .byY = [[(15.0, 1.0), (6.0, 2.0)]]
      ∧ g'.coordinates (stackedDirections.along .byY) .byY = [[(5.0, 1.0), (6.0, 2.0)]])
    ∧ ∃ g g' : GraphLayout Float, GraphLayout.ofBound .empty dividedDirections = .ok g
      ∧ GraphLayout.ofBound .empty (dividedDirections.along .byY) = .ok g'
      ∧ g.coordinates dividedDirections .byY = [[(0.5, 1.0), (0.0, 2.0)]]
      ∧ g'.coordinates (dividedDirections.along .byY) .byY = [[(5.0, 1.0), (6.0, 2.0)]] := by
  have hruns : ∀ {b : BoundGraph} {l l' : List (List (Float × Float))},
      (GraphLayout.ofBound .empty b).toOption.map (fun g => g.coordinates b .byY) = some l →
      (GraphLayout.ofBound .empty (b.along .byY)).toOption.map (fun g => g.coordinates (b.along .byY) .byY) = some l' →
      ∃ g g' : GraphLayout Float, GraphLayout.ofBound .empty b = .ok g
        ∧ GraphLayout.ofBound .empty (b.along .byY) = .ok g'
        ∧ g.coordinates b .byY = l ∧ g'.coordinates (b.along .byY) .byY = l' := by
    intro b l l' hwhole halone
    obtain ⟨g, hg, hpoints⟩ := exists_eq_ok hwhole
    obtain ⟨g', hg', hpoints'⟩ := exists_eq_ok halone
    exact ⟨g, g', hg, hg', hpoints, hpoints'⟩
  constructor
  · exact hruns (by decide +kernel) (by decide +kernel)
  · exact hruns (by decide +kernel) (by decide +kernel)

end BenchPlot
