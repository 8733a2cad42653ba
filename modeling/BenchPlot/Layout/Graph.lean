import BenchPlot.Layout.Passes

/-!
# Laying out graphs

The layout of bound graphs: instances are reduced, placed, normalized, accumulated and stacked, and
the shown ones become the curves of the layout, numbered in order. A style that a curve leaves open is
chosen by that number.
-/

namespace BenchPlot

namespace Instance

variable {α : Type} [Coordinate α]

/-- The instances of a bound graph with their final points. -/
def finished (g : GraphPlan) (instances : List (Instance α)) : List (Instance α) :=
  let (x, y) := axes g instances
  let placed := placeAll x y instances
  let normalized := if g.options.normalize then normalize g placed else placed
  let accumulated := accumulate x y normalized
  if g.options.stack then stack x y accumulated else accumulated

/-- The style of a category for the instance that becomes the curve with number `id`. -/
def style (styles : StyleRegistry) (i : Instance α) (id : Nat) (category : StyleCategory)
    (name : Option String) : Except LayoutError StyleKind :=
  (styles.resolve category name id).mapError fun e => ⟨i.curve.location, e⟩

/-- The curve with number `id` that an instance becomes. -/
def curveLayout (styles : StyleRegistry) (i : Instance α) (id : Nat) :
    Except LayoutError CurveLayout := do
  let line ← i.style styles id .line i.curve.line
  let mark ← i.style styles id .mark i.curve.mark
  let color ← i.style styles id .color i.curve.color
  return {
    id := id
    curve := i.curve.id
    label := i.label
    markText := i.markText
    line := line
    mark := mark
    color := color
    direction := i.direction
    bar := i.curve.options.bar || i.curve.options.hbar
    errorbars := i.curve.options.errorbars }

/-- The points of the curve with number `id` that an instance becomes. -/
def plotPoints (i : Instance α) (id : Nat) : List (PlotPoint α) :=
  i.points.map fun p =>
    { curve := id
      rawX := p.rawX
      rawY := p.rawY
      x := i.bucketSide (Arithmetic.ofFloat p.bucket) p.value
      y := i.bucketSide p.value (Arithmetic.ofFloat p.bucket)
      low := p.low
      high := p.high }

end Instance

variable {α : Type} [Coordinate α]

/-- The layout of a bound graph. -/
def GraphLayout.ofBound (styles : StyleRegistry) (b : BoundGraph) :
    Except LayoutError (GraphLayout α) :=
  let g := b.plan
  let instances : List (Instance α) := Instance.ofGraph b
  let (x, y) := Instance.axes g instances
  let shown := ((Instance.finished g instances).filter Instance.isShown).zipIdx
  (shown.mapM fun (i : Instance α × Nat) => i.1.curveLayout styles i.2).map fun curves =>
    { graph := g.id
      title := g.title
      x := x.layout
      y := y.layout
      legend := g.legend
      grid := g.options.grid
      curves := curves
      points := shown.flatMap fun i => i.1.plotPoints i.2 }

/-- The layout of the bound graphs of a plan. -/
def Layout.ofBound (title : Option String) (styles : StyleRegistry) (graphs : List BoundGraph) :
    Except LayoutError (Layout α) :=
  (graphs.mapM (GraphLayout.ofBound styles)).map fun graphs => ⟨title, graphs⟩

end BenchPlot
