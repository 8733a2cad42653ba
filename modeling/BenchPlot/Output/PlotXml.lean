import BenchPlot.Layout.Basic
import BenchPlot.Output.Xml

/-!
# Layouts as element trees

The element tree of a layout: a set of graphs, each with its two axes and its curves, each curve with
its points. Bounds are written where they are drawn or differ from the value.
-/

namespace BenchPlot

/-- How an element tree is written, and what a layout without a title is called. The indentation is
    absent where all tags stand in one line. -/
structure PlotXmlSettings where
  indent : Option Nat
  defaultName : String

namespace PlotXml

/-- An attribute that is written if it has a value. -/
def optional (name : String) (value : Option String) : List (String × String) :=
  (value.map fun v => (name, v)).toList

/-- An attribute that is written if it is true. -/
def flag (name : String) (value : Bool) : List (String × String) :=
  if value then [(name, "true")] else []

/-- The element of a tick. -/
def tickNode (t : Tick) : XmlNode :=
  .single "tick" [("label", t.label), ("position", Decimal.integerText t.position)]

/-- The element of the axis with a name. -/
def axisNode (name : String) (a : AxisLayout) : XmlNode :=
  let attributes := [("name", name), ("type", a.scale.display)] ++ optional "label" a.label ++
    optional "min" (a.range.1.map numberText) ++ optional "max" (a.range.2.map numberText)
  if a.ticks.isEmpty then .single "axis" attributes
  else .element "axis" attributes (a.ticks.map tickNode)

/-- Whether the bounds of a point are written. -/
def showsBounds (c : CurveLayout) (p : PlotPoint Float) : Bool :=
  let value := match c.direction with
    | .byX => p.y
    | .byY => p.x
  c.errorbars || p.low != value || p.high != value

/-- The element of a point of a curve. -/
def pointNode (c : CurveLayout) (p : PlotPoint Float) : XmlNode :=
  .single "point" ([("x", numberText p.x), ("y", numberText p.y), ("rawx", p.rawX.display),
    ("rawy", p.rawY.display)] ++
    (if showsBounds c p then [("low", numberText p.low), ("high", numberText p.high)] else []))

/-- The element of a curve. -/
def curveNode (g : GraphLayout Float) (c : CurveLayout) : XmlNode :=
  .element "curve" ([("id", Decimal.naturalText c.id), ("label", c.label), ("line", c.line.display),
    ("mark", c.mark.display), ("color", c.color.display)] ++ flag "bar" c.bar ++
    optional "marktext" c.markText)
    ((g.pointsOf c.id).map (pointNode c))

/-- The element of a graph. -/
def graphNode (g : GraphLayout Float) : XmlNode :=
  .element "graph" ([("title", g.title), ("xtype", g.x.scale.display), ("ytype", g.y.scale.display),
    ("legend", g.legend.name)] ++ flag "grid" g.grid)
    ([axisNode "x" g.x, axisNode "y" g.y] ++ g.curves.map (curveNode g))

/-- The element of a layout. -/
def layoutNode (defaultName : String) (l : Layout Float) : XmlNode :=
  .element "plotdata" []
    [.element "graphset" [("name", l.title.getD defaultName)] (l.graphs.map graphNode)]

end PlotXml

/-- The element tree of a layout, written. -/
def Layout.plotXml (s : PlotXmlSettings) (l : Layout Float) : String :=
  let node := PlotXml.layoutNode s.defaultName l
  match s.indent with
  | some indent => node.pretty indent
  | none => node.compact

end BenchPlot
