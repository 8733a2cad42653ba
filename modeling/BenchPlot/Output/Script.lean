import BenchPlot.Output.Listing

/-!
# Plotting scripts

The script that draws a layout: settings of the title, the axes and the legend, one `plot` command for
each graph with a clause for every curve, and behind the command a block of data for every clause.
-/

namespace BenchPlot

/-- Where a script sends the plot. -/
structure ScriptSettings where
  terminal : Option String
  output : Option String

namespace Script

/-! ## §1 Words -/

/-- A character inside a quoted text. -/
def quotedChar (c : Char) : List Char :=
  if c == '\\' then ['\\', '\\'] else if c == '"' then ['\\', '"'] else [c]

/-- A text between double quotes. -/
def quote (s : String) : String :=
  "\"" ++ String.ofList (s.toList.flatMap quotedChar) ++ "\""

/-- The dash type of a line, if it has one. -/
def dashType? : StyleKind → Option String
  | .line .solid => some "1"
  | .line .dashed => some "2"
  | .line .dotted => some "3"
  | .line .none => none
  | k => k.payload?

/-- The point type of a mark, if it has one. -/
def pointType? : StyleKind → Option String
  | .mark .none => some "-1"
  | .mark .circle => some "7"
  | .mark .square => some "5"
  | .mark .triangle => some "9"
  | .mark .diamond => some "13"
  | .mark .cross => some "2"
  | .mark .star => some "3"
  | k => k.payload?

/-- The name of a colour in scripts. -/
def colorName : StyleKind → String
  | .color .gray => "grey"
  | .custom s => s.payload.getD s.display
  | k => k.name

/-! ## §2 Axes -/

/-- A bound of a range; an open side is a star. -/
def boundText (x : Option Float) : String :=
  (x.map numberText).getD "*"

/-- A tick in a list of ticks. -/
def tickText (t : Tick) : String :=
  quote t.label ++ " " ++ Decimal.integerText t.position

/-- The settings of the axis with a name. -/
def axisLines (name : String) (a : AxisLayout) : List String :=
  (a.label.map fun label => s!"set {name}label " ++ quote label).toList ++
    (if a.scale.scaleKind == .log then [s!"set logscale {name}"] else []) ++
    (if a.ticks.isEmpty then []
      else [s!"set {name}tics (" ++ ", ".intercalate (a.ticks.map tickText) ++ ")"]) ++
    (if a.range.1.isNone && a.range.2.isNone then []
      else [s!"set {name}range [" ++ boundText a.range.1 ++ ":" ++ boundText a.range.2 ++ "]"])

/-! ## §3 Curves -/

/-- The columns that a curve is drawn from, and the way it is drawn. -/
def plotStyle (c : CurveLayout) : String × String :=
  match c.bar, c.errorbars, c.direction with
  | true, _, .byX => ("1:2", "boxes")
  | true, _, .byY => ("1:2", "points")
  | false, true, .byX => ("1:2:3:4", "yerrorlines")
  | false, true, .byY => ("1:2:3:4", "xerrorlines")
  | false, false, _ => ("1:2", "linespoints")

/-- The clause for a curve in a `plot` command. -/
def plotClause (c : CurveLayout) : String :=
  let (columns, style) := plotStyle c
  s!"'-' using {columns} title " ++ quote c.label ++ s!" with {style}" ++
    ((dashType? c.line).map fun d => s!" dt {d}").getD "" ++
    ((pointType? c.mark).map fun p => s!" pt {p}").getD "" ++
    " lc rgb " ++ quote (colorName c.color)

/-- The line of data for a point, with its bounds if they are drawn. -/
def dataLine (errorbars : Bool) (p : PlotPoint Float) : String :=
  " ".intercalate ([numberText p.x, numberText p.y] ++
    (if errorbars then [numberText p.low, numberText p.high] else []))

/-- The block of data for a curve. -/
def dataBlock (g : GraphLayout Float) (c : CurveLayout) : List String :=
  (g.pointsOf c.id).map (dataLine c.errorbars) ++ ["e"]

/-! ## §4 Graphs -/

/-- The setting of the legend. -/
def legendLine : LegendPlacement → String
  | .none => "unset key"
  | p => s!"set key {p.name}"

/-- The `plot` command of a graph with its data, if the graph has curves. -/
def plotLines (g : GraphLayout Float) : List String :=
  if g.curves.isEmpty then []
  else
    ("plot " ++ ", \\\n     ".intercalate (g.curves.map plotClause)) :: g.curves.flatMap (dataBlock g)

/-- The commands for a graph. -/
def graphLines (g : GraphLayout Float) : List String :=
  (if g.title.isEmpty then [] else ["set title " ++ quote g.title]) ++
    axisLines "x" g.x ++ axisLines "y" g.y ++ [legendLine g.legend] ++
    (if g.grid then ["set grid"] else []) ++
    (if g.curves.any CurveLayout.bar then
      ["set style fill solid 0.5 border", "set boxwidth 0.9"] else []) ++
    plotLines g

/-- The commands for the graph with number `index`. Each graph after the first starts afresh. -/
def numberedLines (g : GraphLayout Float) (index : Nat) : List String :=
  (if index = 0 then [] else ["reset"]) ++ graphLines g

/-- The commands in front of all graphs. -/
def headLines (s : ScriptSettings) (title : Option String) : List String :=
  (title.map fun t => s!"# {t}").toList ++ (s.terminal.map fun t => s!"set terminal {t}").toList ++
    (s.output.map fun o => "set output " ++ quote o).toList

end Script

/-- The script of a layout. -/
def Layout.script (s : ScriptSettings) (l : Layout Float) : String :=
  linesText (Script.headLines s l.title ++
    l.graphs.zipIdx.flatMap fun g => Script.numberedLines g.1 g.2)

end BenchPlot
