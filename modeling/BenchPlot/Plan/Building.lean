import BenchPlot.Formula.Reference
import BenchPlot.Plan.Basic
import BenchPlot.Plan.Error

/-!
# Building plans

The plan of a document. The global sections come first, wherever they stand: they define variables,
functions and styles and set the title and the default aggregation. Then each section adds its node: a
graph, a bench of the last graph, or a curve of the last bench of the last graph.
-/

namespace BenchPlot

/-- The item of a section under a key that it must have. -/
def Section.require (s : Section) (key : String) : Except PlanError Item :=
  match s.item? key with
  | some item => .ok item
  | none => .error ⟨s.location, .missingKey s.kind key⟩

/-- A refusal of an item. -/
def Item.refuse {α : Type} (item : Item) (fault : PlanFault) : Except PlanError α :=
  .error ⟨item.location, .invalid fault⟩

/-- A result of a formula as a result about an item. -/
def Item.located {α : Type} (item : Item) (r : Except FormulaError α) : Except PlanError α :=
  r.mapError fun e => ⟨item.location, .formula e⟩

/-- Applies `f` to the item of a section under a key, if there is one. -/
def Section.optional {α : Type} (s : Section) (key : String) (f : Item → Except PlanError α) :
    Except PlanError (Option α) :=
  match s.item? key with
  | none => .ok none
  | some item => (f item).map some

namespace PlanItem

/-! ## §1 Items -/

/-- The text of an item with its references replaced. -/
def text (scope : Scope) (item : Item) : Except PlanError String :=
  item.located (scope.substitute item.value)

/-- The formula of an item. -/
def formula (item : Item) : Except PlanError Formula :=
  item.located (Formula.parse item.value)

/-- The aggregation of an item. -/
def aggregation (item : Item) : Except PlanError Aggregation :=
  match Aggregation.ofName? item.value with
  | some a => .ok a
  | none => item.refuse (.unknownAggregation item.value)

/-- The number of an item. -/
def number (item : Item) : Except PlanError Float :=
  match Decimal.read? (Text.trim item.value) with
  | some x => .ok x
  | none => item.refuse (.notANumber item.value)

/-- The range of an item. -/
def range (item : Item) : Except PlanError (Option Float × Option Float) :=
  match parseRange item.value with
  | .ok r => .ok r
  | .error fault => item.refuse (.badRange fault)

/-- The name of a style that an item chooses. -/
def styleName (scope : Scope) (category : StyleCategory) (item : Item) : Except PlanError String :=
  if scope.styles.isKnown category item.value then .ok item.value
  else item.refuse (.style (.unknown category item.value))

/-- The conditions of a section. -/
def filters (s : Section) : List Filter :=
  (s.itemsAt "filter").map fun item => ⟨item.value, item.location⟩

end PlanItem

/-! ## §2 Global sections -/

/-- What the global sections set: the scope, the title and the default aggregation. -/
structure GlobalSettings where
  scope : Scope
  title : Option String
  aggregation : Option Aggregation

namespace GlobalSettings

/-- The settings with the style that an item defines, in the category that its key names. -/
def defineStyle (g : GlobalSettings) (item : Item) : Except PlanError GlobalSettings :=
  match StyleCategory.ofName? item.key with
  | none => item.refuse (.unknownCategory item.key)
  | some category =>
    match parseStyleDefinition? item.value with
    | none => item.refuse .notAStyle
    | some (name, display, payload) =>
      match g.scope.styles.register ⟨category, name, display, payload⟩ with
      | .error e => item.refuse (.style e)
      | .ok styles => .ok { g with scope := { g.scope with styles := styles } }

/-- The settings with a definition that may fail. -/
def define (g : GlobalSettings) (item : Item) (r : Except FormulaError Scope) :
    Except PlanError GlobalSettings :=
  (item.located r).map fun scope => { g with scope := scope }

/-- The settings with what an item sets. -/
def apply (g : GlobalSettings) (item : Item) : Except PlanError GlobalSettings :=
  match item.key with
  | "env" =>
    match parseAssignment? item.value with
    | none => item.refuse .notAnAssignment
    | some (name, value) => .ok { g with scope := g.scope.setDefault name value }
  | "calc" =>
    match parseAssignment? item.value with
    | none => item.refuse .notACalculation
    | some (name, source) => g.define item (g.scope.defineCalculated name source)
  | "func" =>
    match parseFunctionDefinition? item.value with
    | none => item.refuse .notAFunction
    | some (name, parameters, body) => g.define item (g.scope.defineFunction name parameters body)
  | "line" | "mark" | "color" | "scale" => g.defineStyle item
  | "title" => (PlanItem.text g.scope item).map fun title => { g with title := some title }
  | "aggr" => (PlanItem.aggregation item).map fun a => { g with aggregation := some a }
  | _ => .ok g

/-- The settings of a document. -/
def ofDocument (scope : Scope) (d : Document) : Except PlanError GlobalSettings :=
  ((d.sections.filter fun s => s.kind == .global).flatMap Section.items).foldlM apply
    ⟨scope, none, none⟩

end GlobalSettings

/-! ## §3 Options -/

/-- The graph options with a flag set. -/
def GraphOptions.set? (o : GraphOptions) (flag : String) : Option GraphOptions :=
  match flag with
  | "stack" => some { o with stack := true }
  | "normalize" => some { o with normalize := true }
  | "xoffset" => some { o with xoffset := true }
  | "yoffset" => some { o with yoffset := true }
  | "grid" => some { o with grid := true }
  | _ => none

/-- The curve options with a flag set. -/
def CurveOptions.set? (o : CurveOptions) (flag : String) : Option CurveOptions :=
  match flag with
  | "bar" => some { o with bar := true }
  | "hbar" => some { o with hbar := true }
  | "no_stack" => some { o with noStack := true }
  | "base" => some { o with base := true }
  | "accum" => some { o with accum := true }
  | "skip" => some { o with skip := true }
  | "errorbars" => some { o with errorbars := true }
  | _ => none

/-- The flags of the options of a section. -/
def Section.flags (s : Section) : List String :=
  match s.value? "options" with
  | some value => parseFlags value
  | none => []

/-- The options of a section: every flag set, starting from `none_`. -/
def Section.options {α : Type} (s : Section) (none_ : α) (set? : α → String → Option α)
    (fault : String → PlanFault) : Except PlanError α :=
  s.flags.foldlM (fun o flag =>
    match set? o flag with
    | some o => .ok o
    | none => .error ⟨s.location, .invalid (fault flag)⟩) none_

/-! ## §4 Nodes -/

/-- The axis of a graph whose keys start with the letter `letter`. -/
def AxisPlan.ofSection (scope : Scope) (s : Section) (letter : String) (scale : Item) :
    Except PlanError AxisPlan := do
  let kind ← match scope.styles.resolve .scale (some scale.value) 0 with
    | .ok kind => .ok kind
    | .error e => scale.refuse (.style e)
  let base ← s.optional (letter ++ "base") PlanItem.number
  let range ← s.optional (letter ++ "range") PlanItem.range
  let label ← s.optional (letter ++ "label") (PlanItem.text scope)
  return {
    label := label
    scale := kind
    categories := ((s.value? (letter ++ "categories")).map commaList).getD []
    skip := ((s.value? (letter ++ "skip")).map commaList).getD []
    base := base.getD 0.0
    range := range.getD (none, none) }

/-- The place of the legend that a section asks for. -/
def Section.legend (s : Section) : Except PlanError LegendPlacement :=
  match s.value? "legend" with
  | none => .ok .inside
  | some value =>
    match LegendPlacement.ofName? value with
    | some p => .ok p
    | none => .error ⟨s.location, .invalid (.unknownLegend (Text.asciiLower value))⟩

/-- The graph that a section asks for. -/
def GraphPlan.ofSection (g : GlobalSettings) (id : Nat) (s : Section) : Except PlanError GraphPlan := do
  let xtype ← s.require "xtype"
  let ytype ← s.require "ytype"
  let options ← s.options ⟨false, false, false, false, false⟩ GraphOptions.set? .unknownGraphOption
  let legend ← s.legend
  let title ← s.optional "title" (PlanItem.text g.scope)
  let x ← AxisPlan.ofSection g.scope s "x" xtype
  let y ← AxisPlan.ofSection g.scope s "y" ytype
  let aggregation ← s.optional "aggr" PlanItem.aggregation
  return {
    id := id
    location := s.location
    title := title.getD ""
    x := x
    y := y
    aggregation := aggregation.or g.aggregation
    legend := legend
    options := options
    benches := [] }

/-- The bench that a section asks for. -/
def BenchPlan.ofSection (g : GlobalSettings) (id graph : Nat) (s : Section) :
    Except PlanError BenchPlan := do
  let nameItem ← s.require "name"
  let name ← PlanItem.text g.scope nameItem
  let label ← s.optional "label" (PlanItem.text g.scope)
  return {
    id := id
    graph := graph
    location := s.location
    name := name
    filters := PlanItem.filters s
    selects := (s.itemsAt "select").map Item.value
    includeOutliers := (s.value? "outliers").any fun mode => Text.asciiLower mode == "include"
    label := label
    curves := [] }

/-- The curve that a section asks for. -/
def CurvePlan.ofSection (g : GlobalSettings) (id bench ordinal : Nat) (s : Section) :
    Except PlanError CurvePlan := do
  let xItem ← s.require "xval"
  let xval ← PlanItem.formula xItem
  let yItem ← s.require "yval"
  let yval ← PlanItem.formula yItem
  let options ← s.options ⟨false, false, false, false, false, false, false⟩ CurveOptions.set?
    .unknownCurveOption
  let label ← s.optional "label" PlanItem.formula
  let markText ← s.optional "marktext" PlanItem.formula
  let aggregation ← s.optional "aggr" PlanItem.aggregation
  let line ← s.optional "line" (PlanItem.styleName g.scope .line)
  let mark ← s.optional "mark" (PlanItem.styleName g.scope .mark)
  let color ← s.optional "color" (PlanItem.styleName g.scope .color)
  return {
    id := id
    bench := bench
    location := s.location
    ordinal := ordinal
    xval := xval
    yval := yval
    label := label
    markText := markText
    aggregation := aggregation
    line := line
    mark := mark
    color := color
    iterate := ((s.value? "iterate").map parseFieldList).getD []
    filters := PlanItem.filters s
    options := options }

/-! ## §5 Documents -/

namespace Plan

/-- The list with its last element changed. -/
def changeLast {α : Type} (f : α → α) : List α → List α
  | [] => []
  | [a] => [f a]
  | a :: rest => a :: changeLast f rest

/-- The plan with the node of a section, and the ordinal of the next curve. -/
def addSection (g : GlobalSettings) (state : Plan × Nat) (s : Section) :
    Except PlanError (Plan × Nat) :=
  let (p, ordinal) := state
  match s.kind with
  | .global => .ok state
  | .graph =>
    (GraphPlan.ofSection g p.graphs.length s).map fun graph =>
      ({ p with graphs := p.graphs ++ [graph] }, 0)
  | .bench =>
    match p.graphs.getLast? with
    | none => .error ⟨s.location, .invalid .benchBeforeGraph⟩
    | some graph =>
      let id := p.benches.length
      (BenchPlan.ofSection g id graph.id s).map fun bench =>
        ({ p with
            graphs := changeLast (fun h => { h with benches := h.benches ++ [id] }) p.graphs
            benches := p.benches ++ [bench] }, ordinal)
  | .curve =>
    -- The last bench counts only if no graph was opened behind it.
    match p.benches.getLast?.filter fun b => some b.graph == p.graphs.getLast?.map GraphPlan.id with
    | none => .error ⟨s.location, .invalid .curveBeforeBench⟩
    | some bench =>
      let id := p.curves.length
      (CurvePlan.ofSection g id bench.id ordinal s).map fun curve =>
        ({ p with
            benches := changeLast (fun b => { b with curves := b.curves ++ [id] }) p.benches
            curves := p.curves ++ [curve] }, ordinal + 1)

/-- The plan of a document, and the scope with what the document defines. -/
def ofDocument (scope : Scope) (d : Document) : Except PlanError (Plan × Scope) :=
  match GlobalSettings.ofDocument scope d with
  | .error e => .error e
  | .ok g =>
    (d.sections.foldlM (addSection g) ({ empty with title := g.title }, 0)).map fun r =>
      (r.1, g.scope)

end Plan

end BenchPlot
