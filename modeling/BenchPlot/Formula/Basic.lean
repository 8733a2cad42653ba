import BenchPlot.Formula.Evaluation

/-!
# Formulas of curves

A formula of a curve is one or more formulas with commas between them. A single one stands for its
value. Of several, a text literal in front is a template that the others fill; without one, their
texts are put together with spaces between them.
-/

namespace BenchPlot

/-- A formula of a curve, as it was written and as it was read. -/
structure Formula where
  source : String
  parts : List Expr

namespace Formula

/-- The formula that a text is. -/
def parse (source : String) : Except FormulaError Formula :=
  (Expr.parseList source).map fun parts => ⟨source, parts⟩

/-- The column that a node refers to. -/
def columnOf? : Expr → Option String
  | .column name => some name
  | _ => none

/-- The columns that the formula refers to, as written, in the order of their first occurrence. -/
def columns (f : Formula) : List String :=
  ((Expr.nodesOfAll f.parts).filterMap columnOf?).eraseDups

/-- What the values of several parts give together. -/
def combine (parts : List Expr) (values : List Value) : Except FormulaError Value :=
  match parts, values with
  | first :: _, v :: rest =>
    if first.isTextLiteral then (fillTemplate v.display rest).map .text
    else .ok (.text (" ".intercalate (values.map Value.display)))
  | _, _ => .ok (.text "")

/-- The value of the formula at a site. -/
def evaluate (f : Formula) (site : Site) : Except FormulaError Value :=
  match f.parts with
  | [e] => e.evaluate site
  | parts =>
    match Expr.evaluateAll site parts with
    | .error e => .error e
    | .ok values => combine parts values

end Formula

end BenchPlot
