import BenchPlot.Formula.Operation
import BenchPlot.Formula.Scope
import BenchPlot.Name

/-!
# Evaluation

The value of a formula at a site. A site says what is visible there: the current row, the parameters
of the enclosing function, variables, calculated variables, and how a named function is entered. The
evaluation of a formula recurses on the formula alone; a function body is evaluated one level of
calls deeper, and there are no more than `maxCallDepth` levels.
-/

namespace BenchPlot

/-- A row of results: the value of each field, by its canonical name. -/
abbrev Row : Type := SortedMap String Value

/-- What is visible where a formula stands. -/
structure Site where
  row : Option Row
  parameters : SortedMap String Value
  variableOf : String → Option String
  calculatedValue : String → Except FormulaError Value
  /-- What a call of a named function with a number of arguments does with their values. -/
  enter : String → Nat → Except FormulaError (List Value → Except FormulaError Value)

namespace Site

/-- The value of a column of the current row. -/
def columnValue (site : Site) (name : String) : Except FormulaError Value :=
  match site.row with
  | none => .error (.notAllowed (.columnHere name))
  | some row =>
    match canonicalName name with
    | .error _ => .error (.unknownColumn name)
    | .ok key =>
      match row.find? key with
      | some v => .ok v
      | none => .error (.unknownColumn name)

/-- The value of a variable. -/
def variableValue (site : Site) (name : String) : Except FormulaError Value :=
  match site.variableOf name with
  | some text => .ok (.text text)
  | none => .error (.unknownVariable name)

/-- The value of a parameter. -/
def parameterValue (site : Site) (name : String) : Except FormulaError Value :=
  match site.parameters.find? name with
  | some v => .ok v
  | none => .error (.unknownIdentifier name)

end Site

/-! ## §1 Formulas at a site -/

namespace Expr

mutual

/-- The value of a formula at a site. Of a choice only the chosen branch is evaluated, and of a
    conjunction or disjunction the right side only if the left one leaves it open. -/
def evaluate (site : Site) : Expr → Except FormulaError Value
  | .literal v => .ok v
  | .column name => site.columnValue name
  | .environment name => site.variableValue name
  | .calculated name => site.calculatedValue name
  | .parameter name => site.parameterValue name
  | .builtin name args =>
    -- A choice is no ordinary function: it does not evaluate all its arguments.
    if name = "if" then evaluateChoice site args
    else
      match evaluateAll site args with
      | .error e => .error e
      | .ok values => applyBuiltin name values
  | .call name args =>
    -- The function is found, and its arguments are counted, before they are evaluated.
    match site.enter name args.length with
    | .error e => .error e
    | .ok run =>
      match evaluateAll site args with
      | .error e => .error e
      | .ok values => run values
  | .unary op operand =>
    match evaluate site operand with
    | .error e => .error e
    | .ok v => op.apply v
  | .binary op left right =>
    match evaluate site left with
    | .error e => .error e
    | .ok a =>
      match op.settled? a with
      | some v => .ok v
      | none =>
        match evaluate site right with
        | .error e => .error e
        | .ok b => op.apply a b

/-- The values of several formulas, up to the first failure. -/
def evaluateAll (site : Site) : List Expr → Except FormulaError (List Value)
  | [] => .ok []
  | e :: rest =>
    match evaluate site e with
    | .error err => .error err
    | .ok v =>
      match evaluateAll site rest with
      | .error err => .error err
      | .ok vs => .ok (v :: vs)

/-- The value of the branch that a condition chooses. -/
def evaluateChoice (site : Site) : List Expr → Except FormulaError Value
  | [condition, yes, no] =>
    match evaluate site condition with
    | .error e => .error e
    | .ok v => if v.isTruthy then evaluate site yes else evaluate site no
  | args => .error (.arity "if" 3 args.length)

end

end Expr

/-! ## §2 Sites of a scope -/

namespace Scope

/-- The site at which calculated variables are evaluated: only variables are visible. -/
def bareSite (s : Scope) : Site where
  row := none
  parameters := ∅
  variableOf := s.environment?
  calculatedValue name := .error (.unknownCalculated name)
  enter name _ := .error (.notAllowed (.functionHere name))

/-- The value of a calculated variable. -/
def calculatedValue (s : Scope) (name : String) : Except FormulaError Value :=
  match s.calculated.find? name with
  | some e => e.evaluate s.bareSite
  | none => .error (.unknownCalculated name)

/-- The parameters of a function with the values of its arguments; of two parameters of one name the
    later holds. -/
def bindParameters (names : List String) (values : List Value) : SortedMap String Value :=
  SortedMap.ofList (names.zip values)

/-- Entering a named function where `levels` further levels of calls are open. -/
def enter (s : Scope) : Nat → String → Nat →
    Except FormulaError (List Value → Except FormulaError Value)
  | 0, _, _ => .error .depthExceeded
  | levels + 1, name, count =>
    match s.functions.find? name with
    | none => .error (.unknownFunction name)
    | some f =>
      if f.parameters.length = count then
        .ok fun values =>
          f.body.evaluate
            { row := none
              parameters := bindParameters f.parameters values
              variableOf := s.environment?
              calculatedValue := s.calculatedValue
              enter := s.enter levels }
      else .error (.arity name f.parameters.length count)

/-- The site of a formula of its own: the current row, if there is one, and named functions if they
    are allowed there. -/
def site (s : Scope) (row : Option Row) (functions : Bool) : Site where
  row := row
  parameters := ∅
  variableOf := s.environment?
  calculatedValue := s.calculatedValue
  enter name count :=
    if functions then s.enter maxCallDepth name count
    else .error (.notAllowed (.functionHere name))

end Scope

end BenchPlot
