import BenchPlot.Formula.Parser
import BenchPlot.Style

/-!
# Scopes

What the formulas of one description can refer to: variables, calculated variables, named functions
and styles. A definition is checked when it is made: a calculated variable refers to variables only,
and a named function to its parameters, variables, calculated variables and functions, but to no
column. So evaluation never meets an identifier or a column inside them that has no value.
-/

namespace BenchPlot

/-- A named function: its parameters and its body. -/
structure NamedFunction where
  name : String
  parameters : List String
  body : Expr

/-- What formulas can refer to. A variable is looked up in the overrides, then in the process
    environment, then among the defaults. -/
structure Scope where
  overrides : SortedMap String String
  process : SortedMap String String
  defaults : SortedMap String String
  calculated : SortedMap String Expr
  functions : SortedMap String NamedFunction
  styles : StyleRegistry

namespace Scope

/-- The scope with the given overrides and process environment, in which nothing is defined. -/
def new (overrides process : SortedMap String String) : Scope :=
  ⟨overrides, process, ∅, ∅, ∅, .empty⟩

instance : Inhabited Scope := ⟨new ∅ ∅⟩

/-! ## §1 Variables -/

/-- The value of a variable. -/
def environment? (s : Scope) (name : String) : Option String :=
  ((s.overrides.find? name).or (s.process.find? name)).or (s.defaults.find? name)

/-- The scope with a default for a variable. -/
def setDefault (s : Scope) (name value : String) : Scope :=
  { s with defaults := s.defaults.insert name value }

/-! ## §2 Calculated variables -/

/-- Why a node may not stand in the calculated variable `name`. -/
def calculatedBan? (name : String) : Expr → Option Ban
  | .calculated other => some (.calculatedInCalculated name other)
  | .column column => some (.columnInCalculated name column)
  | .call function _ => some (.functionInCalculated name function)
  | .parameter identifier => some (.identifierInCalculated name identifier)
  | _ => none

/-- The scope with a calculated variable. A later definition replaces an earlier one. -/
def defineCalculated (s : Scope) (name source : String) : Except FormulaError Scope :=
  match Expr.parse source with
  | .error e => .error e
  | .ok e =>
    match e.nodes.findSome? (calculatedBan? name) with
    | some ban => .error (.notAllowed ban)
    | none => .ok { s with calculated := s.calculated.insert name e }

/-! ## §3 Named functions -/

/-- Why a node may not stand in the body of the function `name`. -/
def functionBan? (name : String) (parameters : List String) : Expr → Option FormulaError
  | .parameter identifier =>
    if parameters.contains identifier then none else some (.unknownIdentifier identifier)
  | .column column => some (.notAllowed (.columnInFunction name column))
  | _ => none

/-- The scope with a named function. A function is defined once. -/
def defineFunction (s : Scope) (name : String) (parameters : List String) (source : String) :
    Except FormulaError Scope :=
  if s.functions.contains name then .error (.notAllowed (.secondDefinition name))
  else
    match Expr.parse source with
    | .error e => .error e
    | .ok body =>
      match body.nodes.findSome? (functionBan? name parameters) with
      | some fault => .error fault
      | none => .ok { s with functions := s.functions.insert name ⟨name, parameters, body⟩ }

end Scope

end BenchPlot
