import BenchPlot.Aggregation
import BenchPlot.Description.Basic
import BenchPlot.Description.ItemValue
import BenchPlot.FileTree
import BenchPlot.Formula.Error

/-!
# Failures of descriptions

Everything that can go wrong while a description is read: while its files are put together, while its
lines are taken for sections and items, and while values are checked against the vocabulary.
-/

namespace BenchPlot

/-- Why the value of an item does not fit its key. -/
inductive ValueFault where
  | empty
  | notAnAssignment (value : String)
  | notAFunction (value : String)
  | notAStyle (value : String)
  | notAKindName (value : String)
  | unknownAggregation (value : String)
  | emptyList
  | notANumber (value : String)
  | badRange (fault : RangeFault)
  | badFormula (error : FormulaError)
  | notAFieldList (value : String)
  | unknownChoice (what value : String) (choices : List String)
  | unknownOption (flag : String) (allowed : List String)

/-- Why a description cannot be read. -/
inductive DescriptionFault where
  | includesTooDeep (path : String)
  | unreadable (path : String) (fault : FileFault)
  | includeCycle (path : String)
  | malformedInclude
  | badIncludePath (error : FormulaError)
  | emptyIncludePath
  | unknownSection (name : String)
  | itemBeforeSection
  | notAnItem (text : String)
  | malformedKey (key : String)
  | unknownKey (key : String) (kind : SectionKind)
  | duplicateKey (key : String) (kind : SectionKind) (firstLine : Nat)
  | badValue (key : String) (fault : ValueFault)

/-- A failure and its place. -/
structure DescriptionError where
  location : Location
  fault : DescriptionFault

/-- The number of files that may be open at once through includes. -/
def maxIncludeDepth : Nat := 16

/-! ## §1 Messages -/

/-- The message of a value that does not fit. -/
def ValueFault.message : ValueFault → String
  | .empty => "value must not be empty"
  | .notAnAssignment value => s!"expected NAME = value, found '{value}'"
  | .notAFunction value => s!"expected name(param, ...) = expression, found '{value}'"
  | .notAStyle value => s!"expected name = display [payload], found '{value}'"
  | .notAKindName value => s!"'{value}' is not a valid kind name"
  | .unknownAggregation value => Aggregation.unknownMessage value
  | .emptyList => "expected a comma separated list"
  | .notANumber value => s!"'{value}' is not a number"
  | .badRange fault => fault.message
  | .badFormula error => error.message
  | .notAFieldList value => s!"expected a list of fields, found '{value}'"
  | .unknownChoice what value choices =>
    s!"unknown {what} '{value}'; expected one of " ++ ", ".intercalate choices
  | .unknownOption flag allowed =>
    s!"unknown option '{flag}'; expected any of " ++ ", ".intercalate allowed

/-- The message of a failure without its place. -/
def DescriptionFault.message : DescriptionFault → String
  | .includesTooDeep path => s!"include nesting deeper than {maxIncludeDepth} levels at {path}"
  | .unreadable path fault => s!"cannot read {path}: {fault.message}"
  | .includeCycle path => s!"include cycle through {path}"
  | .malformedInclude => "malformed include directive; expected include \"path\""
  | .badIncludePath error => s!"include path: {error.message}"
  | .emptyIncludePath => "include path is empty"
  | .unknownSection name => s!"unknown section [{name}]"
  | .itemBeforeSection => "item appears before any section header"
  | .notAnItem text => s!"expected 'key: value', found '{text}'"
  | .malformedKey key => s!"malformed key '{key}'"
  | .unknownKey key kind => s!"unknown key '{key}' in [{kind.name}] section"
  | .duplicateKey key kind line =>
    s!"duplicate key '{key}' in [{kind.name}] section (first set at line {line})"
  | .badValue key fault => s!"{key}: {fault.message}"

/-- The message of a failure. -/
def DescriptionError.message (e : DescriptionError) : String :=
  s!"{e.location.text}: {e.fault.message}"

end BenchPlot
