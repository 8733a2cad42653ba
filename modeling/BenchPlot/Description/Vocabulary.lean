import BenchPlot.Description.Error
import BenchPlot.Formula.Basic
import BenchPlot.Style

/-!
# The vocabulary of sections

Which keys a section may have, which of them may be repeated, and which values fit each key.
-/

namespace BenchPlot

/-- A key of a section: its name, whether it may be repeated, and why a value does not fit it. -/
structure KeyRule where
  name : String
  repeats : Bool
  check : String → Option ValueFault

/-! ## §1 Checks -/

namespace ItemCheck

/-- Every value fits. -/
def free (_ : String) : Option ValueFault := none

/-- The value must not be blank. -/
def notEmpty (value : String) : Option ValueFault :=
  if Text.isBlankText value then some .empty else none

/-- The value must be an assignment. -/
def assignment (value : String) : Option ValueFault :=
  if (parseAssignment? value).isSome then none else some (.notAnAssignment value)

/-- The value must be a function definition. -/
def function (value : String) : Option ValueFault :=
  if (parseFunctionDefinition? value).isSome then none else some (.notAFunction value)

/-- The value must be a style definition. -/
def style (value : String) : Option ValueFault :=
  if (parseStyleDefinition? value).isSome then none else some (.notAStyle value)

/-- The value must be the name of a style. -/
def kindName (value : String) : Option ValueFault :=
  if isNameOf isStyleChar value.toList then none else some (.notAKindName value)

/-- The value must name an aggregation. -/
def aggregation (value : String) : Option ValueFault :=
  if (Aggregation.ofName? value).isSome then none else some (.unknownAggregation value)

/-- The value must be a list with entries. -/
def entries (value : String) : Option ValueFault :=
  if (commaList value).isEmpty then some .emptyList else none

/-- The value must be a number. -/
def number (value : String) : Option ValueFault :=
  if (Decimal.read? (Text.trim value)).isSome then none else some (.notANumber value)

/-- The value must be a range. -/
def range (value : String) : Option ValueFault :=
  match parseRange value with
  | .ok _ => none
  | .error fault => some (.badRange fault)

/-- The value must be a formula. -/
def formula (value : String) : Option ValueFault :=
  match Formula.parse value with
  | .ok _ => none
  | .error e => some (.badFormula e)

/-- The value must be a list of fields, none of them empty. -/
def fields (value : String) : Option ValueFault :=
  let fields := parseFieldList value
  if fields.isEmpty || fields.any String.isEmpty then some (.notAFieldList value) else none

/-- The value must be one of the choices, in any letter case. -/
def choice (what : String) (choices : List String) (value : String) : Option ValueFault :=
  if choices.contains (Text.asciiLower (Text.trim value)) then none
  else some (.unknownChoice what value choices)

/-- The value must hold allowed flags only. -/
def flags (allowed : List String) (value : String) : Option ValueFault :=
  ((parseFlags value).find? fun flag => !allowed.contains flag).map fun flag =>
    .unknownOption flag allowed

end ItemCheck

/-! ## §2 Keys -/

/-- The flags of a graph. -/
def graphFlags : List String := ["stack", "normalize", "xoffset", "yoffset", "grid"]

/-- The flags of a curve. -/
def curveFlags : List String := ["bar", "hbar", "no_stack", "base", "accum", "skip", "errorbars"]

/-- The places of a legend. -/
def legendNames : List String := ["none", "inside", "outside", "below"]

/-- The keys of the sections of a kind. -/
def SectionKind.vocabulary : SectionKind → List KeyRule
  | .global =>
    [⟨"env", true, ItemCheck.assignment⟩, ⟨"calc", true, ItemCheck.assignment⟩,
      ⟨"func", true, ItemCheck.function⟩, ⟨"line", true, ItemCheck.style⟩,
      ⟨"mark", true, ItemCheck.style⟩, ⟨"color", true, ItemCheck.style⟩,
      ⟨"scale", true, ItemCheck.style⟩, ⟨"title", false, ItemCheck.free⟩,
      ⟨"aggr", false, ItemCheck.aggregation⟩]
  | .graph =>
    [⟨"title", false, ItemCheck.free⟩, ⟨"xlabel", false, ItemCheck.free⟩,
      ⟨"ylabel", false, ItemCheck.free⟩, ⟨"xtype", false, ItemCheck.kindName⟩,
      ⟨"ytype", false, ItemCheck.kindName⟩, ⟨"xcategories", false, ItemCheck.entries⟩,
      ⟨"ycategories", false, ItemCheck.entries⟩, ⟨"xskip", false, ItemCheck.entries⟩,
      ⟨"yskip", false, ItemCheck.entries⟩, ⟨"xbase", false, ItemCheck.number⟩,
      ⟨"ybase", false, ItemCheck.number⟩, ⟨"xrange", false, ItemCheck.range⟩,
      ⟨"yrange", false, ItemCheck.range⟩, ⟨"aggr", false, ItemCheck.aggregation⟩,
      ⟨"legend", false, ItemCheck.choice "legend placement" legendNames⟩,
      ⟨"options", false, ItemCheck.flags graphFlags⟩]
  | .bench =>
    [⟨"name", false, ItemCheck.notEmpty⟩, ⟨"filter", true, ItemCheck.notEmpty⟩,
      ⟨"select", true, ItemCheck.notEmpty⟩,
      ⟨"outliers", false, ItemCheck.choice "outlier mode" ["include", "exclude"]⟩,
      ⟨"label", false, ItemCheck.free⟩]
  | .curve =>
    [⟨"xval", false, ItemCheck.formula⟩, ⟨"yval", false, ItemCheck.formula⟩,
      ⟨"label", false, ItemCheck.formula⟩, ⟨"marktext", false, ItemCheck.formula⟩,
      ⟨"aggr", false, ItemCheck.aggregation⟩, ⟨"line", false, ItemCheck.kindName⟩,
      ⟨"mark", false, ItemCheck.kindName⟩, ⟨"color", false, ItemCheck.kindName⟩,
      ⟨"iterate", false, ItemCheck.fields⟩, ⟨"filter", true, ItemCheck.notEmpty⟩,
      ⟨"options", false, ItemCheck.flags curveFlags⟩]

end BenchPlot
