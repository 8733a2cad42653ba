import BenchPlot.Description.ItemValue
import BenchPlot.Aggregation
import BenchPlot.Description.Basic
import BenchPlot.Formula.Error
import BenchPlot.Store.Error
import BenchPlot.Style

/-!
# Failures of plans

Everything that can go wrong while a plan is built from a document, and while it is bound to stored
data. The vocabulary of descriptions rules many of these out for documents that were read; they remain
for documents that were put together otherwise.
-/

namespace BenchPlot

/-- Why an item or a section of a document is refused. -/
inductive PlanFault where
  | benchBeforeGraph
  | curveBeforeBench
  | notAnAssignment
  | notACalculation
  | notAFunction
  | notAStyle
  | unknownCategory (key : String)
  | style (error : StyleError)
  | unknownGraphOption (flag : String)
  | unknownCurveOption (flag : String)
  | unknownLegend (name : String)
  | notANumber (text : String)
  | badRange (fault : RangeFault)
  | unknownAggregation (text : String)
  | functionInFilter (name : String)

/-- Why a plan cannot be built or bound. -/
inductive PlanCause where
  | missingKey (kind : SectionKind) (key : String)
  | unknownBenchmark (name : String)
  | unknownField (bench field : String)
  | invalid (fault : PlanFault)
  | formula (error : FormulaError)
  | store (error : StoreError)

/-- A failure and its place. -/
structure PlanError where
  location : Location
  cause : PlanCause

/-! ## §1 Messages -/

/-- The message of a refused item or section. -/
def PlanFault.message : PlanFault → String
  | .benchBeforeGraph => "[bench] section before any [graph]"
  | .curveBeforeBench => "[curve] section before any [bench]"
  | .notAnAssignment => "expected NAME = value"
  | .notACalculation => "expected NAME = expression"
  | .notAFunction => "expected name(params) = expression"
  | .notAStyle => "expected name = display [payload]"
  | .unknownCategory key => s!"unknown kind category '{key}'"
  | .style error => error.message
  | .unknownGraphOption flag => s!"unknown graph option '{flag}'"
  | .unknownCurveOption flag => s!"unknown curve option '{flag}'"
  | .unknownLegend name => s!"unknown legend placement '{name}'"
  | .notANumber text => s!"'{text}' is not a number"
  | .badRange fault => fault.message
  | .unknownAggregation text => Aggregation.unknownMessage text
  | .functionInFilter name => s!"function call &{name} is not allowed in a filter"

/-- The message of a cause without its place. -/
def PlanCause.message : PlanCause → String
  | .missingKey kind key => s!"missing required key '{key}' in [{kind.name}] section"
  | .unknownBenchmark name => s!"benchmark '{name}' does not exist"
  | .unknownField bench field => s!"field '{field}' is not defined on benchmark {bench}"
  | .invalid fault => fault.message
  | .formula error => error.message
  | .store error => error.message

/-- The message of a failure. -/
def PlanError.message (e : PlanError) : String :=
  s!"{e.location.text}: {e.cause.message}"

end BenchPlot
