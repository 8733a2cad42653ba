import BenchPlot.Output.Json
import BenchPlot.Output.Listing
import BenchPlot.Sql.Table
import BenchPlot.Store.Schema
import BenchPlot.Store.Selection

/-!
# Reports

What commands print about benchmarks, fields, indices, experiments and results of queries. A report is a
list of lines; the parts of a line are divided by tabs, those of a query's result as asked for.
-/

namespace BenchPlot

namespace Report

/-- A line of parts divided by tabs. -/
def tabbed (parts : List String) : String :=
  "\t".intercalate parts

/-- The name of the type of a field. -/
def typeName (f : Field) : String :=
  if f.numeric then "numeric" else "text"

/-! ## §1 Benchmarks -/

/-- The line for a benchmark among others. -/
def benchmarkLine (s : BenchmarkSummary) : String :=
  tabbed [s.benchmark.name, s!"fields={s.fields.length}", s!"experiments={s.experiments}",
    s!"outliers={s.outliers}", s.benchmark.description.getD ""]

/-- The line for a field in the description of its benchmark. -/
def describedField (f : Field) : String :=
  "  field " ++ tabbed ([f.name, f.column, typeName f] ++ if f.key then ["key"] else [])

/-- The line for an index. -/
def indexLine (i : FieldIndex) : String :=
  tabbed [i.name, ", ".intercalate i.fields]

/-- The lines that describe a benchmark. -/
def summaryLines (s : BenchmarkSummary) : List String :=
  s!"Benchmark: {s.benchmark.name}" ::
    (s.benchmark.description.toList.map ("Description: " ++ ·) ++
      [s!"Table: {s.benchmark.table}", s!"Experiments: {s.experiments} ({s.outliers} outliers)"] ++
      s.fields.map describedField ++ s.indices.map ("  index " ++ indexLine ·))

/-- The tree for a field. -/
def fieldNode (f : Field) : JsonNode :=
  .object [("id", .natural f.id), ("bench_id", .natural f.benchmark), ("name", .text f.name),
    ("numeric", .bool f.numeric), ("key", .bool f.key), ("position", .natural f.position)]

/-- The tree for an index. -/
def indexNode (i : FieldIndex) : JsonNode :=
  .object [("name", .text i.name), ("fields", .texts i.fields)]

/-- The tree that describes a benchmark. -/
def summaryNode (s : BenchmarkSummary) : JsonNode :=
  .object [
    ("benchmark", .object [("id", .natural s.benchmark.id), ("name", .text s.benchmark.name),
      ("description", .ofText? s.benchmark.description)]),
    ("view_table", .text s.benchmark.table),
    ("fields", .list (s.fields.map fieldNode)),
    ("indices", .list (s.indices.map indexNode)),
    ("experiments", .natural s.experiments),
    ("outliers", .natural s.outliers)]

/-! ## §2 Fields and experiments -/

/-- The line for a field among others. -/
def fieldLine (f : Field) : String :=
  tabbed [f.name, typeName f, if f.key then "key" else "-"]

/-- The line for an experiment with its values. -/
def experimentLine (r : StoredRow) : String :=
  tabbed [Decimal.naturalText r.experiment,
    tabbed (r.values.entries.map fun (name, value) => s!"{name}={value.display}")]

/-! ## §3 Queries -/

/-- The lines for the result of a query: the names of its columns, then its rows. A statement without
    columns has none. -/
def resultLines (separator : String) (r : Sql.QueryResult) : List String :=
  if r.columns.isEmpty then []
  else
    separator.intercalate r.columns ::
      r.rows.map fun row => separator.intercalate (row.map fun d => d.toValue.display)

end Report

end BenchPlot
