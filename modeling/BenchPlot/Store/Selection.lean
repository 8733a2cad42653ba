import BenchPlot.Store.Experiments

/-!
# Selecting rows

Rows of a benchmark are selected by predicates, all of which have to hold. Outliers are left out unless
they are asked for. The predicates are written in the query language; they are put together as text, each
between parentheses.

Main definitions: `Store.selectRows`, in the order of the experiments, and `Store.distinctValues` of one
field, in the order of the values.
-/

namespace BenchPlot

/-- Which rows are selected. -/
structure RowQuery where
  predicates : List String
  includeOutliers : Bool
  deriving DecidableEq, Repr

/-- A selected row: its experiment, and the value of each field by its canonical name. -/
structure StoredRow where
  experiment : Nat
  outlier : Bool
  values : SortedMap String Value

namespace RowQuery

/-- The query with a further predicate. -/
def with_ (q : RowQuery) (predicate : String) : RowQuery :=
  { q with predicates := q.predicates ++ [predicate] }

/-- The conditions that are put together. A blank predicate is none. -/
def clauses (q : RowQuery) : List String :=
  ((q.predicates.map Text.trim).filter fun p => !p.isEmpty).map (fun p => "(" ++ p ++ ")")
    ++ if q.includeOutliers then [] else ["OUT = 0"]

/-- The selection of a query over a table, in the order of a column. -/
def selection? (q : RowQuery) (t : WideTable) (columns : List String) (orderBy : String) :
    Option Sql.ResolvedSelection :=
  let written : Option Sql.Selection :=
    if q.clauses.isEmpty then some ⟨none, [⟨.name ⟨.bare, orderBy⟩, false⟩]⟩
    else Sql.Selection.parse? (" AND ".intercalate q.clauses ++ " ORDER BY " ++ orderBy)
  written.bind (Sql.Selection.resolve? (t.names columns))

/-- The rows of a table that a query selects, in the order of a column. -/
def rows (q : RowQuery) (t : WideTable) (columns : List String) (orderBy : String) :
    Except StoreError (List WideRow) :=
  match q.selection? t columns orderBy with
  | some selection => .ok (selection.apply WideRow.data t.rows)
  | none => .error .query

end RowQuery

/-- The values of a row by the names of the fields. -/
def WideTable.valuesOf (t : WideTable) (fields : List Field) (r : WideRow) : SortedMap String Value :=
  SortedMap.ofList (fields.map fun f => (f.name, t.cell r f.column))

namespace Store

/-- The rows of a benchmark that a query selects, in the order of their experiments. -/
def selectRows (s : Store) (bench : String) (q : RowQuery) : Except StoreError (List StoredRow) := do
  let b ← s.benchmark bench
  match s.table? b.table with
  | none => pure []
  | some t =>
    let fields := s.fieldsOf b
    let rows ← q.rows t (["EXP", "OUT"] ++ fields.map Field.column) "EXP"
    pure (rows.map fun r => ⟨r.experiment, r.outlier, t.valuesOf fields r⟩)

/-- The distinct values of a field among the rows that a query selects, in their order. -/
def distinctValues (s : Store) (bench field : String) (q : RowQuery) :
    Except StoreError (List Value) := do
  let b ← s.benchmark bench
  let f ← requireField b (s.fieldsOf b) (← canonical field)
  match s.table? b.table with
  | none => pure []
  | some t =>
    let rows ← q.rows t [f.column] f.column
    let cells := Sql.distinctRows (fun v => [Sql.Datum.ofValue v]) (rows.map (t.cell · f.column))
    pure cells

end Store

end BenchPlot
