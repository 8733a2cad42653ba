import BenchPlot.Sql.Table
import BenchPlot.Store.Basic

/-!
# Wide tables

The table of a benchmark follows its fields: after a change of the fields it is built anew, and the
values of each field that stays are carried over, under the field's number. With a table its physical
indices go; those that the benchmark has are then made again. An index whose physical name is taken is
not made.

Names that start with `SQLITE_` are kept for other uses and never name a table.
-/

namespace BenchPlot

/-! ## §1 Cells -/

/-- A value as a column keeps it. -/
def WideColumn.keep (c : WideColumn) (v : Value) : Value :=
  ((if c.numeric then Sql.Affinity.real else .text).store (Sql.Datum.ofValue v)).toValue

/-- The value of a row in the column with a name. -/
def WideTable.cell (t : WideTable) (r : WideRow) (column : String) : Value :=
  (((t.columns.zip r.cells).find? (·.1.name == column)).map (·.2)).getD .null

/-- The table with a value in the column with a name, in every row. -/
def WideTable.fill (t : WideTable) (column : String) (v : Value) : WideTable :=
  { t with
    rows := t.rows.map fun r =>
      { r with
        cells := (t.columns.zip r.cells).map fun (c, old) =>
          if c.name == column then c.keep v else old } }

/-- A row as it is carried over into a table for other fields: the value of a field that was there
    before comes from the column that held it then. -/
def WideTable.carry (t : WideTable) (previous current : List Field) (r : WideRow) : WideRow :=
  { r with
    cells := current.map fun f =>
      match previous.find? (·.id == f.id) with
      | some old => f.toColumn.keep (t.cell r old.column)
      | none => .null }

/-! ## §2 Tables in queries -/

/-- A row as a query sees it. -/
def WideRow.data (r : WideRow) : List Sql.Datum :=
  [.integer r.benchmark, .integer r.experiment, .ofTruth (some r.outlier)]
    ++ r.cells.map Sql.Datum.ofValue

/-- The columns of a table as a query sees them. -/
def WideTable.queryColumns (t : WideTable) : List Sql.TableColumn :=
  fixedColumns.map (⟨·, .integer⟩) ++ t.columns.map fun c => ⟨c.name, if c.numeric then .real else .text⟩

/-- The place of the column that numbers the rows of a wide table. -/
def experimentPlace : Nat := 1

/-- The names in a query for some columns of a table. -/
def WideTable.names (t : WideTable) (columns : List String) : Sql.Names :=
  let names : Sql.Names := ⟨t.queryColumns, some experimentPlace, []⟩
  { names with outputs := columns.map fun c => (none, (names.column? c).getD (.literal .null)) }

/-- The names in a query for the numbers of the experiments of a table. -/
def WideTable.namesForIds (t : WideTable) : Sql.Names :=
  t.names ["EXP"]

/-! ## §3 Tables and their indices -/

/-- Whether a name never names a table. -/
def isReservedTable (name : String) : Bool :=
  (Text.afterStart? "SQLITE_".toList name.toList).isSome

namespace Store

/-- The store with one table changed. -/
def updateTable (s : Store) (name : String) (f : WideTable → WideTable) : Store :=
  { s with tables := s.tables.map fun t => if t.name == name then f t else t }

/-- The store without a table and its physical indices. -/
def dropTable (s : Store) (name : String) : Store :=
  { s with
    tables := s.tables.filter (·.name != name)
    physicalIndices := s.physicalIndices.filter (·.table != name) }

/-- The store without a physical index. -/
def dropPhysicalIndex (s : Store) (name : String) : Store :=
  { s with physicalIndices := s.physicalIndices.filter (·.name != name) }

/-- The store with the physical index for an index of a benchmark that has a table, unless there is
    one of its name. -/
def makePhysicalIndex (s : Store) (b : Benchmark) (i : FieldIndex) : Store :=
  let name := physicalIndexName b.name i.name
  if (s.table? b.table).isSome && !s.physicalIndices.any (·.name == name) then
    { s with
      physicalIndices := s.physicalIndices ++ [⟨name, b.table, i.fields.map columnName⟩] }
  else s

/-- The store with the physical indices for all indices of a benchmark. -/
def makePhysicalIndices (s : Store) (b : Benchmark) : Store :=
  (s.indicesOf b).foldl (fun s i => s.makePhysicalIndex b i) s

/-- The store without the physical indices for the indices of a benchmark. -/
def dropPhysicalIndices (s : Store) (b : Benchmark) : Store :=
  (s.indicesOf b).foldl (fun s i => s.dropPhysicalIndex (physicalIndexName b.name i.name)) s

/-- The rows of a table as they are carried over, if the table is there. -/
def carriedRows (s : Store) (name : String) (previous current : List Field) : List WideRow :=
  match s.table? name with
  | some t => t.rows.map (t.carry previous current)
  | none => []

/-- The store after the fields of a benchmark changed from `previous` to `current`. Without fields
    there is no table. -/
def rebuild (s : Store) (b : Benchmark) (previous current : List Field) : Except StoreError Store :=
  if current.isEmpty then .ok (s.dropTable b.table)
  else if isReservedTable b.table then .error .query
  else
    let table : WideTable :=
      ⟨b.table, current.map Field.toColumn, s.carriedRows b.table previous current⟩
    -- With the old table all its physical indices go, also those that no index asks for any more.
    let rest := s.dropTable b.table
    .ok ({ rest with tables := rest.tables ++ [table] }.makePhysicalIndices b)

/-- The store with the table of a benchmark under the name that the benchmark has now. The physical
    indices that do not belong to an index of the benchmark follow the table. -/
def renameTable (s : Store) (old new : Benchmark) : Except StoreError Store :=
  match s.table? old.table with
  | none => .ok s
  | some _ =>
    let s := s.dropPhysicalIndices old
    if isReservedTable new.table then .error .query
    else
      let tables := s.tables.map fun t => if t.name == old.table then { t with name := new.table } else t
      let physicalIndices := s.physicalIndices.map fun i =>
        if i.table == old.table then { i with table := new.table } else i
      .ok ({ s with tables := tables, physicalIndices := physicalIndices }.makePhysicalIndices new)

end Store

end BenchPlot
