import BenchPlot.Store.Basic
import BenchPlot.Text.Utf8

/-!
# Archives of stores

The form in which a store is kept in a file. An archive is a text of lines; each line is a record, a kind
and its cells with tabs between them. Backslashes, tabs and line ends inside a cell are written with a
backslash. Numbers of values are kept by their bits, so that every value comes back as it was.

Main definitions: `Store.toBytes` and `Store.ofBytes?`.
-/

namespace BenchPlot

namespace Archive

/-! ## §1 Cells and records -/

/-- The characters of a cell as they are written. -/
def escape : List Char → List Char
  | [] => []
  | '\\' :: rest => '\\' :: '\\' :: escape rest
  | '\t' :: rest => '\\' :: 't' :: escape rest
  | '\n' :: rest => '\\' :: 'n' :: escape rest
  | '\r' :: rest => '\\' :: 'r' :: escape rest
  | c :: rest => c :: escape rest

/-- The characters of a written cell. -/
def unescape : List Char → List Char
  | [] => []
  | '\\' :: '\\' :: rest => '\\' :: unescape rest
  | '\\' :: 't' :: rest => '\t' :: unescape rest
  | '\\' :: 'n' :: rest => '\n' :: unescape rest
  | '\\' :: 'r' :: rest => '\r' :: unescape rest
  | c :: rest => c :: unescape rest

/-- A record: its kind and its cells. -/
abbrev Record := String × List String

/-- The line of a record. -/
def Record.line (r : Record) : String :=
  "\t".intercalate ((r.1 :: r.2).map fun cell => String.ofList (escape cell.toList)) ++ "\n"

/-- The record in a line, without its line end. -/
def Record.ofLine? (line : List Char) : Option Record :=
  match (Text.piecesAt '\t' line).map fun cell => String.ofList (unescape cell) with
  | kind :: cells => some (kind, cells)
  | [] => none

/-! ## §2 Single cells -/

/-- The cell of a truth value. -/
def flagCell (b : Bool) : String :=
  if b then "1" else "0"

/-- The truth value of a cell. -/
def flag? (cell : String) : Option Bool :=
  if cell = "1" then some true else if cell = "0" then some false else none

/-- The cell of a natural number. -/
def naturalCell (n : Nat) : String :=
  Decimal.naturalText n

/-- The natural number of a cell. -/
def natural? (cell : String) : Option Nat :=
  Decimal.readNatural? cell.toList

/-- The cell of an optional text. -/
def optionalCell : Option String → String
  | none => "-"
  | some s => "+" ++ s

/-- The optional text of a cell. -/
def optional? (cell : String) : Option (Option String) :=
  match cell.toList with
  | ['-'] => some none
  | '+' :: rest => some (some (String.ofList rest))
  | _ => none

/-- The cell of a value. -/
def valueCell : Value → String
  | .null => "-"
  | .number x => "n" ++ naturalCell x.toBits.toNat
  | .text s => "t" ++ s
  | .bool b => "b" ++ flagCell b

/-- The value of a cell. -/
def value? (cell : String) : Option Value :=
  match cell.toList with
  | ['-'] => some .null
  | 'n' :: rest =>
    (Decimal.readNatural? rest).map fun bits => .number (Float.ofBits (UInt64.ofNat bits))
  | 't' :: rest => some (.text (String.ofList rest))
  | 'b' :: rest => (flag? (String.ofList rest)).map .bool
  | _ => none

/-! ## §3 Parts of a store -/

/-- The cells of a benchmark. -/
def benchmarkCells (b : Benchmark) : List String :=
  [naturalCell b.id, b.name, optionalCell b.description]

/-- The benchmark of cells. -/
def benchmark? : List String → Option Benchmark
  | [id, name, description] => do
    some ⟨← natural? id, name, ← optional? description⟩
  | _ => none

/-- The cells of a field. -/
def fieldCells (f : Field) : List String :=
  [naturalCell f.id, naturalCell f.benchmark, f.name, flagCell f.numeric, flagCell f.key,
    naturalCell f.position]

/-- The field of cells. -/
def field? : List String → Option Field
  | [id, benchmark, name, numeric, key, position] => do
    some ⟨← natural? id, ← natural? benchmark, name, ← flag? numeric, ← flag? key, ← natural? position⟩
  | _ => none

/-- The cells of an index. -/
def indexCells (i : FieldIndex) : List String :=
  naturalCell i.id :: naturalCell i.benchmark :: i.name :: i.fields

/-- The index of cells. -/
def index? : List String → Option FieldIndex
  | id :: benchmark :: name :: fields => do
    some ⟨← natural? id, ← natural? benchmark, name, fields⟩
  | _ => none

/-- The cells of an experiment. -/
def experimentCells (e : Experiment) : List String :=
  [naturalCell e.id, naturalCell e.benchmark, e.identity, flagCell e.outlier, e.created]

/-- The experiment of cells. -/
def experiment? : List String → Option Experiment
  | [id, benchmark, identity, outlier, created] => do
    some ⟨← natural? id, ← natural? benchmark, identity, ← flag? outlier, created⟩
  | _ => none

/-- The cells of a physical index. -/
def physicalIndexCells (i : PhysicalIndex) : List String :=
  i.name :: i.table :: i.columns

/-- The physical index of cells. -/
def physicalIndex? : List String → Option PhysicalIndex
  | name :: table :: columns => some ⟨name, table, columns⟩
  | _ => none

/-- The cell of a column: whether it is numeric, and its name. -/
def columnCell (c : WideColumn) : String :=
  flagCell c.numeric ++ c.name

/-- The column of a cell. -/
def column? (cell : String) : Option WideColumn :=
  match cell.toList with
  | c :: rest => (flag? c.toString).map fun numeric => ⟨String.ofList rest, numeric⟩
  | [] => none

/-- The cells of a row of a table. -/
def rowCells (table : String) (r : WideRow) : List String :=
  table :: naturalCell r.benchmark :: naturalCell r.experiment :: flagCell r.outlier ::
    r.cells.map valueCell

/-- The row of cells, if it is a row of the table with a name. -/
def rowOf? (table : String) : List String → Option (Option WideRow)
  | name :: benchmark :: experiment :: outlier :: cells =>
    if name = table then do
      some (some ⟨← natural? benchmark, ← natural? experiment, ← flag? outlier, ← cells.mapM value?⟩)
    else some none
  | _ => none

/-- The table of cells, with those of some rows that belong to it. -/
def table? (rows : List (List String)) : List String → Option WideTable
  | name :: columns => do
    let rows ← rows.mapM (rowOf? name)
    some ⟨name, ← columns.mapM column?, rows.filterMap id⟩
  | [] => none

/-- The entry of cells. -/
def entry? : List String → Option (String × String)
  | [key, value] => some (key, value)
  | _ => none

/-- The last numbers of cells. -/
def lastNumbers? : List (List String) → Option LastNumbers
  | [[benchmark, field, index, experiment]] => do
    some ⟨← natural? benchmark, ← natural? field, ← natural? index, ← natural? experiment⟩
  | _ => none

/-! ## §4 Stores -/

/-- The first line of every archive. -/
def title : Record := ("benchmark store", [])

/-- The records of a store. -/
def records (s : Store) : List Record :=
  title ::
    ("last", [s.last.benchmark, s.last.field, s.last.index, s.last.experiment].map naturalCell) ::
    s.metadata.map (fun e => ("metadata", [e.1, e.2])) ++
    s.benchmarks.map (fun b => ("benchmark", benchmarkCells b)) ++
    s.fields.map (fun f => ("field", fieldCells f)) ++
    s.indices.map (fun i => ("index", indexCells i)) ++
    s.experiments.map (fun e => ("experiment", experimentCells e)) ++
    s.tables.map (fun t => ("table", t.name :: t.columns.map columnCell)) ++
    s.tables.flatMap (fun t => t.rows.map fun r => ("row", rowCells t.name r)) ++
    s.physicalIndices.map fun i => ("physical index", physicalIndexCells i)

/-- The cells of the records of a kind. -/
def ofKind (kind : String) (records : List Record) : List (List String) :=
  (records.filter (·.1 == kind)).map (·.2)

/-- The store of records, at a time. -/
def store? (clock : String) (records : List Record) : Option Store := do
  some {
    clock := clock
    metadata := ← (ofKind "metadata" records).mapM entry?
    benchmarks := ← (ofKind "benchmark" records).mapM benchmark?
    fields := ← (ofKind "field" records).mapM field?
    indices := ← (ofKind "index" records).mapM index?
    experiments := ← (ofKind "experiment" records).mapM experiment?
    tables := ← (ofKind "table" records).mapM (table? (ofKind "row" records))
    physicalIndices := ← (ofKind "physical index" records).mapM physicalIndex?
    last := ← lastNumbers? (ofKind "last" records) }

end Archive

/-- The archive of a store. -/
def Store.toBytes (s : Store) : List UInt8 :=
  Text.encode (String.join ((Archive.records s).map Archive.Record.line))

/-- The store in an archive, at a time. -/
def Store.ofBytes? (clock : String) (bytes : List UInt8) : Option Store := do
  let text ← Text.decode? bytes
  match ← (Text.lineChars text.toList).mapM Archive.Record.ofLine? with
  -- The title tells an archive from any other text of lines.
  | first :: records => if first = Archive.title then Archive.store? clock records else none
  | [] => none

end BenchPlot
