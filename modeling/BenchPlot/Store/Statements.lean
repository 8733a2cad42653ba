import BenchPlot.Store.Selection

/-!
# Statements on the store

Everything that the store keeps can be seen as tables, and statements of the query language select from
them and change them. A change is refused if it leaves a row that is no record of its kind, two records
with one key, or a record of a benchmark that is not there.

Main definition: `Store.query`.
-/

namespace BenchPlot

open Sql (Datum Table TableColumn)

namespace Store

/-! ## §1 Cells -/

/-- The cell of a number. -/
def numberCell (n : Nat) : Datum := .integer n

/-- The cell of a flag. -/
def flagCell (b : Bool) : Datum := .ofTruth (some b)

/-- The number in a cell. -/
def number? : Datum → Option Nat
  | .integer i => if i < 0 then none else some i.toNat
  | _ => none

/-- The text in a cell. -/
def text? : Datum → Option String
  | .text s => some s
  | _ => none

/-- The flag in a cell. -/
def flag? : Datum → Option Bool
  | .integer i => if i = 0 then some false else if i = 1 then some true else none
  | _ => none

/-- The text in a cell that may hold nothing. -/
def optionalText? : Datum → Option (Option String)
  | .null => some none
  | d => (text? d).map some

/-- The value in a cell. -/
def value? : Datum → Option Value
  | .blob _ => none
  | d => some d.toValue

/-! ## §2 Tables of records -/

/-- A row of columns with their affinities. -/
def columnsOf (l : List (String × Sql.Affinity)) : List TableColumn :=
  l.map fun c => ⟨c.1, c.2⟩

/-- The metadata as a table. -/
def metadataTable (s : Store) : Table :=
  ⟨columnsOf [("key", .text), ("value", .text)], none,
    s.metadata.map fun e => [.text e.1, .text e.2]⟩

/-- The benchmarks as a table. -/
def benchmarksTable (s : Store) : Table :=
  ⟨columnsOf [("bench_id", .integer), ("name", .text), ("description", .text)], some 0,
    s.benchmarks.map fun b =>
      [numberCell b.id, .text b.name, (b.description.map Datum.text).getD .null]⟩

/-- The fields as a table. -/
def fieldsTable (s : Store) : Table :=
  ⟨columnsOf [("field_id", .integer), ("bench_id", .integer), ("name", .text),
      ("is_numeric", .integer), ("is_key", .integer), ("position", .integer)], some 0,
    s.fields.map fun f =>
      [numberCell f.id, numberCell f.benchmark, .text f.name, flagCell f.numeric, flagCell f.key,
        numberCell f.position]⟩

/-- The experiments as a table. -/
def experimentsTable (s : Store) : Table :=
  ⟨columnsOf [("exp_id", .integer), ("bench_id", .integer), ("identity", .text),
      ("is_outlier", .integer), ("created_at", .text)], some 0,
    s.experiments.map fun e =>
      [numberCell e.id, numberCell e.benchmark, .text e.identity, flagCell e.outlier,
        .text e.created]⟩

/-- The indices as a table. -/
def indicesTable (s : Store) : Table :=
  ⟨columnsOf [("index_id", .integer), ("bench_id", .integer), ("name", .text),
      ("field_list", .text)], some 0,
    s.indices.map fun i =>
      [numberCell i.id, numberCell i.benchmark, .text i.name, .text (",".intercalate i.fields)]⟩

/-- A wide table as a table. -/
def wideTable (t : WideTable) : Table :=
  ⟨t.queryColumns, some experimentPlace, t.rows.map WideRow.data⟩

/-- The tables and indices that every store has: kind, name and table of each. -/
def fixedObjects : List (String × String × String) :=
  [("table", "metadata", "metadata"),
    ("index", "sqlite_autoindex_metadata_1", "metadata"),
    ("table", "benchmarks", "benchmarks"),
    ("index", "sqlite_autoindex_benchmarks_1", "benchmarks"),
    ("table", "sqlite_sequence", "sqlite_sequence"),
    ("table", "fields", "fields"),
    ("index", "sqlite_autoindex_fields_1", "fields"),
    ("table", "experiments", "experiments"),
    ("index", "sqlite_autoindex_experiments_1", "experiments"),
    ("table", "bench_indices", "bench_indices"),
    ("index", "sqlite_autoindex_bench_indices_1", "bench_indices"),
    ("index", "idx_fields_bench", "fields"),
    ("index", "idx_experiments_bench", "experiments")]

/-- The list of all tables and indices as a table. -/
def catalogTable (s : Store) : Table :=
  let objects := fixedObjects ++ s.tables.map (fun t => ("table", t.name, t.name))
    ++ s.physicalIndices.map fun i => ("index", i.name, i.table)
  ⟨columnsOf [("type", .text), ("name", .text), ("tbl_name", .text)], none,
    objects.map fun o => [.text o.1, .text o.2.1, .text o.2.2]⟩

/-- The tables that a statement may name. -/
inductive Source where
  | metadata
  | benchmarks
  | fields
  | experiments
  | indices
  | catalog
  | wide (t : WideTable)

/-- The table that a name in a statement stands for, in any letter case. -/
def source? (s : Store) (name : String) : Option Source :=
  match Text.asciiLower name with
  | "metadata" => some .metadata
  | "benchmarks" => some .benchmarks
  | "fields" => some .fields
  | "experiments" => some .experiments
  | "bench_indices" => some .indices
  | "sqlite_master" | "sqlite_schema" => some .catalog
  | _ => (s.tables.find? fun t => Sql.sameName t.name name).map .wide

/-- The content of a table. -/
def tableOf (s : Store) : Source → Table
  | .metadata => s.metadataTable
  | .benchmarks => s.benchmarksTable
  | .fields => s.fieldsTable
  | .experiments => s.experimentsTable
  | .indices => s.indicesTable
  | .catalog => s.catalogTable
  | .wide t => wideTable t

/-! ## §3 Records of tables -/

/-- The entry of the metadata that a row is. -/
def entryOf? : List Datum → Option (String × String)
  | [key, value] => do pure (← text? key, ← text? value)
  | _ => none

/-- The benchmark that a row is. -/
def benchmarkOf? : List Datum → Option Benchmark
  | [id, name, description] => do
    pure ⟨← number? id, ← text? name, ← optionalText? description⟩
  | _ => none

/-- The field that a row is. -/
def fieldOf? : List Datum → Option Field
  | [id, bench, name, numeric, key, position] => do
    pure ⟨← number? id, ← number? bench, ← text? name, ← flag? numeric, ← flag? key,
      ← number? position⟩
  | _ => none

/-- The experiment that a row is. -/
def experimentOf? : List Datum → Option Experiment
  | [id, bench, identity, outlier, created] => do
    pure ⟨← number? id, ← number? bench, ← text? identity, ← flag? outlier, ← text? created⟩
  | _ => none

/-- The index that a row is. -/
def indexOf? : List Datum → Option FieldIndex
  | [id, bench, name, fields] => do
    let names := (Text.piecesAt ',' (← text? fields).toList).map String.ofList
    pure ⟨← number? id, ← number? bench, ← text? name, names.filter fun n => !n.isEmpty⟩
  | _ => none

/-- The row of a wide table that a row is. -/
def wideRowOf? : List Datum → Option WideRow
  | bench :: experiment :: outlier :: cells => do
    pure ⟨← number? bench, ← number? experiment, ← flag? outlier, ← cells.mapM value?⟩
  | _ => none

/-- Records in the order of their numbers. -/
def inOrder {α : Type} (id : α → Nat) (l : List α) : List α :=
  l.mergeSort fun a b => id a ≤ id b

/-- Whether no two records have the same key. -/
def haveDistinct {α κ : Type} [DecidableEq κ] (key : α → κ) (l : List α) : Bool :=
  decide (l.map key).Nodup

/-- The store with other rows in a table, if each is a record. -/
def withRows? (s : Store) (source : Source) (rows : List (List Datum)) : Option Store :=
  match source with
  | .metadata => (rows.mapM entryOf?).map fun l => { s with metadata := l }
  | .benchmarks =>
    (rows.mapM benchmarkOf?).map fun l => { s with benchmarks := inOrder Benchmark.id l }
  | .fields => (rows.mapM fieldOf?).map fun l => { s with fields := inOrder Field.id l }
  | .experiments =>
    (rows.mapM experimentOf?).map fun l => { s with experiments := inOrder Experiment.id l }
  | .indices => (rows.mapM indexOf?).map fun l => { s with indices := inOrder FieldIndex.id l }
  | .catalog => none
  | .wide t =>
    (rows.mapM wideRowOf?).map fun l =>
      s.updateTable t.name fun t => { t with rows := inOrder WideRow.experiment l }

/-- Whether records are told apart by their keys and belong to benchmarks that are there. -/
def isConsistent (s : Store) : Bool :=
  let ids := s.benchmarks.map (·.id)
  haveDistinct Prod.fst s.metadata
    && haveDistinct Benchmark.id s.benchmarks && haveDistinct Benchmark.name s.benchmarks
    && haveDistinct Field.id s.fields
    && haveDistinct (fun f : Field => (f.benchmark, f.name)) s.fields
    && haveDistinct Experiment.id s.experiments
    && haveDistinct (fun e : Experiment => (e.benchmark, e.identity)) s.experiments
    && haveDistinct FieldIndex.id s.indices
    && haveDistinct (fun i : FieldIndex => (i.benchmark, i.name)) s.indices
    && s.tables.all (fun t => haveDistinct WideRow.experiment t.rows)
    && s.fields.all (ids.contains ·.benchmark) && s.experiments.all (ids.contains ·.benchmark)
    && s.indices.all (ids.contains ·.benchmark)

/-! ## §4 Running statements -/

/-- The store with other rows in a table, if it is consistent then. -/
def changed (s : Store) (source : Source) (rows : Option (List (List Datum))) :
    Except StoreError Store :=
  match rows.bind (s.withRows? source) with
  | none => .error .query
  | some s => if s.isConsistent then .ok s else .error .query

/-- The table that a statement selects from, if it names one. -/
def selectionTable? (s : Store) : Option String → Option Table
  | none => some .unit
  | some name => (s.source? name).map s.tableOf

/-- The result of a statement, and the store behind it. A change has no result. -/
def execute (s : Store) : Sql.Statement → Except StoreError (Sql.QueryResult × Store)
  | .select distinct columns source selection =>
    match (s.selectionTable? source).bind fun t => t.select? distinct columns selection with
    | some result => .ok (result, s)
    | none => .error .query
  | .update name changes condition => do
    match s.source? name with
    | none => throw .query
    | some source =>
      pure (⟨[], []⟩, ← s.changed source ((s.tableOf source).update? changes condition))
  | .delete name condition => do
    match s.source? name with
    | none => throw .query
    | some source => pure (⟨[], []⟩, ← s.changed source ((s.tableOf source).delete? condition))

/-- The result of a statement that a text is, and the store behind it. -/
def query (s : Store) (text : String) : Except StoreError (Sql.QueryResult × Store) :=
  match Sql.Statement.parse? text with
  | some statement => s.execute statement
  | none => .error .query

end Store

end BenchPlot
