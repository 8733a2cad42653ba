import BenchPlot.SortedMap
import BenchPlot.Store.Error
import BenchPlot.Value

/-!
# The store

What is kept: benchmarks, their fields and indices, their experiments, and for each benchmark with
fields one wide table, which holds a row per experiment. A physical index belongs to a table, but all
physical indices share one space of names.

Rows of one kind are kept in the order of their numbers. Numbers are never used twice: the store
remembers the last number of each kind.
-/

namespace BenchPlot

/-- A benchmark. -/
structure Benchmark where
  id : Nat
  name : String
  description : Option String
  deriving DecidableEq, Repr

/-- A field of a benchmark. The fields of a benchmark are in the order of their positions. -/
structure Field where
  id : Nat
  benchmark : Nat
  name : String
  numeric : Bool
  key : Bool
  position : Nat
  deriving DecidableEq, Repr

/-- An index of a benchmark over some of its fields. -/
structure FieldIndex where
  id : Nat
  benchmark : Nat
  name : String
  fields : List String
  deriving DecidableEq, Repr

/-- An experiment of a benchmark, with the text that identifies it. -/
structure Experiment where
  id : Nat
  benchmark : Nat
  identity : String
  outlier : Bool
  created : String
  deriving DecidableEq, Repr

/-- A column of a wide table that holds a field. -/
structure WideColumn where
  name : String
  numeric : Bool
  deriving DecidableEq, Repr

/-- A row of a wide table: the benchmark, the experiment, whether it is an outlier, and the values of
    the columns. -/
structure WideRow where
  benchmark : Nat
  experiment : Nat
  outlier : Bool
  cells : List Value

/-- A wide table. -/
structure WideTable where
  name : String
  columns : List WideColumn
  rows : List WideRow

/-- A physical index: the columns of a table by which its rows are found. -/
structure PhysicalIndex where
  name : String
  table : String
  columns : List String
  deriving DecidableEq, Repr

/-- The last numbers that were given away. -/
structure LastNumbers where
  benchmark : Nat
  field : Nat
  index : Nat
  experiment : Nat
  deriving DecidableEq, Repr

/-- A store. The clock is the time at which operations take place. -/
structure Store where
  clock : String
  metadata : List (String × String)
  benchmarks : List Benchmark
  fields : List Field
  indices : List FieldIndex
  experiments : List Experiment
  tables : List WideTable
  physicalIndices : List PhysicalIndex
  last : LastNumbers

/-- The wide table that a benchmark has once it has fields. -/
def Benchmark.table (b : Benchmark) : String :=
  tableName b.name

/-- The column that holds a field. -/
def Field.column (f : Field) : String :=
  columnName f.name

/-- The column of a wide table that a field asks for. -/
def Field.toColumn (f : Field) : WideColumn :=
  ⟨f.column, f.numeric⟩

namespace Store

/-! ## §1 Metadata -/

/-- The version of the layout that stores are kept in. -/
def schemaVersion : Nat × Nat := (1, 0)

/-- The version of the layout as it is told. -/
def schemaVersionText : String :=
  s!"{schemaVersion.1}.{schemaVersion.2}"

/-- The entries with a value under a key; a new key comes last. -/
def putEntry (key value : String) : List (String × String) → List (String × String)
  | [] => [(key, value)]
  | (k, v) :: rest => if k = key then (k, value) :: rest else (k, v) :: putEntry key value rest

/-- The value under a metadata key. -/
def metadata? (s : Store) (key : String) : Option String :=
  (s.metadata.find? (·.1 == key)).map (·.2)

/-- The store with a value under a metadata key. -/
def putMetadata (s : Store) (key value : String) : Store :=
  { s with metadata := putEntry key value s.metadata }

/-- The store with the time of its last change. -/
def touch (s : Store) : Store :=
  s.putMetadata "db_updated_at" s.clock

/-- The metadata in the order of their keys. -/
def metadataList (s : Store) : List (String × String) :=
  s.metadata.mergeSort fun a b => a.1 ≤ b.1

/-- A store in which nothing is kept, not even its version. -/
def blank (clock : String) : Store :=
  ⟨clock, [], [], [], [], [], [], [], ⟨0, 0, 0, 0⟩⟩

/-- The store as it is used: a new one gets its version and times, and the version of any other has to
    be the present one. -/
def opened (s : Store) : Except StoreError Store :=
  match s.metadata? "schema_version_major", s.metadata? "schema_version_minor" with
  | none, none =>
    .ok <| (((s.putMetadata "schema_version_major" (toString schemaVersion.1)).putMetadata
      "schema_version_minor" (toString schemaVersion.2)).putMetadata
        "db_created_at" s.clock).putMetadata "db_updated_at" s.clock
  | major, minor =>
    let found := major.getD "" ++ "." ++ minor.getD ""
    if found = schemaVersionText then .ok s
    else .error (.versionMismatch found schemaVersionText)

/-- A new store. -/
def new (clock : String) : Store :=
  (blank clock).opened.toOption.getD (blank clock)

instance : Inhabited Store := ⟨blank ""⟩

/-! ## §2 Finding -/

/-- The canonical form of a written name. -/
def canonical (raw : String) : Except StoreError String :=
  (canonicalName raw).mapError (.invalidName raw)

/-- The benchmark with a canonical name. -/
def benchmark? (s : Store) (name : String) : Option Benchmark :=
  s.benchmarks.find? (·.name == name)

/-- The benchmark with a canonical name, which has to be there. -/
def require (s : Store) (name : String) : Except StoreError Benchmark :=
  match s.benchmark? name with
  | some b => .ok b
  | none => .error (.notFound .benchmark name)

/-- The fields of a benchmark in the order of their positions. -/
def fieldsOf (s : Store) (b : Benchmark) : List Field :=
  (s.fields.filter (·.benchmark == b.id)).mergeSort fun f g => f.position ≤ g.position

/-- The field with a canonical name among the fields of a benchmark. -/
def requireField (b : Benchmark) (fields : List Field) (name : String) : Except StoreError Field :=
  match fields.find? (·.name == name) with
  | some f => .ok f
  | none => .error (.notFound .field s!"{b.name}.{name}")

/-- The indices of a benchmark in the order of their names. -/
def indicesOf (s : Store) (b : Benchmark) : List FieldIndex :=
  (s.indices.filter (·.benchmark == b.id)).mergeSort fun i j => i.name ≤ j.name

/-- The experiments of a benchmark. -/
def experimentsOf (s : Store) (b : Benchmark) : List Experiment :=
  s.experiments.filter (·.benchmark == b.id)

/-- The number of experiments of a benchmark. -/
def countOf (s : Store) (b : Benchmark) : Nat :=
  (s.experimentsOf b).length

/-- The wide table with a name. -/
def table? (s : Store) (name : String) : Option WideTable :=
  s.tables.find? (·.name == name)

/-! ## §3 Names of values -/

/-- Values keyed by canonical field names. Two spellings of one field are refused. -/
def canonicalValues (values : SortedMap String String) :
    Except StoreError (SortedMap String String) :=
  values.entries.foldlM (fun m (name, value) => do
    let field ← canonical name
    if m.contains field then .error (.invalidValue (.givenTwice field name))
    else .ok (m.insert field value)) ∅

end Store

end BenchPlot
