import BenchPlot.Store.WideTable

/-!
# Benchmarks, fields and indices

The operations that define what is kept. Each one takes written names, checks everything before it
changes anything, and gives the changed store; where it fails, nothing has changed.

A benchmark comes into being when it is first mentioned by a field. With experiments in a benchmark
only a further field may be added that is no key and has a default.
-/

namespace BenchPlot

/-- A field to be added. The default goes into all rows that are there already. -/
structure NewField where
  name : String
  numeric : Bool
  key : Bool
  default : Option String
  deriving DecidableEq, Repr

/-- What is known about a benchmark. -/
structure BenchmarkSummary where
  benchmark : Benchmark
  fields : List Field
  indices : List FieldIndex
  experiments : Nat
  outliers : Nat

/-- The value that a text stands for in a field; a blank text is nothing. There is none if the field
    is numeric and the text is no number. -/
def typedValue? (numeric : Bool) (text : String) : Option Value :=
  let trimmed := Text.trim text
  if trimmed.isEmpty then some .null
  else if numeric then (readNumber? trimmed).map .number
  else some (.text trimmed)

namespace Store

/-! ## §1 Benchmarks -/

/-- The store with a new benchmark under a canonical name. -/
def insertBenchmark (s : Store) (name : String) (description : Option String) : Benchmark × Store :=
  let b : Benchmark := ⟨s.last.benchmark + 1, name, description⟩
  (b, { s with benchmarks := s.benchmarks ++ [b], last := { s.last with benchmark := b.id } })

/-- Makes a benchmark. -/
def createBenchmark (s : Store) (name : String) (description : Option String) :
    Except StoreError (Benchmark × Store) := do
  let name ← canonical name
  if (s.benchmark? name).isSome then throw (.duplicate .benchmark name)
  let (b, s) := s.insertBenchmark name description
  pure (b, s.touch)

/-- The benchmark with a canonical name, which is made if it is not there. -/
def ensure (s : Store) (name : String) : Benchmark × Store :=
  match s.benchmark? name with
  | some b => (b, s)
  | none => s.insertBenchmark name none

/-- The benchmark with a name, which is made if it is not there. -/
def ensureBenchmark (s : Store) (name : String) : Except StoreError (Benchmark × Store) := do
  pure (s.ensure (← canonical name))

/-- The benchmark with a name. -/
def benchmark (s : Store) (name : String) : Except StoreError Benchmark := do
  s.require (← canonical name)

/-- The benchmark with a name, if there is one. -/
def findBenchmark (s : Store) (name : String) : Except StoreError (Option Benchmark) := do
  pure (s.benchmark? (← canonical name))

/-- All benchmarks in the order of their names. -/
def benchmarkList (s : Store) : List Benchmark :=
  s.benchmarks.mergeSort fun a b => a.name ≤ b.name

/-- The store with a benchmark in place of the one with the same number. -/
def putBenchmark (s : Store) (b : Benchmark) : Store :=
  { s with benchmarks := s.benchmarks.map fun c => if c.id == b.id then b else c }

/-- Gives a benchmark another name. Its table and indices follow. -/
def renameBenchmark (s : Store) (old new : String) : Except StoreError (Benchmark × Store) := do
  let old ← canonical old
  let new ← canonical new
  let b ← s.require old
  if old = new then return (b, s)
  if (s.benchmark? new).isSome then throw (.duplicate .benchmark new)
  let renamed := { b with name := new }
  let s ← (s.putBenchmark renamed).renameTable b renamed
  pure (renamed, s.touch)

/-- Gives a benchmark another description, or none. -/
def setDescription (s : Store) (name : String) (description : Option String) :
    Except StoreError Store := do
  let b ← s.benchmark name
  pure (s.putBenchmark { b with description := description }).touch

/-- Removes a benchmark without experiments and fields. -/
def removeBenchmark (s : Store) (name : String) : Except StoreError Store := do
  let b ← s.benchmark name
  if s.countOf b ≠ 0 then throw (.violation (.holdsExperiments b.name (s.countOf b)))
  if !(s.fieldsOf b).isEmpty then throw (.violation (.definesFields b.name (s.fieldsOf b).length))
  let s := s.dropTable b.table
  pure { s with
    indices := s.indices.filter (·.benchmark != b.id)
    benchmarks := s.benchmarks.filter (·.id != b.id) }.touch

/-- What is known about a benchmark. -/
def describe (s : Store) (name : String) : Except StoreError BenchmarkSummary := do
  let b ← s.benchmark name
  pure ⟨b, s.fieldsOf b, s.indicesOf b, s.countOf b, (s.experimentsOf b).countP (·.outlier)⟩

/-! ## §2 Fields -/

/-- The value of the default of a new field; nothing if it has no default. -/
def defaultValue (name : String) (f : NewField) : Except StoreError Value :=
  match f.default with
  | none => .ok .null
  | some text =>
    match typedValue? f.numeric text with
    | some v => .ok v
    | none => .error (.invalidValue (.badDefault name (Text.trim text)))

/-- Adds a field to a benchmark, which is made if it is not there. -/
def addField (s : Store) (bench : String) (f : NewField) : Except StoreError (Field × Store) := do
  let bench ← canonical bench
  let name ← canonical f.name
  -- The default is read before the benchmark is made, so that a bad one changes nothing.
  let default ← defaultValue name f
  let (b, s) := s.ensure bench
  let previous := s.fieldsOf b
  if previous.any (·.name == name) then throw (.duplicate .field s!"{b.name}.{name}")
  let count := s.countOf b
  if count ≠ 0 && f.key then throw (.violation (.keyOnData name b.name count))
  if count ≠ 0 && default.isNull then throw (.violation (.noDefault name b.name count))
  let position := (previous.map (·.position)).foldl max 0 + 1
  let field : Field := ⟨s.last.field + 1, b.id, name, f.numeric, f.key, position⟩
  let s := { s with fields := s.fields ++ [field], last := { s.last with field := field.id } }
  let s ← s.rebuild b previous (previous ++ [field])
  let s := if default.isNull then s else s.updateTable b.table (·.fill field.column default)
  pure (field, s.touch)

/-- Refuses a change of a benchmark that has experiments. -/
def requireNoData (s : Store) (b : Benchmark) (change : SchemaChange) : Except StoreError Unit :=
  if s.countOf b = 0 then .ok () else .error (.violation (.changeOnData change b.name (s.countOf b)))

/-- Removes a field from a benchmark without experiments, and every index over it. -/
def removeField (s : Store) (bench field : String) : Except StoreError Store := do
  let bench ← canonical bench
  let field ← canonical field
  let b ← s.require bench
  s.requireNoData b (.removeField field)
  let previous := s.fieldsOf b
  let removed ← requireField b previous field
  let s : Store := { s with
    indices := s.indices.filter fun i => !(i.benchmark == b.id && i.fields.contains removed.name)
    fields := s.fields.filter (·.id != removed.id) }
  let s ← s.rebuild b previous (previous.filter (·.id != removed.id))
  pure s.touch

/-- The store with a field in place of the one with the same number. -/
def putField (s : Store) (f : Field) : Store :=
  { s with fields := s.fields.map fun g => if g.id == f.id then f else g }

/-- The store with another name for a field in the indices of a benchmark. -/
def renameInIndices (s : Store) (b : Benchmark) (old new : String) : Store :=
  { s with
    indices := s.indices.map fun i =>
      if i.benchmark == b.id then
        { i with fields := i.fields.map fun f => if f == old then new else f }
      else i }

/-- Gives a field another name. Its values and the indices over it follow. -/
def renameField (s : Store) (bench field new : String) : Except StoreError (Field × Store) := do
  let bench ← canonical bench
  let field ← canonical field
  let new ← canonical new
  let b ← s.require bench
  let previous := s.fieldsOf b
  let target ← requireField b previous field
  if target.name = new then return (target, s)
  if previous.any (·.name == new) then throw (.duplicate .field s!"{b.name}.{new}")
  let renamed := { target with name := new }
  let s := (s.putField renamed).renameInIndices b target.name new
  let s ← s.rebuild b previous (s.fieldsOf b)
  pure (renamed, s.touch)

/-- Makes a field numeric or not, in a benchmark without experiments. -/
def setNumeric (s : Store) (bench field : String) (flag : Bool) : Except StoreError Store := do
  let bench ← canonical bench
  let field ← canonical field
  let b ← s.require bench
  let previous := s.fieldsOf b
  let target ← requireField b previous field
  if target.numeric = flag then return s
  s.requireNoData b (.changeNumeric field)
  let s := s.putField { target with numeric := flag }
  let s ← s.rebuild b previous (s.fieldsOf b)
  pure s.touch

/-- Makes a field a key or not, in a benchmark without experiments. -/
def setKey (s : Store) (bench field : String) (flag : Bool) : Except StoreError Store := do
  let bench ← canonical bench
  let field ← canonical field
  let b ← s.require bench
  let target ← requireField b (s.fieldsOf b) field
  if target.key = flag then return s
  s.requireNoData b (.changeKey field)
  pure (s.putField { target with key := flag }).touch

/-- The fields of the benchmark with a name. -/
def fieldList (s : Store) (bench : String) : Except StoreError (List Field) := do
  pure (s.fieldsOf (← s.benchmark bench))

/-- The field with a name. -/
def field (s : Store) (bench name : String) : Except StoreError Field := do
  let b ← s.benchmark bench
  requireField b (s.fieldsOf b) (← canonical name)

/-! ## §3 Indices -/

/-- The fields that an index names, each of which has to be there, once. -/
def indexFields (b : Benchmark) (known : List Field) (index : String) (written : List String) :
    Except StoreError (List String) :=
  written.foldlM (fun names text => do
    let field ← requireField b known (← canonical text)
    if names.contains field.name then throw (.invalidValue (.repeatedIndexField index field.name))
    pure (names ++ [field.name])) []

/-- Makes an index of a benchmark. -/
def createIndex (s : Store) (bench name : String) (fields : List String) :
    Except StoreError (FieldIndex × Store) := do
  let bench ← canonical bench
  let name ← canonical name
  if fields.isEmpty then throw (.invalidValue (.emptyIndex name))
  let b ← s.require bench
  let names ← indexFields b (s.fieldsOf b) name fields
  if (s.indicesOf b).any (·.name == name) then throw (.duplicate .index s!"{b.name}.{name}")
  let index : FieldIndex := ⟨s.last.index + 1, b.id, name, names⟩
  let s := { s with indices := s.indices ++ [index], last := { s.last with index := index.id } }
  pure (index, (s.makePhysicalIndex b index).touch)

/-- Removes an index of a benchmark, and the physical index of its name. -/
def dropIndex (s : Store) (bench name : String) : Except StoreError Store := do
  let bench ← canonical bench
  let name ← canonical name
  let b ← s.require bench
  if !(s.indicesOf b).any (·.name == name) then throw (.notFound .index s!"{b.name}.{name}")
  let s := { s with indices := s.indices.filter fun i => !(i.benchmark == b.id && i.name == name) }
  pure (s.dropPhysicalIndex (physicalIndexName b.name name)).touch

/-- The indices of the benchmark with a name. -/
def indexList (s : Store) (bench : String) : Except StoreError (List FieldIndex) := do
  pure (s.indicesOf (← s.benchmark bench))

end Store

end BenchPlot
