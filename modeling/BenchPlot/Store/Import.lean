import BenchPlot.Digest.Sha256
import BenchPlot.Store.Experiments

/-!
# Importing experiments

Separated values are read record by record, the first record naming the fields. Each record becomes an
experiment; the experiments are committed in chunks of a set size. Where the import stops, by a fault of
the input or because it is asked to, the open chunk is given up and the chunks before it stay.

A column that names no field is passed over. Fixed values count for every record, whatever its columns
say. A key field may be filled with a digest of the other values of the record; it is made beforehand if
it is not there, and that stays also where the import is refused afterwards.

Main definition: `Store.importCsv`.
-/

namespace BenchPlot

/-- How experiments are imported. -/
structure ImportOptions where
  chunkSize : Nat
  delimiter : UInt8
  fixed : SortedMap String String
  autoKey : Option String

/-- What an import that came to its end did. -/
structure ImportSummary where
  rowsRead : Nat
  inserted : Nat
  existing : Nat
  chunksCommitted : Nat
  skippedColumns : List String
  deriving DecidableEq, Repr

/-- An import that came to its end or stopped: the store behind it, the line of each row that was
    inserted, the number of committed rows behind each chunk, and the outcome. -/
structure ImportRun where
  store : Store
  lines : List Nat
  totals : List Nat
  outcome : Except StoreError ImportSummary

/-- What is settled before the first record: where the rows go, which field each column names, and what
    is added to each record. -/
structure ImportPlan where
  benchmark : Benchmark
  fields : List Field
  columns : List (Option String)
  fixed : SortedMap String String
  autoKey : Option String

/-! ## §1 Rows -/

/-- The digest that identifies a record by its values: the first sixteen digits. -/
def contentKey (values : SortedMap String String) : String :=
  let text := values.entries.flatMap fun (name, value) =>
    name.toList ++ '=' :: (Text.trim value).toList ++ ['\n']
  String.ofList ((Sha256.digestText (Text.encode (String.ofList text))).toList.take 16)

/-- The values of a record by the fields that its columns name. -/
def ImportPlan.valuesOf (p : ImportPlan) (record : List String) : SortedMap String String :=
  let named := SortedMap.ofList ((p.columns.zip record).filterMap fun (column, value) =>
    column.map fun name => (name, value))
  -- Fixed values win over those of the columns, and the digest is taken of both.
  let values := named.union p.fixed
  match p.autoKey with
  | none => values
  | some name => values.insert name (contentKey values)

/-! ## §2 Progress -/

/-- How far an import has come: the store up to the last commit, the store with the open chunk, what the
    open chunk holds, and what was committed. -/
structure ImportProgress where
  committed : Store
  current : Store
  openInserted : Nat
  openExisting : Nat
  inserted : Nat
  existing : Nat
  lines : List Nat
  totals : List Nat

namespace ImportProgress

/-- An import before its first record. -/
def start (s : Store) : ImportProgress :=
  ⟨s, s, 0, 0, 0, 0, [], []⟩

/-- The number of rows of the open chunk. -/
def openRows (p : ImportProgress) : Nat :=
  p.openInserted + p.openExisting

/-- The number of rows of the chunks that were committed. -/
def committedRows (p : ImportProgress) : Nat :=
  p.inserted + p.existing

/-- The progress behind a further row of the open chunk. -/
def addRow (p : ImportProgress) (line : Nat) (outcome : InsertOutcome) (s : Store) :
    ImportProgress :=
  { p with
    current := s
    openInserted := p.openInserted + if outcome.isInserted then 1 else 0
    openExisting := p.openExisting + if outcome.isInserted then 0 else 1
    lines := p.lines ++ [line] }

/-- The progress with the open chunk committed. -/
def commit (p : ImportProgress) : ImportProgress :=
  let s := p.current.touch
  { p with
    committed := s
    current := s
    openInserted := 0
    openExisting := 0
    inserted := p.inserted + p.openInserted
    existing := p.existing + p.openExisting
    totals := p.totals ++ [p.committedRows + p.openRows] }

/-- The progress with the open chunk committed if it has the full size. -/
def commitIfFull (p : ImportProgress) (size : Nat) : ImportProgress :=
  if size ≤ p.openRows then p.commit else p

/-- The progress at the end of the input. -/
def finish (p : ImportProgress) : ImportProgress :=
  if p.openRows = 0 then p else p.commit

end ImportProgress

/-- The progress behind a record, or why the import stops there. -/
def ImportPlan.step (plan : ImportPlan) (size : Nat) (stop : Nat → Bool) (p : ImportProgress)
    (record : Except CsvFault CsvRecord) : Except StoreError ImportProgress :=
  -- The question is put before the record is looked at, so that a fault in it does not count.
  if stop p.lines.length then .error (.canceled p.committedRows)
  else
    match record with
    | .error fault => .error (.data fault.position.line (.csv fault))
    | .ok record =>
      match p.current.insertValues plan.benchmark plan.fields (plan.valuesOf record.fields) with
      | .error rejection => .error (.data record.position.line (.value rejection))
      | .ok (outcome, s) => .ok ((p.addRow record.position.line outcome s).commitIfFull size)

/-- The progress behind all records, or behind those before the one where the import stops. -/
def ImportPlan.run (plan : ImportPlan) (size : Nat) (stop : Nat → Bool) (p : ImportProgress) :
    List (Except CsvFault CsvRecord) → ImportProgress × Option StoreError
  | [] => (p.finish, none)
  | record :: rest =>
    match plan.step size stop p record with
    | .ok next => plan.run size stop next rest
    | .error e => (p, some e)

namespace Store

/-! ## §3 Before the first record -/

/-- The key field that is filled with digests, and the store with it. The benchmark is made if it is not
    there, also where the field is refused. -/
def ensureAutoKey (s : Store) (bench name : String) : Except StoreError String × Store :=
  match canonical name with
  | .error e => (.error e, s)
  | .ok name =>
    let (b, s) := s.ensure bench
    -- A field of that name has to be able to hold a digest.
    match (s.fieldsOf b).find? (·.name == name) with
    | some f =>
      if f.key && !f.numeric then (.ok f.name, s) else (.error (.violation (.badAutoKey f.name)), s)
    | none =>
      match s.addField bench ⟨name, false, true, none⟩ with
      | .ok (f, s) => (.ok f.name, s)
      | .error e => (.error e, s)

/-- The key field that is filled with digests, if one is asked for, and the store with it. -/
def prepareAutoKey (s : Store) (bench : String) :
    Option String → Except StoreError (Option String) × Store
  | none => (.ok none, s)
  | some name =>
    let (result, s) := s.ensureAutoKey bench name
    (result.map some, s)

/-- The field that a column names, if it names one that is not filled otherwise. -/
def importColumn? (fields : List Field) (autoKey : Option String) (header : String) : Option String :=
  match canonicalName header with
  | .error _ => none
  | .ok name =>
    if fields.any (·.name == name) && autoKey != some name then some name else none

/-- What is settled before the first record, the columns that are passed over, and the reader behind
    the first record. -/
def importPlan (s : Store) (bench : String) (bytes : List UInt8) (o : ImportOptions)
    (autoKey : Option String) : Except StoreError (ImportPlan × List String × CsvReader) := do
  let b ← s.require bench
  let fields ← s.insertFields b
  let fixed ← canonicalValues o.fixed
  requireKnown b fields fixed
  match (CsvReader.new o.delimiter bytes).header with
  | .error fault => throw (.data 1 (.csv fault))
  | .ok (headers, reader) =>
    let column := importColumn? fields autoKey
    pure (⟨b, fields, headers.map column, fixed, autoKey⟩,
      headers.filter fun h => (column h).isNone, reader)

/-! ## §4 The import -/

/-- The run of an import with a plan. -/
def runImport (s : Store) (o : ImportOptions) (stop : Nat → Bool) (plan : ImportPlan)
    (skipped : List String) (reader : CsvReader) : ImportRun :=
  let (p, error) := plan.run o.chunkSize stop (.start s) reader.records
  let outcome :=
    match error with
    | some e => .error e
    | none => .ok ⟨p.lines.length, p.inserted, p.existing, p.totals.length, skipped⟩
  ⟨p.committed, p.lines, p.totals, outcome⟩

/-- Imports separated values into a benchmark. Before each record, `stop` is asked, with the number of
    rows so far, whether to go no further. -/
def importCsv (s : Store) (bench : String) (bytes : List UInt8) (o : ImportOptions)
    (stop : Nat → Bool) : ImportRun :=
  let refused (e : StoreError) (s : Store) : ImportRun := ⟨s, [], [], .error e⟩
  if o.chunkSize = 0 then refused (.invalidValue .zeroChunk) s
  else
    match canonical bench with
    | .error e => refused e s
    | .ok bench =>
      match s.prepareAutoKey bench o.autoKey with
      | (.error e, s) => refused e s
      | (.ok autoKey, s) =>
        match s.importPlan bench bytes o autoKey with
        | .error e => refused e s
        | .ok (plan, skipped, reader) => s.runImport o stop plan skipped reader

end Store

end BenchPlot
