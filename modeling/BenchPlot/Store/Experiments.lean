import BenchPlot.Store.Schema

/-!
# Experiments

An experiment is inserted as texts under field names. The values of its key fields identify it: a
second insertion of the same key values changes nothing but uses up a number. Experiments are marked as
outliers and deleted by their numbers, or by a condition on their rows.
-/

namespace BenchPlot

/-- The outcome of an insertion: a new experiment, or the one that is there already. -/
inductive InsertOutcome where
  | inserted (id : Nat)
  | existing (id : Nat)
  deriving DecidableEq, Repr

namespace InsertOutcome

/-- The number of the experiment. -/
def id : InsertOutcome → Nat
  | .inserted n | .existing n => n

/-- Whether the experiment is new. -/
def isInserted : InsertOutcome → Bool
  | .inserted _ => true
  | .existing _ => false

end InsertOutcome

/-! ## §1 Values of a new experiment -/

/-- The value of a field among texts under canonical names. A field without a text is nothing, and a
    key field has to be something. -/
def Field.typed (values : SortedMap String String) (f : Field) : Except Rejection Value :=
  let text := (values.find? f.name).getD ""
  match typedValue? f.numeric text with
  | none => .error (.notANumber f.name (Text.trim text))
  | some v => if f.key && v.isNull then .error (.missingKey f.name) else .ok v

/-- The text that identifies an experiment with the given values of its fields. -/
def identityOf (fields : List Field) (values : List Value) : String :=
  identity (((fields.zip values).filter (·.1.key)).map fun p => p.2.display)

namespace Store

/-! ## §2 Insertion -/

/-- The experiment of a benchmark with an identity. -/
def experiment? (s : Store) (b : Benchmark) (identity : String) : Option Experiment :=
  s.experiments.find? fun e => e.benchmark == b.id && e.identity == identity

/-- The store with a new experiment and its row. -/
def addExperiment (s : Store) (b : Benchmark) (fields : List Field) (identity : String)
    (values : List Value) : Store :=
  let id := s.last.experiment + 1
  let cells := (fields.zip values).map fun p => p.1.toColumn.keep p.2
  let s : Store := { s with
    experiments := s.experiments ++ [⟨id, b.id, identity, false, s.clock⟩]
    last := { s.last with experiment := id } }
  s.updateTable b.table fun t => { t with rows := t.rows ++ [⟨b.id, id, false, cells⟩] }

/-- Inserts an experiment from texts under canonical field names. -/
def insertValues (s : Store) (b : Benchmark) (fields : List Field)
    (values : SortedMap String String) : Except Rejection (InsertOutcome × Store) := do
  let typed ← fields.mapM (Field.typed values)
  let identity := identityOf fields typed
  match s.experiment? b identity with
  -- The number is given away before the identity is looked at.
  | some e =>
    pure (.existing e.id, { s with last := { s.last with experiment := s.last.experiment + 1 } })
  | none => pure (.inserted (s.last.experiment + 1), s.addExperiment b fields identity typed)

/-- The fields of a benchmark, which need a key among them before an experiment is inserted. -/
def insertFields (s : Store) (b : Benchmark) : Except StoreError (List Field) :=
  if (s.fieldsOf b).any (·.key) then .ok (s.fieldsOf b)
  else .error (.violation (.noKeyField b.name))

/-- Refuses values under a name that no field has. -/
def requireKnown (b : Benchmark) (fields : List Field) (values : SortedMap String String) :
    Except StoreError Unit :=
  match values.keys.find? fun name => !fields.any (·.name == name) with
  | some unknown => .error (.notFound .field s!"{b.name}.{unknown}")
  | none => .ok ()

/-- Inserts an experiment from texts under written field names. -/
def insert (s : Store) (bench : String) (values : SortedMap String String) :
    Except StoreError (InsertOutcome × Store) := do
  let bench ← canonical bench
  let values ← canonicalValues values
  let b ← s.require bench
  let fields ← s.insertFields b
  requireKnown b fields values
  let (outcome, s) ← (s.insertValues b fields values).mapError .invalidValue
  pure (outcome, if outcome.isInserted then s.touch else s)

/-! ## §3 Questions -/

/-- The number of experiments of a benchmark. -/
def count (s : Store) (bench : String) : Except StoreError Nat := do
  pure (s.countOf (← s.benchmark bench))

/-- The numbers of the experiments of a benchmark. -/
def experimentIds (s : Store) (bench : String) : Except StoreError (List Nat) := do
  pure ((s.experimentsOf (← s.benchmark bench)).map (·.id))

/-- Whether an experiment is an outlier. -/
def isOutlier (s : Store) (bench : String) (id : Int) : Except StoreError Bool := do
  let b ← s.benchmark bench
  match (s.experimentsOf b).find? fun e => (e.id : Int) == id with
  | some e => pure e.outlier
  | none => throw (.notFound .experiment s!"{b.name}#{id}")

/-! ## §4 Outliers and deletion -/

/-- The number of experiments of a benchmark that are listed, with repetitions. -/
def listedCount (s : Store) (b : Benchmark) (ids : List Int) : Nat :=
  ids.countP fun id => (s.experimentsOf b).any fun e => (e.id : Int) == id

/-- The store with the listed experiments of a benchmark marked as outliers or not. -/
def mark (s : Store) (b : Benchmark) (ids : List Int) (flag : Bool) : Store :=
  let s : Store := { s with
    experiments := s.experiments.map fun e =>
      if e.benchmark == b.id && ids.contains (e.id : Int) then { e with outlier := flag } else e }
  s.updateTable b.table fun t => { t with
    rows := t.rows.map fun r =>
      if ids.contains (r.experiment : Int) then { r with outlier := flag } else r }

/-- The store without the listed experiments of a benchmark. -/
def erase (s : Store) (b : Benchmark) (ids : List Int) : Store :=
  let s : Store := { s with
    experiments := s.experiments.filter fun e =>
      !(e.benchmark == b.id && ids.contains (e.id : Int)) }
  s.updateTable b.table fun t => { t with
    rows := t.rows.filter fun r => !ids.contains (r.experiment : Int) }

/-- The number of experiments that are deleted when some are listed; of a repeated number only the
    first counts. -/
def erasedCount (s : Store) (b : Benchmark) (ids : List Int) : Nat :=
  (s.experimentsOf b).countP fun e => ids.contains (e.id : Int)

/-- The numbers of the experiments whose rows satisfy a condition. Without a table there are none, and
    the condition is not looked at. -/
def matchingIds (s : Store) (b : Benchmark) (condition : String) : Except StoreError (List Int) :=
  match s.table? b.table with
  | none => .ok []
  | some t =>
    match (Sql.Selection.parse? condition).bind (Sql.Selection.resolve? t.namesForIds) with
    | none => .error .query
    | some selection => .ok ((selection.apply WideRow.data t.rows).map fun r => (r.experiment : Int))

/-- Marks one experiment as an outlier or not. -/
def setOutlier (s : Store) (bench : String) (id : Int) (flag : Bool) : Except StoreError Store := do
  let b ← s.benchmark bench
  if s.listedCount b [id] = 0 then throw (.notFound .experiment s!"{b.name}#{id}")
  pure (s.mark b [id] flag).touch

/-- Marks the experiments that satisfy a condition as outliers or not, and counts them. -/
def setOutlierWhere (s : Store) (bench condition : String) (flag : Bool) :
    Except StoreError (Nat × Store) := do
  let b ← s.benchmark bench
  let ids ← s.matchingIds b condition
  pure (s.listedCount b ids, (s.mark b ids flag).touch)

/-- Deletes the listed experiments, and counts those that were there. -/
def delete (s : Store) (bench : String) (ids : List Int) : Except StoreError (Nat × Store) := do
  let b ← s.benchmark bench
  pure (s.erasedCount b ids, (s.erase b ids).touch)

/-- Deletes the experiments that satisfy a condition, and counts them. -/
def deleteWhere (s : Store) (bench condition : String) : Except StoreError (Nat × Store) := do
  let b ← s.benchmark bench
  let ids ← s.matchingIds b condition
  pure (s.erasedCount b ids, (s.erase b ids).touch)

end Store

end BenchPlot
