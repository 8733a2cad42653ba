import BenchPlot.Csv.Basic
import BenchPlot.FileTree
import BenchPlot.Name

/-!
# Failures of the store

Everything for which an operation on the store is refused, each cause with the data that its message
shows.
-/

namespace BenchPlot

/-- What the store keeps under names. -/
inductive StoredKind where
  | benchmark
  | field
  | index
  | experiment
  deriving DecidableEq, Repr

/-- The changes that a benchmark with experiments does not allow. -/
inductive SchemaChange where
  | removeField (field : String)
  | changeNumeric (field : String)
  | changeKey (field : String)
  deriving DecidableEq, Repr

/-- How an operation would break the schema of a benchmark. -/
inductive Violation where
  | holdsExperiments (bench : String) (count : Nat)
  | definesFields (bench : String) (count : Nat)
  | keyOnData (field bench : String) (count : Nat)
  | noDefault (field bench : String) (count : Nat)
  | changeOnData (change : SchemaChange) (bench : String) (count : Nat)
  | noKeyField (bench : String)
  | badAutoKey (field : String)
  deriving DecidableEq, Repr

/-- Why a value is refused. -/
inductive Rejection where
  | givenTwice (field spelling : String)
  | badDefault (field text : String)
  | notANumber (field text : String)
  | missingKey (field : String)
  | emptyIndex (index : String)
  | repeatedIndexField (index field : String)
  | zeroChunk
  deriving DecidableEq, Repr

/-- What is wrong with a line of input. -/
inductive LineFault where
  | csv (fault : CsvFault)
  | value (rejection : Rejection)
  | unreadable (fault : FileFault)
  deriving DecidableEq, Repr

/-- Why an operation on the store is refused. -/
inductive StoreError where
  | invalidName (name : String) (fault : NameFault)
  | notFound (kind : StoredKind) (name : String)
  | duplicate (kind : StoredKind) (name : String)
  | violation (cause : Violation)
  | invalidValue (cause : Rejection)
  | data (line : Nat) (fault : LineFault)
  | canceled (committed : Nat)
  | versionMismatch (found expected : String)
  /-- A query or a table name that the query language refuses. -/
  | query
  deriving DecidableEq, Repr

/-! ## §1 Messages -/

/-- The name of a kind in messages. -/
def StoredKind.name : StoredKind → String
  | .benchmark => "benchmark"
  | .field => "field"
  | .index => "index"
  | .experiment => "experiment"

/-- A change as messages tell it. -/
def SchemaChange.text : SchemaChange → String
  | .removeField field => s!"remove field {field}"
  | .changeNumeric field => s!"change is_numeric of field {field}"
  | .changeKey field => s!"change is_key of field {field}"

/-- The message of a violation. -/
def Violation.message : Violation → String
  | .holdsExperiments bench count => s!"benchmark {bench} still holds {count} experiment(s)"
  | .definesFields bench count => s!"benchmark {bench} still defines {count} field(s)"
  | .keyOnData field bench count =>
    s!"cannot add key field {field}: benchmark {bench} holds {count} experiment(s)"
  | .noDefault field bench count =>
    s!"field {field} needs a default value: benchmark {bench} holds {count} experiment(s)"
  | .changeOnData change bench count =>
    s!"cannot {change.text}: benchmark {bench} holds {count} experiment(s)"
  | .noKeyField bench => s!"benchmark {bench} has no key field; experiments cannot be identified"
  | .badAutoKey field => s!"auto-key field {field} must be a text key field"

/-- The message of a rejection. -/
def Rejection.message : Rejection → String
  | .givenTwice field spelling => s!"field {field} is given more than once (as '{spelling}')"
  | .badDefault field text => s!"default for {field}: '{text}' is not a number"
  | .notANumber field text => s!"field {field}: '{text}' is not a number"
  | .missingKey field => s!"key field {field} has no value"
  | .emptyIndex index => s!"index {index} needs at least one field"
  | .repeatedIndexField index field => s!"index {index} lists field {field} twice"
  | .zeroChunk => "chunk size must be at least 1"

/-- The message of a rejected value, as an error of its own. -/
def Rejection.errorMessage (r : Rejection) : String :=
  s!"invalid value: {r.message}"

/-- The message of a bad line. -/
def LineFault.message : LineFault → String
  | .csv fault => fault.message
  | .value rejection => rejection.errorMessage
  | .unreadable fault => fault.message

/-- The message of an error. The query language's own words are not told. -/
def StoreError.message : StoreError → String
  | .invalidName name fault => s!"invalid name '{name}': {fault.message}"
  | .notFound kind name => s!"{kind.name} '{name}' not found"
  | .duplicate kind name => s!"{kind.name} '{name}' already exists"
  | .violation cause => s!"schema violation: {cause.message}"
  | .invalidValue cause => cause.errorMessage
  | .data line fault => s!"data error near input line {line}: {fault.message}"
  | .canceled committed =>
    s!"import canceled; {committed} row(s) from earlier chunks remain committed"
  | .versionMismatch found expected =>
    s!"store schema version {found} does not match supported version {expected}"
  | .query => "<sql>"

end BenchPlot
