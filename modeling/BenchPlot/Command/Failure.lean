import BenchPlot.Description.Error
import BenchPlot.Layout.Basic
import BenchPlot.Plan.Error

/-!
# Failures of commands

Why a command fails, and what it was doing then. A failure is told as a chain of messages: what was being
done, what went wrong, and what that goes back to.

Main definition: `CommandFailure.chain`.
-/

namespace BenchPlot

/-- What a command was doing. -/
inductive Activity where
  | openStore (path : String)
  | createBenchmark (name : String)
  | renameBenchmark (name : String)
  | removeBenchmark (name : String)
  | updateBenchmark (name : String)
  | describeBenchmark (name : String)
  | addField (field bench : String)
  | removeField (field bench : String)
  | renameField (field bench : String)
  | changeType (field bench : String)
  | changeKey (field bench : String)
  | listFields (bench : String)
  | createIndex (index bench : String)
  | dropIndex (index bench : String)
  | listIndices (bench : String)
  | insertExperiment (bench : String)
  | importInto (bench : String)
  | listOutliers (bench : String)
  | updateExperiment (id : Int) (bench : String)
  | updateOutliers (bench : String)
  | deleteExperiments (bench : String)
  | runStatement (statement : String)
  | readDescription (path : String)
  | openFile (path : String)
  | createFile (path : String)
  | hashFile (path : String)
  | createDirectory (path : String)
  | createManifest (path : String)
  deriving DecidableEq, Repr

/-- What went wrong. -/
inductive CommandCause where
  /-- A text that is no assignment where `what` is given. -/
  | notAPair (what pair : String)
  | badDelimiter (c : Char)
  | nothingChosen
  | file (fault : FileFault)
  | store (error : StoreError)
  | description (error : DescriptionError)
  | plan (error : PlanError)
  | layout (error : LayoutError)

/-- A failure of a command. -/
structure CommandFailure where
  activity : Option Activity
  cause : CommandCause

/-! ## §1 Messages -/

/-- What a command failed to do. -/
def Activity.message : Activity → String
  | .openStore path => s!"failed to open benchmark store {path}"
  | .createBenchmark name => s!"failed to create benchmark {name}"
  | .renameBenchmark name => s!"failed to rename benchmark {name}"
  | .removeBenchmark name => s!"failed to remove benchmark {name}"
  | .updateBenchmark name => s!"failed to update benchmark {name}"
  | .describeBenchmark name => s!"failed to describe benchmark {name}"
  | .addField field bench => s!"failed to add field {field} to {bench}"
  | .removeField field bench => s!"failed to remove field {field} from {bench}"
  | .renameField field bench => s!"failed to rename field {field} of {bench}"
  | .changeType field bench => s!"failed to change type of field {field} of {bench}"
  | .changeKey field bench => s!"failed to change key flag of field {field} of {bench}"
  | .listFields bench => s!"failed to list fields of {bench}"
  | .createIndex index bench => s!"failed to create index {index} on {bench}"
  | .dropIndex index bench => s!"failed to drop index {index} of {bench}"
  | .listIndices bench => s!"failed to list indices of {bench}"
  | .insertExperiment bench => s!"failed to insert experiment into {bench}"
  | .importInto bench => s!"import into {bench} failed"
  | .listOutliers bench => s!"failed to list outliers of {bench}"
  | .updateExperiment id bench => s!"failed to update experiment {Decimal.integerText id} of {bench}"
  | .updateOutliers bench => s!"failed to update outliers of {bench}"
  | .deleteExperiments bench => s!"failed to delete experiments of {bench}"
  | .runStatement statement => s!"failed to run statement: {statement}"
  | .readDescription path => s!"failed to read description {path}"
  | .openFile path => s!"failed to open {path}"
  | .createFile path => s!"failed to create {path}"
  | .hashFile path => s!"failed to read file for hashing: {path}"
  | .createDirectory path => s!"failed to create directory: {path}"
  | .createManifest path => s!"failed to create json file: {path}"

/-- The messages of an error of a plan. An error of a formula or of the store is told once more without
    its place, unless the place is all that is added to words of the query language. -/
def PlanError.chain (e : PlanError) : List String :=
  match e.cause with
  | .formula error => [e.message, error.message]
  | .store .query => [e.message]
  | .store error => [e.message, error.message]
  | _ => [e.message]

/-- The messages of a cause. -/
def CommandCause.chain : CommandCause → List String
  | .notAPair what pair => [pairMessage what pair]
  | .badDelimiter c => [s!"delimiter '{c}' must be a single ASCII character"]
  | .nothingChosen => ["select experiments with --id or --where"]
  | .file fault => [fault.message]
  | .store error => [error.message]
  | .description error => [error.message]
  | .plan error => error.chain
  | .layout error => [error.message]

/-- The messages of a failure. -/
def CommandFailure.chain (f : CommandFailure) : List String :=
  f.activity.toList.map Activity.message ++ f.cause.chain

/-- The path of the file for want of which a description cannot be read. -/
def CommandFailure.missingSource? (f : CommandFailure) : Option String :=
  match f.cause with
  | .description ⟨_, .unreadable path .missing⟩ => some path
  | _ => none

end BenchPlot
