import BenchPlot.Command.Importing
import BenchPlot.Command.Report
import BenchPlot.Store.Statements

/-!
# Running commands

What each command does in a workspace and what it prints.

Main definition: `Command.run`.
-/

namespace BenchPlot

/-! ## §1 Benchmarks, fields and indices -/

/-- Runs a command on a benchmark of the store at a path. -/
def BenchCommand.run (path : String) : BenchCommand → Session String
  | .create name description => do
    let _ ← Session.change path (.createBenchmark name) (·.createBenchmark name description)
    pure ""
  | .rename old new => do
    let _ ← Session.change path (.renameBenchmark old) (·.renameBenchmark old new)
    pure ""
  | .remove name => do
    Session.alter path (.removeBenchmark name) (·.removeBenchmark name)
    pure ""
  | .setDescription name description => do
    Session.alter path (.updateBenchmark name) (·.setDescription name description)
    pure ""
  | .list => do
    let store ← Session.openStore path
    let summaries ← Session.ofExcept none .store
      (store.benchmarkList.mapM fun b => store.describe b.name)
    pure (linesText (summaries.map Report.benchmarkLine))
  | .describe name json => do
    let summary ← Session.look path (.describeBenchmark name) (·.describe name)
    pure <| linesText <|
      if json then [(Report.summaryNode summary).pretty] else Report.summaryLines summary

/-- Runs a command on a field of the store at a path. -/
def FieldCommand.run (path : String) : FieldCommand → Session String
  | .add bench field => do
    let _ ← Session.change path (.addField field.name bench) (·.addField bench field)
    pure ""
  | .remove bench name => do
    Session.alter path (.removeField name bench) (·.removeField bench name)
    pure ""
  | .rename bench name new => do
    let _ ← Session.change path (.renameField name bench) (·.renameField bench name new)
    pure ""
  | .setNumeric bench name flag => do
    Session.alter path (.changeType name bench) (·.setNumeric bench name flag)
    pure ""
  | .setKey bench name flag => do
    Session.alter path (.changeKey name bench) (·.setKey bench name flag)
    pure ""
  | .list bench => do
    let fields ← Session.look path (.listFields bench) (·.fieldList bench)
    pure (linesText (fields.map Report.fieldLine))

/-- Runs a command on an index of the store at a path. -/
def IndexCommand.run (path : String) : IndexCommand → Session String
  | .create bench name fields => do
    let _ ← Session.change path (.createIndex name bench) (·.createIndex bench name fields)
    pure ""
  | .drop bench name => do
    Session.alter path (.dropIndex name bench) (·.dropIndex bench name)
    pure ""
  | .list bench => do
    let indices ← Session.look path (.listIndices bench) (·.indexList bench)
    pure (linesText (indices.map Report.indexLine))

/-! ## §2 Experiments -/

/-- Inserts an experiment into the store at a path. -/
def insertExperiment (path bench : String) (written : List String) : Session String := do
  let store ← Session.openStore path
  let values ← Session.pairs "field value" written
  let outcome ← Session.keep path (.insertExperiment bench) (store.insert bench values)
  pure (linesText [Decimal.naturalText outcome.id])

/-- Marks experiments by their numbers, one after the other: where one is refused, those before it stay
    marked. -/
def markEach (path bench : String) (flag : Bool) : List Int → Store → Session Unit
  | [], _ => pure ()
  | id :: rest, store => do
    let store ← Session.ofExcept (some (.updateExperiment id bench)) .store
      (store.setOutlier bench id flag)
    Session.saveStore path store
    markEach path bench flag rest store

/-- Runs a command on the outliers of the store at a path. -/
def OutlierCommand.run (path : String) : OutlierCommand → Session String
  | .mark bench choice flag => do
    let store ← Session.openStore path
    match choice.condition, choice.ids with
    | some condition, _ =>
      let _ ← Session.keep path (.updateOutliers bench) (store.setOutlierWhere bench condition flag)
      pure ""
    | none, [] => Session.fail none .nothingChosen
    | none, ids =>
      markEach path bench flag ids store
      pure ""
  | .list bench => do
    let rows ← Session.look path (.listOutliers bench) (·.selectRows bench ⟨["OUT = 1"], true⟩)
    pure (linesText (rows.map Report.experimentLine))

/-- Deletes experiments of the store at a path. -/
def deleteExperiments (path bench : String) (choice : ExperimentChoice) : Session String := do
  let store ← Session.openStore path
  let activity := Activity.deleteExperiments bench
  match choice.condition, choice.ids with
  | some condition, _ =>
    let _ ← Session.keep path activity (store.deleteWhere bench condition)
    pure ""
  | none, [] => Session.fail none .nothingChosen
  | none, ids =>
    -- All of them in one step, unlike the marks: either all are deleted or none.
    let _ ← Session.keep path activity (store.delete bench ids)
    pure ""

/-! ## §3 All commands -/

/-- Runs a statement on the store at a path. -/
def runStatement (path statement separator : String) : Session String := do
  let result ← Session.change path (.runStatement statement) (·.query statement)
  pure (linesText (Report.resultLines separator result))

/-- Looks whether the file at a path can be opened as a store. There need be no file. -/
def checkStatus (path : String) : Session String := do
  if (← Session.files).contains path then
    let _ ← Session.openStore path
  pure ""

/-- Runs what is asked of the store at a path; the result is what is printed. -/
def Request.run (path : String) : Request → Session String
  | .bench command => command.run path
  | .field command => command.run path
  | .index command => command.run path
  | .insert target values => insertExperiment path target values
  | .importFile request => request.run path
  | .outlier command => command.run path
  | .delete target choice => deleteExperiments path target choice
  | .query statement separator => runStatement path statement separator
  | .plot kind request => request.run kind path
  | .status => checkStatus path

/-- Runs a command. -/
def Command.run (c : Command) : Session String :=
  c.request.run c.store

/-- How a command ends: with what it prints or with a failure. -/
abbrev CommandResult := Except CommandFailure String

/-- The end of a command in a workspace, and the workspace that it leaves. -/
def Command.runIn (c : Command) (w : Workspace) : CommandResult × Workspace :=
  c.run.run w

end BenchPlot
