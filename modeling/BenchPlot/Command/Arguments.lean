import BenchPlot.Command.Basic
import BenchPlot.Command.Form

/-!
# Arguments of commands

The form of every command: its options and positional arguments, and the command that they make. The
commands on benchmarks, fields, indices and outliers stand in groups; the option for the store belongs to
the group and stands in front of the command's name.

Main definition: `Command.parse`.
-/

namespace BenchPlot

/-! ## §1 Parts of forms -/

/-- A positional argument that has to be given. -/
def Positional.needed {α τ : Type} (name : String) (r : ValueReader τ) (put : τ → α → α) :
    Positional α :=
  ⟨.once name r put, true⟩

/-- An option with a value. -/
def FormOption.once {α τ : Type} (name : String) (r : ValueReader τ) (put : τ → α → α) :
    FormOption α :=
  .value none (.once name r put)

/-- An option with a value that may be given many times. -/
def FormOption.many {α τ : Type} (name : String) (r : ValueReader τ) (put : τ → α → α) :
    FormOption α :=
  .value none (.many name r put)

/-- The form with the option for the file of the store. -/
def Form.withStore {α : Type} (f : Form α) : Form (String × α) where
  options := .once "db-path" .path (fun v d => (v, d.2)) :: f.options.map lift
  positionals := f.positionals.map fun p => ⟨liftArgument p.argument, p.required⟩
  exclusions := f.exclusions
  start := (defaultStorePath, f.start)
where
  /-- The argument, on the second part of a draft. -/
  liftArgument (a : ValueArgument α) : ValueArgument (String × α) :=
    ⟨a.name, a.repeats, fun s d => (a.take s d.2).map fun v => (d.1, v)⟩
  /-- The option, on the second part of a draft. -/
  lift : FormOption α → FormOption (String × α)
    | .value letter a => .value letter (liftArgument a)
    | .flag name put => .flag name fun d => (d.1, put d.2)
    | .answer letter name fault => .answer letter name fault

/-- A command that is read by a form. -/
def Branch.leaf {α β : Type} (name : String) (f : Form α) (make : α → β) : Branch β :=
  ⟨name, [], fun arguments => (f.read arguments).map make⟩

/-- A group of commands, with the option for the store in front of them. -/
def Branch.group {β : Type} (name : String) (branches : List (Branch β)) (make : β → Request) :
    Branch Command where
  name := name
  inner := branches.map Branch.name ++ ["help"]
  read arguments :=
    let f : Form Unit := ⟨[], [], [], ()⟩
    (f.withStore.readBranches branches arguments).map fun r => ⟨r.1.1, make r.2⟩

/-- A command with the option for the store. -/
def Branch.single {α : Type} (name : String) (f : Form α) (make : α → Request) : Branch Command :=
  .leaf name f.withStore fun d => ⟨d.1, make d.2⟩

/-! ## §2 Benchmarks, fields and indices -/

/-- What may be written for a command on a benchmark. -/
structure BenchDraft where
  name : String
  new : String
  description : Option String
  json : Bool

namespace BenchDraft

/-- The form of a command on a benchmark. -/
def form (options : List (FormOption BenchDraft)) (positionals : List (Positional BenchDraft)) :
    Form BenchDraft :=
  ⟨options, positionals, [], ⟨"", "", none, false⟩⟩

/-- The name of the benchmark. -/
def nameArgument : Positional BenchDraft := .needed "name" .text fun v d => { d with name := v }

/-- The new name of the benchmark. -/
def newArgument : Positional BenchDraft := .needed "new" .text fun v d => { d with new := v }

/-- The description of the benchmark. -/
def descriptionArgument : ValueArgument BenchDraft :=
  .once "description" .text fun v d => { d with description := some v }

/-- The commands on benchmarks. -/
def branches : List (Branch BenchCommand) :=
  [.leaf "create" (form [.value none descriptionArgument] [nameArgument]) fun d => .create d.name d.description,
   .leaf "rename" (form [] [nameArgument, newArgument]) fun d => .rename d.name d.new,
   .leaf "remove" (form [] [nameArgument]) fun d => .remove d.name,
   .leaf "set-description" (form [] [nameArgument, ⟨descriptionArgument, false⟩])
     fun d => .setDescription d.name d.description,
   .leaf "list" (form [] []) fun _ => .list,
   .leaf "describe" (form [.flag "json" fun d => { d with json := true }] [nameArgument])
     fun d => .describe d.name d.json]

end BenchDraft

/-- What may be written for a command on a field. -/
structure FieldDraft where
  bench : String
  name : String
  new : String
  numeric : Bool
  key : Bool
  default : Option String

namespace FieldDraft

/-- The form of a command on a field. -/
def form (options : List (FormOption FieldDraft)) (positionals : List (Positional FieldDraft)) :
    Form FieldDraft :=
  ⟨options, positionals, [], ⟨"", "", "", true, false, none⟩⟩

/-- The benchmark. -/
def benchArgument : Positional FieldDraft := .needed "bench" .text fun v d => { d with bench := v }

/-- The name of the field. -/
def nameArgument : Positional FieldDraft := .needed "name" .text fun v d => { d with name := v }

/-- Whether the field is numeric, by the name of its type. -/
def typeArgument : ValueArgument FieldDraft :=
  .once "type" (.choice [("numeric", true), ("text", false)]) fun v d => { d with numeric := v }

/-- The commands on fields. -/
def branches : List (Branch FieldCommand) :=
  [.leaf "add"
     (form [.value none typeArgument, .flag "key" fun d => { d with key := true },
       .once "default" .text fun v d => { d with default := some v }] [benchArgument, nameArgument])
     fun d => .add d.bench ⟨d.name, d.numeric, d.key, d.default⟩,
   .leaf "remove" (form [] [benchArgument, nameArgument]) fun d => .remove d.bench d.name,
   .leaf "rename"
     (form [] [benchArgument, nameArgument, .needed "new-name" .text fun v d => { d with new := v }])
     fun d => .rename d.bench d.name d.new,
   .leaf "set-type" (form [] [benchArgument, nameArgument, ⟨typeArgument, true⟩])
     fun d => .setNumeric d.bench d.name d.numeric,
   .leaf "set-key"
     (form [] [benchArgument, nameArgument, .needed "key" (.choice [("true", true), ("false", false)])
       fun v d => { d with key := v }])
     fun d => .setKey d.bench d.name d.key,
   .leaf "list" (form [] [benchArgument]) fun d => .list d.bench]

end FieldDraft

/-- What may be written for a command on an index. -/
structure IndexDraft where
  bench : String
  name : String
  fields : List String

namespace IndexDraft

/-- The form of a command on an index. -/
def form (positionals : List (Positional IndexDraft)) : Form IndexDraft :=
  ⟨[], positionals, [], ⟨"", "", []⟩⟩

/-- The benchmark. -/
def benchArgument : Positional IndexDraft := .needed "bench" .text fun v d => { d with bench := v }

/-- The name of the index. -/
def nameArgument : Positional IndexDraft := .needed "name" .text fun v d => { d with name := v }

/-- The fields of the index. -/
def fieldsArgument : Positional IndexDraft :=
  ⟨.many "fields" .text fun v d => { d with fields := d.fields ++ [v] }, true⟩

/-- The commands on indices. -/
def branches : List (Branch IndexCommand) :=
  [.leaf "create" (form [benchArgument, nameArgument, fieldsArgument]) fun d => .create d.bench d.name d.fields,
   .leaf "drop" (form [benchArgument, nameArgument]) fun d => .drop d.bench d.name,
   .leaf "list" (form [benchArgument]) fun d => .list d.bench]

end IndexDraft

/-! ## §3 Experiments -/

/-- What may be written for a command on experiments. -/
structure ExperimentDraft where
  bench : String
  values : List String
  choice : ExperimentChoice

namespace ExperimentDraft

/-- A draft in which nothing is written. -/
def blank : ExperimentDraft := ⟨"", [], ⟨[], none⟩⟩

/-- The benchmark. -/
def benchArgument : Positional ExperimentDraft := .needed "bench" .text fun v d => { d with bench := v }

/-- The form that chooses experiments by their numbers or by a condition, not by both. -/
def choiceForm : Form ExperimentDraft where
  options :=
    [.many "id" .integer fun v d => { d with choice.ids := d.choice.ids ++ [v] },
     .once "where" .text fun v d => { d with choice.condition := some v }]
  positionals := [benchArgument]
  exclusions := [("where", "id")]
  start := blank

/-- The form of the values of an experiment. -/
def valuesForm : Form ExperimentDraft where
  options := []
  positionals :=
    [benchArgument, ⟨.many "values" .text fun v d => { d with values := d.values ++ [v] }, true⟩]
  exclusions := []
  start := blank

/-- The commands on outliers. -/
def outlierBranches : List (Branch OutlierCommand) :=
  [.leaf "set" choiceForm fun d => .mark d.bench d.choice true,
   .leaf "clear" choiceForm fun d => .mark d.bench d.choice false,
   .leaf "show" ⟨[], [benchArgument], [], blank⟩ fun d => .list d.bench]

end ExperimentDraft

/-- The form of an import. -/
def ImportRequest.form : Form ImportRequest where
  options :=
    [.once "chunk-size" .natural fun v d => { d with chunkSize := v },
     .once "delimiter" .character fun v d => { d with delimiter := v },
     .once "auto-key" .text fun v d => { d with autoKey := some v },
     .many "set" .text fun v d => { d with fixed := d.fixed ++ [v] },
     .once "manifest-path" .path fun v d => { d with manifest := some v }]
  positionals :=
    [.needed "bench" .text fun v d => { d with bench := v },
     .needed "csv-path" .path fun v d => { d with source := v }]
  exclusions := []
  start := ⟨"", "", 500, ',', none, [], none⟩

/-! ## §4 Queries and plots -/

/-- The form of a query: a statement and the separator of its output. -/
def queryForm : Form (String × String) where
  options := [.once "separator" .text fun v d => (d.1, v)]
  positionals := [.needed "statement" .text fun v d => (v, d.2)]
  exclusions := []
  start := ("", "|")

/-- The form of a plot. -/
def PlotRequest.form : Form PlotRequest where
  options :=
    [.value (some 'D') (.many "define" .text fun v d => { d with defines := d.defines ++ [v] }),
     .once "output" .path fun v d => { d with output := some v },
     .once "separator" .text fun v d => { d with separator := v },
     .flag "bounds" fun d => { d with bounds := true },
     .flag "compact" fun d => { d with compact := true },
     .once "terminal" .text fun v d => { d with terminal := some v },
     .once "plot-output" .text fun v d => { d with plotOutput := some v }]
  positionals := [.needed "description" .path fun v d => { d with description := v }]
  exclusions := []
  start := ⟨"", [], none, ":", false, false, none, none⟩

/-! ## §5 All commands -/

namespace Command

/-- The commands by their names. -/
def branches : List (Branch Command) :=
  [.group "bench" BenchDraft.branches .bench,
   .group "field" FieldDraft.branches .field,
   .group "index" IndexDraft.branches .index,
   .single "insert" ExperimentDraft.valuesForm fun d => .insert d.bench d.values,
   .single "import" ImportRequest.form .importFile,
   .group "outlier" ExperimentDraft.outlierBranches .outlier,
   .single "delete" ExperimentDraft.choiceForm fun d => .delete d.bench d.choice,
   .single "sql" queryForm fun d => .query d.1 d.2,
   .single "graph" PlotRequest.form (.plot .script),
   .single "data" PlotRequest.form (.plot .listing),
   .single "xmlplot" PlotRequest.form (.plot .xml),
   .single "status" ⟨[], [], [], ()⟩ fun _ => .status]

/-- The form in front of the commands. -/
def rootForm : Form Unit :=
  ⟨[.answer 'V' "version" .version], [], [], ()⟩

/-- The name of the program. -/
def programName : String := "benchrepo"

/-- The name and the version of the program. -/
def versionLine : String := programName ++ " 0.1.0"

/-- How the program is used, in lines. -/
def usageLines : List String :=
  [s!"Usage: {programName} <COMMAND>", "", "Commands:"] ++ branches.map ("  " ++ ·.name)

/-- The command that arguments are. -/
def parse (arguments : List String) : Except UsageFault Command :=
  (rootForm.readBranches branches arguments).map (·.2)

end Command

end BenchPlot
