import BenchPlot.Store.Schema

/-!
# Commands

What can be asked for on the command line: changes of benchmarks, fields and indices, work on experiments,
queries, and the plots of a description in one of three written forms. Every command names the file of the
store that it works on.
-/

namespace BenchPlot

/-- The file of the store where none is named. -/
def defaultStorePath : String := "benchrepo.sqlite"

/-- What is asked for a benchmark. -/
inductive BenchCommand where
  | create (name : String) (description : Option String)
  | rename (old new : String)
  | remove (name : String)
  | setDescription (name : String) (description : Option String)
  | list
  | describe (name : String) (json : Bool)
  deriving DecidableEq, Repr

/-- What is asked for the fields of a benchmark. -/
inductive FieldCommand where
  | add (bench : String) (field : NewField)
  | remove (bench name : String)
  | rename (bench name new : String)
  | setNumeric (bench name : String) (flag : Bool)
  | setKey (bench name : String) (flag : Bool)
  | list (bench : String)
  deriving DecidableEq, Repr

/-- What is asked for the indices of a benchmark. -/
inductive IndexCommand where
  | create (bench name : String) (fields : List String)
  | drop (bench name : String)
  | list (bench : String)
  deriving DecidableEq, Repr

/-- Experiments as they are chosen: by their numbers or by a condition. -/
structure ExperimentChoice where
  ids : List Int
  condition : Option String
  deriving DecidableEq, Repr

/-- What is asked for the outliers of a benchmark. -/
inductive OutlierCommand where
  | mark (bench : String) (choice : ExperimentChoice) (flag : Bool)
  | list (bench : String)
  deriving DecidableEq, Repr

/-- An import of the experiments of a file. -/
structure ImportRequest where
  bench : String
  source : String
  chunkSize : Nat
  delimiter : Char
  autoKey : Option String
  fixed : List String
  manifest : Option String
  deriving DecidableEq, Repr

/-- The written forms of a plot. -/
inductive PlotKind where
  | script
  | listing
  | xml
  deriving DecidableEq, Repr

/-- A plot of a description. -/
structure PlotRequest where
  description : String
  defines : List String
  output : Option String
  separator : String
  bounds : Bool
  compact : Bool
  terminal : Option String
  plotOutput : Option String
  deriving DecidableEq, Repr

/-- What is asked for, without the store. -/
inductive Request where
  | bench (command : BenchCommand)
  | field (command : FieldCommand)
  | index (command : IndexCommand)
  | insert (bench : String) (values : List String)
  | importFile (request : ImportRequest)
  | outlier (command : OutlierCommand)
  | delete (bench : String) (choice : ExperimentChoice)
  | query (statement separator : String)
  | plot (kind : PlotKind) (request : PlotRequest)
  | status
  deriving DecidableEq, Repr

/-- A command: what is asked for, and the file of the store that it is asked of. -/
structure Command where
  store : String
  request : Request
  deriving DecidableEq, Repr

/-- The paths of the files that a request reads or writes. -/
def Request.paths : Request → List String
  | .importFile r => r.source :: r.manifest.toList
  | .plot _ r => r.description :: r.output.toList
  | _ => []

/-- The paths of the files that a command reads or writes, the files that a description includes
    apart. -/
def Command.paths (c : Command) : List String :=
  c.store :: c.request.paths

end BenchPlot
