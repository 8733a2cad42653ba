import BenchPlot.Command.Basic
import BenchPlot.Command.Session
import BenchPlot.Description.Document
import BenchPlot.Layout.Graph
import BenchPlot.Output.PlotXml
import BenchPlot.Output.Script
import BenchPlot.Plan.Binding
import BenchPlot.Plan.Building

/-!
# Plotting

From a description to a written plot: the description is read and becomes a plan, the plan is bound to the
store, and what it gives is laid out and written. The store is opened only when there is a plan.

Main definition: `PlotRequest.run`.
-/

namespace BenchPlot

/-- The assignments that are given for something, by their names. Of several for one name the last
    counts. -/
def Session.pairs (what : String) (written : List String) : Session (SortedMap String String) :=
  Session.ofExcept none (.notAPair what) ((parsePairs written).map SortedMap.ofList)

namespace PlotRequest

/-- The indentation of elements, where they are indented. -/
def indentation : Nat := 2

/-- The title of a plot without one. -/
def defaultTitle : String := "benchrepo"

/-- The written form of a layout. -/
def written (r : PlotRequest) (l : Layout Float) : PlotKind → String
  | .script => l.script ⟨r.terminal, r.plotOutput⟩
  | .listing => l.listing ⟨r.separator, r.bounds⟩
  | .xml => l.plotXml ⟨if r.compact then none else some indentation, defaultTitle⟩

/-- The plan of the description, and the scope that it is evaluated in. -/
def plan (r : PlotRequest) : Session (Plan × Scope) := do
  let defines ← Session.pairs "define" r.defines
  let scope := Scope.new defines (← Session.environment)
  let sources := SourceFiles.ofTree (← Session.files) Text.decode?
  let document ← Session.ofExcept (some (.readDescription r.description)) .description
    (Document.parseFile sources scope r.description)
  Session.ofExcept none .plan (Plan.ofDocument scope document)

/-- Plots a description with the store in the file at a path; the result is what is printed. -/
def run (r : PlotRequest) (kind : PlotKind) (path : String) : Session String := do
  let (plan, scope) ← r.plan
  let store ← Session.openStore path
  let bound ← Session.ofExcept none .plan (plan.bind store scope)
  let layout ← Session.ofExcept none .layout (Layout.ofBound plan.title scope.styles bound)
  let text := r.written layout kind
  match r.output with
  | none => pure text
  | some file =>
    Session.writeText (.createFile file) file text
    pure ""

end PlotRequest

end BenchPlot
