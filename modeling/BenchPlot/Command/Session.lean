import BenchPlot.Command.Failure
import BenchPlot.FileTree
import BenchPlot.Store.Archive
import BenchPlot.Text.Utf8

/-!
# Sessions

Where commands work: a tree of files, the environment, and the time. A session is a step that may change
the files and may fail; what it changed before it failed stays.

A store is kept in a file. An empty file, or none, is a new store; a file that is not the archive of a
store is refused. Opening a store writes it, so that a new one is there also if nothing is changed in it.
-/

namespace BenchPlot

/-- Where commands work. -/
structure Workspace where
  files : FileTree (List UInt8)
  environment : SortedMap String String
  clock : String

/-- A step in a workspace. -/
abbrev Session (α : Type) := ExceptT CommandFailure (StateM Workspace) α

namespace Session

/-- The step that fails. -/
def fail {α : Type} (activity : Option Activity) (cause : CommandCause) : Session α :=
  throw ⟨activity, cause⟩

/-- The step that has a result or fails, doing nothing. -/
def ofExcept {ε α : Type} (activity : Option Activity) (cause : ε → CommandCause) :
    Except ε α → Session α
  | .ok a => pure a
  | .error e => fail activity (cause e)

/-- The files by now. -/
def files : Session (FileTree (List UInt8)) :=
  fun w => (.ok w.files, w)

/-- The step that leaves other files. -/
def setFiles (t : FileTree (List UInt8)) : Session Unit :=
  fun w => (.ok (), { w with files := t })

/-- The environment. -/
def environment : Session (SortedMap String String) :=
  fun w => (.ok w.environment, w)

/-- The time. -/
def clock : Session String :=
  fun w => (.ok w.clock, w)

/-! ## §1 Files -/

/-- Puts a text into the file at a path. -/
def writeText (activity : Activity) (path text : String) : Session Unit := do
  let t ← files
  setFiles (← ofExcept (some activity) .file (t.write path (Text.encode text)))

/-- Makes a directory and all those that it lies in. The directory without a name is there. -/
def makeDirectory (path : String) : Session Unit := do
  let t ← files
  setFiles
    (← ofExcept (some (.createDirectory path)) .file (t.makeDirectories (t.plainPlace path)))

/-! ## §2 Stores -/

/-- The path of a store that is kept in no file. -/
def memoryPath : String := ":memory:"

/-- The archived store at a place, if it can be one. -/
def archived? (t : FileTree (List UInt8)) (place : List String) (clock : String) : Option Store :=
  -- Places are written from the inside out: the tail of a place is the directory around it.
  match t.node? place, t.node? place.tail with
  | some (.file []), _ => some (.blank clock)
  | some (.file bytes), _ => Store.ofBytes? clock bytes
  | none, some .directory => some (.blank clock)
  | _, _ => none

/-- Keeps a store in the file at a path. -/
def saveStore (path : String) (s : Store) : Session Unit := do
  if path ≠ memoryPath then
    let t ← files
    setFiles (t.put (t.plainPlace path) (.file s.toBytes))

/-- The store in the file at a path. -/
def openStore (path : String) : Session Store := do
  let t ← files
  let clock ← clock
  let activity := some (.openStore path)
  let found := if path = memoryPath then some (.blank clock) else archived? t (t.plainPlace path) clock
  match found with
  | none => fail activity (.store .query)
  | some s =>
    let s ← ofExcept activity .store s.opened
    saveStore path s
    pure s

/-- The result of looking at the store at a path. -/
def look {α : Type} (path : String) (activity : Activity) (f : Store → Except StoreError α) :
    Session α := do
  ofExcept (some activity) .store (f (← openStore path))

/-- The result of a change of a store, which is kept in the file at a path. -/
def keep {α : Type} (path : String) (activity : Activity) (r : Except StoreError (α × Store)) :
    Session α := do
  let (a, s) ← ofExcept (some activity) .store r
  saveStore path s
  pure a

/-- The result of a change of the store in the file at a path. -/
def change {α : Type} (path : String) (activity : Activity)
    (f : Store → Except StoreError (α × Store)) : Session α := do
  keep path activity (f (← openStore path))

/-- A change of the store in the file at a path. -/
def alter (path : String) (activity : Activity) (f : Store → Except StoreError Store) :
    Session Unit :=
  change path activity fun s => (f s).map fun t => ((), t)

end Session

end BenchPlot
