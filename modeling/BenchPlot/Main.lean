import BenchPlot.Command.Arguments
import BenchPlot.Command.Run
import Std.Time.DateTime

/-!
# The program

The command line as a program. The files that a command names are read into a workspace, the command is
run there, and the files that it leaves changed are written. A file that a description includes is read
when it turns out to be missing in the workspace, and the command is run again.
-/

namespace BenchPlot.Program

/-! ## §1 The machine -/

/-- What there is at a path of the machine. -/
def probe (path : String) : IO (Option (FileNode (List UInt8))) := do
  try
    return some (.file (← IO.FS.readBinFile path).toList)
  catch
    | .inappropriateType .. => return some .directory
    | _ => return none

/-- The tree with what there is at the places on the way to a path. -/
def explore (t : FileTree (List UInt8)) (path : String) : IO (FileTree (List UInt8)) := do
  let mut tree := t
  let mut place := t.startOf path
  for step in FileTree.steps path do
    place := FileTree.move place step
    if (tree.node? place).isNone then
      if let some node ← probe ("/" ++ FileTree.pathOf place) then
        tree := tree.put place node
  return tree

/-- The environment of the process. -/
def readEnvironment : IO (SortedMap String String) := do
  let bytes ← IO.FS.readBinFile "/proc/self/environ"
  let text := (Text.decode? bytes.toList).getD ""
  let entries := (Text.piecesAt '\x00' text.toList).map String.ofList
  return SortedMap.ofList (entries.filterMap (Text.cutAt? '='))

/-- A number of at least two digits. -/
def twoDigits (n : Int) : String :=
  let text := Decimal.integerText n
  if text.length < 2 then "0" ++ text else text

/-- The present time. -/
def readClock : IO String := do
  let stamp ← Std.Time.Timestamp.now
  let t := Std.Time.DateTime.ofTimestamp stamp Std.Time.TimeZone.ZoneRules.UTC
  let date := "-".intercalate [Decimal.integerText t.year.toInt, twoDigits t.month.val, twoDigits t.day.val]
  let time := ":".intercalate [twoDigits t.hour.val, twoDigits t.minute.val, twoDigits t.second.val]
  return date ++ "T" ++ time ++ "Z"

/-- The workspace with the files that a command names. -/
def openWorkspace (c : Command) : IO Workspace := do
  let here := toString (← IO.currentDir)
  let tree ← explore default here
  let tree := { tree with here := tree.plainPlace here }
  return ⟨← c.paths.foldlM explore tree, ← readEnvironment, ← readClock⟩

/-- Writes what is new in a tree of files. -/
def publish (before after : FileTree (List UInt8)) : IO Unit := do
  for (path, node) in after.nodes.entries do
    match node, before.nodes.find? path with
    | .directory, none => IO.FS.createDirAll ("/" ++ path)
    | .directory, some _ => pure ()
    | .file bytes, some (.file old) =>
      if bytes ≠ old then IO.FS.writeBinFile ("/" ++ path) ⟨bytes.toArray⟩
    | .file bytes, _ => IO.FS.writeBinFile ("/" ++ path) ⟨bytes.toArray⟩

/-! ## §2 Running -/

/-- Runs a command, with the included files that it asks for. -/
partial def runWithIncludes (c : Command) (w : Workspace) : IO (CommandResult × Workspace) := do
  let (result, left) := c.runIn w
  let missing := match result with
    | .error failure => failure.missingSource?
    | .ok _ => none
  match missing with
  | none => return (result, left)
  | some path =>
    let files ← explore w.files path
    if files.contains path then runWithIncludes c { w with files := files }
    else return (result, left)

/-- Runs a command on the machine; the result is the exit code. -/
def execute (c : Command) : IO UInt32 := do
  let w ← openWorkspace c
  let (result, left) ← runWithIncludes c w
  publish w.files left.files
  match result with
  | .ok output =>
    IO.print output
    return 0
  | .error failure =>
    for message in failure.chain do
      IO.eprintln s!"error: {message}"
    return 1

/-- Answers arguments that are no command; the result is the exit code. -/
def answer (fault : UsageFault) : IO UInt32 := do
  match fault with
  | .version => IO.println Command.versionLine
  | .help => IO.print (linesText Command.usageLines)
  | fault => IO.eprint (linesText (s!"error: {fault.message}" :: Command.usageLines))
  return fault.exitCode.toUInt32

end BenchPlot.Program

/-- The program. -/
def main (arguments : List String) : IO UInt32 :=
  match BenchPlot.Command.parse arguments with
  | .ok command => BenchPlot.Program.execute command
  | .error fault => BenchPlot.Program.answer fault
