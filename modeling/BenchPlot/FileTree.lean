import BenchPlot.SortedMap
import BenchPlot.Text.Pieces

/-!
# File trees

A tree of files as a finite map, and how a written path is followed in it: from the working directory, or
from the root if it starts with a separator, step by step through directories. Steps `.` stay and steps
`..` go up; above the root there is only the root.

A place in the tree is the list of names that lead to it, the innermost first.

Main definitions: `FileTree`, `FileTree.locate`, `FileTree.read`, `FileTree.write`.
-/

namespace BenchPlot

/-- Why a file cannot be read or made. -/
inductive FileFault where
  | missing
  | notADirectory
  | isADirectory
  | exists
  | notText
  deriving DecidableEq, Repr

/-- The reason as it is told. -/
def FileFault.message : FileFault → String
  | .missing => "No such file or directory (os error 2)"
  | .notADirectory => "Not a directory (os error 20)"
  | .isADirectory => "Is a directory (os error 21)"
  | .exists => "File exists (os error 17)"
  | .notText => "stream did not contain valid UTF-8"

/-- A file with its content, or a directory. -/
inductive FileNode (α : Type) where
  | file (content : α)
  | directory

/-- Files and directories by their paths from the root, and the place of the working directory. -/
structure FileTree (α : Type) where
  here : List String
  nodes : SortedMap String (FileNode α)

namespace FileTree

variable {α : Type}

instance : Inhabited (FileTree α) := ⟨⟨[], ∅⟩⟩

/-! ## §1 Places -/

/-- The path of a place from the root. -/
def pathOf (place : List String) : String :=
  "/".intercalate place.reverse

/-- What there is at a place. -/
def node? (t : FileTree α) (place : List String) : Option (FileNode α) :=
  if place.isEmpty then some .directory else t.nodes.find? (pathOf place)

/-- Whether a path starts at the root of all files. -/
def isAbsolute (path : String) : Bool :=
  path.toList.head? == some '/'

/-- The place at which a path starts. -/
def startOf (t : FileTree α) (path : String) : List String :=
  if isAbsolute path then [] else t.here

/-- The steps of a path. -/
def steps (path : String) : List String :=
  (Text.piecesAt '/' path.toList).map String.ofList

/-- The place that a step leads to. -/
def move (place : List String) (step : String) : List String :=
  if step = "" ∨ step = "." then place
  else if step = ".." then place.tail
  else step :: place

/-- The place that steps lead to from a place. Every place on the way must be a directory. -/
def follow (t : FileTree α) (place : List String) : List String → Except FileFault (List String)
  | [] => .ok place
  | step :: rest =>
    match t.node? place with
    | none => .error .missing
    | some (.file _) => .error .notADirectory
    | some .directory => follow t (move place step) rest

/-- The place that a path names; there need be nothing at it. -/
def locate (t : FileTree α) (path : String) : Except FileFault (List String) :=
  if path.isEmpty then .error .missing else t.follow (t.startOf path) (steps path)

/-- The place that a path names when its steps are taken without a look at the files. -/
def plainPlace (t : FileTree α) (path : String) : List String :=
  (steps path).foldl move (t.startOf path)

/-! ## §2 Reading -/

/-- The content of the file at a path. -/
def read (t : FileTree α) (path : String) : Except FileFault α :=
  match t.locate path with
  | .error fault => .error fault
  | .ok place =>
    match t.node? place with
    | none => .error .missing
    | some .directory => .error .isADirectory
    | some (.file content) => .ok content

/-- Whether a path leads to a file or a directory. -/
def contains (t : FileTree α) (path : String) : Bool :=
  match t.locate path with
  | .error _ => false
  | .ok place => (t.node? place).isSome

/-! ## §3 Writing -/

/-- The tree with a node at a place. -/
def put (t : FileTree α) (place : List String) (node : FileNode α) : FileTree α :=
  { t with nodes := t.nodes.insert (pathOf place) node }

/-- The tree with a file at a path, in place of the file that is there. -/
def write (t : FileTree α) (path : String) (content : α) : Except FileFault (FileTree α) :=
  match t.locate path with
  | .error fault => .error fault
  | .ok place =>
    match t.node? place with
    | some .directory => .error .isADirectory
    | _ => .ok (t.put place (.file content))

/-- The tree with a directory at a place and everywhere on the way to it, made where there is nothing
    yet. -/
def makeDirectories (t : FileTree α) : List String → Except FileFault (FileTree α)
  | [] => .ok t
  | name :: outer =>
    match t.node? (name :: outer) with
    | some .directory => .ok t
    | some (.file _) => .error .exists
    | none =>
      match t.makeDirectories outer with
      | .ok t => .ok (t.put (name :: outer) .directory)
      | .error .exists => .error .notADirectory
      | .error fault => .error fault

/-! ## §4 Trees of files -/

/-- The tree with a file at a place, and directories everywhere on the way to it. -/
def addFile (t : FileTree α) (place : List String) (content : α) : FileTree α :=
  ((t.makeDirectories place.tail).toOption.getD t).put place (.file content)

/-- The tree of a working directory and of files by their paths. -/
def ofFiles (here : List String) (files : List (String × α)) : FileTree α :=
  let t : FileTree α := ⟨here, ∅⟩
  files.foldl (fun t f => t.addFile (t.plainPlace f.1) f.2) ((t.makeDirectories here).toOption.getD t)

end FileTree

/-! ## §5 Paths as texts -/

/-- A directory path, last character first, without separators and steps `.` at its end. A path that
    is a single `.` stays. -/
def trimDirectory : List Char → List Char
  | '/' :: rest => trimDirectory rest
  | '.' :: '/' :: rest => trimDirectory rest
  | cs => cs

/-- The directory in which the file at a path lies, as a text in front of further steps. -/
def parentPath (path : String) : String :=
  let outer := path.toList.reverse.dropWhile (· != '/')
  let trimmed := trimDirectory outer
  if trimmed.isEmpty && !outer.isEmpty then "/" else String.ofList trimmed.reverse

/-- A path seen from a directory. -/
def joinPath (directory path : String) : String :=
  if FileTree.isAbsolute path || directory.isEmpty then path
  else if directory.toList.getLast? == some '/' then directory ++ path
  else directory ++ "/" ++ path

end BenchPlot
