import BenchPlot.Description.Error
import BenchPlot.Description.LogicalLine
import BenchPlot.Formula.Reference

/-!
# Sources of descriptions

The logical lines of a description, with every include directive replaced by the logical lines of the
file that it names. A file may be included many times, but never while it is open itself, and no more
than `maxIncludeDepth` files are open at once; so the expansion ends for all files.
-/

namespace BenchPlot

/-- Files as they are read by path, and the identity of the file that a path names. -/
structure SourceFiles where
  read : String → Except FileFault String
  identity : String → String

/-- The files of a tree. A path that names no file is its own identity. -/
def SourceFiles.ofTree {α : Type} (t : FileTree α) (text? : α → Option String) : SourceFiles where
  read path :=
    match t.read path with
    | .error fault => .error fault
    | .ok content =>
      match text? content with
      | some text => .ok text
      | none => .error .notText
  identity path :=
    match t.locate path with
    | .ok place => if (t.node? place).isSome then "/" ++ FileTree.pathOf place else path
    | .error _ => path

/-! ## §1 Directives -/

/-- Whether a logical line is an include directive, well formed or not. -/
def isInclude (text : String) : Bool :=
  match Text.afterStart? "include".toList text.toList with
  | some (c :: _) => Text.isBlank c
  | _ => false

/-- The path that an include directive names: what stands between two quotes of one kind. -/
def includedPath? (text : String) : Option String :=
  match Text.afterStart? "include".toList text.toList with
  | none => none
  | some rest =>
    match Text.trimStartChars rest with
    | [] => none
    | quote :: body =>
      if (quote == '"' || quote == '\'') && body.dropWhile (· != quote) == [quote] then
        some (String.ofList (body.takeWhile (· != quote)))
      else none

/-- The path of the file that a directive includes, seen from the file that holds the directive. -/
def includeTarget (scope : Scope) (line : LogicalLine) : Except DescriptionFault String :=
  match includedPath? line.text with
  | none => .error .malformedInclude
  | some raw =>
    match scope.substitute raw with
    | .error e => .error (.badIncludePath e)
    | .ok expanded =>
      let target := Text.trim expanded
      if target.isEmpty then .error .emptyIncludePath
      else .ok (joinPath (parentPath line.location.file) target)

/-! ## §2 Expansion -/

/-- The lines that a logical line stands for; what a directive stands for is found by `included`. -/
def expandLine (scope : Scope)
    (included : String → Location → Except DescriptionError (List LogicalLine))
    (line : LogicalLine) : Except DescriptionError (List LogicalLine) :=
  if isInclude line.text then
    match includeTarget scope line with
    | .error fault => .error ⟨line.location, fault⟩
    | .ok target => included target line.location
  else .ok [line]

/-- The lines that several logical lines stand for. -/
def expandLines (scope : Scope)
    (included : String → Location → Except DescriptionError (List LogicalLine))
    (lines : List LogicalLine) : Except DescriptionError (List LogicalLine) :=
  (lines.mapM (expandLine scope included)).map List.flatten

/-- The logical lines of the file at a path, where `levels` further files may be opened and the files
    with the identities `chain` are open. A failure to open the file is reported at `site`. -/
def expandFile (files : SourceFiles) (scope : Scope) :
    Nat → List String → String → Location → Except DescriptionError (List LogicalLine)
  | 0, _, path, site => .error ⟨site, .includesTooDeep path⟩
  | levels + 1, chain, path, site =>
    match files.read path with
    | .error fault => .error ⟨site, .unreadable path fault⟩
    | .ok text =>
      -- Two paths of one file are one identity, so a cycle is found however it is written.
      let identity := files.identity path
      if chain.contains identity then .error ⟨site, .includeCycle path⟩
      else
        expandLines scope (expandFile files scope levels (identity :: chain))
          (logicalLines path text)

/-- The logical lines of the file at a path. -/
def loadFile (files : SourceFiles) (scope : Scope) (path : String) :
    Except DescriptionError (List LogicalLine) :=
  expandFile files scope maxIncludeDepth [] path ⟨path, 0⟩

/-- The logical lines of a text that counts as the open file `origin`. -/
def loadText (files : SourceFiles) (scope : Scope) (origin text : String) :
    Except DescriptionError (List LogicalLine) :=
  expandLines scope (expandFile files scope (maxIncludeDepth - 1) [files.identity origin])
    (logicalLines origin text)

end BenchPlot
