import BenchPlot.Description.Basic
import BenchPlot.Text.Pieces

/-!
# Logical lines

A line that ends in a backslash is continued by the next one; the pieces are put together with a
space between them. Outside a continuation, blank lines and lines that start with `#` are left out.
A logical line is known by the number of its first line.
-/

namespace BenchPlot

/-- A logical line: the position of its first line, and its text. -/
structure LogicalLine where
  location : Location
  text : String
  deriving DecidableEq, Repr

/-- Whether a trimmed line stands for nothing outside a continuation. -/
def isSkippedLine (line : List Char) : Bool :=
  line.isEmpty || line.head? == some '#'

/-- The content of a trimmed line, and whether the next line continues it. -/
def lineContent (line : List Char) : List Char × Bool :=
  match line.reverse with
  | '\\' :: rest => (Text.trimEndChars rest.reverse, true)
  | _ => (line, false)

/-- Two pieces of a line put together. -/
def joinPieces (left right : List Char) : List Char :=
  if left.isEmpty || right.isEmpty then left ++ right else left ++ ' ' :: right

/-- The logical lines of the lines from number `number` on, where `pending` is the line that the first
    of them continues: the number it started at, and its text so far. -/
def groupLines (number : Nat) (pending : Option (Nat × List Char)) :
    List (List Char) → List (Nat × List Char)
  | [] => pending.toList
  | raw :: rest =>
    let line := Text.trimChars raw
    if pending.isNone && isSkippedLine line then groupLines (number + 1) none rest
    else
      let (start, before) := pending.getD (number, [])
      let (content, continued) := lineContent line
      let joined := joinPieces before content
      if continued then groupLines (number + 1) (some (start, joined)) rest
      else (start, joined) :: groupLines (number + 1) none rest

/-- The logical lines of the text of a file. Lines without any text are left out. -/
def logicalLines (file text : String) : List LogicalLine :=
  ((groupLines 1 none (Text.lineChars text.toList)).filter fun l => !l.2.isEmpty).map
    fun l => ⟨⟨file, l.1⟩, String.ofList l.2⟩

end BenchPlot
