import BenchPlot.Text.Pieces

/-!
# Canonical names

Benchmarks, fields and indices are known by canonical names: upper-case letters, digits and
underscores, with a letter in front. A written name is folded to its canonical form; every character
outside the set becomes an underscore.

Main definitions: `canonicalName`, the names derived from canonical names (`tableName`, `columnName`,
`physicalIndexName`), and `identity`, the text that identifies an experiment by its key values.
-/

namespace BenchPlot

/-! ## §1 Folding -/

/-- Why a written name has no canonical form. -/
inductive NameFault where
  | empty
  | noLetterFirst
  | reserved
  deriving DecidableEq, Repr

/-- The reason as it is told. -/
def NameFault.message : NameFault → String
  | .empty => "name is empty"
  | .noLetterFirst => "name must start with a letter"
  | .reserved => "name is reserved"

/-- The columns that every wide table has; no name may equal one of them. -/
def fixedColumns : List String := ["BENCH", "EXP", "OUT"]

/-- The canonical form of a character. -/
def foldChar (c : Char) : Char :=
  if c.isAlphanum || c == '_' then c.toUpper else '_'

/-- The folded characters of a written name, blanks around it apart. -/
def foldName (raw : String) : List Char :=
  (Text.trimChars raw.toList).map foldChar

/-- The canonical form of a written name, or why there is none. -/
def canonicalName (raw : String) : Except NameFault String :=
  match foldName raw with
  | [] => .error .empty
  | c :: cs =>
    let name := String.ofList (c :: cs)
    if !c.isAlpha then .error .noLetterFirst
    else if fixedColumns.contains name then .error .reserved
    else .ok name

/-! ## §2 Derived names -/

/-- The name of the wide table of a benchmark. -/
def tableName (bench : String) : String := bench ++ "_VIEW"

/-- The name of the column that holds a field. -/
def columnName (field : String) : String := "_" ++ field

/-- The name under which the index of a benchmark is kept; such names are shared by all
    benchmarks. -/
def physicalIndexName (bench index : String) : String := bench ++ "_" ++ index ++ "_IDX"

/-! ## §3 Identities -/

/-- The written form of a character of a key value: the separator and the escape character are
    escaped. -/
def escapeKeyChar (c : Char) : List Char :=
  if c == '\\' then ['\\', '\\'] else if c == '|' then ['\\', 'p'] else [c]

/-- A key value in which the separator does not occur. -/
def escapeKey (value : String) : String :=
  String.ofList (value.toList.flatMap escapeKeyChar)

/-- The text that identifies an experiment: its escaped key values with separators between them. -/
def identity (values : List String) : String :=
  "|".intercalate (values.map escapeKey)

end BenchPlot
