import BenchPlot.Decimal.Reading
import BenchPlot.Text.Escaped
import BenchPlot.Text.Pieces

/-!
# Object trees

Trees of objects, lists and plain values, and their written form over several lines: each member and each
item on a line of its own, two spaces further in for each depth.
-/

namespace BenchPlot

/-- A tree of objects and lists. The members of an object keep their order. -/
inductive JsonNode where
  | null
  | bool (b : Bool)
  | natural (n : Nat)
  | text (s : String)
  | list (items : List JsonNode)
  | object (members : List (String × JsonNode))

namespace JsonNode

/-! ## §1 Texts -/

/-- The four digits with which a control character is written. -/
def controlDigits (c : Char) : String :=
  let digits := Text.hexText c.toNat
  Text.repeated '0' (4 - digits.length) ++ digits

/-- A character inside quotes. -/
def escapedChar (c : Char) : String :=
  if c == '"' then "\\\""
  else if c == '\\' then "\\\\"
  else if c == '\n' then "\\n"
  else if c == '\r' then "\\r"
  else if c == '\t' then "\\t"
  else if c == '\x08' then "\\b"
  else if c == '\x0c' then "\\f"
  else if c.toNat < 32 then "\\u" ++ controlDigits c
  else c.toString

/-- A text between quotes. -/
def quoted (s : String) : String :=
  "\"" ++ String.join (s.toList.map escapedChar) ++ "\""

/-- An optional text. -/
def ofText? : Option String → JsonNode
  | none => .null
  | some s => .text s

/-- A list of texts. -/
def texts (l : List String) : JsonNode :=
  .list (l.map .text)

/-! ## §2 The written form -/

/-- The start of a line at a depth. -/
def lineStart (depth : Nat) : String :=
  "\n" ++ Text.repeated ' ' (2 * depth)

/-- Parts between brackets, each on a line of its own; nothing stands between the brackets where there
    are no parts. -/
def bracketed (opening closing : String) (depth : Nat) (parts : List String) : String :=
  if parts.isEmpty then opening ++ closing
  else
    opening ++ ",".intercalate (parts.map (lineStart (depth + 1) ++ ·)) ++ lineStart depth ++ closing

mutual

/-- The written form of a tree at a depth. -/
def written (depth : Nat) : JsonNode → String
  | .null => "null"
  | .bool b => if b then "true" else "false"
  | .natural n => Decimal.naturalText n
  | .text s => quoted s
  | .list items => bracketed "[" "]" depth (writtenItems (depth + 1) items)
  | .object members => bracketed "\x7b" "\x7d" depth (writtenMembers (depth + 1) members)

/-- The written forms of items at a depth. -/
def writtenItems (depth : Nat) : List JsonNode → List String
  | [] => []
  | item :: rest => written depth item :: writtenItems depth rest

/-- The written forms of members at a depth. -/
def writtenMembers (depth : Nat) : List (String × JsonNode) → List String
  | [] => []
  | (name, node) :: rest => (quoted name ++ ": " ++ written depth node) :: writtenMembers depth rest

end

/-- The written form of a tree. -/
def pretty (node : JsonNode) : String :=
  node.written 0

end JsonNode

end BenchPlot
