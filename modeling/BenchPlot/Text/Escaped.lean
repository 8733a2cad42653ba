import BenchPlot.Text.HiddenTable
import BenchPlot.Text.LetterCase

/-!
# Escaped texts

Texts between double quotes in which every character is visible: quotes, backslashes and the common
controls are written with a backslash, and every other character without a visible form of its own by
its code.
-/

namespace BenchPlot.Text

/-- The hexadecimal digits of a natural number, in lower case. -/
def hexText (n : Nat) : String :=
  String.ofList (Nat.toDigits 16 n)

/-- Whether a character has no visible form of its own. -/
def isHidden (c : Char) : Bool :=
  let n := c.toNat
  if 0x20 ≤ n && n < 0x7F then false else inRanges hiddenRanges c

/-- The visible form of a character inside double quotes. -/
def visibleChar (c : Char) : String :=
  if c == '"' then "\\\""
  else if c == '\\' then "\\\\"
  else if c == '\n' then "\\n"
  else if c == '\r' then "\\r"
  else if c == '\t' then "\\t"
  else if c.toNat == 0 then "\\0"
  else if isHidden c then "\\u\x7b" ++ hexText c.toNat ++ "\x7d"
  else c.toString

/-- A text between double quotes with every character visible. -/
def visible (s : String) : String :=
  "\"" ++ String.join (s.toList.map visibleChar) ++ "\""

end BenchPlot.Text
