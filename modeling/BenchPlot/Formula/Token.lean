import BenchPlot.Decimal.Layout
import BenchPlot.Text.Escaped

/-!
# Tokens of the formula language

The words of the formula language: numbers, texts, identifiers, references with a sigil in front, and
symbols. `Token.tag` is the form in which error messages name a token.
-/

namespace BenchPlot

/-- The operators and delimiters of the formula language. -/
inductive Symbol where
  | openParen
  | closeParen
  | comma
  | plus
  | minus
  | star
  | slash
  | power
  | not
  | equal
  | unequal
  | less
  | lessEqual
  | greater
  | greaterEqual
  | and
  | or
  deriving DecidableEq, Repr

/-- The kinds of references, by their sigil: a column of the current row, a variable of the
    environment, a calculated variable, a named function. -/
inductive Sigil where
  | column
  | environment
  | calculated
  | function
  deriving DecidableEq, Repr

/-- A word of the formula language. -/
inductive Token where
  | number (x : Float)
  | text (s : String)
  | word (name : String)
  | reference (sigil : Sigil) (name : String)
  | symbol (s : Symbol)

/-! ## §1 Spellings -/

/-- The character that marks a reference. -/
def Sigil.char : Sigil → Char
  | .column => '$'
  | .environment => '%'
  | .calculated => '@'
  | .function => '&'

/-- The kind of reference that a character marks. -/
def Sigil.ofChar? (c : Char) : Option Sigil :=
  if c == '$' then some .column
  else if c == '%' then some .environment
  else if c == '@' then some .calculated
  else if c == '&' then some .function
  else none

/-- The name of a symbol in error messages. -/
def Symbol.tag : Symbol → String
  | .openParen => "LParen"
  | .closeParen => "RParen"
  | .comma => "Comma"
  | .plus => "Plus"
  | .minus => "Minus"
  | .star => "Star"
  | .slash => "Slash"
  | .power => "Power"
  | .not => "Not"
  | .equal => "Eq"
  | .unequal => "Ne"
  | .less => "Lt"
  | .lessEqual => "Le"
  | .greater => "Gt"
  | .greaterEqual => "Ge"
  | .and => "And"
  | .or => "Or"

/-- The name of a kind of reference in error messages. -/
def Sigil.tag : Sigil → String
  | .column => "Column"
  | .environment => "Env"
  | .calculated => "Calc"
  | .function => "Func"

/-- A token as error messages name it. -/
def Token.tag : Token → String
  | .number x => "Number(" ++ Decimal.taggedText x ++ ")"
  | .text s => "Str(" ++ Text.visible s ++ ")"
  | .word name => "Ident(" ++ Text.visible name ++ ")"
  | .reference sigil name => sigil.tag ++ "(" ++ Text.visible name ++ ")"
  | .symbol s => s.tag

/-- The next token of a text, or its end, as error messages name it. -/
def Token.tagNext : Option Token → String
  | none => "None"
  | some t => "Some(" ++ t.tag ++ ")"

end BenchPlot
