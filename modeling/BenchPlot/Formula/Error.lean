import BenchPlot.Formula.Token
import BenchPlot.Value

/-!
# Failures of formulas

Everything that can go wrong while a formula is read, defined or evaluated, each cause with the data
that its message shows.
-/

namespace BenchPlot

/-- Why a text is no formula, or no template. -/
inductive Malformation where
  | badNumber (text : String)
  | noFormula
  | notSingle (source : String)
  | leftover (token : Token) (source : String)
  | expected (wanted : Symbol) (found : Option Token)
  | expectedValue (found : Option Token)
  | unfinishedDirective (template : String)
  | unknownConversion (conversion : Char)

/-- What is not allowed where it stands. -/
inductive Ban where
  | columnHere (name : String)
  | functionHere (name : String)
  | calculatedInCalculated (definition name : String)
  | columnInCalculated (definition name : String)
  | functionInCalculated (definition name : String)
  | identifierInCalculated (definition name : String)
  | secondDefinition (name : String)
  | columnInFunction (definition name : String)
  | referenceInText (sigil : Sigil) (name : String)

/-- A value of the wrong type, or a missing one. -/
inductive Mismatch where
  | notANumber (site : String) (value : Value)
  | missingArgument (template : String)

/-- A failure of a formula. -/
inductive FormulaError where
  | unexpectedChar (c : Char) (offset : Nat)
  | unterminatedText
  | malformed (cause : Malformation)
  | unknownVariable (name : String)
  | unknownCalculated (name : String)
  | unknownColumn (name : String)
  | unknownFunction (name : String)
  | unknownIdentifier (name : String)
  | arity (name : String) (expected found : Nat)
  | mismatch (cause : Mismatch)
  | notAllowed (cause : Ban)
  | depthExceeded

/-- The number of named functions that may be active at once. -/
def maxCallDepth : Nat := 32

/-! ## §1 Messages -/

/-- The message of a malformed formula or template. -/
def Malformation.message : Malformation → String
  | .badNumber text => s!"invalid number literal '{text}'"
  | .noFormula => "empty expression"
  | .notSingle source => s!"expected a single expression in '{source}'"
  | .leftover token source => s!"unexpected token {token.tag} in '{source}'"
  | .expected wanted found => s!"expected {wanted.tag}, found {Token.tagNext found}"
  | .expectedValue found => s!"expected a value, found {Token.tagNext found}"
  | .unfinishedDirective template => s!"incomplete conversion at end of template '{template}'"
  | .unknownConversion c => s!"unsupported conversion '%{c}'"

/-- The message of what is not allowed. -/
def Ban.message : Ban → String
  | .columnHere name => s!"column reference ${name} is not allowed here"
  | .functionHere name => s!"function &{name} may only be invoked from curve value formulas"
  | .calculatedInCalculated definition name =>
    s!"calculated variable '{definition}' may not reference calculated variable '{name}'"
  | .columnInCalculated definition name =>
    s!"calculated variable '{definition}' may not reference column '{name}'"
  | .functionInCalculated definition name =>
    s!"calculated variable '{definition}' may not invoke function '{name}'"
  | .identifierInCalculated definition name =>
    s!"calculated variable '{definition}' references unknown identifier '{name}'"
  | .secondDefinition name => s!"function '{name}' is already defined"
  | .columnInFunction definition name =>
    s!"function '{definition}' may not reference column '{name}'; pass it as an argument"
  | .referenceInText sigil name => s!"reference {sigil.char}{name} is not allowed in plain text"

/-- The message of a mismatch. -/
def Mismatch.message : Mismatch → String
  | .notANumber site value => s!"{site} expects a number, got '{value.display}'"
  | .missingArgument template => s!"not enough arguments for template '{template}'"

/-- The message of a failure. -/
def FormulaError.message : FormulaError → String
  | .unexpectedChar c offset => s!"unexpected character '{c}' at offset {offset}"
  | .unterminatedText => "unterminated string literal"
  | .malformed cause => s!"syntax error: {cause.message}"
  | .unknownVariable name => s!"unknown environment variable '{name}'"
  | .unknownCalculated name => s!"unknown calculated variable '{name}'"
  | .unknownColumn name => s!"unknown column '{name}'"
  | .unknownFunction name => s!"unknown function '{name}'"
  | .unknownIdentifier name => s!"unknown identifier '{name}'"
  | .arity name expected found => s!"function '{name}' expects {expected} argument(s), got {found}"
  | .mismatch cause => s!"type error: {cause.message}"
  | .notAllowed cause => cause.message
  | .depthExceeded => s!"function call depth exceeded {maxCallDepth}"

end BenchPlot
