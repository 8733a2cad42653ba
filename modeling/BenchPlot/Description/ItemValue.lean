import BenchPlot.Decimal.Reading
import BenchPlot.Text.Pieces

/-!
# Values of items

The forms in which the values of items are written: assignments `NAME = value`, function definitions
`name(a, b) = body`, style definitions `name = display [payload]`, lists, flags and ranges.

A value, a body or a payload is what stands between the blanks at its two ends and holds no line
feed. Where one is called for and only blanks are left, the last blank that is no line feed stands
for it.
-/

namespace BenchPlot

/-! ## §1 Names -/

/-- The first character of a name. -/
def isWordStart (c : Char) : Bool :=
  c.isAlpha || c == '_'

/-- The further characters of a name. -/
def isWordChar (c : Char) : Bool :=
  c.isAlphanum || c == '_'

/-- The further characters of the name of a style, which may hold dashes. -/
def isStyleChar (c : Char) : Bool :=
  isWordChar c || c == '-'

/-- Whether a text is a name with the given further characters. -/
def isNameOf (further : Char → Bool) : List Char → Bool
  | [] => false
  | c :: rest => isWordStart c && rest.all further

/-- A name at the start of a text, and what follows it. -/
def takeName? (further : Char → Bool) : List Char → Option (String × List Char)
  | [] => none
  | c :: rest =>
    if isWordStart c then
      some (String.ofList (c :: rest.takeWhile further), rest.dropWhile further)
    else none

/-- What follows a character that the text starts with, blanks before it apart. -/
def afterMark? (mark : Char) (cs : List Char) : Option (List Char) :=
  match Text.trimStartChars cs with
  | c :: rest => if c == mark then some rest else none
  | [] => none

/-! ## §2 Definitions -/

/-- The last character of a row of blanks that is no line feed. -/
def lastInline? (blanks : List Char) : Option String :=
  (blanks.reverse.find? fun c => c != '\n').map Char.toString

/-- The text between the blanks at both ends, if it holds no line feed. -/
def inlineText? (cs : List Char) : Option String :=
  let middle := Text.trimChars cs
  if middle.contains '\n' then none else some (String.ofList middle)

/-- The parts of `NAME = value`. -/
def parseAssignment? (text : String) : Option (String × String) :=
  match takeName? isWordChar (Text.trimStartChars text.toList) with
  | none => none
  | some (name, rest) =>
    match afterMark? '=' rest with
    | none => none
    | some value => (inlineText? value).map fun v => (name, v)

/-- The trimmed pieces between commas that are not blank. -/
def commaList (text : String) : List String :=
  ((Text.piecesAt ',' text.toList).map fun p => String.ofList (Text.trimChars p)).filter
    fun p => !p.isEmpty

/-- The body of a definition, of which there must be some. -/
def bodyText? (cs : List Char) : Option String :=
  if cs.all Text.isBlank then lastInline? cs else inlineText? cs

/-- The parts of `name(a, b) = body`. -/
def parseFunctionDefinition? (text : String) : Option (String × List String × String) :=
  match takeName? isWordChar (Text.trimStartChars text.toList) with
  | none => none
  | some (name, rest) =>
    match afterMark? '(' rest with
    | none => none
    | some inside =>
      match inside.dropWhile (· != ')') with
      | [] => none
      | _ :: after =>
        match afterMark? '=' after with
        | none => none
        | some body =>
          let parameters := commaList (String.ofList (inside.takeWhile (· != ')')))
          match bodyText? body with
          | none => none
          | some body =>
            if parameters.all fun p => isNameOf isWordChar p.toList then some (name, parameters, body)
            else none

/-- The payload behind the display text of a style definition: none, or what follows the first
    blank. The whole is refused if the payload holds a line feed. -/
def payloadText? (cs : List Char) : Option (Option String) :=
  if cs.all Text.isBlank then some (lastInline? (cs.drop 1)) else (inlineText? cs).map some

/-- The parts of `name = display [payload]`. -/
def parseStyleDefinition? (text : String) : Option (String × String × Option String) :=
  match takeName? isStyleChar (Text.trimStartChars text.toList) with
  | none => none
  | some (name, rest) =>
    match afterMark? '=' rest with
    | none => none
    | some value =>
      let body := Text.trimStartChars value
      let display := body.takeWhile fun c => !Text.isBlank c
      if display.isEmpty then none
      else
        (payloadText? (body.dropWhile fun c => !Text.isBlank c)).map fun payload =>
          (name, String.ofList display, payload)

/-! ## §3 Lists and ranges -/

/-- The flags of a text, in lower case: its pieces between commas and blanks. -/
def parseFlags (text : String) : List String :=
  ((Text.piecesBy (fun c => c == ',' || Text.isBlank c) text.toList).filter fun p => !p.isEmpty).map
    fun p => Text.asciiLower (String.ofList p)

/-- The name of a field between braces, or a bare one. -/
def withoutBraces (cs : List Char) : List Char :=
  match cs with
  | c :: rest => if c == '\x7b' && rest.getLast? == some '\x7d' then rest.dropLast else cs
  | [] => cs

/-- The field that an entry of a list of fields names: `$FIELD`, `$` with the field between braces,
    or the bare field. -/
def fieldOfEntry (entry : String) : String :=
  let bare := match entry.toList with
    | '$' :: rest => rest
    | cs => cs
  String.ofList (Text.trimChars (withoutBraces bare))

/-- The fields of a list of fields. -/
def parseFieldList (text : String) : List String :=
  (commaList text).map fieldOfEntry

/-- Why a text is no range. -/
inductive RangeFault where
  | notARange (text : String)
  | notABound (side : String)
  deriving DecidableEq, Repr

/-- The reason as it is told. -/
def RangeFault.message : RangeFault → String
  | .notARange text => s!"range '{text}' must look like min:max"
  | .notABound side => s!"range bound '{side}' is not a number"

/-- A bound of a range; blanks stand for an open side. -/
def parseBound (side : String) : Except RangeFault (Option Float) :=
  let side := Text.trim side
  if side.isEmpty then .ok none
  else
    match Decimal.read? side with
    | some x => .ok (some x)
    | none => .error (.notABound side)

/-- The bounds of a range `min:max`. -/
def parseRange (text : String) : Except RangeFault (Option Float × Option Float) :=
  match Text.cutAt? ':' text with
  | none => .error (.notARange text)
  | some (low, high) =>
    match parseBound low with
    | .error fault => .error fault
    | .ok low =>
      match parseBound high with
      | .error fault => .error fault
      | .ok high => .ok (low, high)

/-- The names and values of several assignments, or the first text that is none. Of two assignments
    to one name the later holds. -/
def parsePairs (pairs : List String) : Except String (List (String × String)) :=
  pairs.mapM fun pair =>
    match parseAssignment? pair with
    | some p => .ok p
    | none => .error pair

/-- The message for a text that is no assignment where `what` is given. -/
def pairMessage (what pair : String) : String :=
  s!"invalid {what} '{pair}'; expected NAME=VALUE"

end BenchPlot
