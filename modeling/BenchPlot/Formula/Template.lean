import BenchPlot.Formula.Error

/-!
# Templates

Texts with directives that arguments fill: `%d %i` for whole numbers, `%f %F` for a fixed number of
places, `%e %E` with an exponent, `%g %G` for whichever of the two is shorter, `%s` for texts, and
`%%` for a percent sign. A directive may have flags (`-` for the left margin, `0` for zeros in front,
`+` for a sign on positive numbers), a width and a precision.

A template is first cut into its pieces; filling goes through the pieces in order and takes one
argument for each directive.
-/

namespace BenchPlot

/-! ## §1 Pieces -/

/-- A directive of a template. -/
structure Directive where
  left : Bool
  zero : Bool
  plus : Bool
  width : Nat
  precision : Option Nat
  conversion : Char
  deriving DecidableEq, Repr

/-- A piece of a template: a character that stands for itself, a directive, or a directive that the
    template ends in. -/
inductive TemplatePiece where
  | char (c : Char)
  | directive (d : Directive)
  | unfinished
  deriving DecidableEq, Repr

/-- Whether a character is a flag. -/
def isFlag (c : Char) : Bool :=
  c == '-' || c == '0' || c == '+'

/-- The precision at the start of a text, if there is one, and the rest. A point without digits is
    the precision zero. -/
def takePrecision : List Char → Option Nat × List Char
  | '.' :: rest =>
    (some (Decimal.digitsValue (rest.takeWhile Decimal.isDigit)), rest.dropWhile Decimal.isDigit)
  | rest => (none, rest)

/-- The directive that follows a percent sign, and what follows the directive. -/
def takeDirective (cs : List Char) : TemplatePiece × List Char :=
  let flags := cs.takeWhile isFlag
  let afterFlags := cs.dropWhile isFlag
  let width := Decimal.digitsValue (afterFlags.takeWhile Decimal.isDigit)
  let (precision, rest) := takePrecision (afterFlags.dropWhile Decimal.isDigit)
  match rest with
  | [] => (.unfinished, [])
  | c :: rest =>
    (.directive ⟨flags.contains '-', flags.contains '0', flags.contains '+', width, precision, c⟩, rest)

/-- What `dropWhile` leaves is no longer than the list. -/
private theorem dropWhile_length {p : Char → Bool} (cs : List Char) :
    (cs.dropWhile p).length ≤ cs.length :=
  (List.dropWhile_sublist p).length_le

/-- A directive takes no characters that are not there. -/
theorem takeDirective_length (cs : List Char) : (takeDirective cs).2.length ≤ cs.length := by
  have h1 := dropWhile_length (p := isFlag) cs
  have h2 := dropWhile_length (p := Decimal.isDigit) (cs.dropWhile isFlag)
  have h3 : (takePrecision ((cs.dropWhile isFlag).dropWhile Decimal.isDigit)).2.length
      ≤ ((cs.dropWhile isFlag).dropWhile Decimal.isDigit).length := by
    unfold takePrecision
    split
    · rename_i rest hr
      have := dropWhile_length (p := Decimal.isDigit) rest
      simp only [hr, List.length_cons]
      omega
    · simp
  unfold takeDirective
  simp only []
  split
  · simp
  · rename_i c rest hr
    rw [hr, List.length_cons] at h3
    simp only []
    omega

/-- The pieces of a template. -/
def templatePieces (cs : List Char) : List TemplatePiece :=
  match cs with
  | [] => []
  | '%' :: '%' :: rest => .char '%' :: templatePieces rest
  | '%' :: rest =>
    have := takeDirective_length rest
    (takeDirective rest).1 :: templatePieces (takeDirective rest).2
  | c :: rest => .char c :: templatePieces rest
termination_by cs.length

/-! ## §2 Numbers -/

/-- The text without the zeros at the end of its fraction, and without a point at its end. A text
    without a point stays. -/
def trimFraction (s : String) : String :=
  if s.toList.contains '.' then
    let trimmed := s.toList.reverse.dropWhile (· == '0')
    String.ofList (trimmed.dropWhile (· == '.')).reverse
  else s

/-- An exponent with its sign and at least two digits. -/
def exponentText (e : Int) : String :=
  let digits := Decimal.naturalText e.natAbs
  "e" ++ (if e < 0 then "-" else "+") ++ (if digits.length < 2 then "0" ++ digits else digits)

/-- The form of a number with an exponent: the text before the exponent, and the exponent, if the
    number is finite. -/
def exponentParts (x : Float) (places : Nat) : String × Option Int :=
  match Decimal.Parts.ofFloat x with
  | .nan => ("NaN", none)
  | .infinite negative => (Decimal.infiniteText negative, none)
  | .finite negative m =>
    let (body, exponent) := Decimal.scientificParts negative m places
    (body, some exponent)

/-- A number with an exponent. -/
def exponentForm (x : Float) (places : Nat) : String :=
  let (body, exponent) := exponentParts x places
  body ++ (exponent.map exponentText).getD ""

/-- The exponent of the decimal logarithm of a number. -/
def decimalExponent (x : Float) : Int :=
  Decimal.toBoundedInt Decimal.int32Bounds (Float.floor (Float.log10 (Float.abs x)))

/-- A number with `precision` significant digits, without zeros at the end: with an exponent below
    `-4` and from `precision` on. -/
def generalForm (x : Float) (precision : Nat) : String :=
  let precision := max precision 1
  if x == 0.0 then "0"
  else
    let exponent := decimalExponent x
    if exponent < -4 ∨ precision ≤ exponent then
      let (body, exponent) := exponentParts x (precision - 1)
      match exponent with
      | some e => trimFraction body ++ exponentText e
      | none => body
    else trimFraction (Decimal.fixedText x (precision - 1 - exponent).toNat)

/-! ## §3 Filling -/

/-- The body with a plus sign in front, if the directive asks for one and the number has none. -/
def Directive.signed (d : Directive) (x : Float) (body : String) : String :=
  if d.plus && 0.0 ≤ x then "+" ++ body else body

/-- The body widened to the width of the directive: behind it with the left flag, between its sign
    and its digits with the zero flag, and in front of it otherwise. -/
def Directive.pad (d : Directive) (body : String) : String :=
  let cs := body.toList
  let fill := d.width - cs.length
  if fill = 0 then body
  else if d.left then String.ofList (cs ++ List.replicate fill ' ')
  else if d.zero then
    match cs with
    | '-' :: digits => String.ofList ('-' :: (List.replicate fill '0' ++ digits))
    | '+' :: digits => String.ofList ('+' :: (List.replicate fill '0' ++ digits))
    | digits => String.ofList (List.replicate fill '0' ++ digits)
  else String.ofList (List.replicate fill ' ' ++ cs)

/-- The number of a value, for a directive. -/
def Directive.number (d : Directive) (value : Value) : Except FormulaError Float :=
  match value.toNumber? with
  | some x => .ok x
  | none => .error (.mismatch (.notANumber s!"%{d.conversion}" value))

/-- The number of places that a directive asks for. -/
def Directive.places (d : Directive) : Nat :=
  d.precision.getD 6

/-- The body that a value gives under a directive. -/
def Directive.convert (d : Directive) (value : Value) : Except FormulaError String :=
  match d.conversion with
  | 's' =>
    match d.precision with
    | some limit => .ok (String.ofList (value.display.toList.take limit))
    | none => .ok value.display
  | 'd' | 'i' =>
    (d.number value).map fun x =>
      d.signed x (Decimal.integerText (Decimal.toBoundedInt Decimal.int64Bounds x))
  | 'f' | 'F' => (d.number value).map fun x => d.signed x (Decimal.fixedText x d.places)
  | 'e' => (d.number value).map fun x => d.signed x (exponentForm x d.places)
  | 'E' => (d.number value).map fun x => d.signed x (Text.upper (exponentForm x d.places))
  | 'g' | 'G' => (d.number value).map fun x => d.signed x (generalForm x d.places)
  | c => .error (.malformed (.unknownConversion c))

/-- The text that a directive and its argument give. -/
def Directive.fill (d : Directive) (value : Value) : Except FormulaError String :=
  (d.convert value).map d.pad

/-- The text that pieces and their arguments give. The template is the one that messages name. -/
def fillPieces (template : String) : List TemplatePiece → List Value → Except FormulaError String
  | [], _ => .ok ""
  | .char c :: pieces, args =>
    match fillPieces template pieces args with
    | .error e => .error e
    | .ok rest => .ok (c.toString ++ rest)
  | .unfinished :: _, _ => .error (.malformed (.unfinishedDirective template))
  | .directive _ :: _, [] => .error (.mismatch (.missingArgument template))
  | .directive d :: pieces, value :: args =>
    match d.fill value with
    | .error e => .error e
    | .ok body =>
      match fillPieces template pieces args with
      | .error e => .error e
      | .ok rest => .ok (body ++ rest)

/-- The text that a template and its arguments give. Arguments that are left over are ignored. -/
def fillTemplate (template : String) (args : List Value) : Except FormulaError String :=
  fillPieces template (templatePieces template.toList) args

end BenchPlot
