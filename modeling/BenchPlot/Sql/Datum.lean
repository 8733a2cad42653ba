import BenchPlot.Text.Utf8
import BenchPlot.Value

/-!
# Data of queries

What a cell of a table holds and what a term of a query gives: nothing, an integer of 64 bits, a float,
a text or bytes. Data of all kinds are ordered together: nothing, then numbers by their size, then texts
by their characters, then bytes.

Main definitions: `Datum`, `Datum.order`, the readings of a text as a number (`number?` for a whole
text, `leadingNumber` for its front), and `Datum.truth?`.
-/

namespace BenchPlot.Sql

open BenchPlot.Decimal

/-- A datum of a query. -/
inductive Datum where
  | null
  | integer (i : Int)
  | real (x : Float)
  | text (s : String)
  | blob (bytes : List UInt8)
  deriving Inhabited

/-! ## §1 Numbers in texts -/

/-- The blanks that may stand around a number. -/
def isSpace (c : Char) : Bool :=
  c == ' ' || ('\t' ≤ c && c ≤ '\r')

/-- Whether an integer has 64 bits. -/
def isInt64 (i : Int) : Bool :=
  decide (int64Bounds.1 ≤ i ∧ i ≤ int64Bounds.2)

/-- An integer, or the float nearest to it if it is out of range. -/
def Datum.ofInt (i : Int) : Datum :=
  if isInt64 i then .integer i else .real (ofInteger i)

/-- A float; what is no number is nothing. -/
def Datum.ofFloat (x : Float) : Datum :=
  if x.isNaN then .null else .real x

/-- The datum of a numeral: an integer if it was written as one and is in range. -/
def Datum.ofNumeral (n : Numeral) (isWhole : Bool) : Datum :=
  if isWhole && isInt64 (signed n.negative n.digits) then .integer (signed n.negative n.digits)
  else .real n.toFloat

/-- The exponent that a text starts with, if any, and the rest. -/
def takeExponent (cs : List Char) : Option Int × List Char :=
  match cs with
  | [] => (none, [])
  | mark :: rest =>
    let (negative, digits) := readSign rest
    if (mark == 'e' || mark == 'E') && (digits.head?.map isDigit).getD false then
      (some (signed negative (digitsValue (digits.takeWhile isDigit))), digits.dropWhile isDigit)
    else (none, cs)

/-- The number that a text starts with and the rest. -/
def takeNumber? (cs : List Char) : Option (Datum × List Char) :=
  let (negative, body) := readSign cs
  let whole := body.takeWhile isDigit
  let behind := body.dropWhile isDigit
  let (fraction, rest) := readFraction behind
  if whole.isEmpty && fraction.isEmpty then none
  else
    let (exponent, rest) := takeExponent rest
    let numeral : Numeral :=
      ⟨negative, digitsValue (whole ++ fraction), exponent.getD 0 - fraction.length⟩
    some (.ofNumeral numeral (exponent.isNone && behind.head? != some '.'), rest)

/-- The number that a text is, blanks around it apart. -/
def number? (s : String) : Option Datum :=
  match takeNumber? (s.toList.dropWhile isSpace) with
  | some (d, rest) => if rest.all isSpace then some d else none
  | none => none

/-- The number at the front of a text; zero if there is none. -/
def leadingNumber (cs : List Char) : Datum :=
  ((takeNumber? (cs.dropWhile isSpace)).map (·.1)).getD (.integer 0)

/-! ## §2 Texts of numbers -/

/-- The number of digits that the text of a float shows. -/
def realDigits : Nat := 15

/-- The exponent as it stands in the text of a float: a sign and at least two digits. -/
def exponentText (e : Int) : String :=
  (if e < 0 then "e-" else "e+") ++ (if e.natAbs < 10 then "0" else "") ++ naturalText e.natAbs

/-- A decimal with at least one digit behind the point. -/
def pointedText (d : Digits) : String :=
  if 0 ≤ d.scale then d.plain ++ ".0" else d.plain

/-- The text of a float: fifteen digits without the zeros at their end, with an exponent for
    magnitudes below `10 ^ -4` and from `10 ^ 15` on. -/
def realText (x : Float) : String :=
  match Parts.ofFloat x with
  | .nan => ""
  | .infinite negative => withSign negative "Inf"
  | .finite negative m =>
    if m.mantissa = 0 then "0.0"
    else
      let (digits, exponent) := scientificDigits m.ratio.1 m.ratio.2 (realDigits - 1)
      let d := Digits.stripped ⟨digits, exponent - (realDigits - 1 : Nat)⟩
      withSign negative <|
        if exponent < -4 ∨ (realDigits : Int) ≤ exponent then
          pointedText ⟨d.digits, d.scale - exponent⟩ ++ exponentText exponent
        else pointedText d

/-! ## §3 Views -/

namespace Datum

/-- Whether a datum is nothing. -/
def isNull : Datum → Bool
  | .null => true
  | _ => false

/-- Whether a datum is a text. -/
def isText : Datum → Bool
  | .text _ => true
  | _ => false

/-- The characters of a datum as a text. -/
def chars : Datum → List Char
  | .null => []
  | .integer i => (integerText i).toList
  | .real x => (realText x).toList
  | .text s => s.toList
  | .blob bytes => bytes.map fun b => Char.ofNat b.toNat

/-- A datum as a text. -/
def toText (d : Datum) : String :=
  String.ofList d.chars

/-- A datum as a number: a text or bytes count by the number at their front. -/
def toNumber : Datum → Datum
  | .text s => leadingNumber s.toList
  | .blob bytes => leadingNumber (Datum.blob bytes).chars
  | d => d

/-- A datum as an integer of 64 bits, rounded toward zero: a text or bytes count by the digits at their
    front. -/
def toInteger (d : Datum) : Int :=
  match d with
  | .null => 0
  | .integer i => i
  | .real x => toBoundedInt int64Bounds x
  | d =>
    let (negative, body) := readSign (d.chars.dropWhile isSpace)
    clamp int64Bounds.1 int64Bounds.2 (signed negative (digitsValue (body.takeWhile isDigit)))

/-- A number as a float; nothing is not a number. -/
def toFloat : Datum → Float
  | .integer i => ofInteger i
  | .real x => x
  | _ => 0.0 / 0.0

/-- A datum as a condition: a number holds if it is not zero, and nothing leaves it open. -/
def truth? (d : Datum) : Option Bool :=
  match d.toNumber with
  | .integer i => some (i != 0)
  | .real x => some (!(x == 0.0))
  | _ => none

/-- The datum of a truth value. -/
def ofTruth : Option Bool → Datum
  | none => .null
  | some true => .integer 1
  | some false => .integer 0

/-- The value that shows a datum. Bytes are shown by their number. -/
def toValue : Datum → Value
  | .null => .null
  | .integer i => .number (ofInteger i)
  | .real x => .number x
  | .text s => .text s
  | .blob bytes => .text s!"<blob {bytes.length} bytes>"

/-- The datum that keeps a value. -/
def ofValue : Value → Datum
  | .null => .null
  | .number x => ofFloat x
  | .text s => .text s
  | .bool b => ofTruth (some b)

/-! ## §4 The order of data -/

/-- The place of a datum's kind among the kinds. -/
def rank : Datum → Nat
  | .null => 0
  | .integer _ | .real _ => 1
  | .text _ => 2
  | .blob _ => 3

/-- The comparison of an integer with a float, by their exact values. -/
def compareExact (i : Int) (x : Float) : Ordering :=
  match Parts.ofFloat x with
  | .nan => .gt
  | .infinite negative => if negative then .gt else .lt
  | .finite negative m => compare (i * m.ratio.2) (signed negative m.ratio.1)

/-- The comparison of two data. -/
def order (a b : Datum) : Ordering :=
  match a, b with
  | .integer i, .integer j => compare i j
  | .integer i, .real y => compareExact i y
  | .real x, .integer j => (compareExact j x).swap
  | .real x, .real y => (compare? x y).getD .eq
  | .text s, .text t => compare s t
  | .blob p, .blob q => compare (p.map UInt8.toNat) (q.map UInt8.toNat)
  | a, b => compare a.rank b.rank

end Datum

end BenchPlot.Sql
