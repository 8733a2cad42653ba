import BenchPlot.Decimal.Layout

/-!
# Values

The dynamically typed data that flow from stored rows through formulas and aggregation to plotted
points, and their four views: as a number, as a condition, as text, and as a literal of a query.

Main definitions: `Value`, `Value.toNumber?`, `Value.display`, `Value.toLiteral`, `readNumber?` and
`numberText`.
-/

namespace BenchPlot

/-- A datum: nothing, a number, a text or a truth value. -/
inductive Value where
  | null
  | number (x : Float)
  | text (s : String)
  | bool (b : Bool)
  deriving Inhabited

/-! ## §1 Numbers and their texts -/

/-- The finite number that a text is, blanks around it apart. -/
def readNumber? (s : String) : Option Float :=
  (Decimal.readChars? (Text.trimChars s.toList)).filter Decimal.isFinite

/-- Magnitudes of whole numbers below this bound are written as integers. -/
def wholeBound : Nat := Decimal.tenTo 15

/-- The text of a number: whole numbers below `10 ^ 15` as integers without a sign on zero, every
    other number by the fewest digits that read back, without an exponent. -/
def numberText (x : Float) : String :=
  match Decimal.Parts.ofFloat x with
  | .finite negative m =>
    if m.isWhole && m.whole < wholeBound then
      Decimal.integerText (Decimal.signed negative m.whole)
    else Decimal.plainText x
  | _ => Decimal.plainText x

namespace Value

/-! ## §2 Views -/

/-- Whether a value is null. -/
def isNull : Value → Bool
  | .null => true
  | _ => false

/-- Whether a value is a truth value. -/
def isBool : Value → Bool
  | .bool _ => true
  | _ => false

/-- The number that a value stands for. A text counts if it is a finite number; the truth values
    are one and zero. -/
def toNumber? : Value → Option Float
  | .null => none
  | .number x => some x
  | .text s => readNumber? s
  | .bool b => some (if b then 1.0 else 0.0)

/-- Whether a value is a number or the text of one. -/
def isNumeric : Value → Bool
  | .number _ => true
  | .text s => (readNumber? s).isSome
  | _ => false

/-- A value as a condition: null, zero, the empty text and `false` do not hold. -/
def isTruthy : Value → Bool
  | .null => false
  | .number x => !(x == 0.0)
  | .text s => !s.isEmpty
  | .bool b => b

/-- The text that shows a value. -/
def display : Value → String
  | .null => ""
  | .number x => numberText x
  | .text s => s
  | .bool true => "true"
  | .bool false => "false"

/-! ## §3 Literals -/

/-- A text between single quotes, each quote inside written twice. -/
def quoted (s : String) : String :=
  "'" ++ Text.replaceChar '\'' ['\'', '\''] s ++ "'"

/-- The literal that stands for a value in a query. A text that is a number stands for the
    number. -/
def toLiteral : Value → String
  | .null => "NULL"
  | .number x => numberText x
  | .bool b => if b then "1" else "0"
  | .text s =>
    match readNumber? s with
    | some x => numberText x
    | none => quoted s

end Value

end BenchPlot
