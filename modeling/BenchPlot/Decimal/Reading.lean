import BenchPlot.Decimal.Binary

/-!
# Reading decimal numbers

The grammar of a written number and the float that it stands for: an optional sign, then `inf`,
`infinity` or `nan` in any letter case, or digits with an optional point among them and an optional
exponent. There is no white space and no separator between digits. The float is the one nearest to
the exact decimal value.

Main definitions: `read?` for a whole text, `Numeral.toFloat` for the parts of a numeral.
-/

namespace BenchPlot.Decimal

/-! ## §1 Digits -/

/-- A character is a decimal digit iff it is one of `0` to `9`. -/
def isDigit (c : Char) : Bool :=
  '0' ≤ c && c ≤ '9'

/-- The value of a decimal digit. -/
def digitValue (c : Char) : Nat :=
  c.toNat - '0'.toNat

/-- A power of ten. -/
abbrev tenTo (n : Nat) : Nat :=
  Nat.pow 10 n

/-- The natural number that a row of digits stands for. -/
def digitsValue (ds : List Char) : Nat :=
  ds.foldl (fun n c => 10 * n + digitValue c) 0

/-- The natural number that is written as a row of digits and nothing else. -/
def readNatural? (cs : List Char) : Option Nat :=
  if !cs.isEmpty && cs.all isDigit then some (digitsValue cs) else none

/-- The decimal digits of a natural number. -/
def digitChars (n : Nat) : List Char :=
  Nat.toDigits 10 n

/-- The decimal text of a natural number. -/
def naturalText (n : Nat) : String :=
  String.ofList (digitChars n)

/-- The decimal text of an integer. -/
def integerText (i : Int) : String :=
  if i < 0 then "-" ++ naturalText i.natAbs else naturalText i.natAbs

/-! ## §2 Numerals -/

/-- A written number, `± digits * 10 ^ scale`. -/
structure Numeral where
  negative : Bool
  digits : Nat
  scale : Int
  deriving DecidableEq, Repr

/-- The fraction `digits * 10 ^ scale`. -/
def decimalRatio (digits : Nat) (scale : Int) : Nat × Nat :=
  (digits * tenTo scale.toNat, tenTo (-scale).toNat)

/-- The float nearest to a numeral. A numeral that is out of the range of floats by its size alone
    is settled without its power of ten. -/
def Numeral.toFloat (n : Numeral) : Float :=
  let size := n.scale + (digitChars n.digits).length
  if n.digits = 0 ∨ size < -400 then signedFloat n.negative 0
  else if 400 < size then signedFloat n.negative infinityBits
  else
    let ratio := decimalRatio n.digits n.scale
    nearest n.negative ratio.1 ratio.2

/-- An optional sign in front of a text: whether it is a minus, and the rest. -/
def readSign : List Char → Bool × List Char
  | '-' :: rest => (true, rest)
  | '+' :: rest => (false, rest)
  | rest => (false, rest)

/-- The exponent part of a numeral, which the text has to end with. No text means zero. -/
def readExponent? : List Char → Option Int
  | [] => some 0
  | mark :: rest =>
    if mark == 'e' || mark == 'E' then
      let (negative, digits) := readSign rest
      if digits.isEmpty || !digits.all isDigit then none
      else some (signed negative (digitsValue digits))
    else none

/-- The fraction part of a numeral: its digits and the rest. -/
def readFraction : List Char → List Char × List Char
  | '.' :: rest => (rest.takeWhile isDigit, rest.dropWhile isDigit)
  | rest => ([], rest)

/-- The numeral that a text without its sign is. -/
def readNumeral? (negative : Bool) (cs : List Char) : Option Numeral :=
  let whole := cs.takeWhile isDigit
  let (fraction, rest) := readFraction (cs.dropWhile isDigit)
  if whole.isEmpty && fraction.isEmpty then none
  else
    (readExponent? rest).map fun exponent =>
      ⟨negative, digitsValue (whole ++ fraction), exponent - fraction.length⟩

/-! ## §3 Floats -/

/-- The float that a text is, if it is one. -/
def readChars? (cs : List Char) : Option Float :=
  let (negative, body) := readSign cs
  let word := body.map Char.toLower
  if word = ['i', 'n', 'f'] ∨ word = ['i', 'n', 'f', 'i', 'n', 'i', 't', 'y'] then
    some (signedFloat negative infinityBits)
  else if word = ['n', 'a', 'n'] then some (0.0 / 0.0)
  else (readNumeral? negative body).map Numeral.toFloat

/-- The float that a string is, if it is one. -/
def read? (s : String) : Option Float :=
  readChars? s.toList

end BenchPlot.Decimal
