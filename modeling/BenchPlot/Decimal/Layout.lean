import BenchPlot.Decimal.Shortest
import BenchPlot.Text.Pieces

/-!
# Decimal texts of floats

The written forms of a float: the plain form and the tagged form show the fewest digits that read
back, the fixed form a set number of places, and the scientific form a set number of places behind
one leading digit. The last two round the exact value, ties to even.
-/

namespace BenchPlot.Decimal

open BenchPlot.Text (repeated)

/-! ## §1 Laying out digits -/

/-- A sign in front of a text, if the number is negative. -/
def withSign (negative : Bool) (body : String) : String :=
  if negative then "-" ++ body else body

/-- The texts of what is no finite number. -/
def infiniteText (negative : Bool) : String :=
  withSign negative "inf"

/-- The digits of `n` with the point before the last `places` of them. -/
def withPoint (n places : Nat) : String :=
  if places = 0 then naturalText n
  else
    let cs := digitChars n
    let padded := List.replicate (places + 1 - cs.length) '0' ++ cs
    String.ofList (padded.take (padded.length - places)) ++ "."
      ++ String.ofList (padded.drop (padded.length - places))

/-- A decimal without an exponent. -/
def Digits.plain (d : Digits) : String :=
  if 0 ≤ d.scale then naturalText (d.digits * tenTo d.scale.toNat)
  else withPoint d.digits (-d.scale).toNat

/-- The exponent of the first digit of a decimal. -/
def Digits.leading (d : Digits) : Int :=
  d.scale + (digitChars d.digits).length - 1

/-- A decimal with one digit before the point and an exponent. -/
def Digits.scientific (d : Digits) : String :=
  withPoint d.digits ((digitChars d.digits).length - 1) ++ "e" ++ integerText d.leading

/-! ## §2 The fewest digits -/

/-- The plain form: the fewest digits that read back, without an exponent. -/
def plainText (x : Float) : String :=
  match Parts.ofFloat x with
  | .nan => "NaN"
  | .infinite negative => infiniteText negative
  | .finite negative m =>
    withSign negative (if m.mantissa = 0 then "0" else (shortest m).plain)

/-- The tagged form: the fewest digits that read back, with a point or an exponent in them. The
    exponent stands for magnitudes below `10 ^ -4` and from `10 ^ 16` on. -/
def taggedText (x : Float) : String :=
  match Parts.ofFloat x with
  | .nan => "NaN"
  | .infinite negative => infiniteText negative
  | .finite negative m =>
    withSign negative <|
      if m.mantissa = 0 then "0.0"
      else
        let d := shortest m
        if d.leading < -4 ∨ 16 ≤ d.leading then d.scientific
        else if 0 ≤ d.scale then d.plain ++ ".0"
        else d.plain

/-! ## §3 A set number of places -/

/-- The fixed form: the exact value rounded to `places` places. -/
def fixedText (x : Float) (places : Nat) : String :=
  match Parts.ofFloat x with
  | .nan => "NaN"
  | .infinite negative => infiniteText negative
  | .finite negative m =>
    let (num, den) := m.ratio
    withSign negative (withPoint (roundHalfEven (num * tenTo places) den) places)

/-- A positive fraction rounded to `places + 1` digits: the digits and the exponent of the first
    one. A carry into a further digit moves the exponent. -/
def scientificDigits (num den places : Nat) : Nat × Int :=
  let size := decimalSize num den
  let scaled := inPowers num den (size - 1 - places)
  let rounded := roundHalfEven scaled.1 scaled.2
  -- Rounding up may give one digit more, which is a one with zeros behind it.
  if rounded = tenTo (places + 1) then (tenTo places, size) else (rounded, size - 1)

/-- The parts of the scientific form of a finite number: the text before the exponent, and the
    exponent. -/
def scientificParts (negative : Bool) (m : Magnitude) (places : Nat) : String × Int :=
  let (digits, exponent) :=
    if m.mantissa = 0 then (0, 0) else scientificDigits m.ratio.1 m.ratio.2 places
  (withSign negative (withPoint digits places), exponent)

/-- The float nearest to the decimal with `digits` significant digits that is nearest to `x`. -/
def roundSignificant (x : Float) (digits : Nat) : Float :=
  match Parts.ofFloat x with
  | .finite negative m =>
    if m.mantissa = 0 then x
    else
      let (rounded, exponent) := scientificDigits m.ratio.1 m.ratio.2 (digits - 1)
      (Numeral.mk negative rounded (exponent - (digits - 1 : Nat))).toFloat
  | _ => x

end BenchPlot.Decimal
