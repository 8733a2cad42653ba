import BenchPlot.Decimal.Reading

/-!
# The fewest digits that read back

The decimal that identifies a float: among all decimals that read back to it, one with the fewest
digits, and of those the one closest to it; halfway between two, the upper one.

For `n = 1, 2, …` digits only the two neighbours of the value on the grid of `n`-digit decimals are
tried, since any decimal of the grid that reads back has a neighbour of the value between itself and
the value. Seventeen digits identify every float; the exact decimal value stands behind the search,
so that the definition never guesses.
-/

namespace BenchPlot.Decimal

/-! ## §1 Decimals -/

/-- A decimal number, `digits * 10 ^ scale`. -/
structure Digits where
  digits : Nat
  scale : Int
  deriving DecidableEq, Repr

/-- The bits of the float that a decimal reads back to. -/
def Digits.bits (d : Digits) : Nat :=
  let ratio := decimalRatio d.digits d.scale
  nearestBits ratio.1 ratio.2

/-- The decimal without the zeros at its end. -/
def Digits.stripped (d : Digits) : Digits :=
  if h : d.digits ≠ 0 ∧ d.digits % 10 = 0 then
    Digits.stripped ⟨d.digits / 10, d.scale + 1⟩
  else d
termination_by d.digits
decreasing_by omega

/-- The exact decimal value of a magnitude. -/
def Magnitude.toDigits (m : Magnitude) : Digits :=
  if 0 ≤ m.exponent then ⟨m.mantissa <<< m.exponent.toNat, 0⟩
  else ⟨m.mantissa * Nat.pow 5 (-m.exponent).toNat, m.exponent⟩

/-! ## §2 The grid -/

/-- Whether `num / den` is below `10 ^ k`. -/
def belowPower (num den : Nat) (k : Int) : Bool :=
  num * tenTo (-k).toNat < den * tenTo k.toNat

/-- The least `k` with `num / den < 10 ^ k`, for a positive fraction: the number of digits before
    the point, or minus the number of zeros behind it. The binary logarithm gives it within two. -/
def decimalSize (num den : Nat) : Int :=
  let estimate := ((Nat.log2 num : Int) - Nat.log2 den) * 30103 / 100000
  match ([estimate - 1, estimate, estimate + 1, estimate + 2] : List Int).find? (belowPower num den) with
  | some k => k
  | none => estimate + 3

/-- `num / den` in units of `10 ^ scale`, as a fraction. -/
def inPowers (num den : Nat) (scale : Int) : Nat × Nat :=
  (num * tenTo (-scale).toNat, den * tenTo scale.toNat)

/-- The neighbour of `num / den` on the grid of multiples of `10 ^ scale` that reads back to `bits`:
    the closer one if both do, and the upper one of two equally close. -/
def gridHit? (num den bits : Nat) (scale : Int) : Option Digits :=
  let scaled := inPowers num den scale
  let lower : Digits := ⟨scaled.1 / scaled.2, scale⟩
  let upper : Digits := ⟨scaled.1 / scaled.2 + 1, scale⟩
  match lower.bits == bits, upper.bits == bits with
  | true, false => some lower
  | false, true => some upper
  | true, true => if 2 * (scaled.1 % scaled.2) < scaled.2 then some lower else some upper
  | false, false => none

/-! ## §3 Selection -/

/-- The fewest digits that read back to a positive magnitude. -/
def shortest (m : Magnitude) : Digits :=
  let (num, den) := m.ratio
  let size := decimalSize num den
  let bits := nearestBits num den
  match (List.range 17).findSome? fun n => gridHit? num den bits (size - (n + 1 : Nat)) with
  | some d => d.stripped
  | none => m.toDigits.stripped

end BenchPlot.Decimal
