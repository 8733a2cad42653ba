/-!
# Binary64 numbers as exact fractions

A finite float is a sign and a magnitude `mantissa * 2 ^ exponent`. This module takes a float apart,
rounds a fraction of naturals to the nearest float, and derives the operations on floats that the
program needs exactly: rounding toward zero, the remainder of a division, and the total order.

Everything here is arithmetic on naturals and integers, so that statements about numbers and their
texts reduce to statements about naturals.
-/

namespace BenchPlot.Decimal

/-! ## §1 Taking a float apart -/

/-- A non-negative binary number, `mantissa * 2 ^ exponent`. -/
structure Magnitude where
  mantissa : Nat
  exponent : Int
  deriving DecidableEq, Repr

/-- What the bits of a float stand for. -/
inductive Parts where
  | nan
  | infinite (negative : Bool)
  | finite (negative : Bool) (magnitude : Magnitude)
  deriving DecidableEq, Repr

/-- The number of fractions that a float can have at one exponent. -/
def fractionSize : Nat := 1 <<< 52

/-- The bits of positive infinity. Every larger word without a sign is not a number. -/
def infinityBits : Nat := 0x7FF0000000000000

/-- The sign bit. -/
def signBit : Nat := 1 <<< 63

/-- The magnitude that the bits of a finite float without a sign stand for. -/
def Magnitude.ofBits (bits : Nat) : Magnitude :=
  let biased := bits / fractionSize
  let fraction := bits % fractionSize
  if biased = 0 then ⟨fraction, -1074⟩ else ⟨fractionSize + fraction, (biased : Int) - 1075⟩

/-- The parts that a word of bits stands for. -/
def Parts.ofBits (bits : Nat) : Parts :=
  let negative := decide (signBit ≤ bits)
  let rest := bits % signBit
  if rest < infinityBits then .finite negative (Magnitude.ofBits rest)
  else if rest = infinityBits then .infinite negative
  else .nan

/-- The parts of a float. -/
def Parts.ofFloat (x : Float) : Parts :=
  Parts.ofBits x.toBits.toNat

/-- The fraction that a magnitude is: numerator and denominator. -/
def Magnitude.ratio (m : Magnitude) : Nat × Nat :=
  (m.mantissa <<< m.exponent.toNat, 1 <<< (-m.exponent).toNat)

/-! ## §2 Rounding a fraction -/

/-- The natural number nearest to `num / den`; halfway between two, the even one. -/
def roundHalfEven (num den : Nat) : Nat :=
  let quotient := num / den
  let twice := 2 * (num % den)
  if twice < den then quotient
  else if den < twice then quotient + 1
  else if quotient % 2 = 0 then quotient else quotient + 1

/-- `num / den` in units of `2 ^ exponent`, as a fraction. -/
def inUnits (num den : Nat) (exponent : Int) : Nat × Nat :=
  (num <<< (-exponent).toNat, den <<< exponent.toNat)

/-- The exponent of the unit in the last place of the float nearest to `num / den`: the quotient in
    that unit has 53 bits, unless the unit is already the least one. -/
def unitExponent (num den : Nat) : Int :=
  let estimate := max ((Nat.log2 num : Int) - Nat.log2 den - 53) (-1074)
  let scaled := inUnits num den estimate
  -- The difference of the two logarithms is off by at most one.
  if scaled.1 / scaled.2 < 2 * fractionSize then estimate else estimate + 1

/-- The bits of the float nearest to `num / den`, ties to even; from halfway beyond the largest
    finite float on, the bits of infinity. A carry out of the fraction raises the exponent by
    itself, because the exponent stands above the fraction. -/
def nearestBits (num den : Nat) : Nat :=
  if num = 0 then 0
  else
    let unit := unitExponent num den
    let scaled := inUnits num den unit
    min (roundHalfEven scaled.1 scaled.2 + (unit + 1074).toNat * fractionSize) infinityBits

/-- The float with the given sign and unsigned bits. -/
def signedFloat (negative : Bool) (bits : Nat) : Float :=
  Float.ofBits (UInt64.ofNat (if negative then bits + signBit else bits))

/-- The float nearest to `num / den` with the given sign. -/
def nearest (negative : Bool) (num den : Nat) : Float :=
  signedFloat negative (nearestBits num den)

/-- The float nearest to a natural number. -/
def ofNatural (n : Nat) : Float :=
  nearest false n 1

/-- The float nearest to an integer. -/
def ofInteger (i : Int) : Float :=
  nearest (decide (i < 0)) i.natAbs 1

/-! ## §3 Exact operations -/

/-- The whole part of a magnitude. -/
def Magnitude.whole (m : Magnitude) : Nat :=
  m.ratio.1 / m.ratio.2

/-- A magnitude is whole iff it has no fractional part. -/
def Magnitude.isWhole (m : Magnitude) : Bool :=
  m.ratio.1 % m.ratio.2 == 0

/-- A natural number with a sign. -/
def signed (negative : Bool) (n : Nat) : Int :=
  if negative then -(n : Int) else n

/-- The finite numbers, as a test. -/
def isFinite (x : Float) : Bool :=
  match Parts.ofFloat x with
  | .finite _ _ => true
  | _ => false

/-- The integer between the bounds that is nearest to `i`. -/
def clamp (low high i : Int) : Int :=
  max low (min high i)

/-- The least and the greatest integer of 64 bits. -/
def int64Bounds : Int × Int := (-0x8000000000000000, 0x7FFFFFFFFFFFFFFF)

/-- The least and the greatest integer of 32 bits. -/
def int32Bounds : Int × Int := (-0x80000000, 0x7FFFFFFF)

/-- The float rounded toward zero, as an integer between the bounds. What is not a number is zero. -/
def toBoundedInt (bounds : Int × Int) (x : Float) : Int :=
  match Parts.ofFloat x with
  | .nan => 0
  | .infinite true => bounds.1
  | .infinite false => bounds.2
  | .finite negative m => clamp bounds.1 bounds.2 (signed negative m.whole)

/-- The float rounded toward zero; the sign of a zero and of an infinity stays. -/
def truncate (x : Float) : Float :=
  match Parts.ofFloat x with
  | .finite negative m => nearest negative m.whole 1
  | _ => x

/-- The remainder of `x / y` with the quotient rounded toward zero, which has the sign of `x`. It is
    no number if `x` is infinite or `y` is zero. -/
def remainder (x y : Float) : Float :=
  match Parts.ofFloat x, Parts.ofFloat y with
  | .finite negative a, .finite _ b =>
    if b.mantissa = 0 then 0.0 / 0.0
    else
      -- In the smaller of the two units both numbers are whole.
      let low := min a.exponent b.exponent
      let left := a.mantissa <<< (a.exponent - low).toNat
      let right := b.mantissa <<< (b.exponent - low).toNat
      let rest := inUnits (left % right) 1 (-low)
      nearest negative rest.1 rest.2
  | .finite _ _, .infinite _ => x
  | _, _ => 0.0 / 0.0

/-- `base ^ n` by repeated squaring, multiplied from the lowest binary digit of `n` up. -/
def naturalPower (base : Float) (n : Nat) (acc : Float) : Float :=
  let acc := if n % 2 = 1 then acc * base else acc
  if n / 2 = 0 then acc else naturalPower (base * base) (n / 2) acc
termination_by n
decreasing_by omega

/-- `base ^ n` for an integer `n`; a negative power is the reciprocal of the positive one. -/
def integerPower (base : Float) (n : Int) : Float :=
  let power := naturalPower base n.natAbs 1.0
  if n < 0 then 1.0 / power else power

/-! ## §4 The total order -/

/-- The place of a float in the total order: negative numbers below positive ones, `-0` directly
    below `0`, and what is not a number at the ends. -/
def orderKey (x : Float) : Int :=
  let bits := x.toBits.toNat
  if bits < signBit then bits else -((bits - signBit : Nat) : Int) - 1

/-- The comparison of two floats in the total order. -/
def totalCompare (x y : Float) : Ordering :=
  compare (orderKey x) (orderKey y)

/-- The comparison of two floats as numbers, if both are numbers. -/
def compare? (x y : Float) : Option Ordering :=
  if x < y then some .lt
  else if y < x then some .gt
  else if x == y then some .eq
  else none

/-- The smaller of two floats; what is no number gives way to a number. -/
def lesser (x y : Float) : Float :=
  if x.isNaN then y else if y < x then y else x

/-- The greater of two floats; what is no number gives way to a number. -/
def greaterOf (x y : Float) : Float :=
  if x.isNaN then y else if x < y then y else x

end BenchPlot.Decimal
