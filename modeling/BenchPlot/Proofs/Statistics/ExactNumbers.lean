import Mathlib
import BenchPlot.Layout.Basic

/-!
# Exact numbers

Statistics and coordinates in exact arithmetic. The numbers are those of an ordered field, in which floats are read;
of square roots and of the critical values no more is known than that they are not negative. Nothing is rounded, so
the laws of the field hold of what is computed.

Main definitions: `ExactNumbers` and the rational numbers as an instance of it.
-/

/-- Fields with a linear order that addition and multiplication respect. The class stands outside the namespace
    because the fields of tables have the same name there. -/
class ExactField (K : Type) extends Field K, LinearOrder K, IsStrictOrderedRing K

namespace BenchPlot

/-- Exact numbers to compute with: how floats are read and numbers are shown, and the functions of statistics that
    are no operations of a field. -/
class ExactNumbers (K : Type) extends ExactField K where
  ofFloat : Float → K
  toValue : K → Value
  squareRoot : K → K
  critical : Nat → K
  squareRoot_nonneg : ∀ x, 0 ≤ squareRoot x
  critical_nonneg : ∀ degrees, 0 ≤ critical degrees

/-- Exact numbers can be plotted. -/
instance (priority := low) ExactNumbers.instCoordinate {K : Type} [ExactNumbers K] : Coordinate K where
  add := (· + ·)
  sub := (· - ·)
  mul := (· * ·)
  div := (· / ·)
  ofFloat := ofFloat
  ofNatural n := (n : K)
  squareRoot := squareRoot
  isZero x := decide (x = 0)
  isLess x y := decide (x < y)
  least xs := xs.min?.getD 0
  greatest xs := xs.max?.getD 0
  critical := critical
  ofInteger i := (i : K)
  isNonPositive x := decide (x ≤ 0)
  toValue := toValue

/-! ## §1 Rational numbers -/

/-- The rational number that a finite float is. -/
def Decimal.toRational (x : Float) : ℚ :=
  match Parts.ofFloat x with
  | .finite negative m => mkRat (signed negative m.ratio.1) m.ratio.2
  | _ => 0

/-- Rational numbers are exact numbers. A root is taken of numerator and denominator, rounded down. -/
instance : ExactNumbers ℚ where
  ofFloat := Decimal.toRational
  toValue x := .number (Decimal.nearest (decide (x < 0)) x.num.natAbs x.den)
  squareRoot := Rat.sqrt
  critical degrees := |Decimal.toRational (StudentT.critical degrees)|
  squareRoot_nonneg := Rat.sqrt_nonneg
  critical_nonneg _ := abs_nonneg _

example : Decimal.toRational (-0.375) = -3 / 8 := by decide +kernel

end BenchPlot
