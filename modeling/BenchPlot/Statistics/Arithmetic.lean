/-!
# The numbers of statistics

The operations that statistics and plotted coordinates are computed with. They are gathered in a
class, so that each statistic is one definition for the floats that the program computes with and for
any exact numbers.
-/

namespace BenchPlot

/-- Numbers with the operations of statistics. -/
class Arithmetic (α : Type) extends Add α, Sub α, Mul α, Div α where
  ofFloat : Float → α
  ofNatural : Nat → α
  squareRoot : α → α
  isZero : α → Bool
  isLess : α → α → Bool
  /-- The least and the greatest of several numbers. -/
  least : List α → α
  greatest : List α → α
  /-- The value that a number drawn from Student's distribution with so many degrees of freedom
      exceeds with probability 0.025. -/
  critical : Nat → α

end BenchPlot
