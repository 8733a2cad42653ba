import BenchPlot.Statistics.Arithmetic
import BenchPlot.Statistics.StudentT

/-!
# Statistics of samples

Mean, standard deviation, median and confidence interval of a list of numbers. The mean is the running
mean, and the deviation is taken from the running sum, so that neither adds up large squares.
-/

namespace BenchPlot

/-! ## §1 Floats as numbers of statistics -/

namespace Statistics

/-- Positive infinity. -/
def infinity : Float := Decimal.signedFloat false Decimal.infinityBits

instance : Arithmetic Float where
  ofFloat := id
  ofNatural := Decimal.ofNatural
  squareRoot := Float.sqrt
  isZero x := x == 0.0
  isLess x y := x < y
  least xs := xs.foldl Decimal.lesser infinity
  greatest xs := xs.foldl Decimal.greaterOf (-infinity)
  critical := StudentT.critical

/-! ## §2 Statistics -/

variable {α : Type} [Arithmetic α]

/-- The mean of `seen` numbers, updated by the numbers that follow them. -/
def runningMean (mean : α) (seen : Nat) : List α → α
  | [] => mean
  | x :: rest =>
    runningMean (mean + (x - mean) / Arithmetic.ofNatural (seen + 1)) (seen + 1) rest

/-- The mean of the numbers, if there are any. -/
def mean? : List α → Option α
  | [] => none
  | xs => some (runningMean (Arithmetic.ofNatural 0) 0 xs)

/-- The sum of squared deviations of `seen` numbers with sum `sum`, updated by the numbers that
    follow them. -/
def squaredDeviations (squares sum : α) (seen : Nat) : List α → α
  | [] => squares
  | x :: rest =>
    let count : α := Arithmetic.ofNatural (seen + 1)
    let sum := sum + x
    let deviation := count * x - sum
    squaredDeviations
      (squares + deviation * deviation / (count * (count - Arithmetic.ofNatural 1))) sum (seen + 1) rest

/-- The standard deviation of the numbers as a sample; zero for a single number. -/
def deviation? : List α → Option α
  | [] => none
  | [_] => some (Arithmetic.ofNatural 0)
  | x :: rest =>
    some (Arithmetic.squareRoot
      (squaredDeviations (Arithmetic.ofNatural 0) x 1 rest / Arithmetic.ofNatural rest.length))

/-- The numbers in ascending order. -/
def sorted (xs : List α) : List α :=
  xs.mergeSort fun x y => !Arithmetic.isLess y x

/-- The middle number in ascending order, or the mean of the two middle numbers. -/
def median? (xs : List α) : Option α :=
  let ordered := sorted xs
  let half := xs.length / 2
  if xs.length % 2 = 1 then ordered[half]?
  else
    match ordered[half - 1]?, ordered[half]? with
    | some low, some high => some ((low + high) / Arithmetic.ofNatural 2)
    | _, _ => none

/-- The critical value for so many degrees of freedom; without any there is none. -/
def critical? (degrees : Nat) : Option α :=
  if degrees = 0 then none else some (Arithmetic.critical degrees)

/-- Half the width of the confidence interval of the mean at 95 percent; zero below two numbers. -/
def halfWidth (xs : List α) : α :=
  -- The subtraction stops at zero, and for zero degrees there is no critical value.
  match critical? (α := α) (xs.length - 1), deviation? xs with
  | some critical, some deviation =>
    critical * deviation / Arithmetic.squareRoot (Arithmetic.ofNatural xs.length)
  | _, _ => Arithmetic.ofNatural 0

end Statistics

end BenchPlot
