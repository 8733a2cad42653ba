import BenchPlot.Decimal.Binary

/-!
# The critical values of Student's distribution

The value that a number drawn from Student's distribution exceeds with probability 0.025. For whole
degrees of freedom the probability of the middle part is a finite sum, and the critical value is found
by halving an interval; for many degrees of freedom it is the normal critical value corrected by the
first terms of its expansion in the reciprocal of the degrees.
-/

namespace BenchPlot.StudentT

/-! ## §1 The probability of the middle part -/

/-- The sum of `count` terms of which each is the last one times `c * (k - 1) / k`, with `k` growing
    by two. -/
def seriesSum (c : Float) : Nat → Float → Float → Float
  | 0, _, _ => 0.0
  | count + 1, k, term => term + seriesSum c count (k + 2.0) (term * c * (k - 1.0) / k)

/-- The probability that a number drawn with `degrees` degrees of freedom lies between `-t` and
    `t`. -/
def middleProbability (degrees : Nat) (t : Float) : Float :=
  let n := Decimal.ofNatural degrees
  let c := n / (n + t * t)
  let sine := Float.sqrt (1.0 - c)
  if degrees % 2 = 0 then
    sine * seriesSum c (degrees / 2) 2.0 1.0
  else
    let angle := Float.atan (t / Float.sqrt n)
    0.6366197723675814 * (angle + sine * seriesSum c (degrees / 2) 3.0 (Float.sqrt c))

/-! ## §2 The critical value -/

/-- One halving of an interval that holds the value at which `f` reaches `target`. -/
def halve (f : Float → Float) (target : Float) (interval : Float × Float) : Float × Float :=
  let middle := (interval.1 + interval.2) / 2.0
  if f middle < target then (middle, interval.2) else (interval.1, middle)

/-- The critical value by halving the interval from 0 to 16. -/
def criticalByHalving (degrees : Nat) : Float :=
  (Nat.repeat (halve (middleProbability degrees) 0.95) 60 (0.0, 16.0)).2

/-- The normal critical value. -/
def normalCritical : Float := 1.959963984540054

/-- The critical value by its expansion in the reciprocal of the degrees. -/
def criticalByExpansion (degrees : Nat) : Float :=
  let z := normalCritical
  let w := z * z
  let n := Decimal.ofNatural degrees
  let first := z * (w + 1.0) / 4.0
  let second := z * ((5.0 * w + 16.0) * w + 3.0) / 96.0
  let third := z * (((3.0 * w + 19.0) * w + 17.0) * w - 15.0) / 384.0
  let fourth := z * ((((79.0 * w + 776.0) * w + 1482.0) * w - 1920.0) * w - 945.0) / 92160.0
  z + (first + (second + (third + fourth / n) / n) / n) / n

/-- The critical value for a positive number of degrees of freedom. -/
def critical (degrees : Nat) : Float :=
  if degrees ≤ 1000 then criticalByHalving degrees else criticalByExpansion degrees

end BenchPlot.StudentT
