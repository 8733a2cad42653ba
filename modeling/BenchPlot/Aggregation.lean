import BenchPlot.Statistics.Basic
import BenchPlot.Value.AxisKey

/-!
# Aggregation

The reduction of a bucket, all values that share a position along an axis, to plotted triples: a value
with a lower and an upper bound. Null values do not take part. An aggregation that works on numbers
passes over what is no number; the greatest and the least value compare as texts if one of the values
is no number.

Main definitions: `Aggregation`, `Aggregation.apply`.
-/

namespace BenchPlot

/-- The ways to reduce a bucket. -/
inductive Aggregation where
  /-- Every value for itself. -/
  | each
  | count
  | sum
  | max
  | min
  | range
  | mean
  | median
  | deviation
  /-- The deviation in units of the mean. -/
  | variation
  /-- The mean between the bounds of its confidence interval, each bound alone, and half the width. -/
  | confidence
  | confidenceLow
  | confidenceHigh
  | halfWidth
  deriving DecidableEq, Repr

/-- A value with its bounds. -/
structure Triple (β : Type) where
  value : β
  low : β
  high : β

/-- A reduced value: one of the given values, or a computed number. -/
inductive Reduced (α : Type) where
  | given (v : Value)
  | computed (x : α)

/-! ## §1 Names -/

namespace Aggregation

/-- All aggregations, in the order in which messages list them. -/
def all : List Aggregation :=
  [.each, .count, .sum, .max, .min, .range, .mean, .median, .deviation, .variation, .confidence,
    .confidenceLow, .confidenceHigh, .halfWidth]

/-- The name of an aggregation. -/
def name : Aggregation → String
  | .each => "none"
  | .count => "count"
  | .sum => "sum"
  | .max => "max"
  | .min => "min"
  | .range => "rng"
  | .mean => "avg"
  | .median => "median"
  | .deviation => "stdev"
  | .variation => "cv"
  | .confidence => "ci"
  | .confidenceLow => "ci_min"
  | .confidenceHigh => "ci_max"
  | .halfWidth => "delta"

/-- The aggregation that a text names, in any letter case and with blanks around it. -/
def ofName? (text : String) : Option Aggregation :=
  all.find? fun a => a.name == Text.asciiLower (Text.trim text)

/-- The message for a text that names no aggregation. -/
def unknownMessage (text : String) : String :=
  s!"unknown aggregation '{Text.trim text}'; expected one of " ++ ", ".intercalate (all.map name)

end Aggregation

/-! ## §2 Triples -/

namespace Triple

variable {α β : Type}

/-- A value that is its own bounds. -/
def flat (b : β) : Triple β := ⟨b, b, b⟩

/-- A computed number that is its own bounds. -/
def number (x : α) : Triple (Reduced α) := flat (.computed x)

/-- A computed number between computed bounds. -/
def spread (x low high : α) : Triple (Reduced α) := ⟨.computed x, .computed low, .computed high⟩

end Triple

/-! ## §3 Reduction -/

namespace Aggregation

/-- The first of the values that no other one exceeds in the sense of `exceeds`. -/
def foremost (exceeds : Value → Value → Bool) : List Value → Option Value
  | [] => none
  | v :: rest => some (rest.foldl (fun best w => if exceeds w best then w else best) v)

/-- The comparison of the values of a bucket: by number if all are numbers, by text otherwise. -/
def compareIn (allNumeric : Bool) (v w : Value) : Ordering :=
  if allNumeric then
    match v.toNumber?, w.toNumber? with
    | some x, some y => Decimal.totalCompare x y
    | _, _ => .eq
  else compare v.display w.display

/-- The greatest or the least value of a bucket; as a number if all values are numbers. -/
def extreme {α : Type} (wanted : Ordering) (values : List Value) : Option (Triple (Reduced α)) :=
  let allNumeric := values.all Value.isNumeric
  (foremost (fun v w => compareIn allNumeric v w == wanted) values).map fun best =>
    match allNumeric, best.toNumber? with
    | true, some x => .flat (.given (.number x))
    | _, _ => .flat (.given best)

variable {α : Type} [Arithmetic α]

/-- What an aggregation of numbers gives, if there are numbers. -/
def reduceNumbers (a : Aggregation) (xs : List α) : Option (Triple (Reduced α)) :=
  match Statistics.mean? xs, Statistics.median? xs, Statistics.deviation? xs with
  | some average, some middle, some spread =>
    let low := Arithmetic.least xs
    let high := Arithmetic.greatest xs
    let half := Statistics.halfWidth xs
    let zero : α := Arithmetic.ofNatural 0
    match a with
    | .sum => some (.number (xs.foldl (· + ·) zero))
    | .range => some (.number (high - low))
    | .mean => some (.spread average low high)
    | .median => some (.spread middle low high)
    | .deviation => some (.number spread)
    | .variation => some (.number (if Arithmetic.isZero average then zero else spread / average))
    | .confidence => some (.spread average (average - half) (average + half))
    | .confidenceLow => some (.number (average - half))
    | .confidenceHigh => some (.number (average + half))
    | .halfWidth => some (.spread half zero half)
    | _ => none
  | _, _, _ => none

/-- The triples that a bucket is reduced to: one for every value without an aggregation, and at most
    one with an aggregation. -/
def apply (a : Aggregation) (bucket : List Value) : List (Triple (Reduced α)) :=
  let present := bucket.filter fun v => !v.isNull
  if present.isEmpty then []
  else
    match a with
    | .each => present.map fun v => .flat (.given v)
    | .count => [.number (Arithmetic.ofNatural present.length)]
    | .max => (extreme .gt present).toList
    | .min => (extreme .lt present).toList
    | _ =>
      (reduceNumbers a ((present.filterMap Value.toNumber?).map Arithmetic.ofFloat)).toList

end Aggregation

end BenchPlot
