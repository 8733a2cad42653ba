import BenchPlot.Sql.Datum

/-!
# Affinities

The kind of data that a column prefers. A column turns what is stored in it into its kind where nothing
is lost, and a comparison with a column turns the other side likewise: text is compared with a numeric
column as a number if it is one, and a number with a text column as a text.
-/

namespace BenchPlot.Sql

open BenchPlot.Decimal

/-- The preferred kind of data of a column; a term that is no column prefers none. -/
inductive Affinity where
  | none
  | text
  | integer
  | real
  deriving DecidableEq, Repr

/-- Whether a column prefers numbers. -/
def Affinity.isNumeric : Affinity → Bool
  | .integer | .real => true
  | _ => false

/-! ## §1 Conversions -/

namespace Datum

/-- A number as its text; other data stay. -/
def preferText : Datum → Datum
  | .integer i => .text (integerText i)
  | .real x => .text (realText x)
  | d => d

/-- A text that is a number as the number; other data stay. -/
def preferNumber : Datum → Datum
  | .text s => (number? s).getD (.text s)
  | d => d

/-- A float with an integer value as the integer; other data stay. -/
def preferInteger (d : Datum) : Datum :=
  match d with
  | .real x =>
    match Parts.ofFloat x with
    | .finite negative m =>
      if m.isWhole && isInt64 (signed negative m.whole) then .integer (signed negative m.whole) else d
    | _ => d
  | _ => d

/-- A number as a float, without a sign on zero; other data stay. -/
def preferReal : Datum → Datum
  | .integer i => .real (ofInteger i)
  | .real x => .real (if x == 0.0 then 0.0 else x)
  | d => d

end Datum

/-! ## §2 Storing and comparing -/

/-- What a column keeps of a datum. -/
def Affinity.store (a : Affinity) (d : Datum) : Datum :=
  match a with
  | .none => d
  | .text => d.preferText
  | .integer => d.preferNumber.preferInteger
  | .real => d.preferNumber.preferReal

/-- The two sides of a comparison as they are compared, each with the affinity of its term. -/
def alignSides (a b : Affinity) (x y : Datum) : Datum × Datum :=
  if a.isNumeric || b.isNumeric then (x.preferNumber, y.preferNumber)
  else
    match a, b with
    | .text, .none | .none, .text => (x.preferText, y.preferText)
    | _, _ => (x, y)

end BenchPlot.Sql
