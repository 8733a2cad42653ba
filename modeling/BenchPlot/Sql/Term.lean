import BenchPlot.Sql.Affinity

/-!
# Terms of queries

A term is built from literals and names by operators. The names of a written term are texts; once they
are resolved against a table they are columns, and the term has a value at every row.

Truth is three-valued: nothing stands for an open condition, and a row is taken where the condition
holds. A comparison converts its sides by the affinities of the columns in it; every term that is not a
column alone has no affinity.

Main definitions: `Term`, `Term.resolve?` and `Term.evaluate`.
-/

namespace BenchPlot.Sql

/-! ## §1 Operators -/

/-- The comparisons. -/
inductive Comparison where
  | eq
  | ne
  | lt
  | le
  | gt
  | ge
  deriving DecidableEq, Repr

/-- The operators of arithmetic. -/
inductive Arithmetic where
  | add
  | sub
  | mul
  | div
  | rem
  deriving DecidableEq, Repr

/-- The operators in front of a term. `plus` changes nothing but the affinity, and `holds` settles an
    open condition. -/
inductive UnaryOp where
  | neg
  | plus
  | not
  | holds
  deriving DecidableEq, Repr

/-- The operators between two terms. -/
inductive BinaryOp where
  | or
  | and
  | is
  | like
  | compare (c : Comparison)
  | arithmetic (a : Arithmetic)
  | concat
  deriving DecidableEq, Repr

/-- A term over names of the type `ν`. -/
inductive Term (ν : Type) where
  | literal (d : Datum)
  | name (n : ν)
  | unary (op : UnaryOp) (t : Term ν)
  | binary (op : BinaryOp) (left right : Term ν)

/-! ## §2 What operators do -/

/-- Whether a comparison holds for a given order of its sides. -/
def Comparison.accepts : Comparison → Ordering → Bool
  | .eq, o => o == .eq
  | .ne, o => o != .eq
  | .lt, o => o == .lt
  | .le, o => o != .gt
  | .gt, o => o == .gt
  | .ge, o => o != .lt

/-- The result of a comparison; it is open if a side is nothing. -/
def Comparison.apply (c : Comparison) (x y : Datum) : Datum :=
  if x.isNull || y.isNull then .null else .ofTruth (some (c.accepts (x.order y)))

/-- The result of arithmetic on integers. Where it is out of range it is computed on floats. -/
def Arithmetic.onIntegers (op : Arithmetic) (i j : Int) : Datum :=
  let x := Decimal.ofInteger i
  let y := Decimal.ofInteger j
  let exact (k : Int) (z : Float) : Datum := if isInt64 k then .integer k else .ofFloat z
  match op with
  | .add => exact (i + j) (x + y)
  | .sub => exact (i - j) (x - y)
  | .mul => exact (i * j) (x * y)
  | .div => if j = 0 then .null else exact (i.tdiv j) (x / y)
  | .rem => if j = 0 then .null else .integer (i.tmod j)

/-- The result of arithmetic where not both sides are integers: on floats, but a remainder is that of
    the integers that the sides count as. -/
def Arithmetic.onFloats (op : Arithmetic) (a b : Datum) : Datum :=
  let x := a.toNumber.toFloat
  let y := b.toNumber.toFloat
  match op with
  | .add => .ofFloat (x + y)
  | .sub => .ofFloat (x - y)
  | .mul => .ofFloat (x * y)
  | .div => if y == 0.0 then .null else .ofFloat (x / y)
  | .rem =>
    if b.toInteger = 0 then .null else .real (Decimal.ofInteger (a.toInteger.tmod b.toInteger))

/-- The result of arithmetic; nothing if a side is nothing. -/
def Arithmetic.apply (op : Arithmetic) (x y : Datum) : Datum :=
  match x.toNumber, y.toNumber with
  | .null, _ => .null
  | _, .null => .null
  | .integer i, .integer j => op.onIntegers i j
  | _, _ => op.onFloats x y

/-- The ends of a list, from the whole list to the empty one. -/
def ends {α : Type} : List α → List (List α)
  | [] => [[]]
  | a :: rest => (a :: rest) :: ends rest

/-- Whether a text has the form of a pattern: `%` stands for any characters, `_` for one, and the
    letters of ASCII match in either case. -/
def matchesPattern : List Char → List Char → Bool
  | [], cs => cs.isEmpty
  | p :: pattern, cs =>
    -- The percent sign may stand for any front part, the empty one included.
    if p == '%' then (ends cs).any (matchesPattern pattern ·)
    else
      match cs with
      | [] => false
      | c :: rest => (p == '_' || p.toLower == c.toLower) && matchesPattern pattern rest

/-- A conjunction: it fails if a side fails, and is open if a side is open otherwise. -/
def conjunction : Option Bool → Option Bool → Option Bool
  | some false, _ => some false
  | _, some false => some false
  | some true, some true => some true
  | _, _ => none

/-- A disjunction: it holds if a side holds, and is open if a side is open otherwise. -/
def disjunction : Option Bool → Option Bool → Option Bool
  | some true, _ => some true
  | _, some true => some true
  | some false, some false => some false
  | _, _ => none

/-- The value of an operator in front of a term. -/
def UnaryOp.apply (op : UnaryOp) (x : Datum) : Datum :=
  match op with
  | .neg =>
    match x.toNumber with
    | .integer i => Arithmetic.onIntegers .sub 0 i
    | .real y => .ofFloat (-y)
    | d => d
  | .plus => x
  | .not => .ofTruth (x.truth?.map (!·))
  | .holds => .ofTruth (some (x.truth?.getD false))

/-- The value of an operator between two terms of the given affinities. -/
def BinaryOp.apply (op : BinaryOp) (a b : Affinity) (x y : Datum) : Datum :=
  match op with
  | .or => .ofTruth (disjunction x.truth? y.truth?)
  | .and => .ofTruth (conjunction x.truth? y.truth?)
  | .is => .ofTruth (some ((alignSides a b x y).1.order (alignSides a b x y).2 == .eq))
  | .like =>
    if x.isNull || y.isNull then .null else .ofTruth (some (matchesPattern y.chars x.chars))
  | .compare c => c.apply (alignSides a b x y).1 (alignSides a b x y).2
  | .arithmetic op => op.apply x y
  | .concat => if x.isNull || y.isNull then .null else .text (String.ofList (x.chars ++ y.chars))

/-! ## §3 Columns and values -/

/-- A column of a row: its place and its affinity. -/
structure Column where
  index : Nat
  affinity : Affinity
  deriving DecidableEq, Repr

namespace Term

/-- The term with what each name stands for in its place. -/
def resolve? {ν μ : Type} (find? : ν → Option (Term μ)) : Term ν → Option (Term μ)
  | .literal d => some (.literal d)
  | .name n => find? n
  | .unary op t => (t.resolve? find?).map (.unary op)
  | .binary op l r =>
    match l.resolve? find?, r.resolve? find? with
    | some l, some r => some (.binary op l r)
    | _, _ => none

/-- The affinity of a term. -/
def affinity : Term Column → Affinity
  | .name c => c.affinity
  | _ => .none

/-- The value of a term at a row. -/
def evaluate (cells : List Datum) : Term Column → Datum
  | .literal d => d
  | .name c => cells[c.index]?.getD .null
  | .unary op t => op.apply (t.evaluate cells)
  | .binary op l r => op.apply l.affinity r.affinity (l.evaluate cells) (r.evaluate cells)

/-- Whether a condition holds at a row. -/
def holds (t : Term Column) (cells : List Datum) : Bool :=
  (t.evaluate cells).truth? == some true

end Term

end BenchPlot.Sql
