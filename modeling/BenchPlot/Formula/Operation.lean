import BenchPlot.Formula.Expr
import BenchPlot.Formula.Template
import BenchPlot.Text.LetterCase

/-!
# Operations on values

What the operators and the built-in functions of formulas compute, once their operands are values.
Null operands give null, and so does every result that is no finite number.
-/

namespace BenchPlot

/-! ## §1 Numbers -/

/-- A result as a value: what is no finite number is null. -/
def finiteOrNull (x : Float) : Value :=
  if Decimal.isFinite x then .number x else .null

/-- The number of a value. The site is the one that the message names. -/
def requireNumber (site : String) (v : Value) : Except FormulaError Float :=
  match v.toNumber? with
  | some x => .ok x
  | none => .error (.mismatch (.notANumber site v))

/-- The remainder of a division; by zero there is none. -/
def moduloOf (x y : Float) : Float :=
  if y == 0.0 then 0.0 / 0.0 else Decimal.remainder x y

/-- The logarithm of `x` to the base `base`. -/
def logarithmTo (x base : Float) : Float :=
  Float.log x / Float.log base

/-- `x` rounded to a number of decimal places, which may be negative. -/
def roundTo (x places : Float) : Float :=
  let factor := Decimal.integerPower 10.0 (Decimal.toBoundedInt Decimal.int32Bounds places)
  Float.round (x * factor) / factor

/-- The number of characters of a text, counted in a word of 64 bits. -/
def countOf (s : String) : UInt64 :=
  UInt64.ofNat s.length

/-! ## §2 Operators -/

/-- The comparison of two values, if they compare: as numbers if both are numbers, as texts
    otherwise. Null equals null only. -/
def Value.compare? (a b : Value) : Option Ordering :=
  match a, b with
  | .null, .null => some .eq
  | .null, _ => none
  | _, .null => none
  | a, b =>
    match a.toNumber?, b.toNumber? with
    | some x, some y => Decimal.compare? x y
    | _, _ => some (compare a.display b.display)

/-- The sum of two values: of numbers if both are numbers and neither is a truth value, and the two
    texts together otherwise. -/
def Value.plus (a b : Value) : Value :=
  match a, b with
  | .null, _ => .null
  | _, .null => .null
  | a, b =>
    match a.toNumber?, b.toNumber? with
    | some x, some y =>
      if a.isBool || b.isBool then .text (a.display ++ b.display) else finiteOrNull (x + y)
    | _, _ => .text (a.display ++ b.display)

/-- An arithmetic operation on the numbers of two values. -/
def arithmetic (f : Float → Float → Value) (a b : Value) : Except FormulaError Value :=
  if a.isNull || b.isNull then .ok .null
  else
    match requireNumber "arithmetic" a with
    | .error e => .error e
    | .ok x =>
      match requireNumber "arithmetic" b with
      | .error e => .error e
      | .ok y => .ok (f x y)

/-- What an operator with one operand gives. -/
def UnaryOp.apply (op : UnaryOp) (v : Value) : Except FormulaError Value :=
  match op with
  | .not => .ok (.bool !v.isTruthy)
  | .neg =>
    match v with
    | .null => .ok .null
    | v => (requireNumber "unary '-'" v).map fun x => .number (-x)

/-- What an operator with two operands gives. -/
def BinaryOp.apply (op : BinaryOp) (a b : Value) : Except FormulaError Value :=
  match op with
  | .eq => .ok (.bool (a.compare? b == some .eq))
  | .ne => .ok (.bool (a.compare? b != some .eq))
  | .lt => .ok (.bool (a.compare? b == some .lt))
  | .le => .ok (.bool ((a.compare? b).any fun o => o != .gt))
  | .gt => .ok (.bool (a.compare? b == some .gt))
  | .ge => .ok (.bool ((a.compare? b).any fun o => o != .lt))
  | .add => .ok (a.plus b)
  | .sub => arithmetic (fun x y => finiteOrNull (x - y)) a b
  | .mul => arithmetic (fun x y => finiteOrNull (x * y)) a b
  | .div => arithmetic (fun x y => if y == 0.0 then .null else finiteOrNull (x / y)) a b
  | .pow => arithmetic (fun x y => finiteOrNull (Float.pow x y)) a b
  | .and => .ok (.bool (a.isTruthy && b.isTruthy))
  | .or => .ok (.bool (a.isTruthy || b.isTruthy))

/-- Whether the left operand alone settles what an operator gives, and what it gives then. -/
def BinaryOp.settled? (op : BinaryOp) (a : Value) : Option Value :=
  match op with
  | .and => if a.isTruthy then none else some (.bool false)
  | .or => if a.isTruthy then some (.bool true) else none
  | _ => none

/-! ## §3 Built-in functions -/

/-- The functions of one number. -/
def numberFunction? (name : String) : Option (Float → Float) :=
  match name with
  | "abs" => some Float.abs
  | "sqrt" => some Float.sqrt
  | "exp" => some Float.exp
  | "log" => some Float.log
  | "log2" => some Float.log2
  | "log10" => some Float.log10
  | "floor" => some Float.floor
  | "ceil" => some Float.ceil
  | "int" => some Decimal.truncate
  | "float" => some id
  | "round" => some Float.round
  | _ => none

/-- The functions of two numbers, by the number of arguments that are given: a logarithm and a
    rounding take their second argument only if it is there. -/
def pairFunction? (name : String) (count : Nat) : Option (Float → Float → Float) :=
  match name with
  | "pow" => some Float.pow
  | "mod" => some moduloOf
  | "log" => if count = 2 then some logarithmTo else none
  | "round" => if count = 2 then some roundTo else none
  | _ => none

/-- The functions that pick one of several numbers. -/
def choiceFunction? (name : String) : Option (Float → Float → Float) :=
  match name with
  | "min" => some Decimal.lesser
  | "max" => some Decimal.greaterOf
  | _ => none

/-- The functions of one text. -/
def textFunction? (name : String) : Option (String → Value) :=
  match name with
  | "str" => some .text
  | "len" => some fun s => .number (Decimal.ofNatural (countOf s).toNat)
  | "upper" => some fun s => .text (Text.upper s)
  | "lower" => some fun s => .text (Text.lower s)
  | _ => none

/-- What a function of one number gives for its arguments. -/
def applyNumberFunction (name : String) (f : Float → Float) : List Value → Except FormulaError Value
  | [.null] => .ok .null
  | [v] => (requireNumber name v).map fun x => finiteOrNull (f x)
  | args => .error (.arity name 1 args.length)

/-- What a function of two numbers gives for its arguments. -/
def applyPairFunction (name : String) (f : Float → Float → Float) :
    List Value → Except FormulaError Value
  | [a, b] =>
    if a.isNull || b.isNull then .ok .null
    else
      match requireNumber name a with
      | .error e => .error e
      | .ok x => (requireNumber name b).map fun y => finiteOrNull (f x y)
  | args => .error (.arity name 2 args.length)

/-- What a choice among numbers gives for its arguments. Null arguments do not take part. -/
def applyChoice (name : String) (f : Float → Float → Float) (args : List Value) :
    Except FormulaError Value :=
  if args.isEmpty then .error (.arity name 1 0)
  else
    ((args.filter fun v => !v.isNull).mapM (requireNumber name)).map fun numbers =>
      match numbers with
      | [] => .null
      | x :: rest => .number (rest.foldl f x)

/-- What a function of one text gives for its arguments. -/
def applyTextFunction (name : String) (f : String → Value) : List Value → Except FormulaError Value
  | [v] => .ok (f v.display)
  | args => .error (.arity name 1 args.length)

/-- What a template gives for its arguments. -/
def applyFormat : List Value → Except FormulaError Value
  | [] => .error (.arity "format" 1 0)
  | template :: args => (fillTemplate template.display args).map .text

/-- What a built-in function gives for its arguments. -/
def applyBuiltin (name : String) (args : List Value) : Except FormulaError Value :=
  match pairFunction? name args.length with
  | some f => applyPairFunction name f args
  | none =>
    match numberFunction? name with
    | some f => applyNumberFunction name f args
    | none =>
      match choiceFunction? name with
      | some f => applyChoice name f args
      | none =>
        match textFunction? name with
        | some f => applyTextFunction name f args
        | none => if name = "format" then applyFormat args else .error (.unknownFunction name)

end BenchPlot
