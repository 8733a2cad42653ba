import BenchPlot.Formula.Error

/-!
# Formula trees

The trees that formulas are read into, and the list of their nodes, parents first.
-/

namespace BenchPlot

/-- The operators with one operand. -/
inductive UnaryOp where
  | neg
  | not
  deriving DecidableEq, Repr

/-- The operators with two operands. -/
inductive BinaryOp where
  | add
  | sub
  | mul
  | div
  | pow
  | eq
  | ne
  | lt
  | le
  | gt
  | ge
  | and
  | or
  deriving DecidableEq, Repr

/-- A formula. -/
inductive Expr where
  | literal (value : Value)
  /-- A reference to the current row, a variable or a calculated variable. -/
  | column (name : String)
  | environment (name : String)
  | calculated (name : String)
  /-- A bare identifier, which stands for a parameter of the enclosing function. -/
  | parameter (name : String)
  /-- A call of a built-in function. -/
  | builtin (name : String) (args : List Expr)
  /-- A call of a named function. -/
  | call (name : String) (args : List Expr)
  | unary (op : UnaryOp) (operand : Expr)
  | binary (op : BinaryOp) (left right : Expr)
  deriving Inhabited

namespace Expr

mutual

/-- A formula and everything below it, parents first and left before right. -/
def nodes : Expr → List Expr
  | .builtin name args => .builtin name args :: nodesOfAll args
  | .call name args => .call name args :: nodesOfAll args
  | .unary op operand => .unary op operand :: nodes operand
  | .binary op left right => .binary op left right :: (nodes left ++ nodes right)
  | e => [e]

/-- The nodes of several formulas, one formula after the other. -/
def nodesOfAll : List Expr → List Expr
  | [] => []
  | e :: rest => nodes e ++ nodesOfAll rest

end

/-- Whether a formula is a text literal. -/
def isTextLiteral : Expr → Bool
  | .literal (.text _) => true
  | _ => false

end Expr

end BenchPlot
