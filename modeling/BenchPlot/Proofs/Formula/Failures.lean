import BenchPlot.Formula.Basic

/-!
# Failures of operations

What operators, built-in functions and templates can fail with: an unknown function, a wrong number of arguments,
a value of the wrong type, or a malformed template. They never fail for a name that a formula refers to.

Main statements: `operational_applyBuiltin`, `operational_fillTemplate` and `Formula.operational_combine`.
-/

namespace BenchPlot

/-! ## §1 Kinds of failures -/

/-- The failures that lie in the values of an operation. -/
def FormulaError.IsOperational : FormulaError → Prop
  | .malformed _ | .unknownFunction _ | .arity .. | .mismatch _ => True
  | _ => False

/-- A result that is no failure but an operational one. -/
structure Operational {α : Type} (r : Except FormulaError α) : Prop where
  failure : ∀ {e}, r = .error e → e.IsOperational

section Results

variable {α β : Type} {r : Except FormulaError α} {e : FormulaError}

theorem operational_ok (a : α) : Operational (.ok a : Except FormulaError α) := by
  constructor
  intro e he
  cases he

theorem operational_error (h : e.IsOperational) : Operational (.error e : Except FormulaError α) := by
  constructor
  intro e' he
  cases he
  exact h

theorem Operational.bind {f : α → Except FormulaError β} (h : Operational r) (hf : ∀ a, Operational (f a)) :
    Operational (r.bind f) := by
  cases r with
  | error e => exact operational_error (h.failure rfl)
  | ok a => exact hf a

theorem Operational.map {f : α → β} (h : Operational r) : Operational (r.map f) := by
  cases r with
  | error e => exact operational_error (h.failure rfl)
  | ok a => exact operational_ok _

theorem operational_mapM {f : α → Except FormulaError β} (hf : ∀ a, Operational (f a)) (l : List α) :
    Operational (l.mapM f) := by
  induction l with
  | nil => exact operational_ok _
  | cons a l ih =>
    rw [List.mapM_cons]
    exact (hf a).bind fun b => ih.bind fun bs => operational_ok _

end Results

/-! ## §2 Templates -/

theorem Directive.operational_number (d : Directive) (value : Value) : Operational (d.number value) := by
  unfold number
  split
  · exact operational_ok _
  · exact operational_error trivial

theorem Directive.operational_fill (d : Directive) (value : Value) : Operational (d.fill value) := by
  refine Operational.map ?_
  unfold convert
  split
  · split <;> exact operational_ok _
  all_goals first | exact (d.operational_number value).map | exact operational_error trivial

theorem operational_fillPieces (template : String) (pieces : List TemplatePiece) (args : List Value) :
    Operational (fillPieces template pieces args) := by
  fun_induction fillPieces template pieces args with
  | case1 => exact operational_ok _
  | case2 c pieces args e he ih => exact operational_error (ih.failure he)
  | case3 => exact operational_ok _
  | case4 => exact operational_error trivial
  | case5 => exact operational_error trivial
  | case6 d pieces value args e he => exact operational_error ((d.operational_fill value).failure he)
  | case7 d pieces value args body hbody e he ih => exact operational_error (ih.failure he)
  | case8 => exact operational_ok _

theorem operational_fillTemplate (template : String) (args : List Value) :
    Operational (fillTemplate template args) :=
  operational_fillPieces ..

theorem Formula.operational_combine (parts : List Expr) (values : List Value) :
    Operational (combine parts values) := by
  unfold combine
  split
  · split
    · exact (operational_fillTemplate ..).map
    · exact operational_ok _
  · exact operational_ok _

/-! ## §3 Operators and built-in functions -/

theorem operational_requireNumber (site : String) (v : Value) : Operational (requireNumber site v) := by
  unfold requireNumber
  split
  · exact operational_ok _
  · exact operational_error trivial

theorem operational_arithmetic (f : Float → Float → Value) (a b : Value) : Operational (arithmetic f a b) := by
  unfold arithmetic
  split
  · exact operational_ok _
  · split
    · rename_i e he
      exact operational_error ((operational_requireNumber _ a).failure he)
    · split
      · rename_i e he
        exact operational_error ((operational_requireNumber _ b).failure he)
      · exact operational_ok _

theorem UnaryOp.operational_apply (op : UnaryOp) (v : Value) : Operational (op.apply v) := by
  unfold apply
  split
  · exact operational_ok _
  · split
    · exact operational_ok _
    · exact (operational_requireNumber ..).map

theorem BinaryOp.operational_apply (op : BinaryOp) (a b : Value) : Operational (op.apply a b) := by
  cases op <;> first | exact operational_ok _ | exact operational_arithmetic ..

theorem operational_applyNumberFunction (name : String) (f : Float → Float) (args : List Value) :
    Operational (applyNumberFunction name f args) := by
  unfold applyNumberFunction
  split
  · exact operational_ok _
  · exact (operational_requireNumber ..).map
  · exact operational_error trivial

theorem operational_applyPairFunction (name : String) (f : Float → Float → Float) (args : List Value) :
    Operational (applyPairFunction name f args) := by
  unfold applyPairFunction
  split
  · split
    · exact operational_ok _
    · split
      · rename_i e he
        exact operational_error ((operational_requireNumber _ _).failure he)
      · exact (operational_requireNumber ..).map
  · exact operational_error trivial

theorem operational_applyChoice (name : String) (f : Float → Float → Float) (args : List Value) :
    Operational (applyChoice name f args) := by
  unfold applyChoice
  split
  · exact operational_error trivial
  · exact (operational_mapM (operational_requireNumber name) _).map

theorem operational_applyTextFunction (name : String) (f : String → Value) (args : List Value) :
    Operational (applyTextFunction name f args) := by
  unfold applyTextFunction
  split
  · exact operational_ok _
  · exact operational_error trivial

theorem operational_applyFormat (args : List Value) : Operational (applyFormat args) := by
  cases args with
  | nil => exact operational_error trivial
  | cons template args => exact (operational_fillTemplate ..).map

theorem operational_applyBuiltin (name : String) (args : List Value) : Operational (applyBuiltin name args) := by
  unfold applyBuiltin
  split
  · exact operational_applyPairFunction ..
  · split
    · exact operational_applyNumberFunction ..
    · split
      · exact operational_applyChoice ..
      · split
        · exact operational_applyTextFunction ..
        · split
          · exact operational_applyFormat _
          · exact operational_error trivial

end BenchPlot
