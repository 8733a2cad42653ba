import BenchPlot.Proofs.Formula.Evaluating

/-!
# Checked definitions are enough

The checks look at a definition once; failures arise later, while formulas go from one stored formula into the
next under ever other bindings. A calculated variable sees variables only, so nothing fails in it but a variable
without a value, or an operation. The body of a function sees its parameters, all of them bound, and otherwise
what is stored: calculated variables, and further functions one level deeper. So nothing in it, however deep,
fails for an identifier or a column, or is not allowed.

Main statements: `Checked.failure_of_calculated`, `Checked.failure_of_body` and `Reachable.checks_suffice`.
-/

namespace BenchPlot

/-! ## §1 Kinds of failures -/

namespace FormulaError

/-- The failures for what is not visible at a site: an identifier or a column without a value, and what is not
    allowed there. -/
def LeavesSite : FormulaError → Prop
  | .unknownIdentifier _ | .unknownColumn _ | .notAllowed _ => True
  | _ => False

/-- The failures for what a calculated variable may not refer to. -/
def LeavesVariables : FormulaError → Prop
  | .unknownCalculated _ | .depthExceeded => True
  | err => err.LeavesSite

variable {err : FormulaError}

theorem IsOperational.not_leavesSite (h : err.IsOperational) : ¬err.LeavesSite := by
  cases err <;> first | exact id | exact h.elim

theorem IsOperational.not_leavesVariables (h : err.IsOperational) : ¬err.LeavesVariables := by
  cases err <;> first | exact id | exact h.elim

end FormulaError

theorem Site.variableValue_eq_error {site : Site} {name : String} {err : FormulaError}
    (h : site.variableValue name = .error err) : err = .unknownVariable name := by
  unfold variableValue at h
  split at h <;> cases h
  rfl

theorem Site.parameterValue_eq_error {site : Site} {name : String} {err : FormulaError}
    (h : site.parameterValue name = .error err) :
    site.parameters.find? name = none ∧ err = .unknownIdentifier name := by
  unfold parameterValue at h
  split at h
  · cases h
  · rename_i hnone
    cases h
    exact ⟨hnone, rfl⟩

namespace Scope

variable {s : Scope} {b : Bindings} {err : FormulaError}

/-! ## §2 Calculated variables -/

/-- In the formula of a calculated variable only an operation fails, or a variable without a value. -/
theorem Checked.failure_of_calculated (hs : s.Checked) {name : String} {e : Expr}
    (hfound : s.calculated.find? name = some e) (h : e.evaluate (s.siteAt b) = .error err) :
    ¬err.LeavesVariables := by
  rcases Expr.fails_of_evaluate e h with hop | ⟨node, hnode, hraises⟩
  · exact hop.not_leavesVariables
  · have hout := hs.calculated hfound node hnode
    cases node with
    | environment ref =>
      rw [Site.variableValue_eq_error hraises]
      exact id
    | column | calculated | parameter | call => exact absurd trivial hout
    | literal | builtin | unary | binary => exact hraises.elim

theorem Checked.failure_of_calculatedValue (hs : s.Checked) {name : String}
    (h : s.calculatedValue name = .error err) : ¬err.LeavesSite := by
  cases hfound : s.calculated.find? name with
  | none =>
    rw [calculatedValue, hfound] at h
    cases h
    exact id
  | some e =>
    rw [hs.calculatedValue_eq hfound .empty] at h
    have hvariables := hs.failure_of_calculated hfound h
    cases err <;> first | exact id | exact hvariables

/-! ## §3 Bodies of functions -/

/-- A function that gets as many values as it has parameters has a value for each of them. -/
theorem isSome_bindParameters {parameters : List String} {values : List Value}
    (hcount : values.length = parameters.length) {name : String} (hname : name ∈ parameters) :
    ((bindParameters parameters values).find? name).isSome = true := by
  refine SortedMap.isSome_find?_ofList ?_
  rwa [List.map_fst_zip (Nat.le_of_eq hcount.symm)]

/-- A call that is allowed fails for the number of levels, for the function or for its arity. -/
theorem entered_eq_error (hallowed : b.functions = true) {name : String} {count : Nat}
    (h : s.entered b name count = .error err) : ¬err.LeavesSite := by
  unfold entered at h
  rw [hallowed, if_neg (by decide)] at h
  split at h
  · cases h
    exact id
  · split at h
    · cases h
      exact id
    · split at h <;> cases h
      exact id

/-- A call fails where it is refused, or in the body of the function that it enters. -/
theorem raises_call {callee : String} {args : List Expr} (h : (s.siteAt b).Raises err (.call callee args)) :
    s.entered b callee args.length = .error err ∨ ∃ g values, s.functions.find? callee = some g
      ∧ b.depth < maxCallDepth ∧ values.length = g.parameters.length
      ∧ g.body.evaluate (s.siteAt (b.inFunction g values)) = .error err := by
  simp only [Site.Raises, siteAt_enter] at h
  cases hentered : s.entered b callee args.length with
  | error err' =>
    rw [hentered] at h
    rcases h with hrefused | ⟨run, _, hrun, -⟩
    · cases hrefused
      exact .inl rfl
    · cases hrun
  | ok g =>
    rw [hentered] at h
    rcases h with hrefused | ⟨run, values, hrun, hcount, hbody⟩
    · cases hrefused
    · cases hrun
      obtain ⟨-, hlevel, hg, harity⟩ := entered_eq_ok hentered
      exact .inr ⟨g, values, hg, hlevel, hcount.trans harity.symm, hbody⟩

/-- In the body of a function, called with as many values as it has parameters, nothing fails for what is not
    visible there. -/
theorem Checked.failure_of_body (hs : s.Checked) {name : String} {f : NamedFunction} {values : List Value}
    (hfound : s.functions.find? name = some f) (hcount : values.length = f.parameters.length)
    (h : f.body.evaluate (s.siteAt (b.inFunction f values)) = .error err) : ¬err.LeavesSite := by
  -- The induction is on the levels that are left for calls.
  induction hlevels : maxCallDepth - b.depth using Nat.strongRecOn generalizing b name f values with
  | _ levels ih =>
    rcases Expr.fails_of_evaluate f.body h with hop | ⟨node, hnode, hraises⟩
    · exact hop.not_leavesSite
    · have hfits := hs.functions hfound node hnode
      cases node with
      | column => exact hfits.elim
      | environment ref =>
        rw [Site.variableValue_eq_error hraises]
        exact id
      | calculated => exact hs.failure_of_calculatedValue hraises
      | parameter ref =>
        have hbound := isSome_bindParameters hcount hfits
        have hunbound : (bindParameters f.parameters values).find? ref = none :=
          (Site.parameterValue_eq_error hraises).1
        rw [hunbound] at hbound
        cases hbound
      | call callee args =>
        rcases raises_call hraises with hrefused | ⟨g, passed, hg, hlevel, hpassed, hbody⟩
        · exact entered_eq_error rfl hrefused
        · unfold Bindings.inFunction at hlevel
          dsimp only at hlevel
          exact ih (maxCallDepth - (b.depth + 1)) (by omega) hg hpassed hbody rfl
      | literal | builtin | unary | binary => exact hraises.elim

/-- In a reachable scope no formula of a calculated variable fails for what it may not refer to; and once a call
    has entered a function and has evaluated the arguments, the body fails for nothing that is not visible in it,
    however deep functions and calculated variables nest. -/
theorem Reachable.checks_suffice (h : s.Reachable) :
    (∀ name e, s.calculated.find? name = some e →
      ∀ b err, e.evaluate (s.siteAt b) = .error err → ¬err.LeavesVariables)
    ∧ ∀ b name args f values, s.entered b name args.length = .ok f →
      Expr.evaluateAll (s.siteAt b) args = .ok values →
        ∀ err, f.body.evaluate (s.siteAt (b.inFunction f values)) = .error err → ¬err.LeavesSite := by
  have hs := h.checked
  refine ⟨fun name e hfound b err => hs.failure_of_calculated hfound, ?_⟩
  intro b name args f values hentered hvalues err
  obtain ⟨-, -, hfound, harity⟩ := entered_eq_ok hentered
  exact hs.failure_of_body hfound ((Expr.length_evaluateAll hvalues).trans harity.symm)

/-- The body of a function that calls itself without end fails, but not for its parameter. -/
theorem sample_checks_suffice :
    (∀ err, (Expr.environment "d").evaluate (sample.siteAt .empty) = .error err → ¬err.LeavesVariables)
    ∧ ∃ f err, sample.entered ⟨none, ∅, true, 0⟩ "f" 1 = .ok f
      ∧ f.body.evaluate (sample.siteAt (Bindings.inFunction ⟨none, ∅, true, 0⟩ f [.null])) = .error err
      ∧ ¬err.LeavesSite := by
  obtain ⟨hcalculated, hbodies⟩ := reachable_sample.checks_suffice
  have hfound : sample.calculated.find? "c" = some (.environment "d") := by
    rw [sample_eq]
    rfl
  obtain ⟨f, hentered, hvalue⟩ : ∃ f, sample.entered ⟨none, ∅, true, 0⟩ "f" 1 = .ok f
      ∧ f.body.evaluate (sample.siteAt (Bindings.inFunction ⟨none, ∅, true, 0⟩ f [.null]))
        = .error .depthExceeded := by
    rw [sample_eq]
    exact ⟨_, rfl, rfl⟩
  exact ⟨hcalculated "c" _ hfound .empty, f, _, hentered, hvalue,
    hbodies _ "f" [.literal .null] f [.null] hentered rfl _ hvalue⟩

end Scope

end BenchPlot
