import BenchPlot.Proofs.Formula.Failures

/-!
# Sites and their bindings

A formula sees a site through its nodes only: sites that agree on every node give one value. A failure of a
formula is a failure of an operation, or one that some node raises at the site; which branches are evaluated does
not matter for either.

The sites of a scope differ in their bindings: the row, the parameters, whether named functions are allowed, and
how many of them are active.

Main definitions: `Site.AgreesOn`, `Site.Raises`, `Bindings` and `Scope.siteAt`. Main statements:
`Expr.evaluate_congr`, `Expr.fails_of_evaluate` and `Scope.siteAt_enter`.
-/

namespace BenchPlot

/-! ## §1 Evaluation as sequences of steps -/

theorem bind_eq_error {ε α β : Type} {x : Except ε α} {f : α → Except ε β} {e : ε} :
    x.bind f = .error e ↔ x = .error e ∨ ∃ a, x = .ok a ∧ f a = .error e := by
  cases x <;> simp [Except.bind]

namespace Expr

variable (site : Site)

theorem evaluate_builtin {name : String} (h : name ≠ "if") (args : List Expr) :
    (builtin name args).evaluate site = (evaluateAll site args).bind (applyBuiltin name) := by
  rw [evaluate, if_neg h]
  cases evaluateAll site args <;> rfl

theorem evaluate_choice (args : List Expr) : (builtin "if" args).evaluate site = evaluateChoice site args := by
  rw [evaluate, if_pos rfl]

theorem evaluate_call (name : String) (args : List Expr) :
    (call name args).evaluate site
      = (site.enter name args.length).bind fun run => (evaluateAll site args).bind run := by
  rw [evaluate]
  cases site.enter name args.length with
  | error => rfl
  | ok run => cases evaluateAll site args <;> rfl

theorem evaluate_unary (op : UnaryOp) (operand : Expr) :
    (unary op operand).evaluate site = (operand.evaluate site).bind op.apply := by
  rw [evaluate]
  cases operand.evaluate site <;> rfl

theorem evaluate_binary (op : BinaryOp) (left right : Expr) :
    (binary op left right).evaluate site = (left.evaluate site).bind fun a =>
      (op.settled? a).elim ((right.evaluate site).bind (op.apply a)) .ok := by
  rw [evaluate]
  cases left.evaluate site with
  | error => rfl
  | ok a =>
    dsimp only [Except.bind]
    cases op.settled? a with
    | some v => rfl
    | none => cases right.evaluate site <;> rfl

theorem evaluateChoice_branches (condition yes no : Expr) :
    evaluateChoice site [condition, yes, no]
      = (condition.evaluate site).bind fun v => (if v.isTruthy then yes else no).evaluate site := by
  rw [evaluateChoice]
  cases condition.evaluate site with
  | error => rfl
  | ok v => exact (apply_ite (evaluate site) ..).symm

theorem evaluateChoice_of_length {args : List Expr} (h : args.length ≠ 3) :
    evaluateChoice site args = .error (.arity "if" 3 args.length) := by
  unfold evaluateChoice
  split
  · exact absurd rfl h
  · rfl

theorem evaluateAll_cons (e : Expr) (rest : List Expr) :
    evaluateAll site (e :: rest) = (e.evaluate site).bind fun v => (evaluateAll site rest).map (v :: ·) := by
  rw [evaluateAll]
  cases e.evaluate site with
  | error => rfl
  | ok v => cases evaluateAll site rest <;> rfl

theorem length_evaluateAll {site : Site} {es : List Expr} {values : List Value}
    (h : evaluateAll site es = .ok values) : values.length = es.length := by
  induction es generalizing values with
  | nil =>
    cases h
    rfl
  | cons e rest ih =>
    rw [evaluateAll_cons] at h
    cases he : e.evaluate site with
    | error => simp [he, Except.bind] at h
    | ok v =>
      cases hrest : evaluateAll site rest with
      | error => simp [he, hrest, Except.bind, Except.map] at h
      | ok vs =>
        simp only [he, hrest, Except.bind, Except.map, Except.ok.injEq] at h
        subst h
        rw [List.length_cons, List.length_cons, ih hrest]

end Expr

/-! ## §2 Sites that agree -/

/-- Whether two sites give a node the same, apart from the nodes below it. -/
def Site.AgreesOn (site site' : Site) : Expr → Prop
  | .column name => site.columnValue name = site'.columnValue name
  | .environment name => site.variableValue name = site'.variableValue name
  | .calculated name => site.calculatedValue name = site'.calculatedValue name
  | .parameter name => site.parameterValue name = site'.parameterValue name
  | .call name args => site.enter name args.length = site'.enter name args.length
  | _ => True

namespace Expr

variable {site site' : Site}

mutual

/-- Sites that agree on every node of a formula give one value. -/
theorem evaluate_congr (e : Expr) (h : ∀ node ∈ e.nodes, site.AgreesOn site' node) :
    e.evaluate site = e.evaluate site' := by
  cases e with
  | literal => rfl
  | column => exact h _ (List.mem_singleton_self _)
  | environment => exact h _ (List.mem_singleton_self _)
  | calculated => exact h _ (List.mem_singleton_self _)
  | parameter => exact h _ (List.mem_singleton_self _)
  | builtin name args =>
    have hargs := (List.forall_mem_cons.mp h).2
    by_cases hname : name = "if"
    · rw [evaluate, evaluate, if_pos hname, if_pos hname, evaluateChoice_congr args hargs]
    · rw [evaluate_builtin _ hname, evaluate_builtin _ hname, evaluateAll_congr args hargs]
  | call name args =>
    obtain ⟨hself, hargs⟩ := List.forall_mem_cons.mp h
    have henter : site.enter name args.length = site'.enter name args.length := hself
    rw [evaluate_call, evaluate_call, henter, evaluateAll_congr args hargs]
  | unary op operand =>
    rw [evaluate_unary, evaluate_unary, evaluate_congr operand (List.forall_mem_cons.mp h).2]
  | binary op left right =>
    obtain ⟨hleft, hright⟩ := List.forall_mem_append.mp (List.forall_mem_cons.mp h).2
    rw [evaluate_binary, evaluate_binary, evaluate_congr left hleft, evaluate_congr right hright]

theorem evaluateAll_congr (es : List Expr) (h : ∀ node ∈ nodesOfAll es, site.AgreesOn site' node) :
    evaluateAll site es = evaluateAll site' es := by
  cases es with
  | nil => rfl
  | cons e rest =>
    obtain ⟨hfirst, hrest⟩ := List.forall_mem_append.mp h
    rw [evaluateAll_cons, evaluateAll_cons, evaluate_congr e hfirst, evaluateAll_congr rest hrest]

theorem evaluateChoice_congr (es : List Expr) (h : ∀ node ∈ nodesOfAll es, site.AgreesOn site' node) :
    evaluateChoice site es = evaluateChoice site' es := by
  match es with
  | [condition, yes, no] =>
    simp only [nodesOfAll, List.forall_mem_append] at h
    rw [evaluateChoice, evaluateChoice, evaluate_congr condition h.1, evaluate_congr yes h.2.1,
      evaluate_congr no h.2.2.1]
  | [] | [_] | [_, _] | _ :: _ :: _ :: _ :: _ => rfl

end

end Expr

/-! ## §3 Failures at a site -/

namespace Site

/-- Whether a node itself fails at a site in a given way; of a call, whether its arguments apart it does. -/
def Raises (site : Site) (err : FormulaError) : Expr → Prop
  | .column name => site.columnValue name = .error err
  | .environment name => site.variableValue name = .error err
  | .calculated name => site.calculatedValue name = .error err
  | .parameter name => site.parameterValue name = .error err
  | .call name args => site.enter name args.length = .error err
    ∨ ∃ run values, site.enter name args.length = .ok run ∧ values.length = args.length ∧ run values = .error err
  | _ => False

/-- Whether an operation, or one of some nodes at a site, can fail in a given way. -/
def Fails (site : Site) (nodes : List Expr) (err : FormulaError) : Prop :=
  err.IsOperational ∨ ∃ node ∈ nodes, site.Raises err node

theorem Fails.mono {site : Site} {nodes nodes' : List Expr} {err : FormulaError} (h : site.Fails nodes err)
    (hsub : ∀ node ∈ nodes, node ∈ nodes') : site.Fails nodes' err :=
  h.imp_right fun ⟨node, hnode, hraises⟩ => ⟨node, hsub node hnode, hraises⟩

end Site

namespace Expr

variable {site : Site} {err : FormulaError}

mutual

/-- A failure of a formula is one of an operation, or of one of its nodes. -/
theorem fails_of_evaluate (e : Expr) (h : e.evaluate site = .error err) : site.Fails e.nodes err := by
  cases e with
  | literal => cases h
  | column => exact .inr ⟨_, List.mem_singleton_self _, h⟩
  | environment => exact .inr ⟨_, List.mem_singleton_self _, h⟩
  | calculated => exact .inr ⟨_, List.mem_singleton_self _, h⟩
  | parameter => exact .inr ⟨_, List.mem_singleton_self _, h⟩
  | builtin name args =>
    have hsub : ∀ node ∈ nodesOfAll args, node ∈ (builtin name args).nodes := fun _ => List.mem_cons_of_mem _
    by_cases hname : name = "if"
    · rw [evaluate, if_pos hname] at h
      exact (fails_of_evaluateChoice args h).mono hsub
    · rw [evaluate_builtin _ hname] at h
      rcases bind_eq_error.1 h with hargs | ⟨values, -, hbuiltin⟩
      · exact (fails_of_evaluateAll args hargs).mono hsub
      · exact .inl ((operational_applyBuiltin name values).failure hbuiltin)
  | call name args =>
    -- Refused, or failed in an argument, or entered with all arguments.
    rw [evaluate_call] at h
    rcases bind_eq_error.1 h with henter | ⟨run, henter, hrun⟩
    · exact .inr ⟨_, List.mem_cons_self .., .inl henter⟩
    · rcases bind_eq_error.1 hrun with hargs | ⟨values, hvalues, hbody⟩
      · exact (fails_of_evaluateAll args hargs).mono fun _ => List.mem_cons_of_mem _
      · exact .inr ⟨_, List.mem_cons_self .., .inr ⟨run, values, henter, length_evaluateAll hvalues, hbody⟩⟩
  | unary op operand =>
    rw [evaluate_unary] at h
    rcases bind_eq_error.1 h with hoperand | ⟨v, -, hop⟩
    · exact (fails_of_evaluate operand hoperand).mono fun _ => List.mem_cons_of_mem _
    · exact .inl ((op.operational_apply v).failure hop)
  | binary op left right =>
    rw [evaluate_binary] at h
    rcases bind_eq_error.1 h with hleft | ⟨a, -, hlater⟩
    · exact (fails_of_evaluate left hleft).mono fun _ hnode =>
        List.mem_cons_of_mem _ (List.mem_append_left _ hnode)
    · cases hsettled : op.settled? a with
      | some v =>
        rw [hsettled] at hlater
        cases hlater
      | none =>
        rw [hsettled] at hlater
        rcases bind_eq_error.1 hlater with hright | ⟨b, -, hop⟩
        · exact (fails_of_evaluate right hright).mono fun _ hnode =>
            List.mem_cons_of_mem _ (List.mem_append_right _ hnode)
        · exact .inl ((op.operational_apply a b).failure hop)

theorem fails_of_evaluateAll (es : List Expr) (h : evaluateAll site es = .error err) :
    site.Fails (nodesOfAll es) err := by
  cases es with
  | nil => cases h
  | cons e rest =>
    rw [evaluateAll_cons] at h
    rcases bind_eq_error.1 h with hfirst | ⟨v, -, hlater⟩
    · exact (fails_of_evaluate e hfirst).mono fun _ => List.mem_append_left _
    · cases hrest : evaluateAll site rest with
      | ok vs =>
        rw [hrest] at hlater
        cases hlater
      | error e' =>
        rw [hrest] at hlater
        cases hlater
        exact (fails_of_evaluateAll rest hrest).mono fun _ => List.mem_append_right _

theorem fails_of_evaluateChoice (es : List Expr) (h : evaluateChoice site es = .error err) :
    site.Fails (nodesOfAll es) err := by
  match es with
  | [condition, yes, no] =>
    have hnodes : nodesOfAll [condition, yes, no] = condition.nodes ++ (yes.nodes ++ (no.nodes ++ [])) := rfl
    rw [evaluateChoice_branches] at h
    rw [hnodes]
    rcases bind_eq_error.1 h with hcondition | ⟨v, -, hbranch⟩
    · exact (fails_of_evaluate condition hcondition).mono fun _ => List.mem_append_left _
    · cases hv : v.isTruthy with
      | true =>
        rw [hv, if_pos rfl] at hbranch
        exact (fails_of_evaluate yes hbranch).mono fun _ hnode =>
          List.mem_append_right _ (List.mem_append_left _ hnode)
      | false =>
        rw [hv, if_neg Bool.false_ne_true] at hbranch
        exact (fails_of_evaluate no hbranch).mono fun _ hnode =>
          List.mem_append_right _ (List.mem_append_right _ (List.mem_append_left _ hnode))
  | [] | [_] | [_, _] | _ :: _ :: _ :: _ :: _ =>
    cases h
    exact .inl trivial

end

end Expr

/-! ## §4 Bindings -/

/-- What varies from site to site within one scope: the current row, the parameters of the enclosing function,
    whether named functions are allowed, and how many of them are active. -/
structure Bindings where
  row : Option Row
  parameters : SortedMap String Value
  functions : Bool
  depth : Nat

namespace Bindings

/-- The bindings of a calculated variable: nothing is bound. -/
def empty : Bindings :=
  ⟨none, ∅, false, 0⟩

/-- The bindings in the body of a function that is called with values: only its parameters are bound. -/
def inFunction (b : Bindings) (f : NamedFunction) (values : List Value) : Bindings :=
  ⟨none, Scope.bindParameters f.parameters values, true, b.depth + 1⟩

end Bindings

namespace Scope

/-- The site of a scope at which something is bound. -/
def siteAt (s : Scope) (b : Bindings) : Site where
  row := b.row
  parameters := b.parameters
  variableOf := s.environment?
  calculatedValue := s.calculatedValue
  enter name count :=
    if b.functions then s.enter (maxCallDepth - b.depth) name count
    else .error (.notAllowed (.functionHere name))

/-- The site of a formula of its own is one without parameters at which no function is active. -/
theorem site_eq_siteAt (s : Scope) (row : Option Row) (functions : Bool) :
    s.site row functions = s.siteAt ⟨row, ∅, functions, 0⟩ :=
  rfl

/-- The function that a call enters, if the call is allowed, there is a level left for it, the function exists and
    the number of arguments is right. -/
def entered (s : Scope) (b : Bindings) (name : String) (count : Nat) : Except FormulaError NamedFunction :=
  if b.functions = false then .error (.notAllowed (.functionHere name))
  else if maxCallDepth ≤ b.depth then .error .depthExceeded
  else
    match s.functions.find? name with
    | none => .error (.unknownFunction name)
    | some f => if f.parameters.length = count then .ok f else .error (.arity name f.parameters.length count)

/-- A call evaluates the body of the function that it enters, with the parameters bound. -/
theorem siteAt_enter (s : Scope) (b : Bindings) (name : String) (count : Nat) :
    (s.siteAt b).enter name count
      = (s.entered b name count).map fun f values => f.body.evaluate (s.siteAt (b.inFunction f values)) := by
  obtain ⟨row, parameters, functions, depth⟩ := b
  cases functions with
  | false => rfl
  | true =>
    show s.enter (maxCallDepth - depth) name count = _
    unfold entered
    rw [if_neg (by simp)]
    dsimp only
    split
    · rename_i hdeep
      rw [Nat.sub_eq_zero_of_le hdeep]
      rfl
    · rename_i hlevel
      obtain ⟨levels, hlevels⟩ : ∃ levels, maxCallDepth - depth = levels + 1 := ⟨maxCallDepth - depth - 1, by omega⟩
      -- The levels that are open in the body are those that its depth leaves.
      have hinner : maxCallDepth - (depth + 1) = levels := by omega
      rw [hlevels, enter]
      cases s.functions.find? name with
      | none => rfl
      | some f =>
        dsimp only
        split
        · unfold Bindings.inFunction siteAt
          dsimp only
          rw [hinner]
          rfl
        · rfl

end Scope

end BenchPlot
