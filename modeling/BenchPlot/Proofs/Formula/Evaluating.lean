import BenchPlot.Proofs.Formula.Definitions
import BenchPlot.Proofs.Formula.Sites

/-!
# Runs of an evaluation

The evaluation of a formula as a derivation: one rule for each way in which a node gets its value or fails. The
rules go from a calculated variable to its stored formula, and from a call to the stored body of the function;
neither is smaller than the formula that refers to it. Every formula has a run all the same: each call takes a
level, and the formula of a calculated variable refers to nothing that is stored.

Along with the result a run counts how many function bodies are active at once at most.

Main definition: `Evaluates`. Main statements: `Evaluates.sound`, `exists_evaluates` and
`Reachable.terminates`.
-/

namespace BenchPlot

/-! ## §1 Derivations -/

mutual

/-- A formula of a scope is evaluated under some bindings, with a result and a greatest number of function bodies
    that are active at once. -/
inductive Evaluates (s : Scope) : Bindings → Expr → Except FormulaError Value → Nat → Prop
  | literal {b : Bindings} (v : Value) : Evaluates s b (.literal v) (.ok v) 0
  | column {b : Bindings} (name : String) : Evaluates s b (.column name) ((s.siteAt b).columnValue name) 0
  | environment {b : Bindings} (name : String) :
    Evaluates s b (.environment name) ((s.siteAt b).variableValue name) 0
  | parameter {b : Bindings} (name : String) : Evaluates s b (.parameter name) ((s.siteAt b).parameterValue name) 0
  | undefined {b : Bindings} {name : String} (hnone : s.calculated.find? name = none) :
    Evaluates s b (.calculated name) (.error (.unknownCalculated name)) 0
  /-- The stored formula is evaluated with nothing bound. -/
  | calculated {b : Bindings} {name : String} {e : Expr} {r : Except FormulaError Value} {n : Nat}
    (hfound : s.calculated.find? name = some e) (hrun : Evaluates s .empty e r n) :
    Evaluates s b (.calculated name) r n
  | builtin {b : Bindings} {name : String} {args : List Expr} {r : Except FormulaError (List Value)} {n : Nat}
    (hname : name ≠ "if") (hargs : EvaluatesAll s b args r n) :
    Evaluates s b (.builtin name args) (r.bind (applyBuiltin name)) n
  | badChoice {b : Bindings} {args : List Expr} (hargs : args.length ≠ 3) :
    Evaluates s b (.builtin "if" args) (.error (.arity "if" 3 args.length)) 0
  | failedChoice {b : Bindings} {condition yes no : Expr} {err : FormulaError} {n : Nat}
    (hcondition : Evaluates s b condition (.error err) n) :
    Evaluates s b (.builtin "if" [condition, yes, no]) (.error err) n
  | choice {b : Bindings} {condition yes no : Expr} {v : Value} {r : Except FormulaError Value} {m n : Nat}
    (hcondition : Evaluates s b condition (.ok v) m) (hbranch : Evaluates s b (if v.isTruthy then yes else no) r n) :
    Evaluates s b (.builtin "if" [condition, yes, no]) r (max m n)
  | refusedCall {b : Bindings} {name : String} {args : List Expr} {err : FormulaError}
    (hentered : s.entered b name args.length = .error err) : Evaluates s b (.call name args) (.error err) 0
  | failedCall {b : Bindings} {name : String} {args : List Expr} {f : NamedFunction} {err : FormulaError} {n : Nat}
    (hentered : s.entered b name args.length = .ok f) (hargs : EvaluatesAll s b args (.error err) n) :
    Evaluates s b (.call name args) (.error err) n
  /-- The body is active beside whatever it calls; the arguments are evaluated before. -/
  | call {b : Bindings} {name : String} {args : List Expr} {f : NamedFunction} {values : List Value}
    {r : Except FormulaError Value} {m n : Nat} (hentered : s.entered b name args.length = .ok f)
    (hargs : EvaluatesAll s b args (.ok values) m) (hbody : Evaluates s (b.inFunction f values) f.body r n) :
    Evaluates s b (.call name args) r (max m (n + 1))
  | unary {b : Bindings} {op : UnaryOp} {operand : Expr} {r : Except FormulaError Value} {n : Nat}
    (hoperand : Evaluates s b operand r n) : Evaluates s b (.unary op operand) (r.bind op.apply) n
  | failedBinary {b : Bindings} {op : BinaryOp} {left right : Expr} {err : FormulaError} {n : Nat}
    (hleft : Evaluates s b left (.error err) n) : Evaluates s b (.binary op left right) (.error err) n
  | settledBinary {b : Bindings} {op : BinaryOp} {left right : Expr} {a v : Value} {n : Nat}
    (hleft : Evaluates s b left (.ok a) n) (hsettled : op.settled? a = some v) :
    Evaluates s b (.binary op left right) (.ok v) n
  | binary {b : Bindings} {op : BinaryOp} {left right : Expr} {a : Value} {r : Except FormulaError Value} {m n : Nat}
    (hleft : Evaluates s b left (.ok a) m) (hopen : op.settled? a = none) (hright : Evaluates s b right r n) :
    Evaluates s b (.binary op left right) (r.bind (op.apply a)) (max m n)

/-- Several formulas are evaluated, up to the first failure. -/
inductive EvaluatesAll (s : Scope) : Bindings → List Expr → Except FormulaError (List Value) → Nat → Prop
  | nil {b : Bindings} : EvaluatesAll s b [] (.ok []) 0
  | fail {b : Bindings} {e : Expr} {rest : List Expr} {err : FormulaError} {n : Nat}
    (hfirst : Evaluates s b e (.error err) n) : EvaluatesAll s b (e :: rest) (.error err) n
  | cons {b : Bindings} {e : Expr} {rest : List Expr} {v : Value} {r : Except FormulaError (List Value)} {m n : Nat}
    (hfirst : Evaluates s b e (.ok v) m) (hrest : EvaluatesAll s b rest r n) :
    EvaluatesAll s b (e :: rest) (r.map (v :: ·)) (max m n)

end

variable {s : Scope}

/-! ## §2 Formulas that refer to nothing stored -/

theorem Expr.mem_nodes_branch {condition yes no node : Expr} {chosen : Bool}
    (h : node ∈ (if chosen then yes else no).nodes) : node ∈ nodesOfAll [condition, yes, no] := by
  have hnodes : nodesOfAll [condition, yes, no] = condition.nodes ++ (yes.nodes ++ (no.nodes ++ [])) := rfl
  rw [hnodes]
  cases chosen with
  | true => exact List.mem_append_right _ (List.mem_append_left _ h)
  | false => exact List.mem_append_right _ (List.mem_append_right _ (List.mem_append_left _ h))

mutual

/-- No function body is active in a run of a formula that refers to nothing stored. -/
theorem Evaluates.quiet {b : Bindings} {e : Expr} {r : Except FormulaError Value} {n : Nat} :
    Evaluates s b e r n → (∀ node ∈ e.nodes, ¬node.RefersOut) → n = 0
  | .literal _, _ | .column _, _ | .environment _, _ | .parameter _, _ | .undefined _, _ | .badChoice _, _
  | .refusedCall _, _ => rfl
  | .calculated .., hout => absurd trivial (hout _ (List.mem_singleton_self _))
  | .failedCall .., hout | .call .., hout => absurd trivial (hout _ (List.mem_cons_self ..))
  | .builtin _ hargs, hout => hargs.quiet (List.forall_mem_cons.mp hout).2
  | .failedChoice hcondition, hout =>
    hcondition.quiet (List.forall_mem_append.mp (List.forall_mem_cons.mp hout).2).1
  | .choice hcondition hbranch, hout => by
    have hargs := (List.forall_mem_cons.mp hout).2
    rw [hcondition.quiet (List.forall_mem_append.mp hargs).1,
      hbranch.quiet fun node hnode => hargs node (Expr.mem_nodes_branch hnode), Nat.max_self]
  | .unary hoperand, hout => hoperand.quiet (List.forall_mem_cons.mp hout).2
  | .failedBinary hleft, hout | .settledBinary hleft _, hout =>
    hleft.quiet (List.forall_mem_append.mp (List.forall_mem_cons.mp hout).2).1
  | .binary hleft _ hright, hout => by
    obtain ⟨hl, hr⟩ := List.forall_mem_append.mp (List.forall_mem_cons.mp hout).2
    rw [hleft.quiet hl, hright.quiet hr, Nat.max_self]
termination_by structural h => h

theorem EvaluatesAll.quiet {b : Bindings} {es : List Expr} {r : Except FormulaError (List Value)} {n : Nat} :
    EvaluatesAll s b es r n → (∀ node ∈ Expr.nodesOfAll es, ¬node.RefersOut) → n = 0
  | .nil, _ => rfl
  | .fail hfirst, hout => hfirst.quiet (List.forall_mem_append.mp hout).1
  | .cons hfirst hrest, hout => by
    obtain ⟨hf, hr⟩ := List.forall_mem_append.mp hout
    rw [hfirst.quiet hf, hrest.quiet hr, Nat.max_self]
termination_by structural h => h

end

/-- Only its variables matter for a formula that refers to nothing else. -/
theorem Expr.evaluate_of_not_refersOut {site site' : Site} {e : Expr} (hout : ∀ node ∈ e.nodes, ¬node.RefersOut)
    (hvariables : site.variableOf = site'.variableOf) : e.evaluate site = e.evaluate site' := by
  refine evaluate_congr e fun node hnode => ?_
  have hplain := hout node hnode
  cases node with
  | environment name =>
    show site.variableValue name = site'.variableValue name
    rw [Site.variableValue, Site.variableValue, hvariables]
  | column | calculated | parameter | call => exact absurd trivial hplain
  | _ => trivial

namespace Scope

/-- A calculated variable is worth its stored formula, whatever is bound. -/
theorem Checked.calculatedValue_eq (hs : s.Checked) {name : String} {e : Expr}
    (hfound : s.calculated.find? name = some e) (b : Bindings) :
    s.calculatedValue name = e.evaluate (s.siteAt b) := by
  rw [calculatedValue, hfound]
  exact Expr.evaluate_of_not_refersOut (hs.calculated hfound) rfl

theorem entered_eq_ok {b : Bindings} {name : String} {count : Nat} {f : NamedFunction}
    (h : s.entered b name count = .ok f) : b.functions = true ∧ b.depth < maxCallDepth
      ∧ s.functions.find? name = some f ∧ f.parameters.length = count := by
  unfold entered at h
  split at h
  · cases h
  · rename_i hallowed
    split at h
    · cases h
    · rename_i hlevel
      split at h
      · cases h
      · rename_i g hfound
        split at h
        · rename_i hcount
          cases h
          exact ⟨by simpa using hallowed, Nat.lt_of_not_le hlevel, hfound, hcount⟩
        · cases h

/-- A call gives what the function it enters gives for the values of the arguments. -/
theorem evaluate_call_entered {b : Bindings} {name : String} {args : List Expr} {f : NamedFunction}
    (hentered : s.entered b name args.length = .ok f) :
    (Expr.call name args).evaluate (s.siteAt b) = (Expr.evaluateAll (s.siteAt b) args).bind fun values =>
      f.body.evaluate (s.siteAt (b.inFunction f values)) := by
  rw [Expr.evaluate_call, siteAt_enter, hentered]
  rfl

theorem evaluate_call_refused {b : Bindings} {name : String} {args : List Expr} {err : FormulaError}
    (hentered : s.entered b name args.length = .error err) :
    (Expr.call name args).evaluate (s.siteAt b) = .error err := by
  rw [Expr.evaluate_call, siteAt_enter, hentered]
  rfl

end Scope

/-! ## §3 Runs give the value -/

mutual

/-- A run ends with the value of the formula, and there are levels for all functions that are active in it. -/
theorem Evaluates.sound (hs : s.Checked) {b : Bindings} {e : Expr} {r : Except FormulaError Value} {n : Nat} :
    Evaluates s b e r n → r = e.evaluate (s.siteAt b) ∧ n ≤ maxCallDepth - b.depth
  | .literal _ | .column _ | .environment _ | .parameter _ => ⟨rfl, Nat.zero_le _⟩
  | .undefined hnone => by
    refine ⟨?_, Nat.zero_le _⟩
    show _ = s.calculatedValue _
    rw [Scope.calculatedValue, hnone]
  | .calculated hfound hrun => by
    -- The bound of the run of the stored formula is that of no bindings; but nothing is active in it.
    obtain ⟨hr, -⟩ := hrun.sound hs
    rw [hrun.quiet (hs.calculated hfound)]
    exact ⟨hr.trans (hs.calculatedValue_eq hfound _).symm, Nat.zero_le _⟩
  | .builtin hname hargs => by
    obtain ⟨hr, hn⟩ := hargs.sound hs
    exact ⟨by rw [Expr.evaluate_builtin _ hname, hr], hn⟩
  | .badChoice hargs => ⟨(Expr.evaluateChoice_of_length _ hargs).symm, Nat.zero_le _⟩
  | .failedChoice hcondition => by
    obtain ⟨hr, hn⟩ := hcondition.sound hs
    refine ⟨?_, hn⟩
    rw [Expr.evaluate_choice, Expr.evaluateChoice_branches, ← hr]
    rfl
  | .choice hcondition hbranch => by
    obtain ⟨hv, hm⟩ := hcondition.sound hs
    obtain ⟨hr, hn⟩ := hbranch.sound hs
    refine ⟨?_, Nat.max_le.mpr ⟨hm, hn⟩⟩
    rw [Expr.evaluate_choice, Expr.evaluateChoice_branches, ← hv]
    exact hr
  | .refusedCall hentered => ⟨(Scope.evaluate_call_refused hentered).symm, Nat.zero_le _⟩
  | .failedCall hentered hargs => by
    obtain ⟨hr, hn⟩ := hargs.sound hs
    refine ⟨?_, hn⟩
    rw [Scope.evaluate_call_entered hentered, ← hr]
    rfl
  | .call hentered hargs hbody => by
    obtain ⟨hvalues, hm⟩ := hargs.sound hs
    obtain ⟨hr, hn⟩ := hbody.sound hs
    -- The body takes one of the levels that are left.
    have hlevel := (Scope.entered_eq_ok hentered).2.1
    refine ⟨?_, Nat.max_le.mpr ⟨hm, ?_⟩⟩
    · rw [Scope.evaluate_call_entered hentered, ← hvalues]
      exact hr
    · unfold Bindings.inFunction at hn
      dsimp only at hn
      omega
  | .unary hoperand => by
    obtain ⟨hr, hn⟩ := hoperand.sound hs
    exact ⟨by rw [Expr.evaluate_unary, hr], hn⟩
  | .failedBinary hleft => by
    obtain ⟨hr, hn⟩ := hleft.sound hs
    refine ⟨?_, hn⟩
    rw [Expr.evaluate_binary, ← hr]
    rfl
  | .settledBinary hleft hsettled => by
    obtain ⟨hr, hn⟩ := hleft.sound hs
    refine ⟨?_, hn⟩
    rw [Expr.evaluate_binary, ← hr, Except.bind, hsettled]
    rfl
  | .binary hleft hopen hright => by
    obtain ⟨ha, hm⟩ := hleft.sound hs
    obtain ⟨hr, hn⟩ := hright.sound hs
    refine ⟨?_, Nat.max_le.mpr ⟨hm, hn⟩⟩
    rw [Expr.evaluate_binary, ← ha, hr, Except.bind, hopen]
    rfl
termination_by structural h => h

theorem EvaluatesAll.sound (hs : s.Checked) {b : Bindings} {es : List Expr}
    {r : Except FormulaError (List Value)} {n : Nat} :
    EvaluatesAll s b es r n → r = Expr.evaluateAll (s.siteAt b) es ∧ n ≤ maxCallDepth - b.depth
  | .nil => ⟨rfl, Nat.zero_le _⟩
  | .fail hfirst => by
    obtain ⟨hr, hn⟩ := hfirst.sound hs
    refine ⟨?_, hn⟩
    rw [Expr.evaluateAll_cons, ← hr]
    rfl
  | .cons hfirst hrest => by
    obtain ⟨hv, hm⟩ := hfirst.sound hs
    obtain ⟨hr, hn⟩ := hrest.sound hs
    refine ⟨?_, Nat.max_le.mpr ⟨hm, hn⟩⟩
    rw [Expr.evaluateAll_cons, ← hv, hr]
    rfl
termination_by structural h => h

end

/-! ## §4 Every formula has a run -/

/-- Whether what a node enters has a run: the stored formula of a calculated variable, the body of a function. -/
def Scope.CanEnter (s : Scope) (b : Bindings) : Expr → Prop
  | .calculated name => ∀ e, s.calculated.find? name = some e → ∃ n, Evaluates s .empty e (s.calculatedValue name) n
  | .call name args => ∀ f values, s.entered b name args.length = .ok f →
    ∃ n, Evaluates s (b.inFunction f values) f.body (f.body.evaluate (s.siteAt (b.inFunction f values))) n
  | _ => True

section Existence

variable {b : Bindings}

mutual

/-- A formula has a run if whatever its nodes enter has one. -/
theorem exists_evaluates_of_canEnter (e : Expr) (h : ∀ node ∈ e.nodes, s.CanEnter b node) :
    ∃ n, Evaluates s b e (e.evaluate (s.siteAt b)) n := by
  cases e with
  | literal v => exact ⟨0, .literal v⟩
  | column name => exact ⟨0, .column name⟩
  | environment name => exact ⟨0, .environment name⟩
  | parameter name => exact ⟨0, .parameter name⟩
  | calculated name =>
    have henter : s.CanEnter b (.calculated name) := h _ (List.mem_singleton_self _)
    -- The stored formula is no part of the node, so its run comes from the hypothesis.
    show ∃ n, Evaluates s b (.calculated name) (s.calculatedValue name) n
    cases hfound : s.calculated.find? name with
    | none =>
      rw [Scope.calculatedValue, hfound]
      exact ⟨0, .undefined hfound⟩
    | some e =>
      obtain ⟨n, hrun⟩ := henter e hfound
      exact ⟨n, .calculated hfound hrun⟩
  | builtin name args =>
    have hargs := (List.forall_mem_cons.mp h).2
    by_cases hname : name = "if"
    · rw [hname, Expr.evaluate_choice]
      exact exists_evaluates_choice args hargs
    · obtain ⟨n, hrun⟩ := exists_evaluatesAll_of_canEnter args hargs
      exact ⟨n, Expr.evaluate_builtin _ hname args ▸ .builtin hname hrun⟩
  | call name args =>
    obtain ⟨henter, hargs⟩ := List.forall_mem_cons.mp h
    cases hentered : s.entered b name args.length with
    | error err => exact ⟨0, Scope.evaluate_call_refused hentered ▸ .refusedCall hentered⟩
    | ok f =>
      obtain ⟨m, hrun⟩ := exists_evaluatesAll_of_canEnter args hargs
      rw [Scope.evaluate_call_entered hentered]
      cases hvalues : Expr.evaluateAll (s.siteAt b) args with
      | error err => exact ⟨m, .failedCall hentered (hvalues ▸ hrun)⟩
      | ok values =>
        -- So does the run of the body, for the values that the arguments have.
        obtain ⟨n, hbody⟩ := henter f values hentered
        exact ⟨max m (n + 1), .call hentered (hvalues ▸ hrun) hbody⟩
  | unary op operand =>
    obtain ⟨n, hrun⟩ := exists_evaluates_of_canEnter operand (List.forall_mem_cons.mp h).2
    exact ⟨n, Expr.evaluate_unary _ op operand ▸ .unary hrun⟩
  | binary op left right =>
    obtain ⟨hl, hr⟩ := List.forall_mem_append.mp (List.forall_mem_cons.mp h).2
    obtain ⟨m, hleft⟩ := exists_evaluates_of_canEnter left hl
    rw [Expr.evaluate_binary]
    cases ha : left.evaluate (s.siteAt b) with
    | error err => exact ⟨m, .failedBinary (ha ▸ hleft)⟩
    | ok a =>
      dsimp only [Except.bind]
      cases hsettled : op.settled? a with
      | some v => exact ⟨m, .settledBinary (ha ▸ hleft) hsettled⟩
      | none =>
        obtain ⟨n, hright⟩ := exists_evaluates_of_canEnter right hr
        exact ⟨max m n, .binary (ha ▸ hleft) hsettled hright⟩

theorem exists_evaluatesAll_of_canEnter (es : List Expr) (h : ∀ node ∈ Expr.nodesOfAll es, s.CanEnter b node) :
    ∃ n, EvaluatesAll s b es (Expr.evaluateAll (s.siteAt b) es) n := by
  cases es with
  | nil => exact ⟨0, .nil⟩
  | cons e rest =>
    obtain ⟨hf, hr⟩ := List.forall_mem_append.mp h
    obtain ⟨m, hfirst⟩ := exists_evaluates_of_canEnter e hf
    rw [Expr.evaluateAll_cons]
    cases hv : e.evaluate (s.siteAt b) with
    | error err => exact ⟨m, .fail (hv ▸ hfirst)⟩
    | ok v =>
      obtain ⟨n, hrest⟩ := exists_evaluatesAll_of_canEnter rest hr
      exact ⟨max m n, .cons (hv ▸ hfirst) hrest⟩

theorem exists_evaluates_choice (es : List Expr) (h : ∀ node ∈ Expr.nodesOfAll es, s.CanEnter b node) :
    ∃ n, Evaluates s b (.builtin "if" es) (Expr.evaluateChoice (s.siteAt b) es) n := by
  match es with
  | [condition, yes, no] =>
    simp only [Expr.nodesOfAll, List.forall_mem_append] at h
    obtain ⟨m, hcondition⟩ := exists_evaluates_of_canEnter condition h.1
    obtain ⟨k, hyes⟩ := exists_evaluates_of_canEnter yes h.2.1
    obtain ⟨l, hno⟩ := exists_evaluates_of_canEnter no h.2.2.1
    rw [Expr.evaluateChoice_branches]
    cases hv : condition.evaluate (s.siteAt b) with
    | error err => exact ⟨m, .failedChoice (hv ▸ hcondition)⟩
    | ok v =>
      have hbranch : ∃ n, Evaluates s b (if v.isTruthy then yes else no)
          ((if v.isTruthy then yes else no).evaluate (s.siteAt b)) n := by
        split
        · exact ⟨k, hyes⟩
        · exact ⟨l, hno⟩
      obtain ⟨n, hrun⟩ := hbranch
      exact ⟨max m n, .choice (hv ▸ hcondition) hrun⟩
  | [] | [_] | [_, _] | _ :: _ :: _ :: _ :: _ => exact ⟨0, .badChoice (by simp)⟩

end

end Existence

/-- Every formula of a checked scope has a run, under any bindings. -/
theorem exists_evaluates (hs : s.Checked) (b : Bindings) (e : Expr) :
    ∃ n, Evaluates s b e (e.evaluate (s.siteAt b)) n := by
  -- Nothing is entered from the formula of a calculated variable.
  have hcalculated : ∀ b' name, s.CanEnter b' (.calculated name) := by
    intro b' name e hfound
    rw [hs.calculatedValue_eq hfound .empty]
    refine exists_evaluates_of_canEnter e fun node hnode => ?_
    have hout := hs.calculated hfound node hnode
    cases node with
    | calculated | call => exact absurd trivial hout
    | _ => trivial
  -- The induction is on the levels that are left for calls.
  induction hlevels : maxCallDepth - b.depth using Nat.strongRecOn generalizing b e with
  | _ levels ih =>
    refine exists_evaluates_of_canEnter e fun node _ => ?_
    cases node with
    | calculated name => exact hcalculated b name
    | call name args =>
      intro f values hentered
      have hlevel := (Scope.entered_eq_ok hentered).2.1
      exact ih (maxCallDepth - (b.depth + 1)) (by omega) (b.inFunction f values) f.body rfl
    | _ => trivial

/-- In a reachable scope every formula is evaluated to a value or a failure, under any bindings and whatever
    functions call; no more than `maxCallDepth` function bodies are active at once; and no stored formula of a
    calculated variable refers to anything but variables. -/
theorem Scope.Reachable.terminates (h : s.Reachable) :
    (∀ b e, ∃ r n, Evaluates s b e r n)
    ∧ (∀ b e r n, Evaluates s b e r n → r = e.evaluate (s.siteAt b) ∧ n ≤ maxCallDepth - b.depth)
    ∧ ∀ name e, s.calculated.find? name = some e → ∀ node ∈ e.nodes, ¬node.RefersOut := by
  have hs := h.checked
  refine ⟨fun b e => ⟨_, exists_evaluates hs b e⟩, fun b e r n hrun => hrun.sound hs, fun name e => hs.calculated⟩

/-- A function that calls itself without end reaches the last level and fails there. -/
theorem Scope.sample_terminates :
    ∃ n ≤ 32, Evaluates sample ⟨none, ∅, true, 0⟩ (.call "f" [.literal .null]) (.error .depthExceeded) n := by
  obtain ⟨hruns, hbound, -⟩ := reachable_sample.terminates
  obtain ⟨r, n, hrun⟩ := hruns ⟨none, ∅, true, 0⟩ (.call "f" [.literal .null])
  obtain ⟨hr, hn⟩ := hbound _ _ _ _ hrun
  have hvalue : (Expr.call "f" [.literal .null]).evaluate (sample.siteAt ⟨none, ∅, true, 0⟩)
      = .error .depthExceeded := by
    rw [sample_eq]
    rfl
  exact ⟨n, hn, hvalue ▸ hr ▸ hrun⟩

end BenchPlot
