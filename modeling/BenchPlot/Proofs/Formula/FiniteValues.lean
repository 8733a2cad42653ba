import BenchPlot.Proofs.Decimal.Finite
import BenchPlot.Proofs.Formula.Evaluating
import BenchPlot.Proofs.Formula.Rendering
import BenchPlot.Proofs.Store.Kept

/-!
# Numbers that formulas give

Operators and functions either check that their result is finite, or give a number that is finite if their operands
are: the sign of a number, one of several numbers, the count of characters. So the numbers of a run are finite as far
as those it starts from are: the row, and the numbers that are written in formulas.

Numbers that are written in formulas are read without a check. One that is too great for a float is infinite, and
so is the value of the formula.

Main definitions: `Gives`, `Expr.HasFiniteLiterals` and `Bindings.IsFinite`. Main statements:
`gives_applyBuiltin`, `Evaluates.givesFinite`, `Scope.Reachable.isFinite_of_evaluate` and `Expr.parse_numeral`.
-/

namespace BenchPlot

/-! ## §1 What a result gives -/

/-- Whether a value is finite, if it is a number. -/
def Value.isFinite : Value → Bool
  | .number x => Decimal.isFinite x
  | _ => true

/-- A result that, if it is no failure, is a value with a property. -/
structure Gives {α : Type} (P : α → Prop) (r : Except FormulaError α) : Prop where
  value : ∀ {a}, r = .ok a → P a

/-- A result that, if it is a number, is a finite one. -/
abbrev GivesFinite : Except FormulaError Value → Prop :=
  Gives fun v => v.isFinite = true

section Results

variable {α β : Type} {P : α → Prop} {Q : β → Prop} {r : Except FormulaError α}

theorem gives_ok {a : α} (h : P a) : Gives P (.ok a) := by
  constructor
  intro a' ha
  cases ha
  exact h

theorem gives_error (e : FormulaError) : Gives P (.error e) := by
  constructor
  intro a ha
  cases ha

theorem gives_any (r : Except FormulaError α) : Gives (fun _ => True) r :=
  ⟨fun _ => trivial⟩

theorem Gives.bind {f : α → Except FormulaError β} (h : Gives P r) (hf : ∀ a, P a → Gives Q (f a)) :
    Gives Q (r.bind f) := by
  cases r with
  | error e => exact gives_error e
  | ok a => exact hf a (h.value rfl)

theorem Gives.map {f : α → β} (h : Gives P r) (hf : ∀ a, P a → Q (f a)) : Gives Q (r.map f) := by
  cases r with
  | error e => exact gives_error e
  | ok a => exact gives_ok (hf a (h.value rfl))

theorem gives_mapM {f : α → Except FormulaError β} {l : List α} (hf : ∀ a ∈ l, Gives Q (f a)) :
    Gives (fun bs => ∀ b ∈ bs, Q b) (l.mapM f) := by
  induction l with
  | nil => exact gives_ok (List.forall_mem_nil Q)
  | cons a l ih =>
    obtain ⟨hfirst, hrest⟩ := List.forall_mem_cons.mp hf
    rw [List.mapM_cons]
    exact hfirst.bind fun b hb => (ih hrest).bind fun bs hbs => gives_ok (List.forall_mem_cons.mpr ⟨hb, hbs⟩)

end Results

/-! ## §2 Operations -/

theorem isFinite_finiteOrNull (x : Float) : (finiteOrNull x).isFinite = true := by
  unfold finiteOrNull
  split
  · rename_i hfinite
    exact hfinite
  · rfl

/-- The number that a finite value stands for is finite: texts that are too great stand for none. -/
theorem Value.isFinite_of_toNumber? {v : Value} {x : Float} (hv : v.isFinite = true) (h : v.toNumber? = some x) :
    Decimal.isFinite x = true := by
  cases v with
  | null => cases h
  | number y =>
    obtain rfl := Option.some.inj h
    exact hv
  | text s => exact isFinite_of_readNumber? h
  | bool b =>
    obtain rfl := Option.some.inj h
    cases b <;> decide

theorem gives_requireNumber (site : String) {v : Value} (hv : v.isFinite = true) :
    Gives (fun x => Decimal.isFinite x = true) (requireNumber site v) := by
  unfold requireNumber
  split
  · rename_i x hx
    exact gives_ok (Value.isFinite_of_toNumber? hv hx)
  · exact gives_error _

theorem Value.isFinite_plus (a b : Value) : (a.plus b).isFinite = true := by
  unfold plus
  split
  · rfl
  · rfl
  · split
    · split
      · rfl
      · exact isFinite_finiteOrNull _
    · rfl

theorem gives_arithmetic {f : Float → Float → Value} (hf : ∀ x y, (f x y).isFinite = true) (a b : Value) :
    GivesFinite (arithmetic f a b) := by
  unfold arithmetic
  split
  · exact gives_ok rfl
  · split
    · exact gives_error _
    · split
      · exact gives_error _
      · exact gives_ok (hf _ _)

/-- The sign is the one operator that does not check its result. -/
theorem UnaryOp.gives_apply (op : UnaryOp) {v : Value} (hv : v.isFinite = true) : GivesFinite (op.apply v) := by
  unfold apply
  split
  · exact gives_ok rfl
  · split
    · exact gives_ok rfl
    · exact (gives_requireNumber _ hv).map fun x hx => Decimal.isFinite_neg hx

theorem BinaryOp.gives_apply (op : BinaryOp) (a b : Value) : GivesFinite (op.apply a b) := by
  cases op with
  | add => exact gives_ok (a.isFinite_plus b)
  | sub | mul | pow => exact gives_arithmetic (fun _ _ => isFinite_finiteOrNull _) a b
  | div =>
    refine gives_arithmetic (fun x y => ?_) a b
    split
    · rfl
    · exact isFinite_finiteOrNull _
  | eq | ne | lt | le | gt | ge | and | or => exact gives_ok rfl

theorem BinaryOp.isFinite_of_settled? {op : BinaryOp} {a v : Value} (h : op.settled? a = some v) :
    v.isFinite = true := by
  unfold settled? at h
  split at h
  · split at h <;> cases h
    rfl
  · split at h <;> cases h
    rfl
  · cases h

/-! ## §3 Built-in functions -/

theorem gives_applyNumberFunction (name : String) (f : Float → Float) (args : List Value) :
    GivesFinite (applyNumberFunction name f args) := by
  unfold applyNumberFunction
  split
  · exact gives_ok rfl
  · exact (gives_any _).map fun x _ => isFinite_finiteOrNull _
  · exact gives_error _

theorem gives_applyPairFunction (name : String) (f : Float → Float → Float) (args : List Value) :
    GivesFinite (applyPairFunction name f args) := by
  unfold applyPairFunction
  split
  · split
    · exact gives_ok rfl
    · split
      · exact gives_error _
      · exact (gives_any _).map fun y _ => isFinite_finiteOrNull _
  · exact gives_error _

/-- A choice among finite numbers gives a finite one. -/
theorem isFinite_of_choiceFunction? {name : String} {f : Float → Float → Float} (h : choiceFunction? name = some f)
    {x y : Float} (hx : Decimal.isFinite x = true) (hy : Decimal.isFinite y = true) :
    Decimal.isFinite (f x y) = true := by
  unfold choiceFunction? at h
  split at h <;> cases h
  · exact Decimal.isFinite_lesser hx hy
  · exact Decimal.isFinite_greaterOf hx hy

theorem isFinite_foldl {f : Float → Float → Float} {numbers : List Float}
    (hf : ∀ {x y}, Decimal.isFinite x = true → Decimal.isFinite y = true → Decimal.isFinite (f x y) = true)
    {x : Float} (hx : Decimal.isFinite x = true) (h : ∀ y ∈ numbers, Decimal.isFinite y = true) :
    Decimal.isFinite (numbers.foldl f x) = true := by
  induction numbers generalizing x with
  | nil => exact hx
  | cons y rest ih =>
    obtain ⟨hy, hrest⟩ := List.forall_mem_cons.mp h
    exact ih (hf hx hy) hrest

theorem gives_applyChoice {name : String} {f : Float → Float → Float} (hf : choiceFunction? name = some f)
    {args : List Value} (hargs : ∀ v ∈ args, v.isFinite = true) : GivesFinite (applyChoice name f args) := by
  unfold applyChoice
  split
  · exact gives_error _
  · have hnumbers := gives_mapM fun v (hv : v ∈ args.filter fun v => !v.isNull) =>
      gives_requireNumber name (hargs v (List.mem_of_mem_filter hv))
    refine hnumbers.map fun numbers h => ?_
    cases numbers with
    | nil => rfl
    | cons x rest =>
      obtain ⟨hx, hrest⟩ := List.forall_mem_cons.mp h
      exact isFinite_foldl (isFinite_of_choiceFunction? hf) hx hrest

/-- A text has too few characters for their number to be infinite. -/
theorem isFinite_of_textFunction? {name : String} {f : String → Value} (h : textFunction? name = some f)
    (s : String) : (f s).isFinite = true := by
  unfold textFunction? at h
  split at h <;> cases h
  · rfl
  · exact Decimal.isFinite_ofNatural (UInt64.toNat_lt _)
  · rfl
  · rfl

theorem gives_applyTextFunction {name : String} {f : String → Value} (hf : textFunction? name = some f)
    (args : List Value) : GivesFinite (applyTextFunction name f args) := by
  unfold applyTextFunction
  split
  · exact gives_ok (isFinite_of_textFunction? hf _)
  · exact gives_error _

theorem gives_applyFormat (args : List Value) : GivesFinite (applyFormat args) := by
  cases args with
  | nil => exact gives_error _
  | cons template args => exact (gives_any _).map fun _ _ => rfl

/-- Built-in functions give finite numbers for finite arguments. -/
theorem gives_applyBuiltin (name : String) {args : List Value} (hargs : ∀ v ∈ args, v.isFinite = true) :
    GivesFinite (applyBuiltin name args) := by
  unfold applyBuiltin
  split
  · exact gives_applyPairFunction ..
  · split
    · exact gives_applyNumberFunction ..
    · split
      · rename_i f hf
        exact gives_applyChoice hf hargs
      · split
        · rename_i f hf
          exact gives_applyTextFunction hf args
        · split
          · exact gives_applyFormat args
          · exact gives_error _

/-! ## §4 Runs -/

/-- Whether a node is no number that is written in the formula, or a finite one. -/
def Expr.isFiniteLiteral : Expr → Bool
  | .literal v => v.isFinite
  | _ => true

/-- Whether the numbers that are written in a formula are finite. -/
def Expr.HasFiniteLiterals (e : Expr) : Prop :=
  ∀ node ∈ e.nodes, node.isFiniteLiteral = true

instance (e : Expr) : Decidable e.HasFiniteLiterals :=
  inferInstanceAs (Decidable (∀ node ∈ e.nodes, node.isFiniteLiteral = true))

/-- Whether the numbers that are written in the definitions of a scope are finite. -/
structure Scope.HasFiniteLiterals (s : Scope) : Prop where
  calculated : ∀ {name e}, s.calculated.find? name = some e → e.HasFiniteLiterals
  functions : ∀ {name f}, s.functions.find? name = some f → f.body.HasFiniteLiterals

/-- Whether the numbers of a row are finite. -/
def Row.IsFinite (row : Row) : Prop :=
  ∀ {name v}, row.find? name = some v → v.isFinite = true

/-- Whether the numbers that are bound are finite. -/
structure Bindings.IsFinite (b : Bindings) : Prop where
  row : ∀ {row}, b.row = some row → row.IsFinite
  parameters : ∀ {name v}, b.parameters.find? name = some v → v.isFinite = true

variable {s : Scope} {b : Bindings}

theorem Bindings.isFinite_empty : Bindings.empty.IsFinite where
  row h := nomatch h
  parameters h := nomatch h

/-- Only the values of the arguments are bound in the body of a function. -/
theorem Bindings.isFinite_inFunction (b : Bindings) (f : NamedFunction) {values : List Value}
    (hvalues : ∀ v ∈ values, v.isFinite = true) : (b.inFunction f values).IsFinite where
  row h := nomatch h
  parameters := by
    intro name v hfound
    rcases SortedMap.find?_foldl_insert_cases hfound with hargument | hbefore
    · obtain ⟨pair, hpair, rfl⟩ := List.mem_map.mp hargument
      exact hvalues _ (List.of_mem_zip hpair).2
    · cases hbefore

theorem Bindings.IsFinite.columnValue (hb : b.IsFinite) (name : String) :
    GivesFinite ((s.siteAt b).columnValue name) := by
  unfold Site.columnValue
  split
  · exact gives_error _
  · rename_i row hrow
    split
    · exact gives_error _
    · split
      · rename_i v hfound
        exact gives_ok (hb.row hrow hfound)
      · exact gives_error _

theorem gives_variableValue (site : Site) (name : String) : GivesFinite (site.variableValue name) := by
  unfold Site.variableValue
  split
  · exact gives_ok rfl
  · exact gives_error _

theorem Bindings.IsFinite.parameterValue (hb : b.IsFinite) (name : String) :
    GivesFinite ((s.siteAt b).parameterValue name) := by
  unfold Site.parameterValue
  split
  · rename_i v hfound
    exact gives_ok (hb.parameters hfound)
  · exact gives_error _

namespace Expr

theorem HasFiniteLiterals.operand {op : UnaryOp} {operand : Expr} (h : (unary op operand).HasFiniteLiterals) :
    operand.HasFiniteLiterals :=
  (List.forall_mem_cons.mp h).2

theorem HasFiniteLiterals.left {op : BinaryOp} {left right : Expr} (h : (binary op left right).HasFiniteLiterals) :
    left.HasFiniteLiterals :=
  (List.forall_mem_append.mp (List.forall_mem_cons.mp h).2).1

theorem HasFiniteLiterals.right {op : BinaryOp} {left right : Expr} (h : (binary op left right).HasFiniteLiterals) :
    right.HasFiniteLiterals :=
  (List.forall_mem_append.mp (List.forall_mem_cons.mp h).2).2

theorem HasFiniteLiterals.branch {name : String} {condition yes no : Expr} (chosen : Bool)
    (h : (builtin name [condition, yes, no]).HasFiniteLiterals) :
    (if chosen then yes else no).HasFiniteLiterals :=
  fun node hnode => h node (List.mem_cons_of_mem _ (mem_nodes_branch hnode))

end Expr

mutual

/-- A run gives a finite number if the numbers it starts from are finite. -/
theorem Evaluates.givesFinite (hs : s.HasFiniteLiterals) {b : Bindings} {e : Expr}
    {r : Except FormulaError Value} {n : Nat} :
    Evaluates s b e r n → b.IsFinite → e.HasFiniteLiterals → GivesFinite r
  | .literal _, _, he => gives_ok (he _ (List.mem_singleton_self _))
  | .column name, hb, _ => hb.columnValue name
  | .environment name, _, _ => gives_variableValue _ name
  | .parameter name, hb, _ => hb.parameterValue name
  | .undefined _, _, _ | .badChoice _, _, _ | .failedChoice _, _, _ | .refusedCall _, _, _ | .failedCall .., _, _
  | .failedBinary _, _, _ => gives_error _
  -- Neither the stored formula nor the body of a function is a part of the node: both come from the scope.
  | .calculated hfound hrun, _, _ => hrun.givesFinite hs Bindings.isFinite_empty (hs.calculated hfound)
  | .call hentered hargs hbody, hb, he => by
    have hvalues := (hargs.givesFinite hs hb (List.forall_mem_cons.mp he).2).value rfl
    have hfunction := (Scope.entered_eq_ok hentered).2.2.1
    exact hbody.givesFinite hs (Bindings.isFinite_inFunction _ _ hvalues) (hs.functions hfunction)
  | .builtin _ hargs, hb, he => by
    have hvalues := hargs.givesFinite hs hb (List.forall_mem_cons.mp he).2
    exact hvalues.bind fun _ hfinite => gives_applyBuiltin _ hfinite
  | .choice _ hbranch, hb, he => hbranch.givesFinite hs hb (he.branch _)
  | .unary hoperand, hb, he =>
    (hoperand.givesFinite hs hb he.operand).bind fun _ hfinite => UnaryOp.gives_apply _ hfinite
  | .settledBinary _ hsettled, _, _ => gives_ok (BinaryOp.isFinite_of_settled? hsettled)
  | .binary _ _ hright, hb, he =>
    (hright.givesFinite hs hb he.right).bind fun _ _ => BinaryOp.gives_apply _ _ _
termination_by structural h => h

theorem EvaluatesAll.givesFinite (hs : s.HasFiniteLiterals) {b : Bindings} {es : List Expr}
    {r : Except FormulaError (List Value)} {n : Nat} :
    EvaluatesAll s b es r n → b.IsFinite → (∀ node ∈ Expr.nodesOfAll es, node.isFiniteLiteral = true)
      → Gives (fun values => ∀ v ∈ values, v.isFinite = true) r
  | .nil, _, _ => gives_ok (List.forall_mem_nil _)
  | .fail _, _, _ => gives_error _
  | .cons hfirst hrest, hb, hes => by
    obtain ⟨he, hlater⟩ := List.forall_mem_append.mp hes
    have hv := (hfirst.givesFinite hs hb he).value rfl
    exact (hrest.givesFinite hs hb hlater).map fun values hvalues => List.forall_mem_cons.mpr ⟨hv, hvalues⟩
termination_by structural h => h

end

/-! ## §5 Definitions -/

/-- Whether the numbers that are written in a definition are finite. -/
def Definition.HasFiniteLiterals : Definition → Prop
  | .default _ _ => True
  | .calculated _ source | .function _ _ source => ∀ e ∈ (Expr.parse source).toOption, e.HasFiniteLiterals

namespace Scope

theorem hasFiniteLiterals_new (overrides process : SortedMap String String) :
    (new overrides process).HasFiniteLiterals := by
  constructor
  · intro name e hfound
    cases hfound
  · intro name f hfound
    cases hfound

theorem HasFiniteLiterals.define (hs : s.HasFiniteLiterals) {d : Definition} (hd : d.HasFiniteLiterals) :
    (s.define d).HasFiniteLiterals := by
  cases d with
  | default name value => exact ⟨hs.calculated, hs.functions⟩
  | calculated name source =>
    unfold Scope.define orKeep
    dsimp only
    split
    · rename_i s' hdefined
      obtain ⟨e, hparse, -, rfl⟩ := defineCalculated_eq_ok hdefined
      refine ⟨fun hfound => ?_, hs.functions⟩
      rcases SortedMap.find?_insert_cases hfound with rfl | hbefore
      · exact hd _ (hparse ▸ rfl)
      · exact hs.calculated hbefore
    · exact hs
  | function name parameters source =>
    unfold Scope.define orKeep
    dsimp only
    split
    · rename_i s' hdefined
      obtain ⟨-, body, hparse, -, rfl⟩ := defineFunction_eq_ok hdefined
      refine ⟨hs.calculated, fun hfound => ?_⟩
      rcases SortedMap.find?_insert_cases hfound with rfl | hbefore
      · exact hd _ (hparse ▸ rfl)
      · exact hs.functions hbefore
    · exact hs

/-- The numbers that are written in a scope are those that are written in its definitions. -/
theorem HasFiniteLiterals.defineAll (hs : s.HasFiniteLiterals) {definitions : List Definition}
    (h : ∀ d ∈ definitions, d.HasFiniteLiterals) : (s.defineAll definitions).HasFiniteLiterals := by
  induction definitions generalizing s with
  | nil => exact hs
  | cons d definitions ih =>
    obtain ⟨hfirst, hrest⟩ := List.forall_mem_cons.mp h
    exact ih (hs.define hfirst) hrest

end Scope

/-! ## §6 Formulas of their own -/

/-- A number that a formula gives in a reachable scope is finite if those of the row are, and those written in the
    formula and in the definitions. -/
theorem Scope.Reachable.isFinite_of_evaluate (h : s.Reachable) (hs : s.HasFiniteLiterals) {e : Expr}
    (he : e.HasFiniteLiterals) {row : Option Row} (hrow : ∀ r, row = some r → r.IsFinite) (functions : Bool)
    {x : Float} (hx : e.evaluate (s.site row functions) = .ok (.number x)) : Decimal.isFinite x = true := by
  obtain ⟨n, hrun⟩ := exists_evaluates h.checked ⟨row, ∅, functions, 0⟩ e
  rw [← Scope.site_eq_siteAt, hx] at hrun
  have hb : Bindings.IsFinite ⟨row, ∅, functions, 0⟩ := by
    constructor
    · intro r hr
      exact hrow r hr
    · intro name v hfound
      cases hfound
  exact (hrun.givesFinite hs hb he).value rfl

/-- Definitions of a variable, of a calculated variable that squares it, and of a function that adds the square of its
    argument. -/
def growthDefinitions : List Definition :=
  [.default "d" "4", .calculated "c" "%d*%d", .function "f" ["n"] "n*n+@c"]

def growth : Scope :=
  (Scope.new ∅ ∅).defineAll growthDefinitions

/-- A formula that calls the function with a column, and has a number of its own. -/
def growthFormula : Expr :=
  .builtin "max" [.call "f" [.column "x"], .literal (.number 1.0)]

def growthRow : Row :=
  ⟨[("X", .number 3.0)]⟩

theorem parse_growth : Expr.parse "%d*%d" = .ok (.binary .mul (.environment "d") (.environment "d"))
    ∧ Expr.parse "n*n+@c"
      = .ok (.binary .add (.binary .mul (.parameter "n") (.parameter "n")) (.calculated "c")) := by
  constructor <;> cbv

theorem growth_eq : growth = ⟨∅, ∅, ⟨[("d", "4")]⟩, ⟨[("c", .binary .mul (.environment "d") (.environment "d"))]⟩,
    ⟨[("f", ⟨"f", ["n"], .binary .add (.binary .mul (.parameter "n") (.parameter "n")) (.calculated "c")⟩)]⟩,
    .empty⟩ := by
  obtain ⟨hsquare, hbody⟩ := parse_growth
  simp only [growth, growthDefinitions, Scope.defineAll, List.foldl, Scope.define, Scope.defineCalculated,
    Scope.defineFunction, hsquare, hbody]
  rfl

theorem hasFiniteLiterals_growth : growth.HasFiniteLiterals := by
  obtain ⟨hsquare, hbody⟩ := parse_growth
  refine (Scope.hasFiniteLiterals_new ∅ ∅).defineAll fun d hd => ?_
  simp only [growthDefinitions, List.mem_cons, List.not_mem_nil, or_false] at hd
  rcases hd with rfl | rfl | rfl
  · trivial
  · intro e he
    rw [hsquare] at he
    obtain rfl := Option.some.inj he
    decide
  · intro e he
    rw [hbody] at he
    obtain rfl := Option.some.inj he
    decide

theorem isFinite_growthRow : growthRow.IsFinite := by
  intro name v hfound
  obtain ⟨entry, hentry, rfl⟩ := Option.map_eq_some_iff.mp hfound
  obtain rfl := List.mem_singleton.mp (List.mem_of_find?_eq_some hentry)
  decide

/-- The call gives 9 + 16, which is greater than 1. -/
theorem isFinite_growth : growth.Reachable ∧ growth.HasFiniteLiterals ∧ growthFormula.HasFiniteLiterals
    ∧ growthRow.IsFinite ∧ growthFormula.evaluate (growth.site (some growthRow) true) = .ok (.number 25.0)
    ∧ Decimal.isFinite 25.0 = true := by
  have hreachable : growth.Reachable := ⟨∅, ∅, growthDefinitions, rfl⟩
  have hliterals : growthFormula.HasFiniteLiterals := by decide +kernel
  have hrow : ∀ r, some growthRow = some r → r.IsFinite := by
    rintro r ⟨⟩
    exact isFinite_growthRow
  have hvalue : growthFormula.evaluate (growth.site (some growthRow) true) = .ok (.number 25.0) := by
    rw [growth_eq]
    rfl
  exact ⟨hreachable, hasFiniteLiterals_growth, hliterals, isFinite_growthRow, hvalue,
    hreachable.isFinite_of_evaluate hasFiniteLiterals_growth hliterals hrow true hvalue⟩

/-! ## §7 Numerals that are too great -/

/-- A text that is a numeral is the formula of its number, whether that is finite or not. -/
theorem Expr.parse_numeral {s : String} {c : Char} {cs : List Char} {x : Float} (hs : s.toList = c :: cs)
    (hc : Decimal.isDigit c = true) (htake : takeNumber (c :: cs) = (c :: cs, []))
    (hx : Decimal.readChars? (c :: cs) = some x) : Expr.parse s = .ok (.literal (.number x)) := by
  have hspace : isSpace c = false := isSpace_eq_false hc ⟨rfl, rfl, rfl, rfl⟩
  have hnumber : numberToken (c :: cs) = .ok (.number x, []) := by
    rw [numberToken, htake]
    dsimp only
    rw [hx]
  have hstep : lexStep (s.toList.length - (cs.length + 1)) c cs = .ok (some (.number x), []) := by
    rw [lexStep, hspace, if_neg Bool.false_ne_true, lexToken, if_pos (by rw [hc, Bool.true_or]), hnumber]
    rfl
  have hlex : lex s = .ok [.number x] := by
    rw [lex]
    conv_lhs => arg 2; rw [hs]
    rw [lexChars_ok hstep, lexChars_nil]
    rfl
  have htokens : Expr.ofTokens s [.number x] = .ok [.literal (.number x)] := by cbv
  rw [Expr.parse, Expr.parseList, hlex]
  dsimp only
  rw [htokens]

/-- A numeral that is too great gives an infinite number, in a scope where nothing is defined. -/
theorem infiniteNumeral_sample : (Scope.new ∅ ∅).Reachable ∧ ∃ e x, Expr.parse "1e999" = .ok e
    ∧ e.evaluate ((Scope.new ∅ ∅).site none true) = .ok (.number x) ∧ Decimal.isFinite x = false := by
  refine ⟨⟨∅, ∅, [], rfl⟩, ?_⟩
  have hread : (Decimal.readChars? ['1', 'e', '9', '9', '9']).map Decimal.isFinite = some false := by
    decide +kernel
  obtain ⟨x, hx, hinfinite⟩ := Option.map_eq_some_iff.mp hread
  exact ⟨_, x, Expr.parse_numeral rfl rfl (by cbv) hx, rfl, hinfinite⟩

end BenchPlot
