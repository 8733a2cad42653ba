import BenchPlot.Proofs.Formula.ScopeChecks
import BenchPlot.Proofs.Plan.Iteration

/-!
# The columns of a formula

A formula sees of a row no more than the columns that it names, also through the functions and the calculated
variables that it refers to, for neither of them sees the row. Where the row has all of these columns, no column
is unknown. A curve is bound only if the benchmark has the columns that its formulas name, and the rows of the
benchmark have a value for each of its fields.

Main statement: `Formula.columns_suffice`.
-/

namespace BenchPlot

/-! ## §1 Formulas at a site -/

namespace Formula

variable {f : Formula} {site site' : Site} {err : FormulaError}

theorem evaluate_eq_bind (hparts : ∀ e, f.parts ≠ [e]) (site : Site) :
    f.evaluate site = (Expr.evaluateAll site f.parts).bind (combine f.parts) := by
  unfold evaluate
  split
  · rename_i e he
    exact absurd he (hparts e)
  · cases Expr.evaluateAll site f.parts <;> rfl

/-- Sites that agree on every node of a formula give it one value. -/
theorem evaluate_congr (h : ∀ node ∈ Expr.nodesOfAll f.parts, site.AgreesOn site' node) :
    f.evaluate site = f.evaluate site' := by
  by_cases hsingle : ∃ e, f.parts = [e]
  · obtain ⟨e, he⟩ := hsingle
    rw [he] at h
    unfold evaluate
    rw [he]
    exact Expr.evaluate_congr e fun node hnode => h node (List.mem_append_left _ hnode)
  · rw [not_exists] at hsingle
    rw [evaluate_eq_bind hsingle, evaluate_eq_bind hsingle, Expr.evaluateAll_congr f.parts h]

/-- A failure of a formula is one of an operation, or of one of its nodes. -/
theorem fails_of_evaluate (h : f.evaluate site = .error err) : site.Fails (Expr.nodesOfAll f.parts) err := by
  by_cases hsingle : ∃ e, f.parts = [e]
  · obtain ⟨e, he⟩ := hsingle
    unfold evaluate at h
    rw [he] at h ⊢
    exact (Expr.fails_of_evaluate e h).mono fun _ => List.mem_append_left _
  · rw [not_exists] at hsingle
    rw [evaluate_eq_bind hsingle] at h
    rcases bind_eq_error.1 h with hparts | ⟨values, -, hcombine⟩
    · exact Expr.fails_of_evaluateAll f.parts hparts
    · exact .inl ((operational_combine f.parts values).failure hcombine)

/-! ## §2 Formulas over a row -/

theorem mem_columns {name : String} (h : .column name ∈ Expr.nodesOfAll f.parts) : name ∈ f.columns :=
  List.mem_eraseDups.mpr (List.mem_filterMap.mpr ⟨_, h, rfl⟩)

/-- Two rows are the same as far as the columns of a formula go. -/
def SameColumns (f : Formula) (row row' : Row) : Prop :=
  ∀ name ∈ f.columns, ∀ key, canonicalName name = .ok key → row.find? key = row'.find? key

/-- A row has the columns of a formula. -/
def HasColumns (f : Formula) (row : Row) : Prop :=
  ∀ name ∈ f.columns, ∃ key, canonicalName name = .ok key ∧ (row.find? key).isSome = true

variable {s : Scope} {b : Bindings} {row row' : Row}

/-- Rows that are the same on the columns of a formula give it one value, or one failure. -/
theorem evaluate_eq_of_sameColumns (h : f.SameColumns row row') :
    f.evaluate (s.siteAt { b with row := some row }) = f.evaluate (s.siteAt { b with row := some row' }) := by
  refine evaluate_congr fun node hnode => ?_
  cases node with
  | column name =>
    have hsame := h name (mem_columns hnode)
    show Site.columnValue _ name = Site.columnValue _ name
    unfold Site.columnValue Scope.siteAt
    dsimp only
    cases hkey : canonicalName name with
    | error => rfl
    | ok key =>
      dsimp only
      rw [hsame key hkey]
  | environment | calculated | parameter | call => rfl
  | literal | builtin | unary | binary => trivial

theorem entered_ne_unknownColumn {name callee : String} {count : Nat} :
    s.entered b callee count ≠ .error (.unknownColumn name) := by
  intro h
  unfold Scope.entered at h
  split at h
  · cases h
  · split at h
    · cases h
    · split at h
      · cases h
      · split at h <;> cases h

/-- Over a row with its columns a formula does not fail for an unknown one. -/
theorem evaluate_ne_unknownColumn (hs : s.Checked) (h : f.HasColumns row) (name : String) :
    f.evaluate (s.siteAt { b with row := some row }) ≠ .error (.unknownColumn name) := by
  intro hvalue
  rcases fails_of_evaluate hvalue with hop | ⟨node, hnode, hraises⟩
  · exact hop
  · cases node with
    | column column =>
      obtain ⟨key, hkey, hrow⟩ := h column (mem_columns hnode)
      obtain ⟨v, hv⟩ := Option.isSome_iff_exists.mp hrow
      have hfound : (s.siteAt { b with row := some row }).columnValue column = .ok v := by
        unfold Site.columnValue Scope.siteAt
        dsimp only
        rw [hkey]
        dsimp only
        rw [hv]
      have hfailed : (s.siteAt { b with row := some row }).columnValue column = .error (.unknownColumn name) := hraises
      rw [hfound] at hfailed
      cases hfailed
    | environment ref => cases Site.variableValue_eq_error hraises
    | calculated ref => exact hs.failure_of_calculatedValue hraises trivial
    | parameter ref => cases (Site.parameterValue_eq_error hraises).2
    | call callee args =>
      rcases Scope.raises_call hraises with hrefused | ⟨g, values, hg, -, hcount, hbody⟩
      · exact entered_ne_unknownColumn hrefused
      · exact hs.failure_of_body hg hcount hbody trivial
    | literal | builtin | unary | binary => exact hraises

end Formula

/-! ## §3 Formulas of curves -/

/-- The formulas of a curve. -/
def CurvePlan.formulas (curve : CurvePlan) : List Formula :=
  [some curve.xval, some curve.yval, curve.label, curve.markText].filterMap fun f => f

/-- Each row that is selected from a benchmark has a value under the name of each field. -/
theorem Store.isSome_of_selectRows {s : Store} {written : String} {b : Benchmark}
    (hwritten : s.benchmark written = .ok b) {q : RowQuery} {rows : List StoredRow}
    (hrows : s.selectRows written q = .ok rows) {f : Field} (hf : f ∈ s.fieldsOf b) :
    ∀ r ∈ rows, (r.values.find? f.name).isSome = true := by
  intro r hr
  cases htable : s.table? b.table with
  | none =>
    simp only [selectRows, hwritten, htable, bind, Except.bind, pure, Except.pure, Except.ok.injEq] at hrows
    rw [← hrows] at hr
    cases hr
  | some t =>
    rw [selectRows_eq hwritten htable] at hrows
    cases htaken : q.rows t (["EXP", "OUT"] ++ (s.fieldsOf b).map Field.column) "EXP" with
    | error =>
      rw [htaken] at hrows
      cases hrows
    | ok taken =>
      rw [htaken] at hrows
      cases hrows
      obtain ⟨w, -, rfl⟩ := List.mem_map.mp hr
      refine SortedMap.isSome_find?_ofList ?_
      rw [List.map_map]
      exact List.mem_map.mpr ⟨f, hf, rfl⟩

/-- Where the columns of the formulas of a curve are resolved, the rows of the benchmark have them. -/
theorem BenchBinding.Sound.hasColumns {b : BenchBinding} (h : b.Sound) {curve : CurvePlan} {fields : List Field}
    (hresolved : (formulaColumns curve).mapM (resolveField curve.location b.benchmark b.fields) = .ok fields)
    {f : Formula} (hf : f ∈ curve.formulas) {q : RowQuery} {rows : List StoredRow}
    (hrows : b.store.selectRows b.benchmark.name q = .ok rows) : ∀ r ∈ rows, f.HasColumns r.values := by
  intro r hr name hname
  have hmem : name ∈ formulaColumns curve := List.mem_flatMap.mpr ⟨f, hf, hname⟩
  obtain ⟨field, -, hfield⟩ := exists_mem_of_forall₂ (forall₂_of_mapM_eq_ok hresolved) hmem
  obtain ⟨hcanonical, hbelongs⟩ := resolveField_eq_ok hfield
  exact ⟨field.name, hcanonical, Store.isSome_of_selectRows h.found hrows (h.fields ▸ hbelongs) r hr⟩

/-- In a reachable scope a formula sees of a row its columns only, and where the row has them it does not fail for
    an unknown column. Once the columns of a curve are resolved, each row that any query selects from the benchmark
    has the columns of its formulas. -/
theorem Formula.columns_suffice {s : Scope} (hs : s.Reachable) (f : Formula) :
    (∀ (b : Bindings) row row', f.SameColumns row row' →
      f.evaluate (s.siteAt { b with row := some row }) = f.evaluate (s.siteAt { b with row := some row' }))
    ∧ (∀ (b : Bindings) row, f.HasColumns row →
      ∀ name, f.evaluate (s.siteAt { b with row := some row }) ≠ .error (.unknownColumn name))
    ∧ ∀ (store : Store) (bench : BenchPlan) (binding : BenchBinding) curve fields query rows, store.Reachable →
      bench.binding store s = .ok binding → f ∈ CurvePlan.formulas curve →
      (BenchBinding.formulaColumns curve).mapM (resolveField curve.location binding.benchmark binding.fields)
        = .ok fields →
      binding.store.selectRows binding.benchmark.name query = .ok rows → ∀ r ∈ rows, f.HasColumns r.values := by
  refine ⟨fun b row row' => evaluate_eq_of_sameColumns, fun b row h => evaluate_ne_unknownColumn hs.checked h, ?_⟩
  intro store bench binding curve fields query rows hstore hbinding hf hresolved hrows
  exact (BenchPlan.sound_binding hstore.sound hbinding).1.hasColumns hresolved hf hrows

/-- A size and a calculated variable, put into a template. -/
def sizeFormula : Formula :=
  ⟨"\"%d\", $size + @c", [.literal (.text "%d"), .binary .add (.column "size") (.calculated "c")]⟩

/-- Rows that differ in other columns give the formula one value; and of the sample store the rows of a bench have
    the column. -/
theorem columns_suffice_sample :
    (sizeFormula.evaluate (Scope.sample.site (some (.ofList [("SIZE", .number 2)])) true)
      = sizeFormula.evaluate (Scope.sample.site (some (.ofList [("COMPILER", .text "cc"), ("SIZE", .number 2)])) true))
    ∧ (∀ name, sizeFormula.evaluate (Scope.sample.site (some (.ofList [("SIZE", .number 2)])) true)
      ≠ .error (.unknownColumn name))
    ∧ ∃ b rows, (sampleBench "$size < 15").binding Store.sample default = .ok b
      ∧ Store.sample.selectRows b.benchmark.name b.query = .ok rows ∧ rows.map (·.experiment) = [1]
      ∧ ∀ r ∈ rows, sampleCurve.xval.HasColumns r.values := by
  have hkey : canonicalName "size" = .ok "SIZE" := by cbv
  have hcolumns : sizeFormula.columns = ["size"] := rfl
  obtain ⟨hsame, hknown, -⟩ := Formula.columns_suffice Scope.reachable_sample sizeFormula
  refine ⟨?_, fun name => ?_, ?_⟩
  · rw [Scope.site_eq_siteAt, Scope.site_eq_siteAt]
    refine hsame ⟨none, ∅, true, 0⟩ _ _ fun name hname key hcanonical => ?_
    rw [hcolumns, List.mem_singleton] at hname
    rw [hname, hkey] at hcanonical
    cases hcanonical
    rfl
  · rw [Scope.site_eq_siteAt]
    refine hknown ⟨none, ∅, true, 0⟩ _ (fun column hcolumn => ?_) name
    rw [hcolumns, List.mem_singleton] at hcolumn
    exact ⟨"SIZE", hcolumn ▸ hkey, rfl⟩
  · have hrun : ((sampleBench "$size < 15").binding Store.sample default).toOption.map (fun b =>
        (((BenchBinding.formulaColumns sampleCurve).mapM
            (resolveField sampleCurve.location b.benchmark b.fields)).toOption.isSome,
          ((Store.sample.selectRows b.benchmark.name b.query).toOption.map fun rows => rows.map (·.experiment))))
        = some (true, some [1]) := by
      decide +kernel
    obtain ⟨b, hb, hresult⟩ := exists_eq_ok hrun
    obtain ⟨hresolved, hselected⟩ := Prod.mk.inj hresult
    obtain ⟨rows, hrows, hexperiments⟩ : ∃ rows, Store.sample.selectRows b.benchmark.name b.query = .ok rows
        ∧ rows.map (·.experiment) = [1] := exists_eq_ok hselected
    obtain ⟨fields, hfields⟩ : ∃ fields, (BenchBinding.formulaColumns sampleCurve).mapM
        (resolveField sampleCurve.location b.benchmark b.fields) = .ok fields := by
      cases hcase : (BenchBinding.formulaColumns sampleCurve).mapM
          (resolveField sampleCurve.location b.benchmark b.fields) with
      | ok fields => exact ⟨fields, rfl⟩
      | error =>
        rw [hcase] at hresolved
        cases hresolved
    have hstore : b.store = Store.sample := (BenchPlan.sound_binding Store.reachable_sample.sound hb).2
    have hempty : (default : Scope).Reachable := ⟨∅, ∅, [], rfl⟩
    exact ⟨b, rows, hb, hrows, hexperiments, (Formula.columns_suffice hempty sampleCurve.xval).2.2 _ _ b sampleCurve
      fields b.query rows Store.reachable_sample hb (List.mem_cons_self ..) hfields (hstore ▸ hrows)⟩

end BenchPlot
