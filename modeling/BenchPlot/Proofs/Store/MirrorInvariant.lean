import BenchPlot.Proofs.Store.Reach
import BenchPlot.Store.Selection
import Mathlib

/-!
# Wide tables mirror experiments

Experiments are kept twice: as records with a number, a flag and an identity, and as rows of the wide table
of their benchmark. In every reachable store the two agree, and so do all questions that are answered from
the one or from the other.

Main statement: `reachable_dataMirrored`.
-/

namespace BenchPlot.Store

/-- What the wide table of a benchmark says is what its experiments say. -/
structure DataMirrored (s : Store) (b : Benchmark) : Prop where
  noTable : s.table? (b.name ++ "_VIEW") = none → s.experimentsOf b = []
  numbers : ∀ t, s.table? (b.name ++ "_VIEW") = some t →
    t.rows.map (·.experiment) = (s.experimentsOf b).map (·.id)
  once : ((s.experimentsOf b).map (·.id)).Nodup
  rows : ∀ t, s.table? (b.name ++ "_VIEW") = some t → ∀ r ∈ t.rows, ∃ e ∈ s.experimentsOf b,
    r.experiment = e.id ∧ r.outlier = e.outlier ∧ r.benchmark = b.id
      ∧ (∀ f ∈ s.fieldsOf b, f.key = true → (t.cell r f.column).isNull = false)
      ∧ e.identity = identity (((s.fieldsOf b).filter (·.key)).map fun f => (t.cell r f.column).display)
  identities : ((s.experimentsOf b).map (·.identity)).Nodup

/-- All answers about the experiments of a benchmark agree: those that count and list experiments, and those
    that select rows. No selection has a row twice, or one that the selection of all rows has not. -/
structure AnswersAgree (s : Store) (written : String) (rows : List StoredRow) : Prop where
  selectAll : s.selectRows written ⟨[], true⟩ = .ok rows
  selectKept : s.selectRows written ⟨[], false⟩ = .ok (rows.filter (!·.outlier))
  select : ∀ q selected, s.selectRows written q = .ok selected → selected.Subperm rows
  ids : s.experimentIds written = .ok (rows.map (·.experiment))
  summary : ∃ d, s.describe written = .ok d ∧ d.experiments = rows.length
    ∧ d.outliers = rows.countP (·.outlier)

variable {s : Store} {b : Benchmark} {fields : List Field} {experiments : List Experiment} {t : WideTable}

/-! ## §1 Rows -/

theorem Sound.dataMirrored (h : s.Sound) (hb : b ∈ s.benchmarks) : s.DataMirrored b := by
  have hheld := h.holdings b hb
  have hfits : TableFits b (s.ownFields b) (s.experimentsOf b) (s.table? (b.name ++ "_VIEW")) := hheld.table
  refine ⟨fun hnone => ?_, fun t ht => ?_, (h.numbers.experiments.filter _).nodup, fun t ht r hr => ?_,
    hheld.identities⟩
  · rw [hnone] at hfits
    exact hfits.2
  · rw [ht] at hfits
    exact map_eq_map_of_forall₂ hfits.2.2 fun r e hre => hre.experiment
  · rw [ht] at hfits
    obtain ⟨_, hcolumns, hrows⟩ := hfits
    obtain ⟨e, he, hre⟩ := exists_mem_of_forall₂ hrows hr
    have hcells := hre.map_cell hcolumns hheld.fieldNames
    rw [h.fieldsOf_eq hb]
    refine ⟨e, he, hre.experiment, hre.outlier, hre.benchmark,
      fun f hf => (hre.holds hcolumns hheld.fieldNames hf).key, ?_⟩
    rw [hre.identity, identityOf_eq, ← hcells, keyTexts_map_value]

/-! ## §2 Selections -/

/-- No result of a selection of columns was given a name. -/
theorem output?_names (t : WideTable) (columns : List String) (name : String) :
    (t.names columns).output? name = none := by
  simp [WideTable.names, Sql.Names.output?]

/-- The column that numbers experiments is the second one. -/
theorem column?_exp (t : WideTable) (columns : List String) :
    (t.names columns).column? "EXP" = some (.name ⟨1, .integer⟩) := by
  have hbench : Sql.sameName "BENCH" "EXP" = false := by decide +kernel
  have hexp : Sql.sameName "EXP" "EXP" = true := by decide +kernel
  simp [WideTable.names, Sql.Names.column?, Sql.Names.columnAt?, WideTable.queryColumns, fixedColumns,
    List.findIdx?_cons, hbench, hexp]

/-- The column that says whether an experiment is an outlier is the third one. -/
theorem column?_out (t : WideTable) (columns : List String) :
    (t.names columns).column? "OUT" = some (.name ⟨2, .integer⟩) := by
  have hbench : Sql.sameName "BENCH" "OUT" = false := by decide +kernel
  have hexp : Sql.sameName "EXP" "OUT" = false := by decide +kernel
  have hout : Sql.sameName "OUT" "OUT" = true := by decide +kernel
  simp [WideTable.names, Sql.Names.column?, Sql.Names.columnAt?, WideTable.queryColumns, fixedColumns,
    List.findIdx?_cons, hbench, hexp, hout]

/-- The order of the experiments. -/
def byExperiment : List (Sql.Term Sql.Column × Bool) :=
  [(.name ⟨1, .integer⟩, false)]

theorem resolve?_exp (t : WideTable) (columns : List String) :
    Sql.OrderKey.resolve? (t.names columns) ⟨.name ⟨.bare, "EXP"⟩, false⟩
      = some (.name ⟨1, .integer⟩, false) := by
  simp [Sql.OrderKey.resolve?, output?_names, Sql.Names.find?, column?_exp]

theorem selection?_all (t : WideTable) (columns : List String) :
    RowQuery.selection? ⟨[], true⟩ t columns "EXP" = some ⟨none, byExperiment⟩ := by
  have hclauses : (RowQuery.mk [] true).clauses = [] := rfl
  simp [RowQuery.selection?, hclauses, Sql.Selection.resolve?, Sql.resolveCondition?, resolve?_exp,
    byExperiment]

/-- The condition of a selection that leaves out outliers. -/
def isKept : Sql.Term Sql.Column :=
  .binary (.compare .eq) (.name ⟨2, .integer⟩) (.literal (.integer 0))

theorem parse?_kept : Sql.Selection.parse? "OUT = 0 ORDER BY EXP"
    = some ⟨some (.binary (.compare .eq) (.name ⟨.bare, "OUT"⟩) (.literal (.integer 0))),
      [⟨.name ⟨.bare, "EXP"⟩, false⟩]⟩ := by
  cbv

theorem selection?_kept (t : WideTable) (columns : List String) :
    RowQuery.selection? ⟨[], false⟩ t columns "EXP" = some ⟨some isKept, byExperiment⟩ := by
  have hclauses : (RowQuery.mk [] false).clauses = ["OUT = 0"] := by decide
  simp [RowQuery.selection?, hclauses, parse?_kept, Sql.Selection.resolve?, Sql.resolveCondition?,
    Sql.Term.resolve?, Sql.Names.find?, column?_out, resolve?_exp, byExperiment, isKept]

theorem holds_isKept (r : WideRow) : isKept.holds r.data = !r.outlier := by
  cases hr : r.outlier <;> simp only [WideRow.data, hr] <;> rfl

/-- Rows that stand in the order of their experiments are selected in this order. -/
theorem apply_byExperiment {rows : List WideRow} (h : rows.Pairwise fun r r' => r.experiment < r'.experiment)
    (condition : Option (Sql.Term Sql.Column)) :
    (Sql.ResolvedSelection.mk condition byExperiment).apply WideRow.data rows
      = rows.filter fun r => Sql.satisfies condition r.data := by
  refine List.mergeSort_of_pairwise ((h.filter _).imp fun {r r'} hlt => ?_)
  have horder : ((Sql.Term.name ⟨1, .integer⟩ : Sql.Term Sql.Column).evaluate r.data).order
      ((Sql.Term.name ⟨1, .integer⟩ : Sql.Term Sql.Column).evaluate r'.data) = .lt :=
    Std.compare_eq_lt.mpr (Int.ofNat_lt.mpr hlt)
  simp only [byExperiment, Sql.mayPrecede, Bool.false_eq_true, if_false, horder]

/-- A selection takes each row at most once. -/
theorem apply_subperm (selection : Sql.ResolvedSelection) (rows : List WideRow) :
    (selection.apply WideRow.data rows).Subperm rows := by
  have htaken : (rows.filter fun r => Sql.satisfies selection.condition r.data).Subperm rows :=
    List.filter_sublist.subperm
  unfold Sql.ResolvedSelection.apply
  dsimp only
  split
  · exact htaken
  · exact (List.mergeSort_perm _ _).subperm.trans htaken

/-- A selected row. -/
def storedRow (t : WideTable) (fields : List Field) (r : WideRow) : StoredRow :=
  ⟨r.experiment, r.outlier, t.valuesOf fields r⟩

theorem selectRows_eq {written : String} (hwritten : s.benchmark written = .ok b)
    (ht : s.table? b.table = some t) (q : RowQuery) :
    s.selectRows written q = (q.rows t (["EXP", "OUT"] ++ (s.fieldsOf b).map Field.column) "EXP").map
      fun rows => rows.map (storedRow t (s.fieldsOf b)) := by
  unfold selectRows
  simp only [hwritten, ht, bind, Except.bind]
  cases q.rows t (["EXP", "OUT"] ++ (s.fieldsOf b).map Field.column) "EXP" <;> rfl

/-! ## §3 The invariant -/

theorem Sound.answersAgree (h : s.Sound) {written : String} (hwritten : s.benchmark written = .ok b)
    (hb : b ∈ s.benchmarks) : ∃ rows, s.AnswersAgree written rows := by
  have hfits : TableFits b (s.ownFields b) (s.experimentsOf b) (s.table? b.table) := (h.holdings b hb).table
  have hids : s.experimentIds written = .ok ((s.experimentsOf b).map (·.id)) := by
    unfold experimentIds
    rw [hwritten]
    rfl
  have hdescribe : s.describe written = .ok ⟨b, s.fieldsOf b, s.indicesOf b, s.countOf b,
      (s.experimentsOf b).countP (·.outlier)⟩ := by
    unfold describe
    rw [hwritten]
    rfl
  -- Without a table no row is selected; with one the rows are numbered and flagged as the experiments are.
  cases htable : s.table? b.table with
  | none =>
    rw [htable] at hfits
    have hselect : ∀ q, s.selectRows written q = .ok [] := by
      intro q
      unfold selectRows
      simp only [hwritten, htable, bind, Except.bind]
      rfl
    refine ⟨[], hselect _, hselect _, fun q selected hq => ?_, by rw [hids, hfits.2]; rfl, _, hdescribe,
      ?_, ?_⟩
    · rw [hselect] at hq
      cases hq
      exact List.Subperm.refl _
    · rw [countOf, hfits.2]
      rfl
    · rw [hfits.2]
      rfl
  | some t =>
    rw [htable] at hfits
    obtain ⟨_, _, hrows⟩ := hfits
    have hselect := selectRows_eq hwritten htable
    have hnumbers : t.rows.map (·.experiment) = (s.experimentsOf b).map (·.id) :=
      map_eq_map_of_forall₂ hrows fun r e hre => hre.experiment
    have hflags : t.rows.map (·.outlier) = (s.experimentsOf b).map (·.outlier) :=
      map_eq_map_of_forall₂ hrows fun r e hre => hre.outlier
    -- Experiments stand in the order of their numbers, and so do their rows.
    have hordered : t.rows.Pairwise fun r r' => r.experiment < r'.experiment := by
      have hascending : ((s.experimentsOf b).map (·.id)).Pairwise (· < ·) :=
        List.pairwise_map.mpr (h.numbers.experiments.filter _).pairwise
      rw [← hnumbers] at hascending
      exact List.pairwise_map.mp hascending
    refine ⟨t.rows.map (storedRow t (s.fieldsOf b)), ?_, ?_, fun q selected hq => ?_, ?_, _, hdescribe,
      ?_, ?_⟩
    · rw [hselect, RowQuery.rows, selection?_all]
      dsimp only
      rw [apply_byExperiment hordered]
      simp [Sql.satisfies, Except.map]
    · rw [hselect, RowQuery.rows, selection?_kept]
      dsimp only
      rw [apply_byExperiment hordered, List.filter_map]
      simp [Sql.satisfies, Except.map, holds_isKept, storedRow, Function.comp_def]
    · -- Whatever is selected comes from the rows, and none of them twice.
      rw [hselect, RowQuery.rows] at hq
      split at hq
      · cases hq
        obtain ⟨l, hperm, hsub⟩ := apply_subperm _ t.rows
        exact ⟨l.map _, hperm.map _, hsub.map _⟩
      · cases hq
    · rw [hids, ← hnumbers, List.map_map]
      rfl
    · rw [List.length_map, countOf, ← List.length_map (·.id), ← hnumbers, List.length_map]
    · rw [List.countP_map]
      have hcount := congrArg (List.countP id) hflags
      rw [List.countP_map, List.countP_map] at hcount
      exact hcount.symm

/-- In every reachable store the wide table of each benchmark mirrors its experiments, and all answers about
    the experiments of a benchmark that is there agree. -/
theorem reachable_dataMirrored (h : s.Reachable) :
    (∀ b ∈ s.benchmarks, s.DataMirrored b)
      ∧ ∀ written b, s.benchmark written = .ok b → ∃ rows, s.AnswersAgree written rows := by
  refine ⟨fun b hb => h.sound.dataMirrored hb, fun written b hwritten => ?_⟩
  obtain ⟨name, _, hfound⟩ := benchmark_eq_ok hwritten
  exact h.sound.answersAgree hwritten (of_benchmark?_eq_some hfound).1

theorem dataMirrored_sample : sample.experiments.map (fun e => (e.id, e.identity, e.outlier))
      = [(1, "10", false), (2, "20", true)]
    ∧ (∀ b ∈ sample.benchmarks, sample.DataMirrored b) ∧ ∃ rows, sample.AnswersAgree "runs" rows := by
  obtain ⟨hmirrored, hanswers⟩ := reachable_dataMirrored reachable_sample
  obtain ⟨b, hwritten, _⟩ := exists_eq_ok (x := sample.benchmark "runs") (f := (·.id)) (b := 1)
    (by decide +kernel)
  exact ⟨by decide +kernel, hmirrored, hanswers "runs" b hwritten⟩

end BenchPlot.Store
