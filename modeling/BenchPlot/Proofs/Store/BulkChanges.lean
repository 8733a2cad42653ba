import BenchPlot.Proofs.Store.Frame
import BenchPlot.Proofs.Store.ImportChunks
import BenchPlot.Proofs.Store.InsertByKey
import BenchPlot.Proofs.Store.Selecting

/-!
# Changes of many experiments at once

Experiments are marked and deleted by their numbers, which come from a list or from the rows that satisfy a
condition. A number counts once, and only if an experiment of the benchmark has it. What happens to the experiments
with these numbers happens to their rows as well, and to nothing else.

Main statements: `reachable_bulkChanges`, and `delete_append` for one number after another.
-/

namespace BenchPlot

/-- The experiment, marked if it has one of the numbers. -/
def Experiment.markIn (numbers : List Nat) (flag : Bool) (e : Experiment) : Experiment :=
  if numbers.contains e.id then { e with outlier := flag } else e

/-- The row of a table, marked if its experiment has one of the numbers. -/
def WideRow.markIn (numbers : List Nat) (flag : Bool) (r : WideRow) : WideRow :=
  if numbers.contains r.experiment then { r with outlier := flag } else r

/-- The selected row, marked if its experiment has one of the numbers. -/
def StoredRow.markIn (numbers : List Nat) (flag : Bool) (r : StoredRow) : StoredRow :=
  if numbers.contains r.experiment then { r with outlier := flag } else r

/-- What does not look at the flag of an experiment does not see that it is marked. -/
theorem Experiment.comp_markIn (numbers : List Nat) (flag : Bool) {look : Experiment → Bool}
    (hlook : ∀ e : Experiment, look { e with outlier := flag } = look e) :
    look ∘ Experiment.markIn numbers flag = look := by
  funext e
  rw [Function.comp_apply, Experiment.markIn, apply_ite look, hlook, ite_self]

namespace Store

variable {s s' : Store} {b c : Benchmark} {ids : List Int} {written : String}

theorem mem_of_benchmark_eq_ok (h : s.benchmark written = .ok b) : b ∈ s.benchmarks := by
  obtain ⟨_, _, hfound⟩ := benchmark_eq_ok h
  exact (of_benchmark?_eq_some hfound).1

theorem fieldsOf_congr (h : s'.fields = s.fields) (b : Benchmark) : s'.fieldsOf b = s.fieldsOf b := by
  unfold fieldsOf
  rw [h]

/-! ## §1 Listed experiments -/

/-- The numbers of the experiments of a benchmark that are listed. -/
def listed (s : Store) (b : Benchmark) (ids : List Int) : List Nat :=
  ((s.experimentsOf b).filter fun e => ids.contains (e.id : Int)).map (·.id)

/-- An experiment is listed iff it belongs to the benchmark and its number is in the list. -/
theorem Sound.mem_listed (h : s.Sound) {e : Experiment} (he : e ∈ s.experiments) :
    (s.listed b ids).contains e.id = (e.benchmark == b.id && ids.contains (e.id : Int)) := by
  rw [Bool.eq_iff_iff, List.contains_iff_mem, Bool.and_eq_true]
  constructor
  · intro hmem
    obtain ⟨e', he', hid⟩ := List.mem_map.mp hmem
    obtain ⟨hown, hlisted⟩ := List.mem_filter.mp he'
    obtain ⟨hthere, hbench⟩ := List.mem_filter.mp hown
    -- Numbers are given away once in the whole store.
    obtain rfl := h.numbers.experiments.eq_of_number_eq hthere he hid
    exact ⟨hbench, hlisted⟩
  · rintro ⟨hbench, hlisted⟩
    exact List.mem_map_of_mem (List.mem_filter.mpr ⟨List.mem_filter.mpr ⟨he, hbench⟩, hlisted⟩)

/-- A row of a table stands for an experiment of the benchmark that has the table. -/
theorem Sound.exists_experiment_of_row (h : s.Sound) {t : WideTable} (ht : t ∈ s.tables) {r : WideRow}
    (hr : r ∈ t.rows) : ∃ c ∈ s.benchmarks, c.table = t.name ∧ ∃ e ∈ s.experimentsOf c, e.id = r.experiment := by
  -- Every table is that of a benchmark, and its rows mirror the experiments there one by one.
  obtain ⟨c, hc, hname⟩ := h.tableOwners t ht
  have hfound : s.table? c.table = some t := by
    rw [hname]
    exact find?_eq_some_of_mem h.tableNames ht
  obtain ⟨e, he, hre⟩ := exists_mem_of_forall₂ (h.fits_table hc hfound).2 hr
  exact ⟨c, hc, hname, e, he, hre.experiment.symm⟩

/-- A row is listed iff it stands in the table of the benchmark and its number is in the list. -/
theorem Sound.row_mem_listed (h : s.Sound) (hb : b ∈ s.benchmarks) {t : WideTable} (ht : t ∈ s.tables) {r : WideRow}
    (hr : r ∈ t.rows) :
    (s.listed b ids).contains r.experiment = (t.name == b.table && ids.contains (r.experiment : Int)) := by
  obtain ⟨c, hc, hname, e, he, hid⟩ := h.exists_experiment_of_row ht hr
  obtain ⟨hthere, hbench⟩ := List.mem_filter.mp he
  have hid' : e.benchmark = c.id := eq_of_beq hbench
  -- Benchmarks with different numbers have different tables.
  have howner : (e.benchmark == b.id) = (t.name == b.table) := by
    rw [Bool.eq_iff_iff, beq_iff_eq, beq_iff_eq, hid', ← hname]
    constructor
    · intro heq
      rw [h.eq_of_id_eq hc hb heq]
    · intro heq
      by_contra hne
      exact h.table_ne hb hc hne heq
  rw [← hid, h.mem_listed hthere, howner]

/-! ## §2 Rows of all tables -/

/-- The store with other experiments, and with other rows in all tables. -/
def withRows (s : Store) (experiments : List Experiment) (g : List WideRow → List WideRow) : Store :=
  { s with experiments := experiments, tables := s.tables.map (·.onRows g) }

theorem onRows_id {t : WideTable} {g : List WideRow → List WideRow} (h : g t.rows = t.rows) : t.onRows g = t := by
  unfold WideTable.onRows
  rw [h]

theorem onRows_congr {t : WideTable} {g g' : List WideRow → List WideRow} (h : g t.rows = g' t.rows) :
    t.onRows g = t.onRows g' := by
  unfold WideTable.onRows
  rw [h]

/-- What changes the rows of one table as it would change all rows, and leaves the rows of the others alone,
    changes the rows of all tables. -/
theorem updateTable_eq {name : String} {g g' : List WideRow → List WideRow}
    (hown : ∀ t ∈ s.tables, t.name = name → g t.rows = g' t.rows)
    (hother : ∀ t ∈ s.tables, t.name ≠ name → g' t.rows = t.rows) :
    s.updateTable name (·.onRows g) = { s with tables := s.tables.map (·.onRows g') } := by
  unfold updateTable
  congr 1
  apply List.map_congr_left
  intro t ht
  split
  · rename_i hname
    exact onRows_congr (hown t ht (eq_of_beq hname))
  · rename_i hname
    exact (onRows_id (hother t ht (by simpa using hname))).symm

/-- Erasing takes away the experiments that are listed, and their rows. -/
theorem Sound.erase_eq (h : s.Sound) (hb : b ∈ s.benchmarks) (ids : List Int) :
    s.erase b ids = s.withRows (s.experiments.filter fun e => !(s.listed b ids).contains e.id)
      (·.filter fun r => !(s.listed b ids).contains r.experiment) := by
  have hexperiments : (s.experiments.filter fun e => !(e.benchmark == b.id && ids.contains (e.id : Int)))
      = s.experiments.filter fun e => !(s.listed b ids).contains e.id := by
    apply List.filter_congr
    intro e he
    rw [h.mem_listed he]
  unfold Store.erase
  rw [hexperiments]
  -- In the table of the benchmark the number alone decides; no row of another table is listed.
  apply updateTable_eq
  · intro t ht hname
    apply List.filter_congr
    intro r hr
    rw [h.row_mem_listed hb ht hr, hname, beq_self_eq_true, Bool.true_and]
  · intro t ht hname
    apply List.filter_eq_self.mpr
    intro r hr
    rw [h.row_mem_listed hb ht hr, beq_eq_false_iff_ne.mpr hname]
    rfl

/-- Marking marks the experiments that are listed, and their rows. -/
theorem Sound.mark_eq (h : s.Sound) (hb : b ∈ s.benchmarks) (ids : List Int) (flag : Bool) :
    s.mark b ids flag = s.withRows (s.experiments.map (·.markIn (s.listed b ids) flag))
      (·.map (·.markIn (s.listed b ids) flag)) := by
  have hexperiments : (s.experiments.map fun e =>
        if e.benchmark == b.id && ids.contains (e.id : Int) then { e with outlier := flag } else e)
      = s.experiments.map (·.markIn (s.listed b ids) flag) := by
    apply List.map_congr_left
    intro e he
    rw [Experiment.markIn, h.mem_listed he]
  unfold Store.mark
  rw [hexperiments]
  apply updateTable_eq
  · intro t ht hname
    apply List.map_congr_left
    intro r hr
    rw [WideRow.markIn, h.row_mem_listed hb ht hr, hname, beq_self_eq_true, Bool.true_and]
  · intro t ht hname
    refine (List.map_congr_left (g := id) fun r hr => ?_).trans (List.map_id _)
    rw [WideRow.markIn, h.row_mem_listed hb ht hr, beq_eq_false_iff_ne.mpr hname]
    rfl

/-! ## §3 Rows that satisfy a predicate -/

/-- A predicate can stand behind `WHERE` as well as in parentheses: it is one expression as it is written and without
    the blanks around it, and it has no word that begins another clause. -/
structure IsPredicate (predicate : String) : Prop where
  expression : ∃ t, Sql.IsExpression predicate.toList t ∧ Sql.IsExpression (Text.trim predicate).toList t
  noOrder : Sql.WithoutOrder predicate.toList

variable {predicate : String} {q : RowQuery}

theorem IsPredicate.complete (h : IsPredicate predicate) (includeOutliers : Bool) :
    RowQuery.Complete ⟨[predicate], includeOutliers⟩ := by
  obtain ⟨t, _, ht⟩ := h.expression
  intro p hp
  rw [List.mem_singleton.mp hp]
  exact .inr ⟨t, ht⟩

/-- A predicate states one condition about the rows of a table. -/
theorem IsPredicate.conditions? (h : IsPredicate predicate) (t : WideTable) (includeOutliers : Bool) :
    (RowQuery.mk [predicate] includeOutliers).conditions? t = (t.condition? (Text.trim predicate)).map ([·]) := by
  obtain ⟨term, _, hterm⟩ := h.expression
  have hfull : (Text.trim predicate).isEmpty = false := by
    cases hblank : (Text.trim predicate).isEmpty with
    | false => rfl
    | true =>
      -- Without tokens there is no term.
      obtain ⟨ls, hlexes, _, hread⟩ := hterm.reads
      rw [String.isEmpty_iff.mp hblank] at hlexes
      have hnone : Sql.lexemes? "".toList = some [] := Sql.lexemes?_done (by simp [Sql.takeBlank])
      obtain rfl := Option.some.inj (hnone.symm.trans hlexes)
      cases hread
  unfold RowQuery.conditions? RowQuery.fragments
  simp only [List.map_cons, List.map_nil, hfull, Bool.not_false, List.filter_cons_of_pos, List.filter_nil,
    List.mapM_cons, List.mapM_nil]
  cases t.condition? (Text.trim predicate) <;> rfl

/-- The numbers of the rows that satisfy a predicate are those of the rows that it selects. -/
theorem Sound.matchingIds_eq (h : s.Sound) (hwritten : s.benchmark written = .ok b) (hb : b ∈ s.benchmarks)
    (hp : IsPredicate predicate) : s.matchingIds b predicate
      = (s.selectRows written ⟨[predicate], true⟩).map fun rows => rows.map fun r => (r.experiment : Int) := by
  cases ht : s.table? b.table with
  | none =>
    unfold matchingIds selectRows
    simp only [hwritten, ht, bind, Except.bind]
    rfl
  | some t =>
    -- The text as it is written and the text in parentheses are read as one term.
    obtain ⟨term, hterm, htrimmed⟩ := hp.expression
    have hcondition : t.condition? (Text.trim predicate) = term.resolve? (t.names []).find? := by
      rw [WideTable.condition?, htrimmed.expression?, Option.bind_some]
    rw [h.selectRows_eq hwritten hb ht (hp.complete true), hp.conditions? t true, hcondition]
    unfold matchingIds
    rw [ht]
    simp only [hterm.parse? hp.noOrder, Option.bind_some, Sql.Selection.resolve?, Sql.resolveCondition?,
      WideTable.namesForIds, t.find?_names ["EXP"], List.mapM_nil]
    cases term.resolve? (t.names []).find? with
    | none => rfl
    | some condition =>
      have htakes : (RowQuery.mk [predicate] true).takes [condition] = fun r => condition.holds r.data := by
        funext r
        simp [RowQuery.takes]
      simp [Sql.ResolvedSelection.apply, Sql.satisfies, htakes, Except.map, storedRow, Function.comp_def]

/-- The rows that a query selects have numbers of experiments of the benchmark, in their order. -/
theorem Sound.selected_sublist (h : s.Sound) (hwritten : s.benchmark written = .ok b) (hb : b ∈ s.benchmarks)
    (hq : q.Complete) {rows : List StoredRow} (hrows : s.selectRows written q = .ok rows) :
    (rows.map (·.experiment)).Sublist ((s.experimentsOf b).map (·.id)) := by
  cases ht : s.table? b.table with
  | none =>
    unfold selectRows at hrows
    simp only [hwritten, ht, bind, Except.bind] at hrows
    cases hrows
    exact List.nil_sublist _
  | some t =>
    have hnumbers : t.rows.map (·.experiment) = (s.experimentsOf b).map (·.id) :=
      map_eq_map_of_forall₂ (h.fits_table hb ht).2 fun r e hre => hre.experiment
    rw [h.selectRows_eq hwritten hb ht hq] at hrows
    split at hrows
    · cases hrows
      rw [← hnumbers, List.map_map]
      exact List.filter_sublist.map _
    · cases hrows

/-- Listed numbers of experiments are found as they are. -/
theorem Sound.listed_of_sublist (h : s.Sound) {numbers : List Nat}
    (hsub : numbers.Sublist ((s.experimentsOf b).map (·.id))) : s.listed b (numbers.map Int.ofNat) = numbers := by
  -- Both lists ascend, so their members decide.
  have hascending : ((s.experimentsOf b).map (·.id)).Pairwise (· < ·) :=
    List.pairwise_map.mpr (h.numbers.experiments.filter _).pairwise
  refine eq_of_ascending (fun _ _ _ _ => Nat.lt_asymm) (hascending.sublist (List.filter_sublist.map _))
    (hascending.sublist hsub) fun number => ?_
  constructor
  · intro hmem
    obtain ⟨e, he, rfl⟩ := List.mem_map.mp hmem
    obtain ⟨_, hlisted⟩ := List.mem_filter.mp he
    obtain ⟨n, hn, heq⟩ := List.mem_map.mp (List.contains_iff_mem.mp hlisted)
    rwa [← Int.ofNat.inj heq]
  · intro hmem
    obtain ⟨e, he, rfl⟩ := List.mem_map.mp (hsub.subset hmem)
    apply List.mem_map_of_mem
    exact List.mem_filter.mpr ⟨he, List.contains_iff_mem.mpr (List.mem_map_of_mem hmem)⟩

theorem length_listed (s : Store) (b : Benchmark) (ids : List Int) :
    (s.listed b ids).length = s.erasedCount b ids := by
  rw [listed, List.length_map, erasedCount, List.countP_eq_length_filter]

/-! ## §4 Answers behind a change of rows -/

theorem table?_withRows (experiments : List Experiment) (g : List WideRow → List WideRow) (name : String) :
    (s.withRows experiments g).table? name = (s.table? name).map (·.onRows g) := by
  unfold table? withRows
  rw [List.find?_map]
  rfl

/-- What a query selects behind a change of rows, where the numbers of the rows ascend before and behind it. -/
theorem Sound.selectRows_withRows (h : s.Sound) {experiments : List Experiment} {g : List WideRow → List WideRow}
    (hs' : (s.withRows experiments g).touch.Sound) (hq : q.Complete) {change : List StoredRow → List StoredRow}
    (hnone : change [] = [])
    (hchange : ∀ (t : WideTable) conditions fields, q.conditions? t = some conditions →
      ((g t.rows).filter (q.takes conditions)).map (storedRow t fields)
        = change ((t.rows.filter (q.takes conditions)).map (storedRow t fields))) (name : String) :
    (s.withRows experiments g).touch.selectRows name q = (s.selectRows name q).map change := by
  have hsame : (s.withRows experiments g).touch.benchmark name = s.benchmark name := rfl
  cases hwritten : s.benchmark name with
  | error e =>
    unfold selectRows
    simp only [hsame, hwritten, bind, Except.bind]
    rfl
  | ok c =>
    have hc := mem_of_benchmark_eq_ok hwritten
    have htable : (s.withRows experiments g).touch.table? c.table = (s.table? c.table).map (·.onRows g) :=
      table?_withRows experiments g c.table
    cases ht : s.table? c.table with
    | none =>
      rw [ht] at htable
      unfold selectRows
      simp only [hsame, hwritten, htable, ht, Option.map_none, bind, Except.bind]
      exact congrArg Except.ok hnone.symm
    | some t =>
      rw [ht, Option.map_some] at htable
      rw [hs'.selectRows_eq (hsame.trans hwritten) hc htable hq, h.selectRows_eq hwritten hc ht hq]
      -- The columns are those of the table before, and so are the conditions.
      have hconditions : q.conditions? (t.onRows g) = q.conditions? t := rfl
      rw [hconditions]
      cases hfound : q.conditions? t with
      | none => rfl
      | some conditions => exact congrArg Except.ok (hchange t conditions _ hfound)

/-- Whatever a selection takes from rows of which some are gone, it takes what it took from all, less what is gone. -/
theorem apply_filter_perm (selection : Sql.ResolvedSelection) (keep : WideRow → Bool) (rows : List WideRow) :
    (selection.apply WideRow.data (rows.filter keep)).Perm ((selection.apply WideRow.data rows).filter keep) := by
  unfold Sql.ResolvedSelection.apply
  dsimp only
  rw [List.filter_comm]
  split
  · exact .refl _
  · exact (List.mergeSort_perm _ _).trans ((List.mergeSort_perm _ _).symm.filter keep)

/-- What any query selects where only some rows are kept, in some order. -/
theorem selectRows_perm (keep : Nat → Bool) {name : String} (hbenchmark : s'.benchmark name = s.benchmark name)
    (hfields : s'.fields = s.fields)
    (htable : ∀ table, s'.table? table = (s.table? table).map (·.onRows (·.filter fun r => keep r.experiment)))
    (q : RowQuery) :
    match s.selectRows name q with
    | .ok rows => ∃ rows', s'.selectRows name q = .ok rows' ∧ rows'.Perm (rows.filter fun r => keep r.experiment)
    | .error e => s'.selectRows name q = .error e := by
  unfold selectRows
  rw [hbenchmark]
  cases s.benchmark name with
  | error e => rfl
  | ok c =>
    simp only [htable, fieldsOf_congr hfields, bind, Except.bind]
    cases s.table? c.table with
    | none => exact ⟨[], rfl, .nil⟩
    | some t =>
      -- The columns are those of the table before, and so is the selection.
      have hselection : ∀ columns, q.selection? (t.onRows (·.filter fun r => keep r.experiment)) columns "EXP"
          = q.selection? t columns "EXP" := fun _ => rfl
      simp only [Option.map_some, RowQuery.rows, hselection]
      cases q.selection? t _ "EXP" with
      | none => rfl
      | some selection =>
        refine ⟨_, rfl, ?_⟩
        rw [List.filter_map]
        exact (apply_filter_perm selection _ t.rows).map _

/-! ## §5 Deletion -/

/-- A deletion takes some experiments of a benchmark away, and nothing else but the time of the last change is
    different. -/
structure Removes (s s' : Store) (b : Benchmark) (gone : List Nat) : Prop where
  store : s' = (s.withRows (s.experiments.filter fun e => !gone.contains e.id)
    (·.filter fun r => !gone.contains r.experiment)).touch
  owned : ∀ id ∈ gone, ∃ e ∈ s.experimentsOf b, e.id = id
  experimentIds : ∀ name,
    s'.experimentIds name = (s.experimentIds name).map (·.filter fun id => !gone.contains id)
  selectRows : ∀ name (q : RowQuery), q.Complete →
    s'.selectRows name q = (s.selectRows name q).map (·.filter fun r => !gone.contains r.experiment)
  /-- A query that is not complete may bring its own order. -/
  selectRowsPerm : ∀ name (q : RowQuery), match s.selectRows name q with
    | .ok rows => ∃ rows', s'.selectRows name q = .ok rows'
        ∧ rows'.Perm (rows.filter fun r => !gone.contains r.experiment)
    | .error e => s'.selectRows name q = .error e
  others : ∀ c ∈ s.benchmarks, c ≠ b → LeavesAlone c s s'
  freed : ∀ e ∈ s.experimentsOf b, e.id ∈ gone → s'.experiment? b e.identity = none
  /-- Values that were found under a number that is gone are inserted under a new one. -/
  again : ∀ written values id t, s.benchmark written = .ok b → s.insert written values = .ok (.existing id, t) →
    id ∈ gone → ∃ t', s'.insert written values = .ok (.inserted (s'.last.experiment + 1), t')

/-- An insertion goes by the benchmark and its fields, and by what becomes of the values there. -/
theorem insert_of_insertValues (hwritten : s.benchmark written = .ok b) (hbenchmarks : s'.benchmarks = s.benchmarks)
    (hfields : s'.fields = s.fields) {values : SortedMap String String} {outcome : InsertOutcome} {t : Store}
    (hok : s.insert written values = .ok (outcome, t)) : ∃ named,
      (∃ u, s.insertValues b (s.fieldsOf b) named = .ok (outcome, u))
        ∧ ∀ outcome' u', s'.insertValues b (s.fieldsOf b) named = .ok (outcome', u') →
          s'.insert written values = .ok (outcome', if outcome'.isInserted then u'.touch else u') := by
  unfold insert at hok
  obtain ⟨name, hname, hok⟩ := bind_eq_ok.1 hok
  obtain ⟨named, hnamed, hok⟩ := bind_eq_ok.1 hok
  obtain ⟨b', hb', hok⟩ := bind_eq_ok.1 hok
  obtain ⟨fields, hinsert, hok⟩ := bind_eq_ok.1 hok
  obtain ⟨_, hknown, hok⟩ := bind_eq_ok.1 hok
  obtain ⟨⟨o, u⟩, hu, hok⟩ := bind_eq_ok.1 hok
  cases hok
  obtain ⟨hown, hkey⟩ := insertFields_eq_ok hinsert
  -- The written name is that of one benchmark.
  have hsame : b' = b := by
    unfold benchmark at hwritten
    rw [hname] at hwritten
    exact Except.ok.inj (hb'.symm.trans hwritten)
  rw [hsame] at hb' hinsert hknown hu hown
  rw [hown] at hinsert hknown hu
  refine ⟨named, ⟨u, mapError_eq_ok.1 hu⟩, fun outcome' u' hu' => ?_⟩
  have hrequire : s'.require name = .ok b := by
    rw [require_eq_ok] at hb' ⊢
    unfold benchmark? at hb' ⊢
    rw [hbenchmarks]
    exact hb'
  have hinsert' : s'.insertFields b = .ok (s.fieldsOf b) := by
    unfold insertFields at hinsert ⊢
    rwa [fieldsOf_congr hfields]
  unfold insert
  simp only [hname, hnamed, hrequire, hinsert', hknown, hu', bind, Except.bind, Except.mapError, pure, Except.pure]

/-- Two lists of numbers are erased one behind the other. -/
theorem erase_append (s : Store) (b : Benchmark) (ids more : List Int) :
    s.erase b (ids ++ more) = (s.erase b ids).erase b more := by
  unfold erase updateTable
  simp only [List.filter_filter, List.map_map]
  congr 1
  · apply List.filter_congr
    intro e _
    rw [List.contains_append]
    cases e.benchmark == b.id <;> cases ids.contains (e.id : Int) <;> cases more.contains (e.id : Int) <;> rfl
  · apply List.map_congr_left
    intro t _
    rw [Function.comp_apply]
    by_cases hname : t.name == b.table
    · simp [hname, List.filter_filter, Bool.and_comm]
    · simp [hname]

theorem experimentsOf_erase (s : Store) (b : Benchmark) (ids : List Int) :
    (s.erase b ids).experimentsOf b = (s.experimentsOf b).filter fun e => !ids.contains (e.id : Int) :=
  congrArg Holding.experiments (erase_holding s b ids)

theorem erasedCount_append (s : Store) (b : Benchmark) (ids more : List Int) :
    s.erasedCount b (ids ++ more) = s.erasedCount b ids + (s.erase b ids).erasedCount b more := by
  unfold erasedCount
  rw [experimentsOf_erase, List.countP_eq_countP_filter_add _ _ fun e => ids.contains (e.id : Int),
    List.countP_filter, List.countP_filter, List.countP_filter]
  congr 1
  all_goals
    apply List.countP_congr
    intro e _
    rw [List.contains_append]
    cases ids.contains (e.id : Int) <;> cases more.contains (e.id : Int) <;> simp

/-- A list of numbers is deleted as its parts are one behind the other, and so as each of its numbers is. -/
theorem delete_append (s : Store) (written : String) (ids more : List Int) :
    s.delete written (ids ++ more) = (do
      let (n, s₁) ← s.delete written ids
      let (m, s₂) ← s₁.delete written more
      pure (n + m, s₂)) := by
  unfold delete
  cases hwritten : s.benchmark written with
  | error e => rfl
  | ok b =>
    have hagain : (s.erase b ids).touch.benchmark written = .ok b := hwritten
    have htouched : ((s.erase b ids).touch.erase b more).touch = ((s.erase b ids).erase b more).touch :=
      ((s.erase b ids).erase b more).touch_touch
    have hcount : (s.erase b ids).touch.erasedCount b more = (s.erase b ids).erasedCount b more := rfl
    simp only [hagain, htouched, hcount, erase_append, erasedCount_append, bind, Except.bind, pure, Except.pure]

/-- Behind a deletion no experiment has the identity of one that is gone. -/
theorem Sound.experiment?_erase (h : s.Sound) (hb : b ∈ s.benchmarks) (ids : List Int) {e : Experiment}
    (he : e ∈ s.experimentsOf b) (hgone : ids.contains (e.id : Int) = true) :
    (s.erase b ids).touch.experiment? b e.identity = none := by
  refine experiment?_eq_none.2 fun e' he' hsame => ?_
  have hleft : (s.erase b ids).touch.experimentsOf b
      = (s.experimentsOf b).filter fun e => !ids.contains (e.id : Int) :=
    experimentsOf_erase s b ids
  rw [hleft] at he'
  obtain ⟨hthere, hstays⟩ := List.mem_filter.mp he'
  -- Identities are those of one experiment each.
  obtain rfl := List.inj_on_of_nodup_map (h.holdings b hb).identities hthere he hsame
  rw [hgone] at hstays
  cases hstays

/-- Values that were found under a number are inserted under a new one where no experiment has that identity. -/
theorem insert_of_freed (hwritten : s.benchmark written = .ok b) (hbenchmarks : s'.benchmarks = s.benchmarks)
    (hfields : s'.fields = s.fields) {values : SortedMap String String} {id : Nat} {t : Store}
    (hok : s.insert written values = .ok (.existing id, t))
    (hfreed : ∀ e ∈ s.experimentsOf b, e.id = id → s'.experiment? b e.identity = none) :
    ∃ t', s'.insert written values = .ok (.inserted (s'.last.experiment + 1), t') := by
  obtain ⟨named, ⟨u, hu⟩, hagain⟩ := insert_of_insertValues hwritten hbenchmarks hfields hok
  obtain ⟨typed, htyped, ⟨e, hexperiment, hexisting, _⟩ | ⟨_, hinserted, _⟩⟩ := insertValues_eq_ok hu
  · -- The values have the identity of the experiment that was found, which is free now.
    cases hexisting
    obtain ⟨he, hidentity⟩ := of_experiment?_eq_some hexperiment
    have hnone := hfreed e he rfl
    rw [hidentity] at hnone
    have hnew : s'.insertValues b (s.fieldsOf b) named = .ok (.inserted (s'.last.experiment + 1),
        s'.addExperiment b (s.fieldsOf b) (identityOf (s.fieldsOf b) typed) typed) := by
      unfold Store.insertValues
      simp only [htyped, hnone, bind, Except.bind]
      rfl
    exact ⟨_, hagain _ _ hnew⟩
  · cases hinserted

/-- The numbers of the experiments behind a deletion. -/
theorem experimentIds_withRows (keep : Nat → Bool) (g : List WideRow → List WideRow) (name : String) :
    (s.withRows (s.experiments.filter fun e => keep e.id) g).touch.experimentIds name
      = (s.experimentIds name).map (·.filter keep) := by
  have hsame : (s.withRows (s.experiments.filter fun e => keep e.id) g).touch.benchmark name
      = s.benchmark name := rfl
  unfold experimentIds
  rw [hsame]
  cases s.benchmark name with
  | error e => rfl
  | ok c =>
    simp only [bind, Except.bind, pure, Except.pure, Except.map, List.filter_map]
    congr 2
    exact List.filter_comm _ _ _

theorem Sound.removes (h : s.Sound) (hb : b ∈ s.benchmarks) (ids : List Int) :
    Removes s (s.erase b ids).touch b (s.listed b ids) := by
  have hs' := (h.erase hb ids).touch
  have hstore := congrArg Store.touch (h.erase_eq hb ids)
  have hfreed : ∀ e ∈ s.experimentsOf b, e.id ∈ s.listed b ids →
      (s.erase b ids).touch.experiment? b e.identity = none := by
    intro e he hid
    have hlisted := (List.contains_iff_mem.mpr hid).symm.trans (h.mem_listed (List.mem_filter.mp he).1)
    exact h.experiment?_erase hb ids he (Bool.and_eq_true_iff.mp hlisted.symm).2
  refine ⟨hstore, fun id hid => ?_, fun name => ?_, fun name q hq => ?_, fun name q => ?_, fun c hc hne => ?_,
    hfreed, fun written values id t hwritten hok hid => ?_⟩
  · obtain ⟨e, he, rfl⟩ := List.mem_map.mp hid
    exact ⟨e, (List.mem_filter.mp he).1, rfl⟩
  · rw [hstore]
    exact experimentIds_withRows (fun id => !(s.listed b ids).contains id) _ name
  · rw [hstore] at hs' ⊢
    refine h.selectRows_withRows hs' hq rfl (fun t conditions fields _ => ?_) name
    rw [List.filter_map, List.filter_comm]
    rfl
  · have hbenchmark : (s.erase b ids).touch.benchmark name = s.benchmark name := rfl
    have htable : ∀ table, (s.erase b ids).touch.table? table = (s.table? table).map
        (·.onRows (·.filter fun r => !(s.listed b ids).contains r.experiment)) := by
      intro table
      rw [hstore]
      exact table?_withRows (s.experiments.filter fun e => !(s.listed b ids).contains e.id) _ table
    exact selectRows_perm (fun id => !(s.listed b ids).contains id) hbenchmark rfl htable q
  · have hid : c.id ≠ b.id := fun heq => hne (h.eq_of_id_eq hc hb heq)
    exact ((erase_changedOnly s b ids).leavesAlone h hb hc hid).touch
  · have hbenchmarks : (s.erase b ids).touch.benchmarks = s.benchmarks := rfl
    exact insert_of_freed hwritten hbenchmarks rfl hok fun e he heq => hfreed e he (heq ▸ hid)

/-! ## §6 Flags -/

/-- A change of flags marks some experiments of a benchmark in both tables, and nothing else but the time of the last
    change is different. -/
structure Flags (s s' : Store) (b : Benchmark) (numbers : List Nat) (flag : Bool) : Prop where
  store : s' = (s.withRows (s.experiments.map (·.markIn numbers flag)) (·.map (·.markIn numbers flag))).touch
  owned : ∀ id ∈ numbers, ∃ e ∈ s.experimentsOf b, e.id = id
  isOutlier : ∀ name (id : Nat),
    s'.isOutlier name id = (s.isOutlier name id).map fun old => if numbers.contains id then flag else old
  selectRows : ∀ name,
    s'.selectRows name ⟨[], true⟩ = (s.selectRows name ⟨[], true⟩).map (·.map (·.markIn numbers flag))
  others : ∀ c ∈ s.benchmarks, c ≠ b → LeavesAlone c s s'

/-- The flag of an experiment behind a change of flags. -/
theorem isOutlier_withRows (s : Store) (numbers : List Nat) (flag : Bool) (g : List WideRow → List WideRow)
    (name : String) (id : Nat) :
    (s.withRows (s.experiments.map (·.markIn numbers flag)) g).touch.isOutlier name id
      = (s.isOutlier name id).map fun old => if numbers.contains id then flag else old := by
  have hsame : (s.withRows (s.experiments.map (·.markIn numbers flag)) g).touch.benchmark name
      = s.benchmark name := rfl
  unfold isOutlier
  rw [hsame]
  cases s.benchmark name with
  | error e => rfl
  | ok c =>
    have hmarked : (s.withRows (s.experiments.map (·.markIn numbers flag)) g).touch.experimentsOf c
        = (s.experimentsOf c).map (·.markIn numbers flag) :=
      List.filter_map.trans (congrArg (fun own => (s.experiments.filter own).map _)
        (Experiment.comp_markIn numbers flag fun e => rfl))
    have hnumber : ((fun e : Experiment => (e.id : Int) == id) ∘ Experiment.markIn numbers flag)
        = fun e => (e.id : Int) == id :=
      Experiment.comp_markIn numbers flag fun e => rfl
    simp only [hmarked, List.find?_map, hnumber, bind, Except.bind]
    cases hfound : (s.experimentsOf c).find? fun e => (e.id : Int) == id with
    | none => rfl
    | some e =>
      have hid := List.find?_some hfound
      obtain rfl := Int.ofNat.inj (eq_of_beq hid)
      simp only [Option.map_some, pure, Except.pure, Except.map, Experiment.markIn]
      split <;> rfl

theorem storedRow_markIn (t : WideTable) (fields : List Field) (numbers : List Nat) (flag : Bool) (r : WideRow) :
    storedRow t fields (r.markIn numbers flag) = (storedRow t fields r).markIn numbers flag := by
  unfold WideRow.markIn
  rw [apply_ite (storedRow t fields)]
  rfl

theorem Sound.flags (h : s.Sound) (hb : b ∈ s.benchmarks) (ids : List Int) (flag : Bool) :
    Flags s (s.mark b ids flag).touch b (s.listed b ids) flag := by
  have hs' := (h.mark hb ids flag).touch
  have hstore := congrArg Store.touch (h.mark_eq hb ids flag)
  refine ⟨hstore, fun id hid => ?_, fun name id => ?_, fun name => ?_, fun c hc hne => ?_⟩
  · obtain ⟨e, he, rfl⟩ := List.mem_map.mp hid
    exact ⟨e, (List.mem_filter.mp he).1, rfl⟩
  · rw [hstore]
    exact isOutlier_withRows ..
  · rw [hstore] at hs' ⊢
    have hempty : RowQuery.Complete ⟨[], true⟩ := fun p hp => absurd hp List.not_mem_nil
    refine h.selectRows_withRows hs' hempty rfl (fun t conditions fields hconditions => ?_) name
    -- Without predicates there is no condition, so that all rows are taken before and behind the marking.
    obtain rfl : [] = conditions := Option.some.inj hconditions
    have hall : ∀ rows : List WideRow, rows.filter ((RowQuery.mk [] true).takes []) = rows :=
      fun rows => List.filter_eq_self.mpr fun r _ => rfl
    rw [hall, hall, List.map_map, List.map_map]
    exact List.map_congr_left fun r _ => storedRow_markIn t fields _ flag r
  · have hid : c.id ≠ b.id := fun heq => hne (h.eq_of_id_eq hc hb heq)
    exact ((mark_changedOnly s b ids flag).leavesAlone h hb hc hid).touch

/-! ## §7 All changes of many experiments -/

/-- The numbers of the rows that a predicate selects are found, all of them and once each. -/
theorem Sound.matchingIds_ok (h : s.Sound) (hwritten : s.benchmark written = .ok b) (hb : b ∈ s.benchmarks)
    (hp : IsPredicate predicate) {rows : List StoredRow} (hrows : s.selectRows written ⟨[predicate], true⟩ = .ok rows) :
    ∃ ids, s.matchingIds b predicate = .ok ids ∧ s.listed b ids = rows.map (·.experiment)
      ∧ s.listedCount b ids = rows.length ∧ s.erasedCount b ids = rows.length := by
  have hsub := h.selected_sublist hwritten hb (hp.complete true) hrows
  have hlisted := h.listed_of_sublist hsub
  refine ⟨(rows.map (·.experiment)).map Int.ofNat, ?_, hlisted, ?_, ?_⟩
  · rw [h.matchingIds_eq hwritten hb hp, hrows, List.map_map]
    rfl
  · have hall : ∀ id ∈ (rows.map (·.experiment)).map Int.ofNat,
        ((s.experimentsOf b).any fun e => (e.id : Int) == id) = true := by
      intro id hid
      obtain ⟨number, hnumber, rfl⟩ := List.mem_map.mp hid
      obtain ⟨e, he, rfl⟩ := List.mem_map.mp (hsub.subset hnumber)
      exact List.any_eq_true.mpr ⟨e, he, beq_self_eq_true _⟩
    rw [listedCount, List.countP_eq_length.mpr hall, List.length_map, List.length_map]
  · rw [← length_listed, hlisted, List.length_map]

theorem Sound.matchingIds_error (h : s.Sound) (hwritten : s.benchmark written = .ok b) (hb : b ∈ s.benchmarks)
    (hp : IsPredicate predicate) {e : StoreError} (hrows : s.selectRows written ⟨[predicate], true⟩ = .error e) :
    s.matchingIds b predicate = .error e := by
  rw [h.matchingIds_eq hwritten hb hp, hrows]
  rfl

/-- Experiments of a benchmark are marked and deleted as the rows are that stand for them.

    With a predicate these are the rows that it selects, outliers among them, and their number is the count that is
    given; with a list of numbers they are the experiments of the benchmark that are listed. A predicate that no query
    accepts, and a benchmark that is not there, are refused as they are by a query. -/
structure BulkChanges (s : Store) (written : String) : Prop where
  deleteWhere : ∀ predicate, IsPredicate predicate → match s.selectRows written ⟨[predicate], true⟩ with
    | .ok rows => ∃ b s', s.benchmark written = .ok b ∧ s.deleteWhere written predicate = .ok (rows.length, s')
        ∧ Removes s s' b (rows.map (·.experiment))
    | .error e => s.deleteWhere written predicate = .error e
  setOutlierWhere : ∀ predicate flag, IsPredicate predicate → match s.selectRows written ⟨[predicate], true⟩ with
    | .ok rows => ∃ b s', s.benchmark written = .ok b
        ∧ s.setOutlierWhere written predicate flag = .ok (rows.length, s')
        ∧ Flags s s' b (rows.map (·.experiment)) flag
    | .error e => s.setOutlierWhere written predicate flag = .error e
  delete : ∀ ids, match s.benchmark written with
    | .ok b => ∃ s', s.delete written ids = .ok ((s.listed b ids).length, s')
        ∧ Removes s s' b (s.listed b ids)
    | .error e => s.delete written ids = .error e

theorem selectRows_of_error {e : StoreError} (hwritten : s.benchmark written = .error e) (q : RowQuery) :
    s.selectRows written q = .error e := by
  unfold selectRows
  rw [hwritten]
  rfl

theorem Sound.bulkChanges (h : s.Sound) (written : String) : BulkChanges s written := by
  cases hwritten : s.benchmark written with
  | error e =>
    refine ⟨fun predicate _ => ?_, fun predicate flag _ => ?_, fun ids => ?_⟩
    · rw [selectRows_of_error hwritten]
      simp only [Store.deleteWhere, hwritten, bind, Except.bind]
    · rw [selectRows_of_error hwritten]
      simp only [Store.setOutlierWhere, hwritten, bind, Except.bind]
    · simp only [Store.delete, hwritten, bind, Except.bind]
  | ok b =>
    have hb := mem_of_benchmark_eq_ok hwritten
    refine ⟨fun predicate hp => ?_, fun predicate flag hp => ?_, fun ids => ?_⟩
    · cases hrows : s.selectRows written ⟨[predicate], true⟩ with
      | error e =>
        have hrefused := h.matchingIds_error hwritten hb hp hrows
        simp only [Store.deleteWhere, hwritten, hrefused, bind, Except.bind]
      | ok rows =>
        obtain ⟨ids, hids, hlisted, _, hcount⟩ := h.matchingIds_ok hwritten hb hp hrows
        refine ⟨b, (s.erase b ids).touch, hwritten, ?_, hlisted ▸ h.removes hb ids⟩
        simp only [Store.deleteWhere, hwritten, hids, hcount, bind, Except.bind]
        rfl
    · cases hrows : s.selectRows written ⟨[predicate], true⟩ with
      | error e =>
        have hrefused := h.matchingIds_error hwritten hb hp hrows
        simp only [Store.setOutlierWhere, hwritten, hrefused, bind, Except.bind]
      | ok rows =>
        obtain ⟨ids, hids, hlisted, hcount, _⟩ := h.matchingIds_ok hwritten hb hp hrows
        refine ⟨b, (s.mark b ids flag).touch, hwritten, ?_, hlisted ▸ h.flags hb ids flag⟩
        simp only [Store.setOutlierWhere, hwritten, hids, hcount, bind, Except.bind]
        rfl
    · rw [hwritten]
      refine ⟨(s.erase b ids).touch, ?_, h.removes hb ids⟩
      simp only [Store.delete, hwritten, length_listed, bind, Except.bind]
      rfl

/-- In every store that a history leads to, changes of many experiments happen to those that are meant, and to nothing
    else. -/
theorem reachable_bulkChanges (h : s.Reachable) (written : String) : BulkChanges s written :=
  h.sound.bulkChanges written

theorem bulkChanges_sample : IsPredicate " OUT OR _SIZE = 20 " ∧ sample.BulkChanges "runs"
    ∧ (sample.selectRows "runs" ⟨[" OUT OR _SIZE = 20 "], true⟩).map (·.map (·.experiment)) = .ok [2]
    ∧ (do (← sample.deleteWhere "runs" " OUT OR _SIZE = 20 ").2.experimentIds "runs") = .ok [1]
    ∧ (sample.delete "runs" [2, 7, 2, -1]).map (·.1) = .ok 1 := by
  have hlexemes : Sql.lexemes? " OUT OR _SIZE = 20 ".toList
      = some [.word "OUT", .word "OR", .word "_SIZE", .symbol .equal, .number (.integer 20)] := by cbv
  have hwithout : Sql.WithoutOrder " OUT OR _SIZE = 20 ".toList := by
    intro ls hls word hword
    obtain rfl := Option.some.inj (hlexemes.symm.trans hls)
    simp only [List.mem_cons, Sql.Lexeme.word.injEq, reduceCtorEq, List.not_mem_nil, or_false] at hword
    obtain rfl | rfl | rfl := hword <;> decide +kernel
  have hpredicate : IsPredicate " OUT OR _SIZE = 20 " := by
    refine ⟨⟨.binary .or (.name ⟨.bare, "OUT"⟩)
      (.binary (.compare .eq) (.name ⟨.bare, "_SIZE"⟩) (.literal (.integer 20))),
      ⟨by decide, _, hlexemes, ?_, ?_⟩, by decide,
      [.word "OUT", .word "OR", .word "_SIZE", .symbol .equal, .number (.integer 20)], ?_, ?_, ?_⟩, hwithout⟩
    all_goals cbv
  exact ⟨hpredicate, reachable_bulkChanges reachable_sample "runs", by decide +kernel, by decide +kernel,
    by decide +kernel⟩

end Store

end BenchPlot
