import BenchPlot.Proofs.Store.DataKept
import BenchPlot.Proofs.Store.ImportByRow

/-!
# Rows that imports leave

An import that comes to its end has inserted its rows one after the other. A row that was new has its values in
the store behind it, and later rows leave them alone; a row that was not new has the values of an experiment
under all key fields, which stood in the store before it.

Main statements: `ImportPlan.Inserts.value?_inserted`, `ImportPlan.Inserts.value?_existing` and
`Store.exists_importsRows`.
-/

namespace BenchPlot

namespace Store

variable {s s' : Store} {b : Benchmark} {f : Field} {values : SortedMap String String}

/-! ## §1 Values in rows -/

/-- A row has the values of its experiment. -/
theorem Sound.value?_of_mem_rows (h : s.Sound) (hb : b ∈ s.benchmarks) {t : WideTable}
    (htable : s.table? b.table = some t) {r : WideRow} (hr : r ∈ t.rows) (f : Field) :
    (s.holding b).value? f r.experiment = some (t.cell r f.column) := by
  have hfits : TableFits b (s.ownFields b) (s.experimentsOf b) (s.table? b.table) := (h.holdings b hb).table
  rw [htable] at hfits
  obtain ⟨_, _, hrows⟩ := hfits
  -- The rows have the numbers of the experiments, which differ.
  have hnumbers : (t.rows.map (·.experiment)).Nodup := by
    rw [map_eq_map_of_forall₂ hrows fun r e hre => hre.experiment]
    exact (h.numbers.experiments.filter _).nodup
  show (s.table? b.table).bind (·.value? f r.experiment) = _
  rw [htable]
  exact congrArg (Option.map (t.cell · f.column)) (find?_eq_some_of_mem hnumbers hr)

/-- Insertions leave the values of the experiments before alone. -/
theorem value?_insertValues {fields : List Field} {outcome : InsertOutcome}
    (hok : s.insertValues b fields values = .ok (outcome, s')) {id : Nat} {v : Value}
    (hv : (s.holding b).value? f id = some v) : (s'.holding b).value? f id = some v := by
  obtain ⟨typed, _, ⟨_, _, _, rfl⟩ | ⟨_, _, rfl⟩⟩ := insertValues_eq_ok hok
  · exact hv
  · rw [addExperiment_holding]
    unfold Holding.value? at hv ⊢
    obtain ⟨t, htable, hvalue⟩ := Option.bind_eq_some_iff.mp hv
    have htable : s.table? b.table = some t := htable
    obtain ⟨r, hr, rfl⟩ := Option.map_eq_some_iff.mp hvalue
    rw [htable]
    -- The new row comes last, behind the one that is found.
    show Option.map (t.cell · f.column) ((t.rows ++ _).find? fun r : WideRow => r.experiment == id) = _
    rw [List.find?_append, hr]
    rfl

/-- A new experiment has the given values. -/
theorem Sound.value?_inserted (h : s.Sound) (hb : b ∈ s.benchmarks) (hfields : s.fieldsOf b ≠ []) {id : Nat}
    (hok : s.insertValues b (s.fieldsOf b) values = .ok (.inserted id, s')) (hf : f ∈ s.fieldsOf b) :
    ∃ v, f.given? values = some v ∧ (s'.holding b).value? f id = some v := by
  obtain ⟨typed, hmap, ⟨_, _, hexisting, _⟩ | ⟨_, hinserted, rfl⟩⟩ := insertValues_eq_ok hok
  · cases hexisting
  · cases hinserted
    have htyped := forall₂_of_mapM_eq_ok hmap
    have hsound := h.insertValues hb hfields hok
    obtain ⟨t, r, _, htable, -, hnumber, -, hcells⟩ := (h.addsRow hb hfields htyped _).row
    refine ⟨_, hcells f hf, ?_⟩
    rw [← hnumber]
    exact hsound.value?_of_mem_rows hb htable (List.mem_append_right _ (List.mem_singleton_self r)) f

/-- An experiment that is found has the given values under all key fields. -/
theorem Sound.value?_existing (h : s.Sound) (hb : b ∈ s.benchmarks) {id : Nat}
    (hok : s.insertValues b (s.fieldsOf b) values = .ok (.existing id, s')) (hf : f ∈ s.fieldsOf b)
    (hkey : f.key = true) :
    ∃ e ∈ s.experimentsOf b, e.id = id ∧ ∃ v, f.given? values = some v.unsigned
      ∧ (s.holding b).value? f id = some v := by
  obtain ⟨typed, hmap, ⟨e, hfound, hexisting, _⟩ | ⟨_, hinserted, _⟩⟩ := insertValues_eq_ok hok
  · cases hexisting
    obtain ⟨he, hidentity⟩ := of_experiment?_eq_some hfound
    obtain ⟨t, htable, r, hr, hnumber, hvalues⟩ :=
      (h.hasKeyValues_iff hb (forall₂_of_mapM_eq_ok hmap) he).mpr hidentity
    refine ⟨e, he, rfl, t.cell r f.column, hvalues f hf hkey, ?_⟩
    rw [← hnumber]
    exact h.value?_of_mem_rows hb htable hr f
  · cases hinserted

end Store

/-! ## §2 Rows one after the other -/

namespace ImportPlan.Inserts

variable {plan : ImportPlan} {s t : Store} {rows : List CsvRecord} {outcomes : List InsertOutcome} {k id : Nat}
  {row : CsvRecord} {f : Field}

theorem fits (h : plan.Inserts s rows outcomes t) (hs : plan.Fits s) : plan.Fits t := by
  induction h with
  | nil => exact hs
  | cons hrow _ ih => exact ih (hs.insertValues hrow)

/-- One of the rows, with the stores before and behind it. -/
theorem split {outcome : InsertOutcome} (h : plan.Inserts s rows outcomes t) (hrow : rows[k]? = some row)
    (houtcome : outcomes[k]? = some outcome) :
    ∃ u v, plan.Inserts s (rows.take k) (outcomes.take k) u
      ∧ u.insertValues plan.benchmark plan.fields (plan.valuesOf row.fields) = .ok (outcome, v)
      ∧ plan.Inserts v (rows.drop (k + 1)) (outcomes.drop (k + 1)) t := by
  -- Along the rows: the first one is the one in question, or it belongs to those before it.
  induction h generalizing k with
  | nil => cases hrow
  | @cons s u t first rest firstOutcome outcomes hfirst hrest ih =>
    cases k with
    | zero =>
      cases hrow
      cases houtcome
      exact ⟨s, u, .nil s, hfirst, hrest⟩
    | succ k =>
      obtain ⟨v, w, hbefore, hmid, hafter⟩ := ih hrow houtcome
      exact ⟨v, w, .cons hfirst hbefore, hmid, hafter⟩

/-- Later rows leave the values of experiments alone. -/
theorem value? (h : plan.Inserts s rows outcomes t) {v : Value}
    (hv : (s.holding plan.benchmark).value? f id = some v) : (t.holding plan.benchmark).value? f id = some v := by
  induction h with
  | nil => exact hv
  | cons hrow _ ih => exact ih (Store.value?_insertValues hrow hv)

/-- A new row has its values in the end. -/
theorem value?_inserted (h : plan.Inserts s rows outcomes t) (hs : plan.Fits s) (hrow : rows[k]? = some row)
    (houtcome : outcomes[k]? = some (.inserted id)) (hf : f ∈ plan.fields) :
    ∃ v, f.given? (plan.valuesOf row.fields) = some v ∧ (t.holding plan.benchmark).value? f id = some v := by
  obtain ⟨u, w, hbefore, hinserted, hafter⟩ := h.split hrow houtcome
  have hu := hbefore.fits hs
  rw [← hu.fields] at hinserted hf
  have hnonempty : u.fieldsOf plan.benchmark ≠ [] := List.ne_nil_of_mem hf
  obtain ⟨v, hgiven, hv⟩ := hu.sound.value?_inserted hu.benchmark hnonempty hinserted hf
  exact ⟨v, hgiven, hafter.value? hv⟩

/-- A row that is not new stands for an experiment of the store before it, which has its values under all key
    fields, in the end as well. -/
theorem value?_existing (h : plan.Inserts s rows outcomes t) (hs : plan.Fits s) (hrow : rows[k]? = some row)
    (houtcome : outcomes[k]? = some (.existing id)) (hf : f ∈ plan.fields) (hkey : f.key = true) :
    ∃ u, plan.Inserts s (rows.take k) (outcomes.take k) u
      ∧ (∃ e ∈ u.experimentsOf plan.benchmark, e.id = id)
      ∧ ∃ v, f.given? (plan.valuesOf row.fields) = some v.unsigned
        ∧ (t.holding plan.benchmark).value? f id = some v := by
  obtain ⟨u, w, hbefore, hexisting, hafter⟩ := h.split hrow houtcome
  have hu := hbefore.fits hs
  have hfound := hexisting
  rw [← hu.fields] at hfound hf
  obtain ⟨e, he, hid, v, hgiven, hv⟩ := hu.sound.value?_existing hu.benchmark hfound hf hkey
  exact ⟨u, hbefore, ⟨e, he, hid⟩, v, hgiven, hafter.value? (Store.value?_insertValues hexisting hv)⟩

/-- An experiment behind some rows was there before them, or one of them brought it. -/
theorem exists_inserted (h : plan.Inserts s rows outcomes t) {e : Experiment} (he : e ∈ t.experiments) :
    e ∈ s.experiments ∨ ∃ k : Nat, outcomes[k]? = some (InsertOutcome.inserted e.id) := by
  induction h with
  | nil => exact .inl he
  | cons hrow _ ih =>
    obtain ⟨typed, _, ⟨_, _, _, rfl⟩ | ⟨_, rfl, rfl⟩⟩ := Store.insertValues_eq_ok hrow
    · exact (ih he).imp_right fun ⟨k, hk⟩ => ⟨k + 1, hk⟩
    · rcases ih he with hthere | ⟨k, hk⟩
      · -- The experiments before the first row, and its own.
        rcases List.mem_append.mp hthere with hold | hnew
        · exact .inl hold
        · rw [List.mem_singleton.mp hnew]
          exact .inr ⟨0, rfl⟩
      · exact .inr ⟨k + 1, hk⟩

end ImportPlan.Inserts

/-! ## §3 Imports -/

namespace Store

variable {s : Store} {bench : String} {bytes : List UInt8} {o : ImportOptions} {stop : Nat → Bool}
  {summary : ImportSummary} {p : Preparation}

theorem Prepares.fits (h : s.Prepares bench bytes o p) (hs : s.Sound) : p.plan.Fits p.first :=
  (h.sound hs).fits_importPlan h.plan

/-- An import that comes to its end has inserted some rows, one after the other, with the given outcomes. -/
structure ImportsRows (s : Store) (bench : String) (bytes : List UInt8) (o : ImportOptions) (stop : Nat → Bool)
    (p : Preparation) (rows : List CsvRecord) (outcomes : List InsertOutcome) : Prop where
  prepares : s.Prepares bench bytes o p
  records : p.reader.records = rows.map .ok
  inserts : ∃ t, p.plan.Inserts p.first rows outcomes t
    ∧ (s.importCsv bench bytes o stop).store = if rows = [] then t else t.touch

theorem exists_importsRows (hok : (s.importCsv bench bytes o stop).outcome = .ok summary) :
    ∃ p rows outcomes, s.ImportsRows bench bytes o stop p rows outcomes
      ∧ summary.inserted = outcomes.countP (·.isInserted) ∧ summary.skippedColumns = p.skipped := by
  obtain ⟨p, hp⟩ := exists_prepares hok
  obtain ⟨rows, hends⟩ := hp.ends hok
  obtain ⟨hrecords, t, hpasses⟩ := id hends
  obtain ⟨outcomes, hrows⟩ := ImportPlan.insertRows_iff.1 hpasses.inserted
  obtain ⟨houtcome, _⟩ := hrows.runImport (Eq.refl p.first.timeless) hp.size hpasses.goes hrecords p.skipped
  rw [← hp.importCsv_eq stop] at houtcome
  obtain rfl := Except.ok.inj (hok.symm.trans houtcome)
  exact ⟨p, rows, outcomes, ⟨hp, hrecords, t, hrows, hp.importCsv_store hends hrows⟩, rfl, rfl⟩

namespace ImportsRows

variable {rows : List CsvRecord} {outcomes : List InsertOutcome} {k id : Nat} {row : CsvRecord} {f : Field}

/-- The store that the import leaves has the fields of the plan, and keeps of its benchmark what the insertions
    left. -/
theorem store (h : s.ImportsRows bench bytes o stop p rows outcomes) (hs : s.Sound) :
    (s.importCsv bench bytes o stop).store.fieldsOf p.plan.benchmark = p.plan.fields
      ∧ ∃ t, p.plan.Inserts p.first rows outcomes t
        ∧ (s.importCsv bench bytes o stop).store.holding p.plan.benchmark = t.holding p.plan.benchmark := by
  obtain ⟨t, hrows, hstore⟩ := h.inserts
  have hfields := (hrows.fits (h.prepares.fits hs)).fields
  rw [hstore]
  split
  · exact ⟨hfields, t, hrows, rfl⟩
  · exact ⟨hfields, t, hrows, rfl⟩

theorem mem_records (h : s.ImportsRows bench bytes o stop p rows outcomes) (hrow : rows[k]? = some row) :
    .ok row ∈ p.reader.records := by
  rw [h.records]
  exact List.mem_map_of_mem (List.mem_of_getElem? hrow)

end ImportsRows

end Store

end BenchPlot
