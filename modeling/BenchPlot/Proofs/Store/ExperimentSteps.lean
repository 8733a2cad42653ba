import BenchPlot.Proofs.Store.BenchmarkSteps

/-!
# Operations on experiments keep stores sound

An experiment and its row are written, marked and erased together: what happens to the one happens to the
other under the same number. A new experiment gets the number behind all that were given away, and an
identity that no experiment of the benchmark has.

Main statements: `Sound.insert`, `Sound.setOutlier`, `Sound.setOutlierWhere`, `Sound.delete` and
`Sound.deleteWhere`.
-/

namespace BenchPlot

variable {b : Benchmark} {fields : List Field} {experiments : List Experiment}

/-! ## §1 Rows of new experiments -/

/-- The cells of a new row. -/
def keptCells (fields : List Field) (values : List Value) : List Value :=
  (fields.zip values).map fun p => p.1.toColumn.keep p.2

/-- The values of a record become cells that the fields may hold, with the same key texts. -/
theorem keptCells_holds {values : SortedMap String String} {typed : List Value}
    (h : List.Forall₂ (fun f v => Field.typed values f = .ok v) fields typed) :
    List.Forall₂ Field.Holds fields (keptCells fields typed)
      ∧ keyTexts fields (keptCells fields typed) = keyTexts fields typed := by
  -- Along the fields with their values.
  induction h with
  | nil => exact ⟨.nil, rfl⟩
  | @cons f v fs vs hv _ ih =>
    obtain ⟨ihcells, ihtexts⟩ := ih
    obtain ⟨htyped, hkey⟩ := Store.typed_eq_ok hv
    obtain ⟨hdisplay, hnull⟩ := typedValue?_keep (c := f.toColumn) htyped rfl
    have hcons : keptCells (f :: fs) (v :: vs) = f.toColumn.keep v :: keptCells fs vs := rfl
    rw [hcons, keyTexts_cons, keyTexts_cons, ihtexts, hdisplay]
    refine ⟨.cons ⟨typedValue?_admits htyped rfl, fun hf => ?_⟩ ihcells, rfl⟩
    rw [hnull]
    exact hkey hf

theorem WideTable.onRows_name (g : List WideRow → List WideRow) (t : WideTable) :
    (t.onRows g).name = t.name :=
  rfl

namespace Store

variable {s s' : Store}

theorem table?_onRows (s : Store) (b : Benchmark) (g : List WideRow → List WideRow) (name : String) :
    (s.updateTable b.table (·.onRows g)).table? name
      = if name = b.table then (s.table? name).map (·.onRows g) else s.table? name :=
  table?_updateTable (WideTable.onRows_name g) b.table name

theorem onRows_names (s : Store) (b : Benchmark) (g : List WideRow → List WideRow) :
    (s.updateTable b.table (·.onRows g)).tables.map (·.name) = s.tables.map (·.name) :=
  updateTable_names (WideTable.onRows_name g) b.table

/-! ## §2 Insertion -/

/-- The experiment that an insertion adds. -/
def newExperiment (s : Store) (b : Benchmark) (identity : String) : Experiment :=
  ⟨s.last.experiment + 1, b.id, identity, false, s.clock⟩

/-- The row that an insertion adds. -/
def newRow (s : Store) (b : Benchmark) (cells : List Value) : WideRow :=
  ⟨b.id, s.last.experiment + 1, false, cells⟩

theorem addExperiment_holding (s : Store) (b : Benchmark) (fields : List Field) (identity : String)
    (values : List Value) : (s.addExperiment b fields identity values).holding b
      = ⟨s.ownFields b, s.ownIndices b, s.experimentsOf b ++ [s.newExperiment b identity],
        (s.table? b.table).map (·.onRows (· ++ [s.newRow b (keptCells fields values)]))⟩ := by
  have hexperiments : (s.addExperiment b fields identity values).experimentsOf b
      = s.experimentsOf b ++ [s.newExperiment b identity] := by
    show (s.experiments ++ [s.newExperiment b identity]).filter _ = _
    simp [experimentsOf, newExperiment]
  have htable : (s.addExperiment b fields identity values).table? b.table
      = (s.table? b.table).map (·.onRows (· ++ [s.newRow b (keptCells fields values)])) :=
    (table?_onRows _ b (· ++ [s.newRow b (keptCells fields values)]) b.table).trans (if_pos rfl)
  unfold holding
  rw [hexperiments, htable]
  rfl

theorem addExperiment_changedOnly (s : Store) (b : Benchmark) (fields : List Field) (identity : String)
    (values : List Value) : ChangedOnly b s (s.addExperiment b fields identity values) :=
  ⟨rfl, .refl, .refl, .append (a := s.newExperiment b identity) rfl, fun name hne =>
    (table?_onRows _ b (· ++ [s.newRow b (keptCells fields values)]) name).trans (if_neg hne)⟩

theorem addExperiment_tableNames (s : Store) (b : Benchmark) (fields : List Field) (identity : String)
    (values : List Value) :
    (s.addExperiment b fields identity values).tables.map (·.name) = s.tables.map (·.name) :=
  onRows_names _ b (· ++ [s.newRow b (keptCells fields values)])

theorem Numbered.addExperiment (h : s.Numbered) (b : Benchmark) (fields : List Field) (identity : String)
    (values : List Value) : (s.addExperiment b fields identity values).Numbered :=
  { h with experiments := h.experiments.append rfl }

/-- No experiment of the benchmark has an identity that is not found. -/
theorem experiment?_eq_none {identity : String} :
    s.experiment? b identity = none ↔ ∀ e ∈ s.experimentsOf b, e.identity ≠ identity := by
  simp [experiment?, experimentsOf]

theorem of_experiment?_eq_some {identity : String} {e : Experiment} (h : s.experiment? b identity = some e) :
    e ∈ s.experimentsOf b ∧ e.identity = identity := by
  have hfound := List.find?_some h
  rw [Bool.and_eq_true, beq_iff_eq, beq_iff_eq] at hfound
  exact ⟨List.mem_filter.mpr ⟨List.mem_of_find?_eq_some h, beq_iff_eq.mpr hfound.1⟩, hfound.2⟩

/-- The number of a refused second insertion is given away all the same. -/
theorem Sound.skipNumber (h : s.Sound) :
    { s with last := { s.last with experiment := s.last.experiment + 1 } }.Sound :=
  { h with numbers := { h.numbers with experiments := h.numbers.experiments.mono (Nat.le_succ _) } }

theorem Sound.addExperiment (h : s.Sound) (hb : b ∈ s.benchmarks) (hfields : s.ownFields b ≠ [])
    {values : SortedMap String String} {typed : List Value}
    (htyped : List.Forall₂ (fun f v => Field.typed values f = .ok v) (s.ownFields b) typed)
    (hfresh : s.experiment? b (identityOf (s.ownFields b) typed) = none) :
    (s.addExperiment b (s.ownFields b) (identityOf (s.ownFields b) typed) typed).Sound := by
  have hheld := h.holdings b hb
  obtain ⟨hcells, htexts⟩ := keptCells_holds htyped
  refine h.of_changedOnly hb (addExperiment_changedOnly ..) (h.numbers.addExperiment ..)
    (by rw [addExperiment_tableNames]; exact h.tableNames) ?_
  -- The identity was made from the values, and the cells have the same texts.
  have hmirrors : Mirrors b (s.ownFields b) (s.newRow b (keptCells (s.ownFields b) typed))
      (s.newExperiment b (identityOf (s.ownFields b) typed)) :=
    ⟨rfl, rfl, rfl, hcells, congrArg identity htexts.symm⟩
  rw [addExperiment_holding]
  exact { hheld with
    identities := nodup_map_append hheld.identities (experiment?_eq_none.1 hfresh)
    table := hheld.table.onRows (fun hnil _ => absurd hnil hfields) fun _ hrows =>
      List.rel_append hrows (.cons hmirrors .nil) }

theorem Sound.insertValues (h : s.Sound) (hb : b ∈ s.benchmarks) (hfields : s.fieldsOf b ≠ [])
    {values : SortedMap String String} {outcome : InsertOutcome}
    (hok : s.insertValues b (s.fieldsOf b) values = .ok (outcome, s')) : s'.Sound := by
  rw [h.fieldsOf_eq hb] at hok hfields
  obtain ⟨typed, htyped, ⟨e, _, _, rfl⟩ | ⟨hfresh, _, rfl⟩⟩ := insertValues_eq_ok hok
  -- The experiment was there already, or a new one comes in.
  · exact h.skipNumber
  · exact h.addExperiment hb hfields (forall₂_of_mapM_eq_ok htyped) hfresh

theorem Sound.insert (h : s.Sound) {written : String} {values : SortedMap String String}
    {outcome : InsertOutcome} (hok : s.insert written values = .ok (outcome, s')) : s'.Sound := by
  obtain ⟨_, named, b, t, _, _, hfound, ⟨f, hf, _⟩, ht, rfl⟩ := insert_eq_ok hok
  obtain ⟨hb, _⟩ := of_benchmark?_eq_some hfound
  have hsound : t.Sound := h.insertValues hb (List.ne_nil_of_mem hf) ht
  split
  · exact hsound.touch
  · exact hsound

/-! ## §3 Outliers -/

/-- An experiment, marked if its number is listed. -/
def markedExperiment (ids : List Int) (flag : Bool) (e : Experiment) : Experiment :=
  if ids.contains (e.id : Int) then { e with outlier := flag } else e

/-- A row, marked if its number is listed. -/
def markedRow (ids : List Int) (flag : Bool) (r : WideRow) : WideRow :=
  if ids.contains (r.experiment : Int) then { r with outlier := flag } else r

theorem markedExperiment_identity (ids : List Int) (flag : Bool) (e : Experiment) :
    (markedExperiment ids flag e).identity = e.identity := by
  unfold markedExperiment
  split <;> rfl

theorem Mirrors.marked {r : WideRow} {e : Experiment} (h : Mirrors b fields r e) (ids : List Int)
    (flag : Bool) : Mirrors b fields (markedRow ids flag r) (markedExperiment ids flag e) := by
  unfold markedRow markedExperiment
  -- A row is marked iff its experiment is, as the two have one number.
  by_cases hlisted : ids.contains (e.id : Int) = true
  · rw [if_pos (by rwa [h.experiment]), if_pos hlisted]
    exact ⟨h.benchmark, h.experiment, rfl, h.cells, h.identity⟩
  · rw [if_neg (by rwa [h.experiment]), if_neg hlisted]
    exact h

theorem mark_holding (s : Store) (b : Benchmark) (ids : List Int) (flag : Bool) :
    (s.mark b ids flag).holding b = ⟨s.ownFields b, s.ownIndices b,
      (s.experimentsOf b).map (markedExperiment ids flag),
      (s.table? b.table).map (·.onRows (·.map (markedRow ids flag)))⟩ := by
  have htable : (s.mark b ids flag).table? b.table
      = (s.table? b.table).map (·.onRows (·.map (markedRow ids flag))) :=
    (table?_onRows _ b (·.map (markedRow ids flag)) b.table).trans (if_pos rfl)
  have hexperiments : (s.mark b ids flag).experimentsOf b
      = (s.experimentsOf b).map (markedExperiment ids flag) := by
    show (s.experiments.map _).filter _ = (s.experiments.filter _).map _
    rw [List.filter_map]
    have hfilter : s.experiments.filter ((·.benchmark == b.id) ∘ fun e =>
        if e.benchmark == b.id && ids.contains (e.id : Int) then { e with outlier := flag } else e)
          = s.experiments.filter (·.benchmark == b.id) := by
      refine List.filter_congr fun e _ => ?_
      simp only [Function.comp_apply]
      split <;> rfl
    rw [hfilter]
    refine List.map_congr_left fun e he => ?_
    simp [markedExperiment, (List.mem_filter.mp he).2]
  unfold holding
  rw [hexperiments, htable]
  rfl

theorem mark_changedOnly (s : Store) (b : Benchmark) (ids : List Int) (flag : Bool) :
    ChangedOnly b s (s.mark b ids flag) := by
  refine ⟨rfl, .refl, .refl, .map (fun e _ => ?_) fun e _ hne => ?_, fun name hne => ?_⟩
  · split <;> rfl
  · rw [if_neg (by simp [hne])]
  · exact (table?_onRows _ b (·.map (markedRow ids flag)) name).trans (if_neg hne)

theorem Sound.mark (h : s.Sound) (hb : b ∈ s.benchmarks) (ids : List Int) (flag : Bool) :
    (s.mark b ids flag).Sound := by
  have hheld := h.holdings b hb
  have hnumbers : (s.mark b ids flag).Numbered :=
    { h.numbers with experiments := h.numbers.experiments.map fun e => by split <;> rfl }
  refine h.of_changedOnly hb (mark_changedOnly ..) hnumbers
    ((onRows_names _ b (·.map (markedRow ids flag))).symm ▸ h.tableNames) ?_
  have hidentities : (((s.experimentsOf b).map (markedExperiment ids flag)).map (·.identity)).Nodup := by
    have hsame : (·.identity) ∘ markedExperiment ids flag = (·.identity) :=
      funext fun e => markedExperiment_identity ids flag e
    rw [List.map_map, hsame]
    exact hheld.identities
  have hrows : ∀ rows, List.Forall₂ (Mirrors b (s.ownFields b)) rows (s.experimentsOf b) →
      List.Forall₂ (Mirrors b (s.ownFields b)) (rows.map (markedRow ids flag))
        ((s.experimentsOf b).map (markedExperiment ids flag)) := by
    refine fun rows hrows => List.rel_map (fun r e hre => ?_) hrows
    exact Mirrors.marked hre ids flag
  rw [mark_holding]
  exact { hheld with
    identities := hidentities
    table := hheld.table.onRows (fun _ hnil => List.map_eq_nil_iff.mpr hnil) hrows }

theorem Sound.setOutlier (h : s.Sound) {written : String} {id : Int} {flag : Bool}
    (hok : s.setOutlier written id flag = .ok s') : s'.Sound := by
  obtain ⟨_, b, _, hfound, rfl⟩ := setOutlier_eq_ok hok
  exact (h.mark (of_benchmark?_eq_some hfound).1 [id] flag).touch

theorem Sound.setOutlierWhere (h : s.Sound) {written condition : String} {flag : Bool} {n : Nat}
    (hok : s.setOutlierWhere written condition flag = .ok (n, s')) : s'.Sound := by
  obtain ⟨_, b, ids, _, hfound, _, rfl⟩ := setOutlierWhere_eq_ok hok
  exact (h.mark (of_benchmark?_eq_some hfound).1 ids flag).touch

/-! ## §4 Deletion -/

theorem erase_holding (s : Store) (b : Benchmark) (ids : List Int) :
    (s.erase b ids).holding b = ⟨s.ownFields b, s.ownIndices b,
      (s.experimentsOf b).filter fun e => !ids.contains (e.id : Int),
      (s.table? b.table).map (·.onRows (·.filter fun r => !ids.contains (r.experiment : Int)))⟩ := by
  have htable : (s.erase b ids).table? b.table
      = (s.table? b.table).map (·.onRows (·.filter fun r => !ids.contains (r.experiment : Int))) :=
    (table?_onRows _ b (·.filter fun r => !ids.contains (r.experiment : Int)) b.table).trans (if_pos rfl)
  have hexperiments : (s.erase b ids).experimentsOf b
      = (s.experimentsOf b).filter fun e => !ids.contains (e.id : Int) := by
    show (s.experiments.filter _).filter _ = (s.experiments.filter _).filter _
    rw [List.filter_filter, List.filter_filter]
    refine List.filter_congr fun e _ => ?_
    cases e.benchmark == b.id <;> simp
  unfold holding
  rw [hexperiments, htable]
  rfl

theorem erase_changedOnly (s : Store) (b : Benchmark) (ids : List Int) :
    ChangedOnly b s (s.erase b ids) := by
  refine ⟨rfl, .refl, .refl, .filter fun e _ hne => ?_, fun name hne => ?_⟩
  · simp [hne]
  · exact (table?_onRows _ b (·.filter fun r => !ids.contains (r.experiment : Int)) name).trans (if_neg hne)

theorem Sound.erase (h : s.Sound) (hb : b ∈ s.benchmarks) (ids : List Int) : (s.erase b ids).Sound := by
  have hheld := h.holdings b hb
  refine h.of_changedOnly hb (erase_changedOnly ..)
    { h.numbers with experiments := h.numbers.experiments.filter _ }
    ((onRows_names _ b (·.filter fun r => !ids.contains (r.experiment : Int))).symm ▸ h.tableNames) ?_
  -- A row goes iff the experiment that it mirrors goes, as the two have one number.
  have hrows : ∀ rows, List.Forall₂ (Mirrors b (s.ownFields b)) rows (s.experimentsOf b) →
      List.Forall₂ (Mirrors b (s.ownFields b)) (rows.filter fun r => !ids.contains (r.experiment : Int))
        ((s.experimentsOf b).filter fun e => !ids.contains (e.id : Int)) := by
    refine fun rows hrows => List.rel_filter (fun r e hre => ?_) hrows
    have hnumber : r.experiment = e.id := hre.experiment
    simp only [hnumber]
  rw [erase_holding]
  exact { hheld with
    identities := hheld.identities.sublist (List.filter_sublist.map _)
    table := hheld.table.onRows (fun _ hnil => congrArg (List.filter _) hnil) hrows }

theorem Sound.delete (h : s.Sound) {written : String} {ids : List Int} {n : Nat}
    (hok : s.delete written ids = .ok (n, s')) : s'.Sound := by
  obtain ⟨_, b, _, hfound, rfl⟩ := delete_eq_ok hok
  exact (h.erase (of_benchmark?_eq_some hfound).1 ids).touch

theorem Sound.deleteWhere (h : s.Sound) {written condition : String} {n : Nat}
    (hok : s.deleteWhere written condition = .ok (n, s')) : s'.Sound := by
  obtain ⟨_, b, ids, _, hfound, _, rfl⟩ := deleteWhere_eq_ok hok
  exact (h.erase (of_benchmark?_eq_some hfound).1 ids).touch

end Store

end BenchPlot
