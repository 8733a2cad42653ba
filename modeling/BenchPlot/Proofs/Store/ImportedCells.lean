import BenchPlot.Proofs.Csv.Width
import BenchPlot.Proofs.Store.ImportedRows

/-!
# Cells of imported columns

A column of a header is passed over, which the import tells, or it names a field. A new row keeps its cell of the
column under the field, as a typed value, unless a fixed value is given for the field. But of two columns that
name one field only the later one counts, and nothing tells of the earlier one.

Main statements: `ImportPlan.find?_valuesOf` and `reachable_importsColumns`.
-/

namespace BenchPlot

/-! ## §1 Cells of a record -/

/-- A column counts iff it names a field that is not filled otherwise. -/
theorem Store.importColumn?_eq_some {fields : List Field} {autoKey : Option String} {header name : String} :
    importColumn? fields autoKey header = some name
      ↔ canonicalName header = .ok name ∧ (∃ f ∈ fields, f.name = name) ∧ autoKey ≠ some name := by
  unfold importColumn?
  cases hname : canonicalName header with
  | error e => simp
  | ok found =>
    simp only [Bool.and_eq_true, List.any_eq_true, beq_iff_eq, bne_iff_ne, ne_eq, Option.ite_none_right_eq_some,
      Option.some.injEq, Except.ok.injEq]
    constructor
    · rintro ⟨⟨hfield, hauto⟩, rfl⟩
      exact ⟨rfl, hfield, hauto⟩
    · rintro ⟨rfl, hfield, hauto⟩
      exact ⟨⟨hfield, hauto⟩, rfl⟩

namespace ImportPlan

variable {plan : ImportPlan} {record : List String} {name cell : String} {i : Nat}

/-- The named cells of a record. -/
def namedCells (columns : List (Option String)) (record : List String) : List (String × String) :=
  (columns.zip record).filterMap fun entry => entry.1.map fun name => (name, entry.2)

/-- The named cells, taken apart at a column that counts. -/
theorem namedCells_split {columns : List (Option String)} (hcolumn : columns[i]? = some (some name))
    (hcell : record[i]? = some cell) :
    namedCells columns record = namedCells (columns.take i) (record.take i)
      ++ (name, cell) :: namedCells (columns.drop (i + 1)) (record.drop (i + 1)) := by
  -- The two lists are taken apart at one place, so the pairs are as well.
  induction columns generalizing record i with
  | nil => cases hcolumn
  | cons column columns ih =>
    cases record with
    | nil => cases hcell
    | cons first record =>
      cases i with
      | zero =>
        cases hcolumn
        cases hcell
        rfl
      | succ i =>
        have hlater := ih hcolumn hcell
        unfold namedCells at hlater ⊢
        rw [List.take_succ_cons, List.take_succ_cons, List.zip_cons_cons, List.zip_cons_cons, List.filterMap_cons,
          List.filterMap_cons, hlater]
        cases column <;> rfl

/-- A name of later cells is that of a later column. -/
theorem exists_column_of_mem {columns : List (Option String)}
    (h : name ∈ (namedCells (columns.drop (i + 1)) (record.drop (i + 1))).map (·.1)) :
    ∃ j, i < j ∧ columns[j]? = some (some name) := by
  obtain ⟨entry, hentry, rfl⟩ := List.mem_map.mp h
  obtain ⟨⟨column, value⟩, hzip, hnamed⟩ := List.mem_filterMap.mp hentry
  obtain ⟨found, rfl, rfl⟩ := Option.map_eq_some_iff.mp hnamed
  obtain ⟨j, hj⟩ := List.mem_iff_getElem?.mp (List.of_mem_zip hzip).1
  rw [List.getElem?_drop] at hj
  exact ⟨i + 1 + j, by omega, hj⟩

/-- A record has, under the name of a column that no later column has, the fixed value if there is one, and its
    cell of the column otherwise. -/
theorem find?_valuesOf (hfixed : plan.fixed.Sorted) (hauto : plan.autoKey ≠ some name)
    (hcolumn : plan.columns[i]? = some (some name)) (hlast : ∀ j, i < j → plan.columns[j]? ≠ some (some name))
    (hcell : record[i]? = some cell) :
    (plan.valuesOf record).find? name = some ((plan.fixed.find? name).getD cell) := by
  have hnamed : (SortedMap.ofList (namedCells plan.columns record)).find? name = some cell := by
    rw [namedCells_split hcolumn hcell]
    apply SortedMap.find?_foldl_insert_of_last
    intro hlater
    obtain ⟨j, hj, hname⟩ := exists_column_of_mem hlater
    exact hlast j hj hname
  have hvalues : ((SortedMap.ofList (namedCells plan.columns record)).union plan.fixed).find? name
      = some ((plan.fixed.find? name).getD cell) := by
    rw [hfixed.find?_union, hnamed]
    cases plan.fixed.find? name <;> rfl
  unfold valuesOf
  dsimp only
  split
  · exact hvalues
  · -- The digest comes in under another name.
    rename_i key hkey
    have hne : compare name key ≠ .eq := by
      intro heq
      rw [hkey, Std.LawfulEqOrd.eq_of_compare heq] at hauto
      exact hauto rfl
    rw [SortedMap.find?_insert_of_ne _ _ _ _ hne]
    exact hvalues

end ImportPlan

/-! ## §2 Columns of an import -/

/-- No later column of a header names the field that a column names. -/
def IsLastColumn (headers : List String) (i : Nat) (name : String) : Prop :=
  ∀ j other, i < j → headers[j]? = some other → canonicalName other ≠ .ok name

namespace Store

variable {s : Store} {bench : String} {bytes : List UInt8} {o : ImportOptions} {stop : Nat → Bool}
  {summary : ImportSummary} {p : Preparation}

/-- Every new row has under a field the typed value of its cell in a column, or that of the fixed value for the
    field if there is one. -/
def KeepsCells (final : Store) (b : Benchmark) (fixed : SortedMap String String) (rows : List CsvRecord)
    (outcomes : List InsertOutcome) (i : Nat) (f : Field) : Prop :=
  ∀ (k : Nat) row id, rows[k]? = some row → outcomes[k]? = some (.inserted id) →
    ∃ cell v, row.fields[i]? = some cell ∧ typedValue? f.numeric ((fixed.find? f.name).getD cell) = some v
      ∧ (final.holding b).value? f id = some v.unsigned

/-- The header of an import gives a plan its columns. -/
theorem Prepares.columns (h : s.Prepares bench bytes o p) :
    ∃ headers, (CsvReader.new o.delimiter bytes).header = .ok (headers, p.reader)
      ∧ p.plan.columns = headers.map (importColumn? p.plan.fields p.autoKey) ∧ p.plan.autoKey = p.autoKey
      ∧ p.skipped = headers.filter (fun h => (importColumn? p.plan.fields p.autoKey h).isNone)
      ∧ canonicalValues o.fixed = .ok p.plan.fixed := by
  obtain ⟨b, fixed, headers, _, _, hfixed, _, hheader, hplan, hskipped⟩ := importPlan_eq_ok h.plan
  rw [hplan]
  exact ⟨headers, hheader, rfl, rfl, hskipped, hfixed⟩

/-- A row of an import has the cell that counts under the name of a column. -/
theorem Prepares.find?_valuesOf (h : s.Prepares bench bytes o p) {headers : List String}
    (hheader : (CsvReader.new o.delimiter bytes).header = .ok (headers, p.reader)) {row : CsvRecord}
    (hrow : .ok row ∈ p.reader.records) {i : Nat} {header name : String} (hi : headers[i]? = some header)
    (hcolumn : importColumn? p.plan.fields p.autoKey header = some name) (hlast : IsLastColumn headers i name) :
    ∃ cell, row.fields[i]? = some cell
      ∧ (p.plan.valuesOf row.fields).find? name = some ((p.plan.fixed.find? name).getD cell) := by
  obtain ⟨headers', hheader', hcolumns, hauto, _, hfixed⟩ := h.columns
  have hsame : headers' = headers := congrArg Prod.fst (Except.ok.inj (hheader'.symm.trans hheader))
  rw [hsame] at hcolumns
  -- The row is as wide as the header.
  have hwidth := CsvReader.length_fields_of_header hheader hrow
  have hlt : i < row.fields.length := by
    rw [hwidth]
    exact (List.getElem?_eq_some_iff.mp hi).1
  refine ⟨row.fields[i], List.getElem?_eq_getElem hlt, ?_⟩
  apply ImportPlan.find?_valuesOf (sorted_of_canonicalValues hfixed)
  · rw [hauto]
    exact (importColumn?_eq_some.1 hcolumn).2.2
  · rw [hcolumns, List.getElem?_map, hi, Option.map_some, hcolumn]
  · intro j hj hlater
    rw [hcolumns, List.getElem?_map] at hlater
    obtain ⟨other, hother, hnamed⟩ := Option.map_eq_some_iff.mp hlater
    exact hlast j other hj hother (importColumn?_eq_some.1 hnamed).1
  · exact List.getElem?_eq_getElem hlt

/-- In every reachable store, an import that comes to its end passes a column over and tells so, or the column
    names a field. If no later column names that field too, every new row keeps its cell of the column under the
    field, unless there is a fixed value for it. -/
theorem reachable_importsColumns (h : s.Reachable)
    (hok : (s.importCsv bench bytes o stop).outcome = .ok summary) :
    ∃ p headers rows outcomes, s.ImportsRows bench bytes o stop p rows outcomes
      ∧ (CsvReader.new o.delimiter bytes).header = .ok (headers, p.reader)
      ∧ canonicalValues o.fixed = .ok p.plan.fixed
      ∧ ∀ (i : Nat) header, headers[i]? = some header → header ∈ summary.skippedColumns
        ∨ ∃ f ∈ (s.importCsv bench bytes o stop).store.fieldsOf p.plan.benchmark, canonicalName header = .ok f.name
          ∧ (IsLastColumn headers i f.name →
            KeepsCells (s.importCsv bench bytes o stop).store p.plan.benchmark p.plan.fixed rows outcomes i f) := by
  obtain ⟨p, rows, outcomes, himports, _, hskipped⟩ := exists_importsRows hok
  obtain ⟨headers, hheader, _, _, hpassed, hfixed⟩ := himports.prepares.columns
  obtain ⟨hfields, t, hrows, hholding⟩ := himports.store h.sound
  refine ⟨p, headers, rows, outcomes, himports, hheader, hfixed, fun i header hi => ?_⟩
  cases hcolumn : importColumn? p.plan.fields p.autoKey header with
  | none =>
    refine .inl ?_
    rw [hskipped, hpassed]
    exact List.mem_filter.mpr ⟨List.mem_of_getElem? hi, by rw [hcolumn]; rfl⟩
  | some name =>
    obtain ⟨hname, ⟨f, hf, rfl⟩, _⟩ := importColumn?_eq_some.1 hcolumn
    refine .inr ⟨f, hfields ▸ hf, hname, fun hlast k row id hrow houtcome => ?_⟩
    obtain ⟨cell, hcell, hfound⟩ :=
      himports.prepares.find?_valuesOf hheader (himports.mem_records hrow) hi hcolumn hlast
    obtain ⟨v, hgiven, hv⟩ := hrows.value?_inserted (himports.prepares.fits h.sound) hrow houtcome hf
    -- What is stored is the typed value of the text that the row has under the field.
    unfold Field.given? at hgiven
    rw [hfound, Option.getD_some] at hgiven
    obtain ⟨w, hw, rfl⟩ := Option.map_eq_some_iff.mp hgiven
    exact ⟨cell, w, hcell, hw, hholding ▸ hv⟩

/-- What an import settles whose header has two columns and ten bytes. -/
def samplePreparation (bytes : List UInt8) (columns : List (Option String)) (skipped : List String) : Preparation :=
  ⟨"RUNS", none, sample, ⟨⟨1, "RUNS", none⟩, [⟨1, 1, "SIZE", true, true, 1⟩], columns, ∅, none⟩, skipped,
    ⟨44, bytes.drop 10, ⟨1, 2, 10⟩, some 2⟩⟩

/-- A header with a column for a field and one that is passed over, and a new row. -/
def sampleUnknown : List UInt8 :=
  [115, 105, 122, 101, 44, 110, 111, 116, 101, 10, 51, 48, 44, 120, 10]

theorem importsColumns_sample :
    (sample.importCsv "runs" sampleUnknown ⟨2, 44, ∅, none⟩ fun _ => false).outcome = .ok ⟨1, 1, 0, 1, ["note"]⟩
      ∧ ∃ p headers rows outcomes,
        sample.ImportsRows "runs" sampleUnknown ⟨2, 44, ∅, none⟩ (fun _ => false) p rows outcomes
        ∧ (CsvReader.new 44 sampleUnknown).header = .ok (headers, p.reader)
        ∧ canonicalValues ∅ = .ok p.plan.fixed
        ∧ ∀ (i : Nat) header, headers[i]? = some header → header ∈ ["note"]
          ∨ ∃ f ∈ (sample.importCsv "runs" sampleUnknown ⟨2, 44, ∅, none⟩ fun _ => false).store.fieldsOf
              p.plan.benchmark,
            canonicalName header = .ok f.name ∧ (IsLastColumn headers i f.name →
              KeepsCells (sample.importCsv "runs" sampleUnknown ⟨2, 44, ∅, none⟩ fun _ => false).store
                p.plan.benchmark p.plan.fixed rows outcomes i f) := by
  have hprepares : sample.Prepares "runs" sampleUnknown ⟨2, 44, ∅, none⟩
      (samplePreparation sampleUnknown [some "SIZE", none] ["note"]) :=
    ⟨by decide, by decide +kernel, rfl, by decide +kernel⟩
  have hrecords : (samplePreparation sampleUnknown [some "SIZE", none] ["note"]).reader.records
      = [.ok ⟨⟨1, 2, 10⟩, ["30", "x"]⟩] := by
    show CsvReader.records ⟨44, sampleUnknown.drop 10, ⟨1, 2, 10⟩, some 2⟩ = _
    cbv
  have hok : (sample.importCsv "runs" sampleUnknown ⟨2, 44, ∅, none⟩ fun _ => false).outcome
      = .ok ⟨1, 1, 0, 1, ["note"]⟩ := by
    rw [hprepares.importCsv_eq]
    unfold runImport
    rw [hrecords]
    decide +kernel
  exact ⟨hok, reachable_importsColumns reachable_sample hok⟩

/-- A header with two columns for one field, and a new row. -/
def sampleDoubled : List UInt8 :=
  [115, 105, 122, 101, 44, 83, 73, 90, 69, 10, 51, 48, 44, 52, 48, 10]

/-- The import is accepted and passes over no column, but the cell of the first column is lost. -/
theorem doubledColumn_sample : ∃ p rows outcomes,
    sample.ImportsRows "runs" sampleDoubled ⟨2, 44, ∅, none⟩ (fun _ => false) p rows outcomes
    ∧ (CsvReader.new 44 sampleDoubled).header = .ok (["size", "SIZE"], p.reader)
    ∧ (sample.importCsv "runs" sampleDoubled ⟨2, 44, ∅, none⟩ fun _ => false).outcome = .ok ⟨1, 1, 0, 1, []⟩
    ∧ canonicalValues ∅ = .ok p.plan.fixed
    ∧ ¬∃ f ∈ (sample.importCsv "runs" sampleDoubled ⟨2, 44, ∅, none⟩ fun _ => false).store.fieldsOf p.plan.benchmark,
      canonicalName "size" = .ok f.name
        ∧ KeepsCells (sample.importCsv "runs" sampleDoubled ⟨2, 44, ∅, none⟩ fun _ => false).store p.plan.benchmark
          p.plan.fixed rows outcomes 0 f := by
  obtain ⟨p, hp⟩ : ∃ p, p = samplePreparation sampleDoubled [some "SIZE", some "SIZE"] [] := ⟨_, rfl⟩
  have hprepares : sample.Prepares "runs" sampleDoubled ⟨2, 44, ∅, none⟩ p := by
    rw [hp]
    exact ⟨by decide, by decide +kernel, rfl, by decide +kernel⟩
  have hrecords : p.reader.records = [⟨⟨1, 2, 10⟩, ["30", "40"]⟩].map .ok := by
    rw [hp]
    show CsvReader.records ⟨44, sampleDoubled.drop 10, ⟨1, 2, 10⟩, some 2⟩ = _
    cbv
  have hok : (sample.importCsv "runs" sampleDoubled ⟨2, 44, ∅, none⟩ fun _ => false).outcome
      = .ok ⟨1, 1, 0, 1, []⟩ := by
    rw [hprepares.importCsv_eq]
    unfold runImport
    rw [hrecords, hp]
    decide +kernel
  -- The row is inserted with its second cell.
  have hinserted : (p.first.insertValues p.plan.benchmark p.plan.fields (p.plan.valuesOf ["30", "40"])).toOption.map
      (fun r => (r.1, p.plan.fields.map fun f => ((r.2.holding p.plan.benchmark).value? f 3).map Value.display))
      = some (.inserted 3, [some "40"]) := by
    rw [hp]
    decide +kernel
  obtain ⟨⟨outcome, t⟩, ht, hresult⟩ := exists_eq_ok hinserted
  obtain ⟨rfl, hstored⟩ := Prod.mk.inj hresult
  have hrows : p.plan.Inserts p.first [⟨⟨1, 2, 10⟩, ["30", "40"]⟩] [.inserted 3] t := .cons ht (.nil t)
  have hends : p.plan.Ends (fun _ => false) p.first p.reader.records [⟨⟨1, 2, 10⟩, ["30", "40"]⟩] :=
    ⟨hrecords, t, fun _ _ => rfl, ImportPlan.insertRows_iff.2 ⟨_, hrows⟩⟩
  have hstore := hprepares.importCsv_store hends hrows
  have himports : sample.ImportsRows "runs" sampleDoubled ⟨2, 44, ∅, none⟩ (fun _ => false) p _ _ :=
    ⟨hprepares, hrecords, t, hrows, hstore⟩
  refine ⟨p, _, _, himports, by rw [hp]; decide +kernel, hok, by rw [hp]; rfl, ?_⟩
  rintro ⟨f, hf, _, hkeeps⟩
  rw [(himports.store reachable_sample.sound).1, hp] at hf
  obtain rfl := List.mem_singleton.mp hf
  obtain ⟨cell, v, hcell, htyped, hv⟩ := hkeeps 0 _ 3 rfl rfl
  cases hcell
  rw [hstore] at hv
  -- The cell of the first column is typed as 30, and the stored value is 40.
  have hthirty : v.unsigned.display = "30" := by
    have hcell : (typedValue? true "30").map (fun v => v.unsigned.display) = some "30" := by decide +kernel
    rw [hp] at htyped
    have htyped : typedValue? true "30" = some v := htyped
    rw [htyped] at hcell
    exact Option.some.inj hcell
  have hforty : some v.unsigned.display = some "40" := by
    rw [hp] at hstored hv
    have hvalue := congrArg (Option.map Value.display) hv
    exact hvalue.symm.trans (List.cons.inj hstored).1
  rw [hthirty] at hforty
  exact absurd hforty (by decide)

end Store

end BenchPlot
