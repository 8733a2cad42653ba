import BenchPlot.Proofs.Decimal.ReadBack
import BenchPlot.Proofs.Name.Identity
import BenchPlot.Proofs.Store.Later
import BenchPlot.Store.Statements

/-!
# Insertion by key values

An insertion looks for an experiment by one text, into which the texts of all key values are joined. The
joined text tells lists of texts apart, and the text of a value tells values apart that fields hold; so the
experiment that is found is the one whose row has the given values under all key fields. Where there is
none, one experiment and one row come in, under a number that no experiment had before.

Main statement: `reachable_insertedByKey`.
-/

namespace BenchPlot

/-! ## §1 Values under key fields -/

/-- A value, without a sign where it is a zero. -/
def Value.unsigned : Value → Value
  | .number x => .number (unsignedZero x)
  | v => v

/-- The value of a field among texts under canonical names, if its text is one. -/
def Field.given? (values : SortedMap String String) (f : Field) : Option Value :=
  (typedValue? f.numeric ((values.find? f.name).getD "")).map Value.unsigned

theorem Field.Admits.unsigned {f : Field} {v : Value} (h : f.Admits v) : v.unsigned = v := by
  cases v with
  | number x =>
    obtain ⟨_, _, hzero⟩ := h
    show Value.number (unsignedZero x) = .number x
    unfold unsignedZero
    split
    · rename_i heq
      rw [hzero heq]
    · rfl
  | _ => rfl

/-- A column keeps the value of a text without the sign of a zero. -/
theorem keep_eq_unsigned {f : Field} {text : String} {v : Value} (h : typedValue? f.numeric text = some v) :
    f.toColumn.keep v = v.unsigned := by
  rcases typedValue?_cases h with ⟨rfl, _⟩ | ⟨x, rfl, hnumeric, hfinite⟩ | ⟨rfl, htext, _⟩
  · exact WideColumn.keep_null _
  · exact WideColumn.keep_number hnumeric hfinite
  · exact WideColumn.keep_text htext _

/-- Values that a key field holds are told apart by their texts. -/
theorem Field.Holds.eq_of_display_eq {f : Field} {v w : Value} (hv : f.Holds v) (hw : f.Holds w)
    (hkey : f.key = true) (h : v.display = w.display) : v = w := by
  have hvfull := hv.key hkey
  have hwfull := hw.key hkey
  -- A key field holds no nothing, and whether it holds numbers or texts depends on its kind.
  cases v with
  | null => cases hvfull
  | bool => exact hv.admits.elim
  | number x =>
    cases w with
    | null => cases hwfull
    | bool => exact hw.admits.elim
    | text t => exact absurd hv.admits.1 (by simp [hw.admits.1])
    | number y =>
      have hunsigned := Decimal.numberText_inj hv.admits.2.1 hw.admits.2.1 h
      rw [← hv.admits.unsigned, ← hw.admits.unsigned]
      exact congrArg Value.number hunsigned
  | text t =>
    cases w with
    | null => cases hwfull
    | bool => exact hw.admits.elim
    | number y => exact absurd hw.admits.1 (by simp [hv.admits.1])
    | text u => exact congrArg Value.text h

/-- The cells of a new row are the given values. -/
theorem map_given?_eq {fields : List Field} {values : SortedMap String String} {typed : List Value}
    (h : List.Forall₂ (fun f v => Field.typed values f = .ok v) fields typed) :
    fields.map (Field.given? values) = (keptCells fields typed).map some := by
  induction h with
  | nil => rfl
  | @cons f v fs vs hv _ ih =>
    obtain ⟨htyped, _⟩ := Store.typed_eq_ok hv
    have hcons : keptCells (f :: fs) (v :: vs) = f.toColumn.keep v :: keptCells fs vs := rfl
    rw [hcons, List.map_cons, List.map_cons, ih, Field.given?, htyped, keep_eq_unsigned htyped]
    rfl

/-- Two lists of values that key fields hold have one identity iff they agree under all key fields. -/
theorem identityOf_eq_iff {fields : List Field} {value value' : Field → Value}
    (hvalue : ∀ f ∈ fields, f.Holds (value f)) (hvalue' : ∀ f ∈ fields, f.Holds (value' f)) :
    identityOf fields (fields.map value) = identityOf fields (fields.map value')
      ↔ ∀ f ∈ fields, f.key = true → value f = value' f := by
  rw [identityOf_eq, identityOf_eq, keyTexts_map_value, keyTexts_map_value]
  constructor
  · -- One identity comes from one list of texts, and a text from one value of a key field.
    intro heq f hf hfkey
    have hmem : f ∈ fields.filter (·.key) := List.mem_filter.mpr ⟨hf, hfkey⟩
    have hne : fields.filter (·.key) ≠ [] := List.ne_nil_of_mem hmem
    have htexts := identity_injective (by simpa using hne) (by simpa using hne) heq
    exact (hvalue f hf).eq_of_display_eq (hvalue' f hf) hfkey (List.map_inj_left.mp htexts f hmem)
  · intro hagree
    refine congrArg identity (List.map_congr_left fun f hmem => ?_)
    obtain ⟨hf, hfkey⟩ := List.mem_filter.mp hmem
    rw [hagree f hf hfkey]

namespace Store

/-! ## §2 Experiments with given key values -/

/-- An experiment of a benchmark has the given values under all key fields: those are in its row. -/
def HasKeyValues (s : Store) (b : Benchmark) (values : SortedMap String String) (e : Experiment) : Prop :=
  ∃ t, s.table? b.table = some t ∧ ∃ r ∈ t.rows, r.experiment = e.id
    ∧ ∀ f ∈ s.fieldsOf b, f.key = true → f.given? values = some (t.cell r f.column).unsigned

variable {s s' : Store} {b : Benchmark} {values : SortedMap String String} {typed : List Value}

/-- A row bears an identity iff it has the values that the identity was made from. -/
theorem identity_eq_iff {fields : List Field} {t : WideTable} {r : WideRow} {e : Experiment}
    (hre : Mirrors b fields r e) (hcolumns : t.columns = fields.map Field.toColumn)
    (hnames : (fields.map (·.name)).Nodup)
    (htyped : List.Forall₂ (fun f v => Field.typed values f = .ok v) fields typed) :
    e.identity = identityOf fields typed
      ↔ ∀ f ∈ fields, f.key = true → f.given? values = some (t.cell r f.column).unsigned := by
  obtain ⟨hcells, htexts⟩ := keptCells_holds htyped
  -- The given values as a function of the fields, as the values of the row are.
  let given : Field → Value := fun f => (f.given? values).getD .null
  have hgiven : ∀ f ∈ fields, f.given? values = some (given f) := by
    intro f hf
    have hmem : f.given? values ∈ (keptCells fields typed).map some :=
      map_given?_eq htyped ▸ List.mem_map_of_mem hf
    obtain ⟨v, _, hv⟩ := List.mem_map.mp hmem
    simp [given, ← hv]
  have hkept : keptCells fields typed = fields.map given := by
    have hsome : (keptCells fields typed).map some = (fields.map given).map some := by
      rw [← map_given?_eq htyped, List.map_map]
      exact List.map_congr_left hgiven
    exact (List.map_inj_right fun _ _ => Option.some.inj).mp hsome
  have hheld : ∀ f ∈ fields, f.Holds (given f) := by
    rw [hkept, List.forall₂_map_right_iff, List.forall₂_same] at hcells
    exact hcells
  have hrow : ∀ f ∈ fields, f.Holds (t.cell r f.column) := fun f hf => hre.holds hcolumns hnames hf
  have hsame : identityOf fields typed = identityOf fields (fields.map given) := by
    rw [identityOf_eq, identityOf_eq, ← hkept, htexts]
  rw [hre.identity, hsame, ← hre.map_cell hcolumns hnames, identityOf_eq_iff hrow hheld]
  refine forall₂_congr fun f hf => imp_congr_right fun _ => ?_
  rw [hgiven f hf, (hrow f hf).admits.unsigned, Option.some_inj]
  exact eq_comm

/-- The experiments with the identity of the given values are those with the values. -/
theorem Sound.hasKeyValues_iff (h : s.Sound) (hb : b ∈ s.benchmarks)
    (htyped : List.Forall₂ (fun f v => Field.typed values f = .ok v) (s.fieldsOf b) typed) {e : Experiment}
    (he : e ∈ s.experimentsOf b) :
    s.HasKeyValues b values e ↔ e.identity = identityOf (s.fieldsOf b) typed := by
  have hheld := h.holdings b hb
  have hfits : TableFits b (s.ownFields b) (s.experimentsOf b) (s.table? b.table) := hheld.table
  unfold HasKeyValues
  rw [h.fieldsOf_eq hb] at htyped ⊢
  cases htable : s.table? b.table with
  | none =>
    rw [htable] at hfits
    rw [hfits.2] at he
    cases he
  | some t =>
    rw [htable] at hfits
    obtain ⟨_, hcolumns, hrows⟩ := hfits
    constructor
    · rintro ⟨_, ⟨⟩, r, hr, hid, hvalues⟩
      -- The row mirrors an experiment of the benchmark, and by its number that is the given one.
      obtain ⟨e', he', hre'⟩ := exists_mem_of_forall₂ hrows hr
      have heq : e' = e := (h.numbers.experiments.filter _).eq_of_number_eq he' he
        (hre'.experiment.symm.trans hid)
      rw [heq] at hre'
      exact (identity_eq_iff hre' hcolumns hheld.fieldNames htyped).mpr hvalues
    · -- The experiment has a row that mirrors it.
      intro hidentity
      obtain ⟨r, hr, hre⟩ := exists_mem_of_forall₂ (R := flip (Mirrors b (s.ownFields b))) hrows.flip he
      exact ⟨t, rfl, r, hr, hre.experiment,
        (identity_eq_iff hre hcolumns hheld.fieldNames htyped).mp hidentity⟩

/-! ## §3 What an insertion does -/

/-- Two stores answer all questions alike. -/
structure SameAnswers (s s' : Store) : Prop where
  metadata : s'.metadataList = s.metadataList
  benchmarks : s'.benchmarkList = s.benchmarkList
  describe : ∀ written, s'.describe written = s.describe written
  ids : ∀ written, s'.experimentIds written = s.experimentIds written
  outlier : ∀ written id, s'.isOutlier written id = s.isOutlier written id
  rows : ∀ written q, s'.selectRows written q = s.selectRows written q
  distinct : ∀ written field q, s'.distinctValues written field q = s.distinctValues written field q
  tables : ∀ name, s'.selectionTable? name = s.selectionTable? name

/-- A store has one experiment more than another one, and one row more, with the given values. -/
structure AddsRow (s s' : Store) (b : Benchmark) (values : SortedMap String String) (id : Nat) : Prop where
  benchmarks : s'.benchmarks = s.benchmarks
  fields : s'.fields = s.fields
  indices : s'.indices = s.indices
  physicalIndices : s'.physicalIndices = s.physicalIndices
  experiments : ∃ e, s'.experiments = s.experiments ++ [e] ∧ e.id = id ∧ e.benchmark = b.id
    ∧ e.outlier = false
  tableNames : s'.tables.map (·.name) = s.tables.map (·.name)
  otherTables : ∀ name, name ≠ b.table → s'.table? name = s.table? name
  row : ∃ t r, s.table? b.table = some t ∧ s'.table? b.table = some { t with rows := t.rows ++ [r] }
    ∧ r.benchmark = b.id ∧ r.experiment = id ∧ r.outlier = false
    ∧ ∀ f ∈ s.fieldsOf b, f.given? values = some (t.cell r f.column)

/-- What an insertion of values into a benchmark comes to. -/
structure InsertedByKey (s s' : Store) (b : Benchmark) (values : SortedMap String String)
    (outcome : InsertOutcome) : Prop where
  existing : ∀ id, outcome = .existing id ↔
    ∃ e ∈ s.experimentsOf b, e.id = id ∧ s.HasKeyValues b values e
  unchanged : ∀ id, outcome = .existing id →
    s' = { s with last := { s.last with experiment := s.last.experiment + 1 } } ∧ SameAnswers s s'
  fresh : ∀ id, outcome = .inserted id → ∀ earlier : Store, earlier.Reachable →
    ∀ history, earlier.run history = s → ∀ e ∈ earlier.experiments, e.id ≠ id
  added : ∀ id, outcome = .inserted id → AddsRow s s' b values id

/-- The last numbers answer no question. -/
theorem sameAnswers_skipNumber (s : Store) :
    SameAnswers s { s with last := { s.last with experiment := s.last.experiment + 1 } } :=
  ⟨rfl, rfl, fun _ => rfl, fun _ => rfl, fun _ _ => rfl, fun _ _ => rfl, fun _ _ _ => rfl, fun _ => rfl⟩

theorem AddsRow.touch {id : Nat} (h : AddsRow s s' b values id) : AddsRow s s'.touch b values id :=
  ⟨h.benchmarks, h.fields, h.indices, h.physicalIndices, h.experiments, h.tableNames, h.otherTables, h.row⟩

theorem Sound.addsRow (h : s.Sound) (hb : b ∈ s.benchmarks) (hfields : s.fieldsOf b ≠ [])
    (htyped : List.Forall₂ (fun f v => Field.typed values f = .ok v) (s.fieldsOf b) typed)
    (identity : String) : AddsRow s (s.addExperiment b (s.fieldsOf b) identity typed) b values (s.last.experiment + 1) := by
  have hheld := h.holdings b hb
  have hfits : TableFits b (s.ownFields b) (s.experimentsOf b) (s.table? b.table) := hheld.table
  have hown := h.fieldsOf_eq hb
  obtain ⟨hcells, _⟩ := keptCells_holds htyped
  refine ⟨rfl, rfl, rfl, rfl, ⟨s.newExperiment b identity, rfl, rfl, rfl, rfl⟩, addExperiment_tableNames ..,
    (addExperiment_changedOnly ..).tables, ?_⟩
  cases htable : s.table? b.table with
  | none =>
    rw [htable] at hfits
    exact absurd (hown.trans hfits.1) hfields
  | some t =>
    rw [htable] at hfits
    have hadded : (s.addExperiment b (s.fieldsOf b) identity typed).table? b.table
        = some (t.onRows (· ++ [s.newRow b (keptCells (s.fieldsOf b) typed)])) := by
      have hholding := congrArg Holding.table (addExperiment_holding s b (s.fieldsOf b) identity typed)
      rwa [htable] at hholding
    refine ⟨t, _, rfl, hadded, rfl, rfl, rfl, ?_⟩
    -- The columns of the table are those of the fields, so the cells are found under them.
    have hcell : (s.fieldsOf b).map (fun f => t.cell (s.newRow b (keptCells (s.fieldsOf b) typed)) f.column)
        = keptCells (s.fieldsOf b) typed :=
      map_cell (hown ▸ hfits.2.1) (hown ▸ hheld.fieldNames) hcells.length_eq.symm
    have hgiven := map_given?_eq htyped
    rw [← hcell, List.map_map] at hgiven
    exact List.map_inj_left.mp hgiven

theorem Sound.insertedByKey (h : s.Sound) (hb : b ∈ s.benchmarks) {outcome : InsertOutcome} {t : Store}
    (hkey : ∃ f ∈ s.fieldsOf b, f.key = true)
    (hok : s.insertValues b (s.fieldsOf b) values = .ok (outcome, t)) :
    InsertedByKey s (if outcome.isInserted then t.touch else t) b values outcome := by
  obtain ⟨typed, hmap, hcases⟩ := insertValues_eq_ok hok
  have htyped := forall₂_of_mapM_eq_ok hmap
  have hkeys := fun e he => h.hasKeyValues_iff hb htyped (e := e) he
  rcases hcases with ⟨e, hfound, rfl, rfl⟩ | ⟨hnone, rfl, rfl⟩
  · obtain ⟨he, hidentity⟩ := of_experiment?_eq_some hfound
    refine ⟨fun id => ⟨?_, ?_⟩, fun id _ => ⟨rfl, sameAnswers_skipNumber s⟩, by rintro _ ⟨⟩,
      by rintro _ ⟨⟩⟩
    · rintro ⟨⟩
      exact ⟨e, he, rfl, (hkeys e he).mpr hidentity⟩
    · rintro ⟨e', he', rfl, hvalues⟩
      -- No two experiments of a benchmark have one identity.
      have heq : e' = e := List.inj_on_of_nodup_map (h.holdings b hb).identities he' he
        (((hkeys e' he').mp hvalues).trans hidentity.symm)
      rw [heq]
  · refine ⟨fun id => ⟨by rintro ⟨⟩, ?_⟩, by rintro _ ⟨⟩, ?_, ?_⟩
    · rintro ⟨e, he, _, hvalues⟩
      exact absurd ((hkeys e he).mp hvalues) (experiment?_eq_none.1 hnone e he)
    · -- Earlier numbers lie below the last one of their time, and that one has not grown smaller since.
      rintro _ ⟨⟩ earlier hearlier history rfl e he
      have hle : e.id ≤ earlier.last.experiment := hearlier.sound.numbers.experiments.le_last e he
      have hlater := (Later.run earlier history).lastExperiment
      omega
    · rintro _ ⟨⟩
      obtain ⟨f, hf, _⟩ := hkey
      exact (h.addsRow hb (List.ne_nil_of_mem hf) htyped _).touch

/-- In every reachable store an accepted insertion finds the experiment of the benchmark that has the given
    values under all key fields, and changes nothing then; where there is none it adds one, with one row, under
    a number that no experiment of an earlier store had. -/
theorem reachable_insertedByKey (h : s.Reachable) {written : String} {given : SortedMap String String}
    {outcome : InsertOutcome} (hok : s.insert written given = .ok (outcome, s')) :
    ∃ b values, s.benchmark written = .ok b ∧ canonicalValues given = .ok values
      ∧ InsertedByKey s s' b values outcome := by
  obtain ⟨name, values, b, t, hname, hvalues, hfound, hkey, ht, rfl⟩ := insert_eq_ok hok
  have hwritten : s.benchmark written = .ok b :=
    bind_eq_ok.2 ⟨name, hname, require_eq_ok.2 hfound⟩
  exact ⟨b, values, hwritten, hvalues,
    h.sound.insertedByKey (of_benchmark?_eq_some hfound).1 hkey ht⟩

/-- A text that is another spelling of a number that is there, and one of a new number. -/
theorem insertedByKey_sample :
    (∃ s' b values, sample.insert "runs" (.ofList [("size", "10.0")]) = .ok (.existing 1, s')
      ∧ InsertedByKey sample s' b values (.existing 1))
    ∧ ∃ s' b values, sample.insert "runs" (.ofList [("size", "30")]) = .ok (.inserted 3, s')
      ∧ InsertedByKey sample s' b values (.inserted 3) := by
  obtain ⟨⟨_, s₁⟩, h₁, rfl⟩ := exists_eq_ok (x := sample.insert "runs" (.ofList [("size", "10.0")]))
    (f := (·.1)) (b := .existing 1) (by decide +kernel)
  obtain ⟨⟨_, s₂⟩, h₂, rfl⟩ := exists_eq_ok (x := sample.insert "runs" (.ofList [("size", "30")]))
    (f := (·.1)) (b := .inserted 3) (by decide +kernel)
  obtain ⟨b₁, values₁, _, _, hkey₁⟩ := reachable_insertedByKey reachable_sample h₁
  obtain ⟨b₂, values₂, _, _, hkey₂⟩ := reachable_insertedByKey reachable_sample h₂
  exact ⟨⟨s₁, b₁, values₁, h₁, hkey₁⟩, s₂, b₂, values₂, h₂, hkey₂⟩

end Store

end BenchPlot
