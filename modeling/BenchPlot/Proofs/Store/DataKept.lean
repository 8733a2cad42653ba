import BenchPlot.Proofs.Store.Frame
import BenchPlot.Proofs.Store.InsertByKey

/-!
# Changes of the schema keep data

A change of the fields of a benchmark builds its table anew, each column from the one that held the field
with the same number before. So whatever is added, renamed, described or indexed, a value stays under its
field and its experiment, both known by their numbers: the names of columns and tables are read only in the
store in which they hold.

Main statement: `reachable_schemaHistory_keepsData`.
-/

namespace BenchPlot

/-! ## §1 Values in tables -/

/-- The value of an experiment in the column of a field. -/
def WideTable.value? (t : WideTable) (f : Field) (experiment : Nat) : Option Value :=
  (t.rows.find? (·.experiment == experiment)).map (t.cell · f.column)

variable {b : Benchmark} {fields previous current : List Field} {experiments : List Experiment}
  {t t' : WideTable} {r : WideRow} {e : Experiment} {f g : Field}

/-- Where each row becomes one with the same number, a value becomes what the cells say. -/
theorem WideTable.value?_map (row : WideRow → WideRow) (change : Value → Value)
    (hrows : t'.rows = t.rows.map row) (hnumber : ∀ r, (row r).experiment = r.experiment)
    (hcell : ∀ r ∈ t.rows, t'.cell (row r) g.column = change (t.cell r f.column)) (number : Nat) :
    t'.value? g number = (t.value? f number).map change := by
  have hfind : ((·.experiment == number) ∘ row) = (·.experiment == number) := by
    funext r
    exact congrArg (· == number) (hnumber r)
  unfold WideTable.value?
  rw [hrows, List.find?_map, hfind]
  cases hr : t.rows.find? (·.experiment == number) with
  | none => rfl
  | some r => exact congrArg some (hcell r (List.mem_of_find?_eq_some hr))

/-- A field with its number and kind as before has the value that it had. -/
theorem Mirrors.cell_carry (h : Mirrors b previous r e) (hcolumns : t.columns = previous.map Field.toColumn)
    (hnames : (previous.map (·.name)).Nodup) (hnumbers : (previous.map (·.id)).Nodup)
    (hcolumns' : t'.columns = current.map Field.toColumn) (hnames' : (current.map (·.name)).Nodup)
    (hf : f ∈ previous) (hg : g ∈ current) (hid : g.id = f.id) (hnumeric : g.numeric = f.numeric) :
    t'.cell (t.carry previous current r) g.column = t.cell r f.column := by
  have hcells : current.map (fun f => t'.cell (t.carry previous current r) f.column)
      = (t.carry previous current r).cells :=
    BenchPlot.map_cell hcolumns' hnames' (List.length_map _)
  have hcell := List.map_inj_left.mp hcells g hg
  -- The value comes from the column of the field that had the number before.
  rw [hid, find?_eq_some_of_mem hnumbers hf] at hcell
  rw [hcell]
  exact keep_of_admits (h.holds hcolumns hnames hf).admits hnumeric

theorem Mirrors.cell_fill (h : Mirrors b fields r e) (hcolumns : t.columns = fields.map Field.toColumn)
    (hnames : (fields.map (·.name)).Nodup) (hf : f ∈ fields) (column : String) (v : Value) :
    (t.fill column v).cell { r with cells := filledCells fields column v r.cells } f.column
      = if f.column = column then f.toColumn.keep v else t.cell r f.column := by
  have hwidth : (filledCells fields column v r.cells).length = fields.length := by
    simp [filledCells, h.cells.length_eq]
  have hcells := BenchPlot.map_cell (t := t.fill column v)
    (r := { r with cells := filledCells fields column v r.cells }) hcolumns hnames hwidth
  have hfilled : filledCells fields column v r.cells = fields.map fun f =>
      if f.column = column then f.toColumn.keep v else t.cell r f.column := by
    unfold filledCells
    rw [← h.map_cell hcolumns hnames, List.zip_map', List.map_map]
    refine List.map_congr_left fun f _ => ?_
    simp [Field.toColumn]
  exact List.map_inj_left.mp (hcells.trans hfilled) f hf

/-! ## §2 Values in holdings -/

namespace Holding

variable {k k' k'' : Holding}

/-- The value of an experiment under a field of what is kept of a benchmark. -/
def value? (k : Holding) (f : Field) (experiment : Nat) : Option Value :=
  k.table.bind (·.value? f experiment)

/-- All fields are there as before but for their names, with the values that they had. -/
def Keeps (k k' : Holding) : Prop :=
  ∀ f ∈ k.fields, ∃ name, { f with name := name } ∈ k'.fields
    ∧ ∀ number, k'.value? { f with name := name } number = k.value? f number

theorem Keeps.refl (k : Holding) : k.Keeps k :=
  fun f hf => ⟨f.name, hf, fun _ => rfl⟩

theorem Keeps.trans (h : k.Keeps k') (h' : k'.Keeps k'') : k.Keeps k'' := by
  intro f hf
  obtain ⟨name, hname, hvalue⟩ := h f hf
  obtain ⟨name', hname', hvalue'⟩ := h' _ hname
  exact ⟨name', hname', fun number => (hvalue' number).trans (hvalue number)⟩

/-- Every experiment has a value under every field. -/
theorem Sound.exists_value (h : k.Sound b) (hf : f ∈ k.fields) (he : e ∈ k.experiments) :
    ∃ v, k.value? f e.id = some v := by
  have hfits := h.table
  unfold value?
  cases htable : k.table with
  | none =>
    rw [htable] at hfits
    rw [hfits.1] at hf
    cases hf
  | some t =>
    rw [htable] at hfits
    obtain ⟨r, hr, hre⟩ := exists_mem_of_forall₂ (R := flip (Mirrors b k.fields)) hfits.2.2.flip he
    have hfound : (t.rows.find? (·.experiment == e.id)).isSome :=
      List.find?_isSome.mpr ⟨r, hr, beq_iff_eq.mpr hre.experiment⟩
    obtain ⟨r', hr'⟩ := Option.isSome_iff_exists.mp hfound
    exact ⟨t.cell r' f.column, congrArg (Option.map (t.cell · f.column)) hr'⟩

/-- What a column that is filled in holds, and what the others hold. -/
theorem Sound.value?_fill (h : k.Sound b) (hf : f ∈ k.fields) (column : String) (v : Value) (number : Nat) :
    Holding.value? { k with table := k.table.map (·.fill column v) } f number
      = (k.value? f number).map fun old => if f.column = column then f.toColumn.keep v else old := by
  have hfits := h.table
  unfold value?
  cases htable : k.table with
  | none => rfl
  | some t =>
    rw [htable] at hfits
    obtain ⟨_, hcolumns, hrows⟩ := hfits
    refine WideTable.value?_map (fun r => { r with cells := filledCells k.fields column v r.cells }) _ ?_
      (fun _ => rfl) (fun r hr => ?_) number
    · show t.rows.map _ = _
      rw [hcolumns]
      rfl
    · obtain ⟨e, _, hre⟩ := exists_mem_of_forall₂ hrows hr
      exact hre.cell_fill hcolumns h.fieldNames hf column v

end Holding

namespace Store

variable {s s' s'' : Store} {c : Benchmark}

/-! ## §3 What operations keep of the benchmark that they name -/

/-- The values of a rebuilt table. -/
theorem value?_rebuiltTable {s : Store} (h : TableFits b previous experiments (s.table? b.table))
    (hnames : (previous.map (·.name)).Nodup) (hnumbers : (previous.map (·.id)).Nodup)
    (hnames' : (current.map (·.name)).Nodup) (hf : f ∈ previous) (hg : g ∈ current) (hid : g.id = f.id)
    (hnumeric : g.numeric = f.numeric) (number : Nat) :
    (s.rebuiltTable b previous current).bind (·.value? g number)
      = (s.table? b.table).bind (·.value? f number) := by
  unfold rebuiltTable carriedRows
  rw [if_neg (List.ne_nil_of_mem hg)]
  cases htable : s.table? b.table with
  | none =>
    rw [htable] at h
    rw [h.1] at hf
    cases hf
  | some t =>
    rw [htable] at h
    obtain ⟨_, hcolumns, hrows⟩ := h
    -- Each row is carried over, and with it the value under the field.
    refine Eq.trans (WideTable.value?_map (t.carry previous current) id rfl (fun _ => rfl) (fun r hr => ?_)
      number) (congrFun Option.map_id _)
    obtain ⟨e, _, hre⟩ := exists_mem_of_forall₂ hrows hr
    exact hre.cell_carry hcolumns hnames hnumbers rfl hnames' hf hg hid hnumeric

theorem rebuild_experiments {t : Store} (hok : t.rebuild b previous current = .ok s') :
    s'.experiments = t.experiments := by
  obtain ⟨l, rfl⟩ := rebuild_eq_ok hok
  rfl

theorem Sound.rebuild_keeps {t : Store} (h : s.Sound) (hb : b ∈ s.benchmarks) (htables : t.tables = s.tables)
    (hok : t.rebuild b (s.ownFields b) (t.ownFields b) = .ok s') (hs' : s'.Sound) (hb' : b ∈ s'.benchmarks)
    (hfields : ∀ f ∈ s.ownFields b, ∃ name, { f with name := name } ∈ t.ownFields b) :
    (s.holding b).Keeps (s'.holding b) := by
  have hheld := h.holdings b hb
  have hfits : TableFits b (s.ownFields b) (s.experimentsOf b) (t.table? b.table) := by
    rw [table?, htables]
    exact hheld.table
  have hnames' := (hs'.holdings b hb').fieldNames
  rw [rebuild_holding hok] at hnames' ⊢
  intro f hf
  obtain ⟨name, hname⟩ := hfields f hf
  refine ⟨name, hname, fun number => ?_⟩
  have hvalue := value?_rebuiltTable hfits hheld.fieldNames (h.ownFields_nodup b) hnames' hf hname rfl rfl
    number
  rw [table?, htables] at hvalue
  exact hvalue

theorem defaultValue_of_some {name text : String} {new : NewField} {v : Value}
    (h : defaultValue name new = .ok v) (htext : new.default = some text) :
    typedValue? new.numeric text = some v := by
  unfold defaultValue at h
  rw [htext] at h
  dsimp only at h
  split at h
  · rename_i w hw
    cases h
    exact hw
  · cases h

theorem fill_holding (s : Store) (b : Benchmark) (column : String) (v : Value) :
    (s.updateTable b.table (·.fill column v)).holding b
      = { s.holding b with table := (s.holding b).table.map (·.fill column v) } := by
  have hname : ∀ t : WideTable, (t.fill column v).name = t.name := fun _ => rfl
  exact congrArg (Holding.mk _ _ _) ((table?_updateTable hname b.table b.table).trans (if_pos rfl))

theorem Sound.addField_keeps (h : s.Sound) {written : String} {new : NewField}
    (hok : s.addField written new = .ok (f, s')) (hc : c ∈ s.benchmarks)
    (hwritten : canonical written = .ok c.name) :
    c ∈ s'.benchmarks ∧ (s.holding c).Keeps (s'.holding c) := by
  obtain ⟨_, default, b, s₁, t, hbench, _, hensure, hbname, h₁, hb, _, _, _, hown, ht, hsound, hfields, _,
    rfl⟩ := h.addField_eq_ok hok
  have hleft := ensure_leavesAlone hc hensure
  have hname : c.name = b.name := by
    rw [hbench] at hwritten
    rw [hbname]
    exact (Except.ok.inj hwritten).symm
  obtain rfl := h₁.eq_of_name_eq hleft.mem hb hname
  have hct : c ∈ t.benchmarks := by
    rw [(rebuild_changedOnly ht).benchmarks]
    exact hb
  have hrebuilt : (s₁.holding c).Keeps (t.holding c) := by
    refine h₁.rebuild_keeps (t := s₁.putNewField f) hb rfl ht hsound hct fun g hg => ⟨g.name, ?_⟩
    rw [hown]
    exact List.mem_append_left _ hg
  rw [hleft.holding] at hrebuilt
  -- Filling in the default comes last, and only under the new field.
  split
  · exact ⟨hct, hrebuilt⟩
  · refine ⟨hct, fun g hg => ?_⟩
    obtain ⟨name, hname, hvalue⟩ := hrebuilt g hg
    refine ⟨name, hname, fun number => ?_⟩
    have hheld := hsound.holdings c hct
    have hnumbers := hsound.ownFields_nodup c
    have hft : f ∈ t.ownFields c := by
      rw [hfields]
      exact List.mem_append_right _ (List.mem_singleton_self f)
    have hne : ({ g with name := name } : Field).column ≠ f.column := by
      intro hcolumn
      -- Fields with one column are one field, but the numbers of the two differ.
      have heq : ({ g with name := name } : Field) = f :=
        List.inj_on_of_nodup_map hheld.fieldNames hname hft (columnName_inj.1 hcolumn)
      rw [hfields, List.map_append, List.nodup_append] at hnumbers
      have hgs : g ∈ (s₁.holding c).fields := by
        rw [hleft.holding]
        exact hg
      have hid : g.id = f.id := by rw [← heq]
      exact hnumbers.2.2 g.id (List.mem_map_of_mem hgs) f.id (by simp) hid
    show Holding.value? ((t.updateTable c.table (·.fill f.column default)).holding c) _ number = _
    rw [fill_holding, hheld.value?_fill hname]
    simp only [if_neg hne, Option.map_id']
    exact hvalue number

theorem Sound.addField_default (h : s.Sound) {written text : String} {new : NewField}
    (hok : s.addField written new = .ok (f, s')) (htext : new.default = some text) :
    ∃ b ∈ s'.benchmarks, f ∈ s'.ownFields b ∧ s'.experiments = s.experiments
      ∧ ∃ v, typedValue? new.numeric text = some v
        ∧ ∀ e ∈ s'.experimentsOf b, (s'.holding b).value? f e.id = some v.unsigned := by
  obtain ⟨_, default, b, s₁, t, _, hdefault, hensure, _, _, hb, _, hnumeric, hkey, _, ht, hsound, hfields,
    hexperiments, rfl⟩ := h.addField_eq_ok hok
  have hv := defaultValue_of_some hdefault htext
  have hbt : b ∈ t.benchmarks := by
    rw [(rebuild_changedOnly ht).benchmarks]
    exact hb
  have hft : f ∈ t.ownFields b := by
    rw [hfields]
    exact List.mem_append_right _ (List.mem_singleton_self f)
  obtain ⟨hensured, _, _⟩ := ensure_records hensure
  have hall : t.experiments = s.experiments := (rebuild_experiments ht).trans hensured
  split
  · -- A default of nothing is accepted without experiments only.
    rename_i hnull
    refine ⟨b, hbt, hft, hall, default, hv, fun e he => ?_⟩
    have hne : s₁.experimentsOf b ≠ [] := by
      rw [← hexperiments]
      exact List.ne_nil_of_mem he
    rw [(hkey hne).2] at hnull
    cases hnull
  · -- Any other one is filled in, over whatever the rebuilt table has under the field.
    refine ⟨b, hbt, hft, hall, default, hv, fun e he => ?_⟩
    have hheld := hsound.holdings b hbt
    obtain ⟨old, hold⟩ := hheld.exists_value hft he
    show Holding.value? ((t.updateTable b.table (·.fill f.column default)).holding b) f e.id = _
    rw [fill_holding, hheld.value?_fill hft, hold]
    simp only [if_true, Option.map_some]
    rw [keep_eq_unsigned (hnumeric ▸ hv)]

theorem Sound.renameField_keeps (h : s.Sound) {written writtenField writtenNew : String}
    (hok : s.renameField written writtenField writtenNew = .ok (g, s')) (hc : c ∈ s.benchmarks)
    (hwritten : canonical written = .ok c.name) :
    c ∈ s'.benchmarks ∧ (s.holding c).Keeps (s'.holding c) := by
  have hs' := h.renameField hok
  obtain ⟨_, _, new, b, f, hname, _, _, hfound, hf, _, ⟨_, _, rfl⟩ | ⟨_, hg, t, ht, rfl⟩⟩ :=
    renameField_eq_ok hok
  · exact ⟨hc, .refl _⟩
  obtain rfl := h.eq_of_found hc hwritten hname hfound
  rw [h.fieldsOf_eq hc] at hf ht
  have hreplaces : s.Replaces c f g := ⟨hf, by rw [hg], by rw [hg], by rw [hg]⟩
  have hcurrent : ((s.putField g).renameInIndices c f.name new).fieldsOf c
      = ((s.putField g).renameInIndices c f.name new).ownFields c :=
    fieldsOf_eq_ownFields (hreplaces.positions h hc)
  rw [hcurrent] at ht
  have hmem : c ∈ t.benchmarks := by
    rw [(rebuild_changedOnly ht).benchmarks]
    exact hc
  refine ⟨hmem, ?_⟩
  show (s.holding c).Keeps (t.holding c)
  refine h.rebuild_keeps (t := (s.putField g).renameInIndices c f.name new) hc rfl ht hs'.of_touch hmem
    fun f' hf' => ?_
  show ∃ name, { f' with name := name } ∈ (s.putField g).ownFields c
  rw [hreplaces.ownFields h]
  -- The renamed field is the only one that becomes another one.
  have hmoved : replaced g f' ∈ (s.ownFields c).map (replaced g) := List.mem_map_of_mem hf'
  rcases hreplaces.replaced_cases h (List.mem_of_mem_filter hf') with ⟨rfl, heq⟩ | ⟨_, heq⟩
  · rw [heq, hg] at hmoved
    exact ⟨new, hg ▸ hmoved⟩
  · rw [heq] at hmoved
    exact ⟨f'.name, hmoved⟩

/-! ## §4 What changes of the schema carry on -/

/-- A benchmark is there under its number, and has its fields with their values. -/
def Carries (b : Benchmark) (s s' : Store) : Prop :=
  ∃ b' ∈ s'.benchmarks, b'.id = b.id ∧ (s.holding b).Keeps (s'.holding b')

theorem LeavesAlone.carries (h : LeavesAlone b s s') : Carries b s s' :=
  ⟨b, h.mem, rfl, h.holding ▸ Holding.Keeps.refl _⟩

theorem carries_of_eq (hb : b ∈ s'.benchmarks) (hfields : s'.fields = s.fields)
    (htables : s'.tables = s.tables) : Carries b s s' := by
  refine ⟨b, hb, rfl, fun f hf => ⟨f.name, ?_, fun number => ?_⟩⟩
  · show f ∈ s'.ownFields b
    rw [ownFields, hfields]
    exact hf
  · show (s'.table? b.table).bind _ = (s.table? b.table).bind _
    rw [table?, htables]
    rfl

theorem Sound.replaceBenchmark_carries (h : s.Sound) (hb : b ∈ s.benchmarks) (hid : c.id = b.id)
    (hname : c.name = b.name ∨ ∀ d ∈ s.benchmarks, d.name ≠ c.name) (l : List PhysicalIndex) :
    Carries b s (s.replaceBenchmark b c l) := by
  refine ⟨c, (mem_putBenchmark hid hb).mpr (.inl rfl), hid, fun f hf => ⟨f.name, ?_, fun number => ?_⟩⟩
  · rw [replaceBenchmark_holding (h.renamedTable_free hname) (.inl rfl)]
    show f ∈ s.fields.filter (·.benchmark == c.id)
    rw [hid]
    exact hf
  · rw [replaceBenchmark_holding (h.renamedTable_free hname) (.inl rfl), if_pos rfl]
    show ((s.table? b.table).map _).bind _ = (s.table? b.table).bind _
    cases s.table? b.table <;> rfl

end Store

/-- Whether an operation changes the schema without taking anything away. -/
def Operation.isSchemaChange : Operation → Bool
  | .addField .. | .renameField .. | .renameBenchmark .. => true
  | .createIndex .. | .dropIndex .. | .setDescription .. => true
  | _ => false

namespace Store

variable {s s' s'' : Store} {op : Operation}

theorem Sound.carries_apply (h : s.Sound) (hb : b ∈ s.benchmarks) (hop : op.isSchemaChange) :
    Carries b s (s.apply op) := by
  have hrefl : Carries b s s := (LeavesAlone.refl hb).carries
  -- Only the benchmark that the operation names needs a look at the operation.
  by_cases hother : canonical op.bench = .ok b.name
  case neg => exact (h.leavesAlone_apply hb hother).carries
  case pos =>
    cases op with
    | addField =>
      refine orKeep_map_induction hrefl fun f s' hok => ?_
      obtain ⟨hmem, hkeeps⟩ := h.addField_keeps hok hb hother
      exact ⟨b, hmem, rfl, hkeeps⟩
    | renameField =>
      refine orKeep_map_induction hrefl fun f s' hok => ?_
      obtain ⟨hmem, hkeeps⟩ := h.renameField_keeps hok hb hother
      exact ⟨b, hmem, rfl, hkeeps⟩
    | renameBenchmark =>
      refine orKeep_map_induction hrefl fun c s' hok => ?_
      obtain ⟨_, new, found, hname, _, hfound, ⟨_, _, rfl⟩ | ⟨hfree, rfl, t, ht, rfl⟩⟩ :=
        renameBenchmark_eq_ok hok
      · exact hrefl
      · obtain rfl := h.eq_of_found hb hother hname hfound
        obtain ⟨l, rfl⟩ := renameTable_eq_ok ht
        exact h.replaceBenchmark_carries (c := { b with name := new }) hb rfl
          (.inr (benchmark?_eq_none.1 hfree)) l
    | setDescription _ description =>
      refine orKeep_induction hrefl fun s' hok => ?_
      obtain ⟨_, found, hname, hfound, rfl⟩ := setDescription_eq_ok hok
      obtain rfl := h.eq_of_found hb hother hname hfound
      rw [putBenchmark_eq_replaceBenchmark (b := b) (c := { b with description := description }) rfl]
      exact h.replaceBenchmark_carries (c := { b with description := description }) hb rfl (.inl rfl)
        s.physicalIndices
    | createIndex =>
      refine orKeep_map_induction hrefl fun i s' hok => ?_
      obtain ⟨_, _, c, _, _, _, _, _, _, _, _, _, _, rfl⟩ := createIndex_eq_ok hok
      obtain ⟨l, hl⟩ := makePhysicalIndex_eq (s.putNewIndex i) c i
      rw [hl]
      exact carries_of_eq hb rfl rfl
    | dropIndex =>
      refine orKeep_induction hrefl fun s' hok => ?_
      obtain ⟨_, _, _, _, _, _, _, rfl⟩ := dropIndex_eq_ok hok
      exact carries_of_eq hb rfl rfl
    | _ => cases hop

/-- Changes of the schema leave the experiments as they are. -/
theorem apply_experiments (hop : op.isSchemaChange) : (s.apply op).experiments = s.experiments := by
  cases op with
  | addField =>
    refine orKeep_map_induction (P := (·.experiments = s.experiments)) rfl fun f s' hok => ?_
    exact (addField_records hok).1
  | renameField =>
    refine orKeep_map_induction (P := (·.experiments = s.experiments)) rfl fun f s' hok => ?_
    obtain ⟨_, _, _, _, _, _, _, _, _, _, _, ⟨_, _, rfl⟩ | ⟨_, _, t, ht, rfl⟩⟩ := renameField_eq_ok hok
    · rfl
    · show t.experiments = s.experiments
      rw [rebuild_experiments ht]
      rfl
  | renameBenchmark =>
    refine orKeep_map_induction (P := (·.experiments = s.experiments)) rfl fun c s' hok => ?_
    obtain ⟨_, _, _, _, _, _, ⟨_, _, rfl⟩ | ⟨_, _, t, ht, rfl⟩⟩ := renameBenchmark_eq_ok hok
    · rfl
    · obtain ⟨l, rfl⟩ := renameTable_eq_ok ht
      rfl
  | setDescription =>
    refine orKeep_induction (P := (·.experiments = s.experiments)) rfl fun s' hok => ?_
    obtain ⟨_, _, _, _, rfl⟩ := setDescription_eq_ok hok
    rfl
  | createIndex =>
    refine orKeep_map_induction (P := (·.experiments = s.experiments)) rfl fun i s' hok => ?_
    obtain ⟨_, _, c, _, _, _, _, _, _, _, _, _, _, rfl⟩ := createIndex_eq_ok hok
    obtain ⟨l, hl⟩ := makePhysicalIndex_eq (s.putNewIndex i) c i
    rw [hl]
    rfl
  | dropIndex =>
    refine orKeep_induction (P := (·.experiments = s.experiments)) rfl fun s' hok => ?_
    obtain ⟨_, _, _, _, _, _, _, rfl⟩ := dropIndex_eq_ok hok
    rfl
  | _ => cases hop

/-! ## §5 Histories -/

/-- The value that a store keeps of an experiment under a field, both known by their numbers. -/
def fieldValue? (s : Store) (field experiment : Nat) : Option Value := do
  let f ← s.fields.find? (·.id == field)
  let b ← s.benchmarks.find? (·.id == f.benchmark)
  let t ← s.table? b.table
  t.value? f experiment

theorem Sound.fieldValue?_eq (h : s.Sound) (hb : b ∈ s.benchmarks) (hf : f ∈ s.ownFields b) (number : Nat) :
    s.fieldValue? f.id number = (s.holding b).value? f number := by
  obtain ⟨hmem, howner⟩ := List.mem_filter.mp hf
  have hfield : s.fields.find? (·.id == f.id) = some f :=
    find?_eq_some_of_mem h.numbers.fields.nodup hmem
  have hbench : s.benchmarks.find? (·.id == f.benchmark) = some b := by
    rw [eq_of_beq howner]
    exact find?_eq_some_of_mem h.numbers.benchmarks.nodup hb
  unfold fieldValue?
  rw [hfield, Option.bind_eq_bind, Option.bind_some, hbench]
  rfl

/-- Nothing of what a store keeps is lost or altered in another one, where benchmarks and fields may have
    other names. -/
structure KeepsData (s s' : Store) : Prop where
  benchmarks : ∀ b ∈ s.benchmarks, ∃ name description,
    { b with name := name, description := description } ∈ s'.benchmarks
  experiments : s'.experiments = s.experiments
  fields : ∀ f ∈ s.fields, ∃ name, { f with name := name } ∈ s'.fields
  values : ∀ f ∈ s.fields, ∀ e ∈ s.experiments, e.benchmark = f.benchmark →
    ∃ v, s.fieldValue? f.id e.id = some v ∧ s'.fieldValue? f.id e.id = some v

/-- What one operation of a history comes to: it leaves the benchmarks alone that it does not name, and a
    field that it adds with a default has this default at the end of the history in all experiments that the
    operation found. -/
structure SchemaStep (found : Store) (op : Operation) (last : Store) : Prop where
  others : ∀ c ∈ found.benchmarks, canonical op.bench ≠ .ok c.name → LeavesAlone c found (found.apply op)
  default : ∀ bench new text, op = .addField bench new → new.default = some text →
    ∀ f added, found.addField bench new = .ok (f, added) →
      ∃ v, typedValue? new.numeric text = some v
        ∧ ∀ e ∈ found.experiments, e.benchmark = f.benchmark → last.fieldValue? f.id e.id = some v.unsigned

theorem Carries.trans (h : Carries b s s') (h' : ∀ b' ∈ s'.benchmarks, Carries b' s' s'') :
    Carries b s s'' := by
  obtain ⟨b', hb', hid, hkeeps⟩ := h
  obtain ⟨b'', hb'', hid', hkeeps'⟩ := h' b' hb'
  exact ⟨b'', hb'', hid'.trans hid, hkeeps.trans hkeeps'⟩

theorem Sound.carries_run (h : s.Sound) {history : List (String × Operation)}
    (hschema : ∀ p ∈ history, p.2.isSchemaChange) :
    (s.run history).experiments = s.experiments ∧ ∀ b ∈ s.benchmarks, Carries b s (s.run history) := by
  -- Along the history: each operation carries on all benchmarks that the ones before left.
  induction history generalizing s with
  | nil => exact ⟨rfl, fun b hb => (LeavesAlone.refl hb).carries⟩
  | cons p rest ih =>
    have hop : p.2.isSchemaChange := hschema p (List.mem_cons_self ..)
    have hstep := (h.atTime p.1).apply p.2
    obtain ⟨hexperiments, hcarries⟩ := ih hstep fun q hq => hschema q (List.mem_cons_of_mem _ hq)
    refine ⟨hexperiments.trans (apply_experiments hop), fun b hb => ?_⟩
    have hfirst : Carries b s ((s.atTime p.1).apply p.2) := (h.atTime p.1).carries_apply hb hop
    exact hfirst.trans hcarries

theorem Sound.keepsData_of_carries (h : s.Sound) (hs' : s'.Sound)
    (hexperiments : s'.experiments = s.experiments) (hcarries : ∀ b ∈ s.benchmarks, Carries b s s') :
    KeepsData s s' := by
  refine ⟨fun b hb => ?_, hexperiments, fun f hf => ?_, fun f hf e he howner => ?_⟩
  · obtain ⟨b', hb', hid, _⟩ := hcarries b hb
    exact ⟨b'.name, b'.description, hid ▸ hb'⟩
  · obtain ⟨b, hb, hfb⟩ := h.fieldOwners f hf
    obtain ⟨b', _, _, hkeeps⟩ := hcarries b hb
    obtain ⟨name, hname, _⟩ := hkeeps f (List.mem_filter.mpr ⟨hf, beq_iff_eq.mpr hfb.symm⟩)
    exact ⟨name, List.mem_of_mem_filter hname⟩
  · obtain ⟨b, hb, hfb⟩ := h.fieldOwners f hf
    have hown : f ∈ s.ownFields b := List.mem_filter.mpr ⟨hf, beq_iff_eq.mpr hfb.symm⟩
    have heown : e ∈ s.experimentsOf b :=
      List.mem_filter.mpr ⟨he, beq_iff_eq.mpr (howner.trans hfb.symm)⟩
    obtain ⟨b', hb', _, hkeeps⟩ := hcarries b hb
    obtain ⟨name, hname, hvalue⟩ := hkeeps f hown
    obtain ⟨v, hv⟩ := (h.holdings b hb).exists_value hown heown
    -- Whatever the field is called now, it has the number under which it is looked up.
    have hlater := hs'.fieldValue?_eq hb' hname e.id
    rw [hvalue] at hlater
    exact ⟨v, (h.fieldValue?_eq hb hown e.id).trans hv, hlater.trans hv⟩

/-- However the schema of a reachable store is changed, by adding and renaming only, all data stays as it is:
    the experiments, and under each field, whatever it is called by then, their values. -/
theorem reachable_schemaHistory_keepsData (h : s.Reachable) {history : List (String × Operation)}
    (hschema : ∀ p ∈ history, p.2.isSchemaChange) :
    KeepsData s (s.run history)
      ∧ ∀ before time op after, history = before ++ (time, op) :: after →
        SchemaStep ((s.run before).atTime time) op (s.run history) := by
  have hkept : ∀ {found : Store}, found.Sound → ∀ later : List (String × Operation),
      (∀ p ∈ later, p.2.isSchemaChange) → KeepsData found (found.run later) := by
    intro found hfound later hlater
    obtain ⟨hexperiments, hcarries⟩ := hfound.carries_run hlater
    exact hfound.keepsData_of_carries (hfound.run later) hexperiments hcarries
  refine ⟨hkept h.sound history hschema, ?_⟩
  rintro before time op after rfl
  have hfound : ((s.run before).atTime time).Sound := (h.sound.run before).atTime time
  refine ⟨fun c hc hother => hfound.leavesAlone_apply hc hother, ?_⟩
  rintro bench new text rfl htext f added hok
  obtain ⟨b, hb, hf, hexperiments, v, hv, hvalue⟩ := hfound.addField_default hok htext
  refine ⟨v, hv, fun e he howner => ?_⟩
  have hadded : added.Sound := hfound.addField hok
  obtain ⟨hmem, hfb⟩ := List.mem_filter.mp hf
  have hea : e ∈ added.experiments := hexperiments ▸ he
  have heown : e ∈ added.experimentsOf b :=
    List.mem_filter.mpr ⟨hea, beq_iff_eq.mpr (howner.trans (eq_of_beq hfb))⟩
  -- The default is there behind the operation, and what comes after it keeps it.
  have hrest : s.run (before ++ (time, .addField bench new) :: after) = added.run after := by
    rw [run_append]
    show (((s.run before).atTime time).orKeep ((((s.run before).atTime time).addField bench new).map (·.2))).run
      after = _
    rw [hok]
    rfl
  have hlater := hkept hadded after fun p hp => hschema p (by simp [hp])
  obtain ⟨w, hw, hwlast⟩ := hlater.values f hmem e hea howner
  rw [hadded.fieldValue?_eq hb hf, hvalue e heown] at hw
  rw [hrest, hwlast, hw]

/-- A history of all changes of the schema that only add and rename. -/
def sampleSchemaHistory : List (String × Operation) := [
  ("6", .renameField "runs" "size" "length"),
  ("7", .renameBenchmark "runs" "trials"),
  ("8", .dropIndex "trials" "by size"),
  ("9", .createIndex "trials" "by length" ["length"]),
  ("10", .setDescription "trials" (some "all of them")),
  ("11", .addField "trials" ⟨"size", false, false, some " unknown "⟩)]

theorem schemaHistory_sample :
    (∀ p ∈ sampleSchemaHistory, p.2.isSchemaChange)
      ∧ ((sample.run sampleSchemaHistory).benchmarks = [⟨1, "TRIALS", some "all of them"⟩]
        ∧ (sample.run sampleSchemaHistory).fields.map (fun f => (f.id, f.name))
          = [(1, "LENGTH"), (2, "SIZE")])
      ∧ KeepsData sample (sample.run sampleSchemaHistory) := by
  have hschema : ∀ p ∈ sampleSchemaHistory, p.2.isSchemaChange := by decide
  exact ⟨hschema, by decide +kernel, (reachable_schemaHistory_keepsData reachable_sample hschema).1⟩

end Store

end BenchPlot
