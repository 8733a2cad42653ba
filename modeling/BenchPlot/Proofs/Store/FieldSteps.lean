import BenchPlot.Proofs.Store.BenchmarkSteps

/-!
# Operations on fields and indices keep stores sound

Every change of fields leaves a table with a column for each field. Where there are experiments, fields may
only be added and renamed, and the rows are carried over into rows that mirror the same experiments; any
other change takes place in a benchmark without experiments, whose table has no row.

Main statements: `Sound.addField`, `Sound.removeField`, `Sound.renameField`, `Sound.setNumeric`,
`Sound.setKey`, `Sound.createIndex` and `Sound.dropIndex`.
-/

namespace BenchPlot

/-! ## §1 Tables that are built anew -/

variable {b : Benchmark} {previous current fields : List Field} {experiments : List Experiment}

theorem IndexFits.mono {i : FieldIndex} (h : IndexFits previous i)
    (hnames : ∀ name ∈ previous.map (·.name), name ∈ current.map (·.name)) : IndexFits current i :=
  ⟨h.canonical, h.nonempty, h.nodup, fun name hname => hnames name (h.known name hname)⟩

/-- Without experiments a table has no rows, so that only its columns matter. -/
theorem TableFits.of_noData {t : Option WideTable} (h : TableFits b previous [] t)
    (hcolumns : current.map Field.toColumn = previous.map Field.toColumn) : TableFits b current [] t := by
  have hlength : current.length = previous.length := by simpa using congrArg List.length hcolumns
  cases t with
  | none => exact ⟨List.length_eq_zero_iff.mp (by rw [hlength, h.1]; rfl), rfl⟩
  | some t =>
    obtain ⟨hfields, htcolumns, hrows⟩ := h
    refine ⟨fun hnil => hfields (List.length_eq_zero_iff.mp ?_), htcolumns.trans hcolumns.symm, ?_⟩
    · rw [← hlength, hnil]
      rfl
    · rw [List.forall₂_nil_right_iff.mp hrows]
      exact .nil

/-- The table fits after a value was filled in under a field that is no key, and so in any table without
    rows. -/
theorem TableFits.fill {t : WideTable} (h : TableFits b fields experiments (some t))
    (hnames : (fields.map (·.name)).Nodup) {g : Field} (hg : g ∈ fields)
    (hkey : experiments ≠ [] → g.key = false) {v : Value}
    (hv : ∀ c : WideColumn, c.numeric = g.numeric → g.Admits (c.keep v)) :
    TableFits b fields experiments (some (t.fill g.column v)) := by
  obtain ⟨hfields, hcolumns, hrows⟩ := h
  refine ⟨hfields, hcolumns, ?_⟩
  by_cases hdata : experiments = []
  · subst hdata
    show List.Forall₂ _ (t.rows.map _) []
    rw [List.forall₂_nil_right_iff.mp hrows]
    exact .nil
  · refine List.forall₂_map_left_iff.mpr (hrows.imp fun r e hre => ?_)
    have hfilled := hre.fill hnames hg (hkey hdata) hv
    rwa [filledCells, ← hcolumns] at hfilled

/-- What is left of a benchmark without one of its fields fits together. -/
theorem Holding.Sound.withoutField {k : Holding} (h : k.Sound b) {f : Field} {t : Option WideTable}
    (honly : ∀ f' ∈ k.fields, f'.id = f.id → f' = f)
    (htable : TableFits b (k.fields.filter (·.id != f.id)) k.experiments t) :
    Holding.Sound b ⟨k.fields.filter (·.id != f.id), k.indices.filter fun i => !i.fields.contains f.name,
      k.experiments, t⟩ := by
  refine { h with
    fieldCanonical := fun f' hf' => h.fieldCanonical f' (List.mem_of_mem_filter hf')
    fieldNames := h.fieldNames.sublist (List.filter_sublist.map _)
    positions := h.positions.sublist List.filter_sublist
    indexNames := h.indexNames.sublist (List.filter_sublist.map _)
    indices := fun i hi => ?_
    table := htable }
  obtain ⟨hmem, hfree⟩ := List.mem_filter.mp hi
  have hfits := h.indices i hmem
  refine { hfits with known := fun n hn => ?_ }
  -- An index that stays is not over the field, so the fields that it names stay as well.
  obtain ⟨f', hf', rfl⟩ := List.mem_map.mp (hfits.known n hn)
  refine List.mem_map_of_mem (List.mem_filter.mpr ⟨hf', bne_iff_ne.mpr fun hid => ?_⟩)
  rw [honly f' hf' hid] at hn
  simp [hn] at hfree

namespace Store

variable {s s' t : Store}

/-- The table of a benchmark after its fields changed. -/
def rebuiltTable (s : Store) (b : Benchmark) (previous current : List Field) : Option WideTable :=
  if current = [] then none
  else some ⟨b.table, current.map Field.toColumn, s.carriedRows b.table previous current⟩

/-- A rebuilt table fits if each row that is carried over stays with its experiment. -/
theorem tableFits_rebuiltTable (h : TableFits b previous experiments (s.table? b.table))
    (hempty : current = [] → experiments = [])
    (hcarry : experiments ≠ [] → ∀ t : WideTable, t.columns = previous.map Field.toColumn →
      ∀ r e, Mirrors b previous r e → Mirrors b current (t.carry previous current r) e) :
    TableFits b current experiments (s.rebuiltTable b previous current) := by
  unfold rebuiltTable
  split
  · rename_i hnil
    exact ⟨hnil, hempty hnil⟩
  · rename_i hfull
    refine ⟨hfull, rfl, ?_⟩
    unfold carriedRows
    -- Where there was no table there is no experiment, and the new table has no row.
    cases htable : s.table? b.table with
    | none =>
      rw [htable] at h
      rw [h.2]
      exact .nil
    | some t =>
      rw [htable] at h
      obtain ⟨_, hcolumns, hrows⟩ := h
      show List.Forall₂ (Mirrors b current) (t.rows.map (t.carry previous current)) experiments
      by_cases hdata : experiments = []
      · subst hdata
        rw [List.forall₂_nil_right_iff.mp hrows]
        exact .nil
      · exact List.forall₂_map_left_iff.mpr (hrows.imp (hcarry hdata t hcolumns))

theorem rebuild_holding (hok : t.rebuild b previous current = .ok s') :
    s'.holding b
      = ⟨t.ownFields b, t.ownIndices b, t.experimentsOf b, t.rebuiltTable b previous current⟩ := by
  obtain ⟨l, rfl⟩ := rebuild_eq_ok hok
  exact congrArg (Holding.mk _ _ _) ((find?_rebuiltTables t b previous current b.table).trans (if_pos rfl))

theorem rebuild_changedOnly (hok : t.rebuild b previous current = .ok s') : ChangedOnly b t s' := by
  obtain ⟨l, rfl⟩ := rebuild_eq_ok hok
  exact ⟨rfl, .refl, .refl, .refl, fun name hne => (find?_rebuiltTables t b _ _ name).trans (if_neg hne)⟩

/-- A store whose fields or indices changed is sound again when the table is built anew. -/
theorem Sound.rebuild (h : s.Sound) (hb : b ∈ s.benchmarks) (hchanged : ChangedOnly b s t)
    (hnumbers : t.Numbered) (htables : t.tables = s.tables) (hok : t.rebuild b previous current = .ok s')
    (hown : Holding.Sound b
      ⟨t.ownFields b, t.ownIndices b, t.experimentsOf b, t.rebuiltTable b previous current⟩) : s'.Sound := by
  have hrebuilt := rebuild_changedOnly hok
  rw [← rebuild_holding hok] at hown
  obtain ⟨l, rfl⟩ := rebuild_eq_ok hok
  exact h.of_changedOnly hb (hchanged.trans hrebuilt) { hnumbers with }
    (rebuiltTables_names_nodup (htables ▸ h.tableNames) b previous current) hown

/-! ## §2 New fields -/

theorem position_lt (fields : List Field) {f : Field} (hf : f ∈ fields) :
    f.position < (fields.map (·.position)).foldl max 0 + 1 := by
  have hmax : ∀ (l : List Nat) (start : Nat),
      start ≤ l.foldl max start ∧ ∀ n ∈ l, n ≤ l.foldl max start := by
    intro l
    induction l with
    | nil => simp
    | cons m rest ih =>
      intro start
      obtain ⟨hstart, hrest⟩ := ih (max start m)
      rw [List.foldl_cons]
      refine ⟨by omega, fun n hn => ?_⟩
      rcases List.mem_cons.mp hn with rfl | hlater
      · omega
      · exact hrest n hlater
  exact Nat.lt_succ_of_le ((hmax _ 0).2 _ (List.mem_map_of_mem hf))

theorem defaultValue_eq_ok {name : String} {new : NewField} {v : Value} (h : defaultValue name new = .ok v) :
    v = .null ∨ ∃ text, typedValue? new.numeric text = some v := by
  unfold defaultValue at h
  split at h
  · cases h
    exact .inl rfl
  · rename_i text _
    split at h
    · rename_i w hw
      cases h
      exact .inr ⟨text, hw⟩
    · cases h

theorem putNewField_changedOnly {f : Field} (howner : f.benchmark = b.id) :
    ChangedOnly b s (s.putNewField f) :=
  ⟨rfl, .append howner, .refl, .refl, fun _ _ => rfl⟩

theorem Sound.putNewField (h : s.Sound) (hb : b ∈ s.benchmarks) {f : Field} (hid : f.id = s.last.field + 1)
    (howner : f.benchmark = b.id) (hcanonical : IsCanonical f.name)
    (hfresh : ∀ g ∈ s.ownFields b, g.name ≠ f.name)
    (hposition : ∀ g ∈ s.ownFields b, g.position < f.position)
    (hkey : s.experimentsOf b ≠ [] → f.key = false)
    (hok : (s.putNewField f).rebuild b (s.ownFields b) (s.ownFields b ++ [f]) = .ok s') :
    s'.Sound ∧ s'.ownFields b = s.ownFields b ++ [f] ∧ s'.experimentsOf b = s.experimentsOf b := by
  have hheld := h.holdings b hb
  have hown : (s.putNewField f).ownFields b = s.ownFields b ++ [f] := by
    simp [ownFields, Store.putNewField, howner]
  have hfields : Ascending Field.id f.id (s.fields ++ [f]) := by
    rw [hid]
    exact h.numbers.fields.append hid
  have hnames : ((s.ownFields b ++ [f]).map (·.name)).Nodup := nodup_map_append hheld.fieldNames hfresh
  have hpositions : (s.ownFields b ++ [f]).Pairwise fun g g' => g.position < g'.position := by
    refine List.pairwise_append.mpr ⟨hheld.positions, List.pairwise_singleton _ _, fun g hg g' hg' => ?_⟩
    rw [List.mem_singleton.mp hg']
    exact hposition g hg
  have htable : TableFits b (s.ownFields b ++ [f]) (s.experimentsOf b)
      ((s.putNewField f).rebuiltTable b (s.ownFields b) (s.ownFields b ++ [f])) := by
    refine tableFits_rebuiltTable hheld.table (by simp) fun hne t hcolumns r e hre => ?_
    refine hre.carry_append hcolumns hheld.fieldNames (h.ownFields_nodup b) (fun g hg => ?_) (hkey hne)
    -- The new number lies above those of all fields.
    have hle := h.numbers.fields.le_last g (List.mem_of_mem_filter hg)
    rw [hid]
    exact Nat.ne_of_lt (Nat.lt_succ_of_le hle)
  have hkept := rebuild_holding hok
  refine ⟨h.rebuild hb (putNewField_changedOnly howner) { h.numbers with fields := hfields } rfl hok ?_,
    (congrArg Holding.fields hkept).trans hown, congrArg Holding.experiments hkept⟩
  rw [hown]
  refine { hheld with
    fieldCanonical := fun g hg => ?_
    fieldNames := hnames
    positions := hpositions
    indices := fun i hi => (hheld.indices i hi).mono fun n hn => List.map_append ▸ List.mem_append_left _ hn
    table := htable }
  rcases List.mem_append.mp hg with hold | hnew
  · exact hheld.fieldCanonical g hold
  · rwa [List.mem_singleton.mp hnew]

theorem Sound.fill (h : s.Sound) (hb : b ∈ s.benchmarks) {f : Field} (hf : f ∈ s.ownFields b)
    (hkey : s.experimentsOf b ≠ [] → f.key = false) {v : Value}
    (hv : ∀ c : WideColumn, c.numeric = f.numeric → f.Admits (c.keep v)) :
    (s.updateTable b.table (·.fill f.column v)).Sound := by
  have hname : ∀ t : WideTable, (t.fill f.column v).name = t.name := fun _ => rfl
  have hheld := h.holdings b hb
  refine h.of_changedOnly hb (.updateTable hname) { h.numbers with }
    (by rw [updateTable_names hname]; exact h.tableNames) { hheld with table := ?_ }
  show TableFits b (s.ownFields b) (s.experimentsOf b) (Store.table? _ b.table)
  rw [table?_updateTable hname, if_pos rfl]
  have hold : TableFits b (s.ownFields b) (s.experimentsOf b) (s.table? b.table) := hheld.table
  cases htable : s.table? b.table with
  | none =>
    rw [htable] at hold
    exact hold
  | some t =>
    rw [htable] at hold
    exact hold.fill hheld.fieldNames hf hkey hv

/-- A new field is the last one of its benchmark in the store with the rebuilt table, which is sound
    already before the default is filled in. -/
theorem Sound.addField_eq_ok (h : s.Sound) {written : String} {new : NewField} {f : Field}
    (hok : s.addField written new = .ok (f, s')) :
    ∃ bench default b s₁ t, canonical written = .ok bench ∧ defaultValue f.name new = .ok default
      ∧ s.ensure bench = (b, s₁) ∧ b.name = bench ∧ s₁.Sound ∧ b ∈ s₁.benchmarks
      ∧ f.benchmark = b.id ∧ f.numeric = new.numeric
      ∧ (s₁.experimentsOf b ≠ [] → f.key = false ∧ default.isNull = false)
      ∧ (s₁.putNewField f).ownFields b = s₁.ownFields b ++ [f]
      ∧ (s₁.putNewField f).rebuild b (s₁.ownFields b) ((s₁.putNewField f).ownFields b) = .ok t
      ∧ t.Sound ∧ t.ownFields b = s₁.ownFields b ++ [f] ∧ t.experimentsOf b = s₁.experimentsOf b
      ∧ s' = (if default.isNull then t else t.updateTable b.table (·.fill f.column default)).touch := by
  obtain ⟨bench, name, default, b, s₁, t, hbench, hname, hdefault, hensure, hfresh, hdata, hf, ht, rfl⟩ :=
    Store.addField_eq_ok hok
  obtain ⟨h₁, hb, hbname⟩ := h.ensure (isCanonical_of_canonical hbench) hensure
  rw [h₁.fieldsOf_eq hb] at hfresh hf ht
  have hfname : f.name = name := by rw [hf]
  subst hfname
  have howner : f.benchmark = b.id := by rw [hf]
  have hown : (s₁.putNewField f).ownFields b = s₁.ownFields b ++ [f] := by
    simp [ownFields, Store.putNewField, howner]
  have hkey : s₁.experimentsOf b ≠ [] → f.key = false ∧ default.isNull = false := by
    intro hne
    rw [hf]
    exact hdata hne
  have hposition : ∀ g ∈ s₁.ownFields b, g.position < f.position := by
    rw [hf]
    exact fun g hg => position_lt _ hg
  obtain ⟨hsound, hfields, hexperiments⟩ := h₁.putNewField hb (by rw [hf]) howner
    (isCanonical_of_canonical hname) hfresh hposition (fun hne => (hkey hne).1) ht
  exact ⟨bench, default, b, s₁, t, hbench, hdefault, hensure, hbname, h₁, hb, howner, by rw [hf], hkey, hown,
    hown ▸ ht, hsound, hfields, hexperiments, rfl⟩

theorem Sound.addField (h : s.Sound) {written : String} {new : NewField} {f : Field}
    (hok : s.addField written new = .ok (f, s')) : s'.Sound := by
  obtain ⟨_, default, b, s₁, t, _, hdefault, _, _, _, hb, _, hnumeric, hkey, _, ht, hsound, hfields,
    hexperiments, rfl⟩ := h.addField_eq_ok hok
  split
  · exact hsound.touch
  · -- The default is the value of a text, so the new column keeps it as one that the field admits.
    rename_i hnull
    obtain ⟨text, htext⟩ := (defaultValue_eq_ok hdefault).resolve_left fun heq => hnull (by rw [heq]; rfl)
    have hbt : b ∈ t.benchmarks := by
      rw [(rebuild_changedOnly ht).benchmarks]
      exact hb
    rw [← hexperiments] at hkey
    refine (hsound.fill hbt (by rw [hfields]; simp) (fun hne => (hkey hne).1) fun c hc => ?_).touch
    exact typedValue?_admits (hnumeric.symm ▸ htext) hc

/-! ## §3 Fields that are put in place of others -/

theorem Numbered.putField (h : s.Numbered) (g : Field) : (s.putField g).Numbered := by
  refine { h with fields := h.fields.map fun f => ?_ }
  split
  · rename_i heq
    exact (eq_of_beq heq).symm
  · rfl

/-- What a field becomes when another one is put in place of the one with its number. -/
def replaced (f g : Field) : Field :=
  if g.id == f.id then f else g

/-- A field that replaces another one of the same benchmark, in its position. -/
structure Replaces (s : Store) (b : Benchmark) (f g : Field) : Prop where
  mem : f ∈ s.ownFields b
  id : g.id = f.id
  benchmark : g.benchmark = f.benchmark
  position : g.position = f.position

namespace Replaces

variable {f g : Field}

theorem replaced_cases (h : s.Replaces b f g) (hs : s.Sound) {f' : Field} (hf' : f' ∈ s.fields) :
    f' = f ∧ replaced g f' = g ∨ f' ≠ f ∧ replaced g f' = f' := by
  unfold replaced
  -- The field with the number of the new one is the one that it replaces.
  by_cases hid : f'.id = g.id
  · have heq : f' = f :=
      hs.numbers.fields.eq_of_number_eq hf' (List.mem_of_mem_filter h.mem) (hid.trans h.id)
    exact .inl ⟨heq, if_pos (by simpa using hid)⟩
  · refine .inr ⟨?_, if_neg (by simpa using hid)⟩
    rintro rfl
    exact hid h.id.symm

/-- What the field and the one that replaces it have in common, no field loses. -/
theorem replaced_eq (h : s.Replaces b f g) (hs : s.Sound) {α : Type} (part : Field → α)
    (hpart : part g = part f) {f' : Field} (hf' : f' ∈ s.fields) : part (replaced g f') = part f' := by
  rcases h.replaced_cases hs hf' with ⟨rfl, heq⟩ | ⟨_, heq⟩
  · rw [heq, hpart]
  · rw [heq]

theorem ownFields (h : s.Replaces b f g) (hs : s.Sound) :
    (s.putField g).ownFields b = (s.ownFields b).map (replaced g) := by
  show (s.fields.map (replaced g)).filter _ = (s.fields.filter _).map _
  rw [List.filter_map]
  congr 1
  exact List.filter_congr fun f' hf' => by simp [h.replaced_eq hs Field.benchmark h.benchmark hf']

theorem changedOnly (h : s.Replaces b f g) (hs : s.Sound) : ChangedOnly b s (s.putField g) := by
  have hf : f.benchmark = b.id := by simpa using (List.mem_filter.mp h.mem).2
  refine ⟨rfl, .map (fun f' hf' => h.replaced_eq hs Field.benchmark h.benchmark hf')
    (fun f' hf' hne => ?_), .refl, .refl, fun _ _ => rfl⟩
  rcases h.replaced_cases hs hf' with ⟨rfl, _⟩ | ⟨_, heq⟩
  · exact absurd hf hne
  · exact heq

theorem positions (h : s.Replaces b f g) (hs : s.Sound) (hb : b ∈ s.benchmarks) :
    ((s.putField g).ownFields b).Pairwise fun f f' => f.position < f'.position := by
  rw [h.ownFields hs, List.pairwise_map]
  refine (hs.holdings b hb).positions.imp_of_mem fun {f₁ f₂} h₁ h₂ hlt => ?_
  rwa [h.replaced_eq hs Field.position h.position (List.mem_of_mem_filter h₁),
    h.replaced_eq hs Field.position h.position (List.mem_of_mem_filter h₂)]

/-- What is kept of the benchmark fits together where the field keeps its name and the table fits. -/
theorem holding_sound (h : s.Replaces b f g) (hs : s.Sound) (hb : b ∈ s.benchmarks)
    (hname : g.name = f.name) {t : Option WideTable}
    (htable : TableFits b ((s.putField g).ownFields b) (s.experimentsOf b) t) :
    Holding.Sound b ⟨(s.putField g).ownFields b, s.ownIndices b, s.experimentsOf b, t⟩ := by
  have hheld := hs.holdings b hb
  have hnames : ((s.putField g).ownFields b).map (·.name) = (s.ownFields b).map (·.name) := by
    rw [h.ownFields hs, List.map_map]
    exact List.map_congr_left fun f' hf' =>
      h.replaced_eq hs Field.name hname (List.mem_of_mem_filter hf')
  refine { hheld with
    fieldCanonical := fun f' hf' => ?_
    fieldNames := hnames ▸ hheld.fieldNames
    positions := h.positions hs hb
    indices := fun i hi => (hheld.indices i hi).mono fun n hn => by rw [hnames]; exact hn
    table := htable }
  -- The list of names is the old one, so each name is that of an old field.
  have hmem : f'.name ∈ (s.ownFields b).map (·.name) := hnames ▸ List.mem_map_of_mem hf'
  obtain ⟨f₀, hf₀, hf₀name⟩ := List.mem_map.mp hmem
  exact hf₀name ▸ hheld.fieldCanonical f₀ hf₀

end Replaces

theorem Sound.setKey (h : s.Sound) {written writtenField : String} {flag : Bool}
    (hok : s.setKey written writtenField flag = .ok s') : s'.Sound := by
  obtain ⟨_, _, b, f, _, _, hfound, hf, _, ⟨_, rfl⟩ | ⟨hdata, rfl⟩⟩ := setKey_eq_ok hok
  · exact h
  obtain ⟨hb, _⟩ := of_benchmark?_eq_some hfound
  rw [h.fieldsOf_eq hb] at hf
  have hreplaces : s.Replaces b f { f with key := flag } := ⟨hf, rfl, rfl, rfl⟩
  have htable : TableFits b (s.ownFields b) (s.experimentsOf b) (s.table? b.table) := (h.holdings b hb).table
  refine (h.of_changedOnly hb (hreplaces.changedOnly h) (h.numbers.putField _) h.tableNames
    (hreplaces.holding_sound h hb rfl ?_)).touch
  -- Columns do not depend on which fields are keys.
  rw [hdata] at htable ⊢
  refine htable.of_noData ?_
  rw [hreplaces.ownFields h, List.map_map]
  exact List.map_congr_left fun f' hf' =>
    hreplaces.replaced_eq h Field.toColumn rfl (List.mem_of_mem_filter hf')

theorem Sound.setNumeric (h : s.Sound) {written writtenField : String} {flag : Bool}
    (hok : s.setNumeric written writtenField flag = .ok s') : s'.Sound := by
  obtain ⟨_, _, b, f, _, _, hfound, hf, _, ⟨_, rfl⟩ | ⟨hdata, t, ht, rfl⟩⟩ := setNumeric_eq_ok hok
  · exact h
  obtain ⟨hb, _⟩ := of_benchmark?_eq_some hfound
  rw [h.fieldsOf_eq hb] at hf ht
  have hreplaces : s.Replaces b f { f with numeric := flag } := ⟨hf, rfl, rfl, rfl⟩
  rw [fieldsOf_eq_ownFields (hreplaces.positions h hb)] at ht
  -- A field changes its kind without experiments only, so no row has to be carried over.
  have htable : TableFits b (s.ownFields b) (s.experimentsOf b) (s.table? b.table) := (h.holdings b hb).table
  refine (h.rebuild hb (hreplaces.changedOnly h) (h.numbers.putField _) rfl ht
    (hreplaces.holding_sound h hb rfl ?_)).touch
  exact tableFits_rebuiltTable htable (fun _ => hdata) fun hne => absurd hdata hne

/-! ## §4 Fields with new names -/

/-- What a name becomes when a field gets another one. -/
def renamed (old new name : String) : String :=
  if name == old then new else name

/-- Names stay apart when one becomes a name that was not among them. -/
theorem renamed_nodup {names : List String} (h : names.Nodup) {all : List String}
    (hall : ∀ n ∈ names, n ∈ all) {old new : String} (hfresh : new ∉ all) :
    (names.map (renamed old new)).Nodup := by
  refine List.Nodup.map_on (fun x hx y hy hxy => ?_) h
  have hxn : x ≠ new := fun heq => hfresh (heq ▸ hall x hx)
  have hyn : y ≠ new := fun heq => hfresh (heq ▸ hall y hy)
  simp only [renamed] at hxy
  grind

theorem renameInIndices_changedOnly (s : Store) (b : Benchmark) (old new : String) :
    ChangedOnly b s (s.renameInIndices b old new) := by
  refine ⟨rfl, .refl, .map (fun i _ => ?_) (fun i _ hne => ?_), .refl, fun _ _ => rfl⟩
  · split <;> rfl
  · rw [if_neg (by simpa using hne)]

theorem Numbered.renameInIndices (h : s.Numbered) (b : Benchmark) (old new : String) :
    (s.renameInIndices b old new).Numbered := by
  refine { h with indices := h.indices.map fun i => ?_ }
  split <;> rfl

theorem renameInIndices_ownIndices (s : Store) (b : Benchmark) (old new : String) :
    (s.renameInIndices b old new).ownIndices b
      = (s.ownIndices b).map fun i => { i with fields := i.fields.map (renamed old new) } := by
  simp only [Store.renameInIndices, ownIndices, List.filter_map]
  have hfilter : s.indices.filter ((·.benchmark == b.id) ∘ fun i => if i.benchmark == b.id then
      { i with fields := i.fields.map (renamed old new) } else i)
        = s.indices.filter (·.benchmark == b.id) := by
    refine List.filter_congr fun i _ => ?_
    simp only [Function.comp_apply]
    split <;> rfl
  refine (congrArg (List.map _) hfilter).trans (List.map_congr_left fun i hi => ?_)
  exact if_pos (List.mem_filter.mp hi).2

namespace Replaces

variable {f g : Field}

theorem renamed_names (h : s.Replaces b f g) (hs : s.Sound) (hb : b ∈ s.benchmarks) :
    ((s.putField g).ownFields b).map (·.name)
      = ((s.ownFields b).map (·.name)).map (renamed f.name g.name) := by
  rw [h.ownFields hs, List.map_map, List.map_map]
  refine List.map_congr_left fun f' hf' => ?_
  rcases h.replaced_cases hs (List.mem_of_mem_filter hf') with ⟨rfl, heq⟩ | ⟨hne, heq⟩
  · simp [heq, renamed]
  · have hother : f'.name ≠ f.name := fun hsame =>
      hne (List.inj_on_of_nodup_map (hs.holdings b hb).fieldNames hf' h.mem hsame)
    simp [heq, renamed, hother]

/-- Rows stay with their experiments when a field gets another name only. -/
theorem renamed_table (h : s.Replaces b f g) (hs : s.Sound) (hb : b ∈ s.benchmarks)
    (hnumeric : g.numeric = f.numeric) (hkey : g.key = f.key) (htables : t.tables = s.tables) :
    TableFits b ((s.putField g).ownFields b) (s.experimentsOf b)
      (t.rebuiltTable b (s.ownFields b) ((s.putField g).ownFields b)) := by
  have hheld := hs.holdings b hb
  have hfits : TableFits b (s.ownFields b) (s.experimentsOf b) (t.table? b.table) := by
    rw [table?, htables]
    exact hheld.table
  rw [h.ownFields hs]
  refine tableFits_rebuiltTable hfits (fun hnil => ?_) fun _ t hcolumns r e hre => ?_
  · have hmem := h.mem
    rw [List.map_eq_nil_iff.mp hnil] at hmem
    cases hmem
  · have hpart : ∀ {α : Type} (part : Field → α), part g = part f →
        ∀ f' ∈ s.ownFields b, part (replaced g f') = part f' :=
      fun part hsame f' hf' => h.replaced_eq hs part hsame (List.mem_of_mem_filter hf')
    exact hre.carry_map hcolumns hheld.fieldNames (hs.ownFields_nodup b) (hpart Field.id h.id)
      (hpart Field.numeric hnumeric) (hpart Field.key hkey)

/-- The indices follow the field to its new name. -/
theorem renamed_indices (h : s.Replaces b f g) (hs : s.Sound) (hb : b ∈ s.benchmarks)
    (hfresh : g.name ∉ (s.ownFields b).map (·.name)) {i : FieldIndex}
    (hi : i ∈ (s.renameInIndices b f.name g.name).ownIndices b) :
    IndexFits ((s.putField g).ownFields b) i := by
  rw [renameInIndices_ownIndices] at hi
  obtain ⟨j, hj, rfl⟩ := List.mem_map.mp hi
  have hfits := (hs.holdings b hb).indices j hj
  refine ⟨hfits.canonical, fun hnil => hfits.nonempty (List.map_eq_nil_iff.mp hnil),
    renamed_nodup hfits.nodup hfits.known hfresh, fun n hn => ?_⟩
  -- A field that the index names is there under its new name, or under its old one if it is another.
  obtain ⟨m, hm, rfl⟩ := List.mem_map.mp hn
  rw [h.renamed_names hs hb]
  exact List.mem_map_of_mem (hfits.known m hm)

end Replaces

theorem Sound.renameField (h : s.Sound) {written writtenField writtenNew : String} {g : Field}
    (hok : s.renameField written writtenField writtenNew = .ok (g, s')) : s'.Sound := by
  obtain ⟨_, _, new, b, f, _, _, hnew, hfound, hf, _, ⟨_, _, rfl⟩ | ⟨hfresh, hg, t, ht, rfl⟩⟩ :=
    renameField_eq_ok hok
  · exact h
  obtain ⟨hb, _⟩ := of_benchmark?_eq_some hfound
  rw [h.fieldsOf_eq hb] at hf hfresh ht
  have hheld := h.holdings b hb
  have hreplaces : s.Replaces b f g := ⟨hf, by rw [hg], by rw [hg], by rw [hg]⟩
  have hgname : g.name = new := by rw [hg]
  subst hgname
  have hunused : g.name ∉ (s.ownFields b).map (·.name) := by simpa using hfresh
  have hcurrent : ((s.putField g).renameInIndices b f.name g.name).fieldsOf b
      = (s.putField g).ownFields b :=
    fieldsOf_eq_ownFields (s := (s.putField g).renameInIndices b f.name g.name) (hreplaces.positions h hb)
  rw [hcurrent] at ht
  refine (h.rebuild hb ((hreplaces.changedOnly h).trans (renameInIndices_changedOnly _ b _ _))
    ((h.numbers.putField _).renameInIndices b _ _) rfl ht ?_).touch
  refine { hheld with
    fieldCanonical := fun f' hf' => ?_
    fieldNames := ?_
    positions := hreplaces.positions h hb
    indexNames := ?_
    indices := fun i hi => hreplaces.renamed_indices h hb hunused hi
    table := hreplaces.renamed_table h hb (by rw [hg]) (by rw [hg]) rfl }
  · have hown : f' ∈ (s.ownFields b).map (replaced g) := hreplaces.ownFields h ▸ hf'
    obtain ⟨f₀, hf₀, rfl⟩ := List.mem_map.mp hown
    rcases hreplaces.replaced_cases h (List.mem_of_mem_filter hf₀) with ⟨_, heq⟩ | ⟨_, heq⟩
    · rw [heq]
      exact isCanonical_of_canonical hnew
    · rw [heq]
      exact hheld.fieldCanonical f₀ hf₀
  · show (((s.putField g).ownFields b).map (·.name)).Nodup
    rw [hreplaces.renamed_names h hb]
    exact renamed_nodup hheld.fieldNames (fun n hn => hn) hunused
  · show ((Store.ownIndices _ b).map (·.name)).Nodup
    rw [renameInIndices_ownIndices, List.map_map]
    exact hheld.indexNames

/-! ## §5 Fields that go -/

theorem withoutField_ownFields (s : Store) (b : Benchmark) (f : Field) :
    (s.withoutField b f).ownFields b = (s.ownFields b).filter (·.id != f.id) := by
  simp only [withoutField, ownFields, List.filter_filter, Bool.and_comm]

theorem withoutField_ownIndices (s : Store) (b : Benchmark) (f : Field) :
    (s.withoutField b f).ownIndices b = (s.ownIndices b).filter fun i => !i.fields.contains f.name := by
  simp only [withoutField, ownIndices, List.filter_filter]
  refine List.filter_congr fun i _ => ?_
  cases i.benchmark == b.id <;> simp

theorem Sound.withoutField_changedOnly (h : s.Sound) {f : Field} (hf : f ∈ s.ownFields b) :
    ChangedOnly b s (s.withoutField b f) := by
  obtain ⟨hmem, hfb⟩ := List.mem_filter.mp hf
  refine ⟨rfl, .filter fun f' hf' hne => ?_, .filter fun i _ hne => ?_, .refl, fun _ _ => rfl⟩
  · -- The number of the field is its own, so no field of another benchmark goes with it.
    rw [bne_iff_ne]
    intro hid
    rw [h.numbers.fields.eq_of_number_eq hf' hmem hid] at hne
    exact hne (eq_of_beq hfb)
  · simp [hne]

theorem Sound.removeField (h : s.Sound) {written writtenField : String}
    (hok : s.removeField written writtenField = .ok s') : s'.Sound := by
  obtain ⟨_, _, b, f, t, _, _, hfound, hdata, hf, _, ht, rfl⟩ := removeField_eq_ok hok
  obtain ⟨hb, _⟩ := of_benchmark?_eq_some hfound
  rw [h.fieldsOf_eq hb] at hf ht
  have hheld := h.holdings b hb
  have honly : ∀ f' ∈ s.ownFields b, f'.id = f.id → f' = f := fun f' hf' hid =>
    h.numbers.fields.eq_of_number_eq (List.mem_of_mem_filter hf') (List.mem_of_mem_filter hf) hid
  have hnumbers : (s.withoutField b f).Numbered :=
    { h.numbers with
      fields := h.numbers.fields.filter _
      indices := h.numbers.indices.filter _ }
  refine (h.rebuild hb (h.withoutField_changedOnly hf) hnumbers rfl ht ?_).touch
  rw [withoutField_ownFields, withoutField_ownIndices]
  refine hheld.withoutField honly ?_
  exact tableFits_rebuiltTable hheld.table (fun _ => hdata) fun hne => absurd hdata hne

/-! ## §6 Indices -/

theorem putNewIndex_changedOnly {i : FieldIndex} (howner : i.benchmark = b.id) :
    ChangedOnly b s (s.putNewIndex i) :=
  ⟨rfl, .refl, .append howner, .refl, fun _ _ => rfl⟩

theorem withoutIndex_changedOnly (s : Store) (b : Benchmark) (name : String) :
    ChangedOnly b s (s.withoutIndex b name) :=
  ⟨rfl, .refl, .filter fun i _ hne => by simp [hne], .refl, fun _ _ => rfl⟩

theorem Sound.createIndex (h : s.Sound) {written writtenIndex : String} {fields : List String}
    {i : FieldIndex} (hok : s.createIndex written writtenIndex fields = .ok (i, s')) : s'.Sound := by
  obtain ⟨_, name, b, _, hname, hfound, hfresh, hid, hib, hiname, hfull, hnodup, hknown, rfl⟩ :=
    createIndex_eq_ok hok
  obtain ⟨hb, _⟩ := of_benchmark?_eq_some hfound
  rw [h.fieldsOf_eq hb] at hknown
  have hheld := h.holdings b hb
  obtain ⟨l, hl⟩ := makePhysicalIndex_eq (s.putNewIndex i) b i
  rw [hl]
  have hchanged : ChangedOnly b s { s.putNewIndex i with physicalIndices := l } :=
    (putNewIndex_changedOnly hib).trans ⟨rfl, .refl, .refl, .refl, fun _ _ => rfl⟩
  have hindices : Ascending FieldIndex.id i.id (s.indices ++ [i]) := by
    rw [hid]
    exact h.numbers.indices.append hid
  have hown : (s.indices ++ [i]).filter (·.benchmark == b.id) = s.ownIndices b ++ [i] := by
    simp [ownIndices, hib]
  refine (h.of_changedOnly hb hchanged { h.numbers with indices := hindices } h.tableNames { hheld with
    indexNames := ?_
    indices := fun j hj => ?_ }).touch
  · show (((s.indices ++ [i]).filter (·.benchmark == b.id)).map (·.name)).Nodup
    rw [hown]
    refine nodup_map_append hheld.indexNames fun j hj hname => ?_
    exact hfresh j ((s.indicesOf_perm b).mem_iff.mpr hj) (hname.trans hiname)
  · replace hj : j ∈ (s.indices ++ [i]).filter (·.benchmark == b.id) := hj
    rw [hown] at hj
    rcases List.mem_append.mp hj with hold | hnew
    · exact hheld.indices j hold
    · rw [List.mem_singleton.mp hnew]
      exact ⟨hiname ▸ isCanonical_of_canonical hname, hfull, hnodup, hknown⟩

theorem Sound.dropIndex (h : s.Sound) {written writtenIndex : String}
    (hok : s.dropIndex written writtenIndex = .ok s') : s'.Sound := by
  obtain ⟨_, name, b, _, _, hfound, _, rfl⟩ := dropIndex_eq_ok hok
  obtain ⟨hb, _⟩ := of_benchmark?_eq_some hfound
  have hheld := h.holdings b hb
  have hsub : List.Sublist ((s.withoutIndex b name).ownIndices b) (s.ownIndices b) :=
    List.filter_sublist.filter _
  have hchanged : ChangedOnly b s
      ((s.withoutIndex b name).dropPhysicalIndex (physicalIndexName b.name name)) :=
    (withoutIndex_changedOnly s b name).trans ⟨rfl, .refl, .refl, .refl, fun _ _ => rfl⟩
  exact (h.of_changedOnly hb hchanged { h.numbers with indices := h.numbers.indices.filter _ } h.tableNames
    { hheld with
      indexNames := hheld.indexNames.sublist (hsub.map _)
      indices := fun i hi => hheld.indices i (hsub.subset hi) }).touch

end Store

end BenchPlot
