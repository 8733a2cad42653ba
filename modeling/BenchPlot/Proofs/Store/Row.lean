import BenchPlot.Proofs.Name.Canonical
import BenchPlot.Proofs.Store.Kept
import Mathlib.Data.List.Forall2
import Mathlib.Data.List.Nodup

/-!
# Rows and their experiments

A row of a wide table mirrors an experiment: it bears the experiment's number and flag, each of its cells
is one that the field over it may hold, no key cell is empty, and the texts of the key cells are what
identifies the experiment. A change of the fields carries such rows over into such rows, and so does
filling in a value under a field that is no key.

Main statements: `Mirrors.carry_map`, `Mirrors.carry_append` and `Mirrors.fill`.
-/

namespace BenchPlot

/-! ## §1 Lists of records -/

/-- Among records with distinct keys, the one with the key of a given one is that one. -/
theorem find?_eq_some_of_mem {α β : Type} [BEq β] [LawfulBEq β] {key : α → β} {l : List α}
    (h : (l.map key).Nodup) {a : α} (ha : a ∈ l) : l.find? (key · == key a) = some a := by
  induction l with
  | nil => cases ha
  | cons b rest ih =>
    rw [List.map_cons, List.nodup_cons] at h
    rcases List.mem_cons.mp ha with rfl | hrest
    · simp
    · have hne : key b ≠ key a := fun heq =>
        h.1 (heq ▸ List.mem_map_of_mem hrest)
      rw [List.find?_cons_of_neg (by simpa using hne)]
      exact ih h.2 hrest

/-- A further record leaves the keys distinct if none of the records has its key. -/
theorem nodup_map_append {α β : Type} {key : α → β} {l : List α} {a : α} (h : (l.map key).Nodup)
    (hfresh : ∀ b ∈ l, key b ≠ key a) : ((l ++ [a]).map key).Nodup := by
  rw [List.map_append, List.map_singleton, ← List.concat_eq_append]
  refine h.concat fun hmem => ?_
  obtain ⟨b, hb, hkey⟩ := List.mem_map.mp hmem
  exact hfresh b hb hkey

theorem map_eq_map_of_forall₂ {α β γ : Type} {R : α → β → Prop} {l : List α} {l' : List β}
    {g : α → γ} {g' : β → γ} (h : List.Forall₂ R l l') (hR : ∀ a b, R a b → g a = g' b) :
    l.map g = l'.map g' := by
  have hmap : List.Forall₂ Eq (l.map g) (l'.map g') := List.rel_map (fun a b hab => hR a b hab) h
  rwa [List.forall₂_eq_eq_eq] at hmap

theorem exists_mem_of_forall₂ {α β : Type} {R : α → β → Prop} {l : List α} {l' : List β}
    (h : List.Forall₂ R l l') {a : α} (ha : a ∈ l) : ∃ b ∈ l', R a b := by
  induction h with
  | nil => cases ha
  | cons hab _ ih =>
    rcases List.mem_cons.mp ha with rfl | hrest
    · exact ⟨_, List.mem_cons_self .., hab⟩
    · obtain ⟨b, hb, hR⟩ := ih hrest
      exact ⟨b, List.mem_cons_of_mem _ hb, hR⟩

/-! ## §2 Cells -/

/-- A field may have a value in a row iff it admits the value, and a key field has one. -/
structure Field.Holds (f : Field) (v : Value) : Prop where
  admits : f.Admits v
  key : f.key = true → v.isNull = false

theorem Field.Admits.congr {f g : Field} {v : Value} (h : f.Admits v)
    (hnumeric : g.numeric = f.numeric) : g.Admits v := by
  unfold Field.Admits at h ⊢
  rw [hnumeric]
  exact h

theorem Field.Holds.congr {f g : Field} {v : Value} (h : f.Holds v) (hnumeric : g.numeric = f.numeric)
    (hkey : g.key = f.key) : g.Holds v :=
  ⟨h.admits.congr hnumeric, fun hg => h.key (hkey.symm.trans hg)⟩

/-- The cells of a row are the values in the columns of its fields. -/
theorem map_cell {t : WideTable} {fields : List Field} {r : WideRow}
    (hcolumns : t.columns = fields.map Field.toColumn) (hnames : (fields.map (·.name)).Nodup)
    (hwidth : r.cells.length = fields.length) :
    fields.map (fun f => t.cell r f.column) = r.cells := by
  unfold WideTable.cell
  rw [hcolumns]
  -- Along the fields, for any cells.
  generalize r.cells = cells at hwidth
  clear hcolumns
  induction fields generalizing cells with
  | nil => exact (List.length_eq_zero_iff.mp hwidth).symm
  | cons f rest ih =>
    cases cells with
    | nil => simp at hwidth
    | cons c cells =>
      rw [List.map_cons, List.nodup_cons] at hnames
      have hlater : ∀ g ∈ rest, (f.toColumn.name == g.column) = false := by
        intro g hg
        have hne : f.name ≠ g.name := fun heq => hnames.1 (heq ▸ List.mem_map_of_mem hg)
        simpa [Field.toColumn, Field.column, columnName_inj] using hne
      simp only [List.map_cons, List.zip_cons_cons, List.cons.injEq]
      refine ⟨by simp [Field.toColumn], ?_⟩
      -- The first column has another name than the later ones, so their look-ups pass it over.
      refine Eq.trans ?_ (ih hnames.2 cells (by simpa using hwidth))
      exact List.map_congr_left fun g hg => by simp [hlater g hg]

/-! ## §3 Key texts -/

/-- The texts of the values of the key fields, in the order of the fields. -/
def keyTexts (fields : List Field) (values : List Value) : List String :=
  ((fields.zip values).filter (·.1.key)).map fun p => p.2.display

theorem identityOf_eq (fields : List Field) (values : List Value) :
    identityOf fields values = identity (keyTexts fields values) := rfl

theorem keyTexts_cons (f : Field) (fields : List Field) (v : Value) (values : List Value) :
    keyTexts (f :: fields) (v :: values)
      = if f.key then v.display :: keyTexts fields values else keyTexts fields values := by
  unfold keyTexts
  cases hf : f.key <;> simp [hf]

theorem keyTexts_map_value (fields : List Field) (value : Field → Value) :
    keyTexts fields (fields.map value) = (fields.filter (·.key)).map fun f => (value f).display := by
  unfold keyTexts
  induction fields with
  | nil => rfl
  | cons f rest ih => cases hf : f.key <;> simp [hf, ih]

/-- Key texts depend on which fields are keys only. -/
theorem keyTexts_map {fields : List Field} {ρ : Field → Field} (hkey : ∀ f ∈ fields, (ρ f).key = f.key)
    (values : List Value) : keyTexts (fields.map ρ) values = keyTexts fields values := by
  unfold keyTexts
  rw [List.zip_map_left, List.filter_map, List.map_map]
  have hfilter : (fields.zip values).filter ((fun p => p.1.key) ∘ Prod.map ρ id)
      = (fields.zip values).filter (fun p => p.1.key) :=
    List.filter_congr fun p hp => hkey p.1 (List.of_mem_zip hp).1
  rw [hfilter]
  rfl

theorem keyTexts_append {fields : List Field} {g : Field} (hkey : g.key = false) {values : List Value}
    (hwidth : values.length = fields.length) (v : Value) :
    keyTexts (fields ++ [g]) (values ++ [v]) = keyTexts fields values := by
  unfold keyTexts
  rw [List.zip_append hwidth.symm, List.filter_append]
  simp [hkey]

/-! ## §4 The relation -/

/-- A row mirrors an experiment of a benchmark with the given fields. -/
structure Mirrors (b : Benchmark) (fields : List Field) (r : WideRow) (e : Experiment) : Prop where
  benchmark : r.benchmark = b.id
  experiment : r.experiment = e.id
  outlier : r.outlier = e.outlier
  cells : List.Forall₂ Field.Holds fields r.cells
  identity : e.identity = identityOf fields r.cells

variable {b : Benchmark} {fields : List Field} {t : WideTable} {r : WideRow} {e : Experiment}

theorem Mirrors.map_cell (h : Mirrors b fields r e) (hcolumns : t.columns = fields.map Field.toColumn)
    (hnames : (fields.map (·.name)).Nodup) : fields.map (fun f => t.cell r f.column) = r.cells :=
  BenchPlot.map_cell hcolumns hnames h.cells.length_eq.symm

theorem Mirrors.holds (h : Mirrors b fields r e) (hcolumns : t.columns = fields.map Field.toColumn)
    (hnames : (fields.map (·.name)).Nodup) {f : Field} (hf : f ∈ fields) :
    f.Holds (t.cell r f.column) := by
  have hcells := h.cells
  rw [← h.map_cell hcolumns hnames, List.forall₂_map_right_iff, List.forall₂_same] at hcells
  exact hcells f hf

/-! ## §5 Rows that are carried over -/

/-- A row stays with its experiment where each field keeps its number, its kind and whether it is a
    key. -/
theorem Mirrors.carry_map (h : Mirrors b fields r e) (hcolumns : t.columns = fields.map Field.toColumn)
    (hnames : (fields.map (·.name)).Nodup) (hnumbers : (fields.map (·.id)).Nodup) {ρ : Field → Field}
    (hid : ∀ f ∈ fields, (ρ f).id = f.id) (hnumeric : ∀ f ∈ fields, (ρ f).numeric = f.numeric)
    (hkey : ∀ f ∈ fields, (ρ f).key = f.key) :
    Mirrors b (fields.map ρ) (t.carry fields (fields.map ρ) r) e := by
  have hcells : (t.carry fields (fields.map ρ) r).cells = r.cells := by
    rw [← h.map_cell hcolumns hnames]
    simp only [WideTable.carry, List.map_map]
    refine List.map_congr_left fun f hf => ?_
    -- The field that the value comes from is the one with the same number.
    have hfind : fields.find? (·.id == (ρ f).id) = some f := by
      rw [hid f hf]
      exact find?_eq_some_of_mem hnumbers hf
    simp only [Function.comp_apply, hfind]
    exact keep_of_admits (h.holds hcolumns hnames hf).admits (hnumeric f hf)
  refine ⟨h.benchmark, h.experiment, h.outlier, ?_, ?_⟩
  · rw [hcells, List.forall₂_map_left_iff]
    have hheld := h.cells
    rw [← h.map_cell hcolumns hnames, List.forall₂_map_right_iff, List.forall₂_same] at hheld ⊢
    exact fun f hf => (hheld f hf).congr (hnumeric f hf) (hkey f hf)
  · rw [hcells, identityOf_eq, keyTexts_map hkey]
    exact h.identity

/-- A row stays with its experiment where a field comes in that is no key. -/
theorem Mirrors.carry_append (h : Mirrors b fields r e)
    (hcolumns : t.columns = fields.map Field.toColumn) (hnames : (fields.map (·.name)).Nodup)
    (hnumbers : (fields.map (·.id)).Nodup) {g : Field} (hnew : ∀ f ∈ fields, f.id ≠ g.id)
    (hkey : g.key = false) : Mirrors b (fields ++ [g]) (t.carry fields (fields ++ [g]) r) e := by
  have hcells : (t.carry fields (fields ++ [g]) r).cells = r.cells ++ [.null] := by
    -- The old fields find their values, the new one finds none.
    have hold : (t.carry fields (fields.map id) r).cells = r.cells := by
      simp only [WideTable.carry]
      rw [List.map_id, ← h.map_cell hcolumns hnames]
      refine List.map_congr_left fun f hf => ?_
      rw [find?_eq_some_of_mem hnumbers hf]
      exact keep_of_admits (h.holds hcolumns hnames hf).admits rfl
    have hnone : fields.find? (·.id == g.id) = none := by simpa using hnew
    rw [List.map_id] at hold
    simp only [WideTable.carry, List.map_append, List.map_cons, List.map_nil, hnone] at hold ⊢
    rw [hold]
  refine ⟨h.benchmark, h.experiment, h.outlier, ?_, ?_⟩
  · rw [hcells]
    exact List.rel_append h.cells (.cons ⟨trivial, by simp [hkey]⟩ .nil)
  · rw [hcells, identityOf_eq, keyTexts_append hkey h.cells.length_eq.symm]
    exact h.identity

/-! ## §6 Rows that are filled -/

/-- The cells of a row with a value under a column. -/
def filledCells (fields : List Field) (column : String) (v : Value) (cells : List Value) : List Value :=
  ((fields.map Field.toColumn).zip cells).map fun (c, old) => if c.name == column then c.keep v else old

/-- A value that a field admits, filled in under its column, leaves cells that the fields may have, and
    the key texts as they are. -/
private theorem filledCells_holds {g : Field} {v : Value} {cells : List Value}
    (hv : ∀ c : WideColumn, c.numeric = g.numeric → g.Admits (c.keep v))
    (hcells : List.Forall₂ Field.Holds fields cells)
    (hg : ∀ f ∈ fields, f.column = g.column → f.key = false ∧ f.numeric = g.numeric) :
    List.Forall₂ Field.Holds fields (filledCells fields g.column v cells)
      ∧ keyTexts fields (filledCells fields g.column v cells) = keyTexts fields cells := by
  induction hcells with
  | nil => exact ⟨.nil, rfl⟩
  | @cons f c fs cs hfc _ ih =>
    obtain ⟨ihcells, ihtexts⟩ := ih fun f' hf' => hg f' (List.mem_cons_of_mem _ hf')
    have hcons : filledCells (f :: fs) g.column v (c :: cs)
        = (if f.column == g.column then f.toColumn.keep v else c) :: filledCells fs g.column v cs := rfl
    rw [hcons, keyTexts_cons, keyTexts_cons, ihtexts]
    by_cases hf : f.column = g.column
    · obtain ⟨hkey, hnumeric⟩ := hg f (List.mem_cons_self ..) hf
      have hadmits : f.Admits (f.toColumn.keep v) := (hv f.toColumn hnumeric).congr hnumeric
      rw [if_pos (by simpa using hf)]
      -- The filled cell is no key and stays out of the key texts.
      exact ⟨.cons ⟨hadmits, by simp [hkey]⟩ ihcells, by simp [hkey]⟩
    · rw [if_neg (by simpa using hf)]
      exact ⟨.cons hfc ihcells, rfl⟩

/-- A row stays with its experiment where a value is filled in under a field that is no key. -/
theorem Mirrors.fill (h : Mirrors b fields r e) (hnames : (fields.map (·.name)).Nodup) {g : Field}
    (hg : g ∈ fields) (hkey : g.key = false) {v : Value}
    (hv : ∀ c : WideColumn, c.numeric = g.numeric → g.Admits (c.keep v)) :
    Mirrors b fields { r with cells := filledCells fields g.column v r.cells } e := by
  -- No other field has the column, since the names are distinct.
  have honly : ∀ f ∈ fields, f.column = g.column → f.key = false ∧ f.numeric = g.numeric := by
    intro f hf heq
    have hfg : f = g := List.inj_on_of_nodup_map hnames hf hg (columnName_inj.1 heq)
    rw [hfg]
    exact ⟨hkey, rfl⟩
  obtain ⟨hcells, htexts⟩ := filledCells_holds hv h.cells honly
  exact ⟨h.benchmark, h.experiment, h.outlier, hcells, by rw [identityOf_eq, htexts]; exact h.identity⟩

end BenchPlot
