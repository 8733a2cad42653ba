import BenchPlot.Proofs.Store.Lookup
import BenchPlot.Proofs.Store.Row

/-!
# Sound stores

The invariant of the store. Records of each kind stand in the order of their numbers, below the last
number that was given away, and belong to benchmarks that are there. What is kept of one benchmark fits
together: its fields, its indices, its experiments and its wide table.

The invariant is a global part (numbers, owners, names of benchmarks and tables) and one part for each
benchmark, `Holding.Sound`. An operation on one benchmark changes the holding of this one only; so for all
others the second part is carried over.

Main definitions: `Holding`, `Holding.Sound` and `Store.Sound`.
-/

namespace BenchPlot

/-! ## §1 Numbered records -/

/-- Records stand in the order of their numbers, and none has a number above the last one. -/
structure Ascending {α : Type} (number : α → Nat) (last : Nat) (l : List α) : Prop where
  pairwise : l.Pairwise fun a b => number a < number b
  le_last : ∀ a ∈ l, number a ≤ last

namespace Ascending

variable {α : Type} {number : α → Nat} {last : Nat} {l : List α}

theorem nil : Ascending number last [] :=
  ⟨List.Pairwise.nil, by simp⟩

theorem nodup (h : Ascending number last l) : (l.map number).Nodup :=
  List.pairwise_map.mpr (h.pairwise.imp Nat.ne_of_lt)

theorem eq_of_number_eq (h : Ascending number last l) {a b : α} (ha : a ∈ l) (hb : b ∈ l)
    (hab : number a = number b) : a = b :=
  List.inj_on_of_nodup_map h.nodup ha hb hab

theorem filter (h : Ascending number last l) (p : α → Bool) : Ascending number last (l.filter p) :=
  ⟨h.pairwise.filter p, fun a ha => h.le_last a (List.mem_of_mem_filter ha)⟩

theorem mono (h : Ascending number last l) {last' : Nat} (hle : last ≤ last') :
    Ascending number last' l :=
  ⟨h.pairwise, fun a ha => Nat.le_trans (h.le_last a ha) hle⟩

theorem append (h : Ascending number last l) {a : α} (ha : number a = last + 1) :
    Ascending number (last + 1) (l ++ [a]) := by
  refine ⟨List.pairwise_append.mpr ⟨h.pairwise, List.pairwise_singleton _ _, ?_⟩, ?_⟩
  · intro b hb c hc
    rw [List.mem_singleton.mp hc, ha]
    exact Nat.lt_succ_of_le (h.le_last b hb)
  · intro b hb
    rcases List.mem_append.mp hb with hold | hnew
    · exact Nat.le_succ_of_le (h.le_last b hold)
    · rw [List.mem_singleton.mp hnew]
      exact Nat.le_of_eq ha

theorem map (h : Ascending number last l) {f : α → α} (hf : ∀ a, number (f a) = number a) :
    Ascending number last (l.map f) := by
  refine ⟨List.pairwise_map.mpr (h.pairwise.imp fun hlt => ?_), fun b hb => ?_⟩
  · rwa [hf, hf]
  · obtain ⟨a, ha, rfl⟩ := List.mem_map.mp hb
    rw [hf]
    exact h.le_last a ha

end Ascending

/-! ## §2 Holdings -/

/-- What a store keeps of one benchmark. -/
structure Holding where
  fields : List Field
  indices : List FieldIndex
  experiments : List Experiment
  table : Option WideTable

/-- A wide table fits fields and experiments iff it has a column for each field and a row for each
    experiment. Without fields there is neither a table nor an experiment. -/
def TableFits (b : Benchmark) (fields : List Field) (experiments : List Experiment) :
    Option WideTable → Prop
  | none => fields = [] ∧ experiments = []
  | some t => fields ≠ [] ∧ t.columns = fields.map Field.toColumn
      ∧ List.Forall₂ (Mirrors b fields) t.rows experiments

/-- An index fits fields iff it is over some of them, each once. -/
structure IndexFits (fields : List Field) (i : FieldIndex) : Prop where
  canonical : IsCanonical i.name
  nonempty : i.fields ≠ []
  nodup : i.fields.Nodup
  known : ∀ name ∈ i.fields, name ∈ fields.map (·.name)

/-- A table with other rows. -/
def WideTable.onRows (g : List WideRow → List WideRow) (t : WideTable) : WideTable :=
  { t with rows := g t.rows }

/-- What is kept of a benchmark fits together. -/
structure Holding.Sound (b : Benchmark) (k : Holding) : Prop where
  canonical : IsCanonical b.name
  fieldCanonical : ∀ f ∈ k.fields, IsCanonical f.name
  fieldNames : (k.fields.map (·.name)).Nodup
  positions : k.fields.Pairwise fun f g => f.position < g.position
  indexNames : (k.indices.map (·.name)).Nodup
  indices : ∀ i ∈ k.indices, IndexFits k.fields i
  identities : (k.experiments.map (·.identity)).Nodup
  table : TableFits b k.fields k.experiments k.table

theorem Holding.Sound.empty {b : Benchmark} (h : IsCanonical b.name) :
    Holding.Sound b ⟨[], [], [], none⟩ :=
  ⟨h, by simp, by simp, .nil, by simp, by simp, by simp, rfl, rfl⟩

/-- Where rows and experiments change together, the table fits again. -/
theorem TableFits.onRows {b : Benchmark} {fields : List Field} {experiments experiments' : List Experiment}
    {t : Option WideTable} (h : TableFits b fields experiments t) {g : List WideRow → List WideRow}
    (hempty : fields = [] → experiments = [] → experiments' = [])
    (hrows : ∀ rows, List.Forall₂ (Mirrors b fields) rows experiments →
      List.Forall₂ (Mirrors b fields) (g rows) experiments') :
    TableFits b fields experiments' (t.map (·.onRows g)) := by
  cases t with
  | none => exact ⟨h.1, hempty h.1 h.2⟩
  | some t => exact ⟨h.1, h.2.1, hrows t.rows h.2.2⟩

/-- A holding does not depend on the description of its benchmark. -/
theorem TableFits.congr {b c : Benchmark} {fields : List Field} {experiments : List Experiment}
    {t : Option WideTable} (h : TableFits b fields experiments t) (hid : c.id = b.id) :
    TableFits c fields experiments t := by
  cases t with
  | none => exact h
  | some t =>
    obtain ⟨hfields, hcolumns, hrows⟩ := h
    refine ⟨hfields, hcolumns, hrows.imp fun r e hre => ?_⟩
    exact ⟨hre.benchmark.trans hid.symm, hre.experiment, hre.outlier, hre.cells, hre.identity⟩

theorem TableFits.rename {b : Benchmark} {fields : List Field} {experiments : List Experiment}
    {t : Option WideTable} (h : TableFits b fields experiments t) (name : String) :
    TableFits b fields experiments (t.map fun t => { t with name := name }) := by
  cases t with
  | none => exact h
  | some t => exact h

theorem isSome_of_fits {b : Benchmark} {fields : List Field} {experiments : List Experiment}
    {t : Option WideTable} (h : TableFits b fields experiments t) : t.isSome ↔ fields ≠ [] := by
  cases t with
  | none => simp [h.1]
  | some t => simp [h.1]

/-! ## §3 Stores -/

namespace Store

/-- What a store keeps of a benchmark. -/
def holding (s : Store) (b : Benchmark) : Holding :=
  ⟨s.ownFields b, s.ownIndices b, s.experimentsOf b, s.table? b.table⟩

/-- A benchmark with the number is there. -/
def Knows (s : Store) (number : Nat) : Prop :=
  ∃ b ∈ s.benchmarks, b.id = number

/-- Records of each kind stand in the order of their numbers. -/
structure Numbered (s : Store) : Prop where
  benchmarks : Ascending Benchmark.id s.last.benchmark s.benchmarks
  fields : Ascending Field.id s.last.field s.fields
  indices : Ascending FieldIndex.id s.last.index s.indices
  experiments : Ascending Experiment.id s.last.experiment s.experiments

/-- What a store keeps fits together. -/
structure Sound (s : Store) : Prop where
  numbers : s.Numbered
  fieldOwners : ∀ f ∈ s.fields, s.Knows f.benchmark
  indexOwners : ∀ i ∈ s.indices, s.Knows i.benchmark
  experimentOwners : ∀ e ∈ s.experiments, s.Knows e.benchmark
  benchmarkNames : (s.benchmarks.map (·.name)).Nodup
  tableNames : (s.tables.map (·.name)).Nodup
  tableOwners : ∀ t ∈ s.tables, ∃ b ∈ s.benchmarks, b.table = t.name
  holdings : ∀ b ∈ s.benchmarks, (s.holding b).Sound b

variable {s s' : Store} {b c : Benchmark}

/-- Two stores have one content iff they differ in their metadata, physical indices and times only. -/
structure SameContent (s s' : Store) : Prop where
  benchmarks : s'.benchmarks = s.benchmarks
  fields : s'.fields = s.fields
  indices : s'.indices = s.indices
  experiments : s'.experiments = s.experiments
  tables : s'.tables = s.tables
  last : s'.last = s.last

/-- The content of a store is what is sound or not. -/
theorem Sound.of_sameContent (h : s.Sound) (hsame : SameContent s s') : s'.Sound := by
  obtain ⟨clock, metadata, benchmarks, fields, indices, experiments, tables, physical, last⟩ := s
  obtain ⟨clock', metadata', benchmarks', fields', indices', experiments', tables', physical', last'⟩ := s'
  obtain ⟨rfl, rfl, rfl, rfl, rfl, rfl⟩ := hsame
  exact { h with numbers := { h.numbers with } }

theorem Sound.touch (h : s.Sound) : s.touch.Sound :=
  h.of_sameContent ⟨rfl, rfl, rfl, rfl, rfl, rfl⟩

theorem Sound.of_touch (h : s.touch.Sound) : s.Sound :=
  h.of_sameContent ⟨rfl, rfl, rfl, rfl, rfl, rfl⟩

theorem sound_new (clock : String) : (new clock).Sound := by
  have hblank : (blank clock).Sound :=
    ⟨⟨.nil, .nil, .nil, .nil⟩, by simp [blank], by simp [blank], by simp [blank], by simp [blank],
      by simp [blank], by simp [blank], by simp [blank]⟩
  exact hblank.of_sameContent ⟨rfl, rfl, rfl, rfl, rfl, rfl⟩

theorem Sound.eq_of_id_eq (h : s.Sound) (hb : b ∈ s.benchmarks) (hc : c ∈ s.benchmarks)
    (heq : b.id = c.id) : b = c :=
  h.numbers.benchmarks.eq_of_number_eq hb hc heq

theorem Sound.eq_of_name_eq (h : s.Sound) (hb : b ∈ s.benchmarks) (hc : c ∈ s.benchmarks)
    (heq : b.name = c.name) : b = c :=
  List.inj_on_of_nodup_map h.benchmarkNames hb hc heq

theorem Sound.table_ne (h : s.Sound) (hb : b ∈ s.benchmarks) (hc : c ∈ s.benchmarks) (hne : c.id ≠ b.id) :
    c.table ≠ b.table := fun heq =>
  hne (congrArg Benchmark.id (h.eq_of_name_eq hc hb (tableName_inj.1 heq)))

theorem Sound.ownFields_nodup (h : s.Sound) (b : Benchmark) : ((s.ownFields b).map (·.id)).Nodup :=
  (h.numbers.fields.filter _).nodup

theorem Sound.fieldsOf_eq (h : s.Sound) (hb : b ∈ s.benchmarks) : s.fieldsOf b = s.ownFields b :=
  fieldsOf_eq_ownFields (h.holdings b hb).positions

theorem Sound.fieldNames (h : s.Sound) (hb : b ∈ s.benchmarks) : ((s.fieldsOf b).map (·.name)).Nodup := by
  rw [h.fieldsOf_eq hb]
  exact (h.holdings b hb).fieldNames

theorem Sound.fieldCanonical (h : s.Sound) (hb : b ∈ s.benchmarks) {f : Field} (hf : f ∈ s.fieldsOf b) :
    IsCanonical f.name := by
  rw [h.fieldsOf_eq hb] at hf
  exact (h.holdings b hb).fieldCanonical f hf

/-- The table of a benchmark has a column for each field and a row for each experiment. -/
theorem Sound.fits_table (h : s.Sound) (hb : b ∈ s.benchmarks) {t : WideTable} (ht : s.table? b.table = some t) :
    t.columns = (s.fieldsOf b).map Field.toColumn
      ∧ List.Forall₂ (Mirrors b (s.fieldsOf b)) t.rows (s.experimentsOf b) := by
  have hfits : TableFits b (s.ownFields b) (s.experimentsOf b) (s.table? b.table) := (h.holdings b hb).table
  rw [ht] at hfits
  rw [h.fieldsOf_eq hb]
  exact hfits.2

/-- A benchmark with a field has a table. -/
theorem Sound.exists_table (h : s.Sound) (hb : b ∈ s.benchmarks) {f : Field} (hf : f ∈ s.fieldsOf b) :
    ∃ t, s.table? b.table = some t := by
  have hfits : TableFits b (s.ownFields b) (s.experimentsOf b) (s.table? b.table) := (h.holdings b hb).table
  rw [h.fieldsOf_eq hb] at hf
  exact Option.isSome_iff_exists.mp ((isSome_of_fits hfits).mpr (List.ne_nil_of_mem hf))

/-- The cells of a field hold values that the field may hold. -/
theorem Sound.admits_cell (h : s.Sound) (hb : b ∈ s.benchmarks) {t : WideTable} (ht : s.table? b.table = some t)
    {f : Field} (hf : f ∈ s.fieldsOf b) : ∀ r ∈ t.rows, f.Admits (t.cell r f.column) := by
  obtain ⟨hcolumns, hrows⟩ := h.fits_table hb ht
  intro r hr
  obtain ⟨e, _, hre⟩ := exists_mem_of_forall₂ hrows hr
  exact (hre.holds hcolumns (h.fieldNames hb) hf).admits

/-! ## §4 Changes of one benchmark -/

/-- Of the records of a list only those of one owner have changed. -/
def ChangedOnlyFor {α : Type} (owner : α → Nat) (n : Nat) (l l' : List α) : Prop :=
  ∀ m, m ≠ n → l'.filter (owner · == m) = l.filter (owner · == m)

namespace ChangedOnlyFor

variable {α : Type} {owner : α → Nat} {n : Nat} {l : List α}

theorem refl : ChangedOnlyFor owner n l l := fun _ _ => rfl

theorem append {a : α} (ha : owner a = n) : ChangedOnlyFor owner n l (l ++ [a]) := by
  intro m hm
  have hne : (owner a == m) = false := by simpa [ha] using Ne.symm hm
  rw [List.filter_append, List.filter_cons_of_neg (by simp [hne]), List.filter_nil, List.append_nil]

theorem map {g : α → α} (howner : ∀ a ∈ l, owner (g a) = owner a)
    (hg : ∀ a ∈ l, owner a ≠ n → g a = a) : ChangedOnlyFor owner n l (l.map g) := by
  intro m hm
  rw [List.filter_map]
  -- The records of another owner are the same ones before the change, and the change leaves them alone.
  have hfilter : l.filter ((owner · == m) ∘ g) = l.filter (owner · == m) :=
    List.filter_congr fun a ha => by simp [howner a ha]
  rw [hfilter]
  refine (List.map_congr_left (g := id) fun a ha => ?_).trans (List.map_id _)
  obtain ⟨hmem, hown⟩ := List.mem_filter.mp ha
  exact hg a hmem (eq_of_beq hown ▸ hm)

theorem filter {p : α → Bool} (hp : ∀ a ∈ l, owner a ≠ n → p a = true) :
    ChangedOnlyFor owner n l (l.filter p) := by
  intro m hm
  rw [List.filter_filter]
  refine List.filter_congr fun a hmem => ?_
  by_cases ha : owner a = m
  · simp [ha, hp a hmem (ha ▸ hm)]
  · simp [ha]

theorem trans {l' l'' : List α} (h : ChangedOnlyFor owner n l l') (h' : ChangedOnlyFor owner n l' l'') :
    ChangedOnlyFor owner n l l'' := fun m hm => (h' m hm).trans (h m hm)

theorem mem {l' : List α} (h : ChangedOnlyFor owner n l l') {a : α} (ha : a ∈ l') (hne : owner a ≠ n) :
    a ∈ l := by
  -- The record is among those of its own owner, who has all his records as before.
  have hmem : a ∈ l'.filter (owner · == owner a) := List.mem_filter.mpr ⟨ha, by simp⟩
  rw [h _ hne] at hmem
  exact (List.mem_filter.mp hmem).1

end ChangedOnlyFor

/-- Only what belongs to one benchmark has changed. -/
structure ChangedOnly (b : Benchmark) (s s' : Store) : Prop where
  benchmarks : s'.benchmarks = s.benchmarks
  fields : ChangedOnlyFor Field.benchmark b.id s.fields s'.fields
  indices : ChangedOnlyFor FieldIndex.benchmark b.id s.indices s'.indices
  experiments : ChangedOnlyFor Experiment.benchmark b.id s.experiments s'.experiments
  tables : ∀ name, name ≠ b.table → s'.table? name = s.table? name

theorem ChangedOnly.trans {s'' : Store} (h : ChangedOnly b s s') (h' : ChangedOnly b s' s'') :
    ChangedOnly b s s'' :=
  ⟨h'.benchmarks.trans h.benchmarks, h.fields.trans h'.fields, h.indices.trans h'.indices,
    h.experiments.trans h'.experiments, fun name hne => (h'.tables name hne).trans (h.tables name hne)⟩

theorem ChangedOnly.updateTable {f : WideTable → WideTable} (hf : ∀ t, (f t).name = t.name) :
    ChangedOnly b s (s.updateTable b.table f) :=
  ⟨rfl, .refl, .refl, .refl, fun name hne => (table?_updateTable hf _ name).trans (if_neg hne)⟩

theorem ChangedOnly.holding (h : ChangedOnly b s s') (hid : c.id ≠ b.id) (htable : c.table ≠ b.table) :
    s'.holding c = s.holding c := by
  unfold Store.holding ownFields ownIndices experimentsOf
  rw [h.fields _ hid, h.indices _ hid, h.experiments _ hid, h.tables _ htable]

/-- A store stays sound when only one benchmark has changed and what is kept of this one fits together. -/
theorem Sound.of_changedOnly (h : s.Sound) (hb : b ∈ s.benchmarks) (hchanged : ChangedOnly b s s')
    (hnumbers : s'.Numbered) (htables : (s'.tables.map (·.name)).Nodup) (hown : (s'.holding b).Sound b) :
    s'.Sound := by
  -- A record belongs to the benchmark, or it was there before.
  have hknows : ∀ n, n = b.id ∨ s.Knows n → s'.Knows n := by
    rintro n (rfl | hn)
    · exact ⟨b, by rwa [hchanged.benchmarks], rfl⟩
    · unfold Knows
      rwa [hchanged.benchmarks]
  refine ⟨hnumbers, fun f hf => hknows _ ?_, fun i hi => hknows _ ?_, fun e he => hknows _ ?_, ?_, htables,
    fun t ht => ?_, fun c hc => ?_⟩
  · by_cases hown : f.benchmark = b.id
    · exact .inl hown
    · exact .inr (h.fieldOwners f (hchanged.fields.mem hf hown))
  · by_cases hown : i.benchmark = b.id
    · exact .inl hown
    · exact .inr (h.indexOwners i (hchanged.indices.mem hi hown))
  · by_cases hown : e.benchmark = b.id
    · exact .inl hown
    · exact .inr (h.experimentOwners e (hchanged.experiments.mem he hown))
  · rw [hchanged.benchmarks]
    exact h.benchmarkNames
  · rw [hchanged.benchmarks]
    by_cases hname : t.name = b.table
    · exact ⟨b, hb, hname.symm⟩
    · -- A table of another name is found after the change, so it was found before.
      have hfound : (s'.table? t.name).isSome := List.find?_isSome.mpr ⟨t, ht, by simp⟩
      rw [hchanged.tables _ hname] at hfound
      obtain ⟨u, hu⟩ := Option.isSome_iff_exists.mp hfound
      obtain ⟨humem, huname⟩ := of_table?_eq_some hu
      rw [← huname]
      exact h.tableOwners u humem
  · -- The changed benchmark fits together by assumption, and no other one sees the change.
    rw [hchanged.benchmarks] at hc
    by_cases hid : c.id = b.id
    · rw [h.eq_of_id_eq hc hb hid]
      exact hown
    · rw [hchanged.holding hid (h.table_ne hb hc hid)]
      exact h.holdings c hc

end Store

end BenchPlot
