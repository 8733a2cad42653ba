import BenchPlot.Proofs.Name.Canonical
import BenchPlot.Proofs.Store.Lookup
import Mathlib.Data.List.Forall2

/-!
# Accepted operations

What is known of an operation that was not refused: which names its texts stand for, what it found, which
checks it passed, and the store that it left. There is one statement for each operation on the schema and
on experiments; whoever reasons about an operation starts from its statement and need not open it.
-/

namespace BenchPlot

/-! ## §1 Steps that may be refused -/

/-- Two steps in a row are accepted iff both are. -/
theorem bind_eq_ok {ε α β : Type} {x : Except ε α} {f : α → Except ε β} {b : β} :
    x >>= f = .ok b ↔ ∃ a, x = .ok a ∧ f a = .ok b := by
  cases x <;> simp [bind, Except.bind]

theorem exists_eq_ok {ε α β : Type} {x : Except ε α} {f : α → β} {b : β}
    (h : x.toOption.map f = some b) : ∃ a, x = .ok a ∧ f a = b := by
  cases x with
  | error e => cases h
  | ok a => exact ⟨a, rfl, Option.some.inj h⟩

/-- What stands behind a check is accepted iff the check passes and the rest is accepted. -/
theorem guard_eq_ok {ε α β : Type} {p : Prop} [Decidable p] {e : ε} {f : α → Except ε β}
    {k : Except ε β} {b : β} :
    (if p then throw e >>= f else k) = .ok b ↔ ¬p ∧ k = .ok b := by
  split <;> simp_all [bind, Except.bind, throw, throwThe, MonadExceptOf.throw]

theorem mapError_eq_ok {ε ε' α : Type} {x : Except ε α} {f : ε → ε'} {a : α} :
    x.mapError f = .ok a ↔ x = .ok a := by
  cases x <;> simp [Except.mapError]

theorem map_eq_ok {ε α β : Type} {x : Except ε α} {f : α → β} {b : β} :
    x.map f = .ok b ↔ ∃ a, x = .ok a ∧ f a = b := by
  cases x <;> simp [Except.map]

theorem exists_map_eq_ok {ε α β : Type} {x : Except ε α} {f : α → β} :
    (∃ b, x.map f = .ok b) ↔ ∃ a, x = .ok a := by
  cases x <;> simp [Except.map]

theorem map_eq_error {ε α β : Type} {x : Except ε α} {f : α → β} {e : ε} :
    x.map f = .error e ↔ x = .error e := by
  cases x <;> simp [Except.map]

/-- A pass over a list that is accepted has accepted each element. -/
theorem forall₂_of_mapM_eq_ok {ε α β : Type} {f : α → Except ε β} {l : List α} {r : List β}
    (h : l.mapM f = .ok r) : List.Forall₂ (fun a b => f a = .ok b) l r := by
  induction l generalizing r with
  | nil =>
    cases h
    exact .nil
  | cons a rest ih =>
    rw [List.mapM_cons] at h
    obtain ⟨b, hb, h⟩ := bind_eq_ok.1 h
    obtain ⟨bs, hbs, h⟩ := bind_eq_ok.1 h
    cases h
    exact .cons hb (ih hbs)

/-- What a fold starts with and each of its steps that is accepted keeps, holds of its result; it may
    depend on how many steps were made. -/
theorem foldlM_invariant {ε α β : Type} {f : β → α → Except ε β} (P : Nat → β → Prop)
    (hstep : ∀ n b a b', P n b → f b a = .ok b' → P (n + 1) b') {l : List α} {n : Nat} {b b' : β}
    (hb : P n b) (h : l.foldlM f b = .ok b') : P (n + l.length) b' := by
  -- Along the list, for any number of steps that were made before.
  induction l generalizing n b with
  | nil =>
    cases h
    exact hb
  | cons a rest ih =>
    rw [List.foldlM_cons] at h
    obtain ⟨c, hc, hrest⟩ := bind_eq_ok.1 h
    have hlater := ih (hstep n b a c hb hc) hrest
    rwa [List.length_cons, Nat.add_comm rest.length, ← Nat.add_assoc]

namespace Store

variable {s s' : Store}

theorem isCanonical_of_canonical {raw name : String} (h : canonical raw = .ok name) :
    IsCanonical name :=
  canonicalName_canonicalName (mapError_eq_ok.1 h)

/-! ## §2 Benchmarks -/

theorem benchmark_eq_ok {written : String} {b : Benchmark} (h : s.benchmark written = .ok b) :
    ∃ name, canonical written = .ok name ∧ s.benchmark? name = some b := by
  obtain ⟨name, hname, hb⟩ := bind_eq_ok.1 h
  exact ⟨name, hname, require_eq_ok.1 hb⟩

theorem createBenchmark_eq_ok {written : String} {description : Option String} {b : Benchmark}
    (h : s.createBenchmark written description = .ok (b, s')) :
    ∃ name, canonical written = .ok name ∧ s.benchmark? name = none
      ∧ b = (s.insertBenchmark name description).1
      ∧ s' = (s.insertBenchmark name description).2.touch := by
  unfold createBenchmark at h
  obtain ⟨name, hname, h⟩ := bind_eq_ok.1 h
  obtain ⟨hfree, h⟩ := guard_eq_ok.1 h
  cases h
  exact ⟨name, hname, by simpa using hfree, rfl, rfl⟩

/-- A benchmark that is asked for was there, or it is the new one. -/
theorem ensure_cases {name : String} {b : Benchmark} (h : s.ensure name = (b, s')) :
    s.benchmark? name = some b ∧ s' = s
      ∨ s.benchmark? name = none ∧ (b, s') = s.insertBenchmark name none := by
  unfold ensure at h
  split at h
  · rename_i hfound
    cases h
    exact .inl ⟨hfound, rfl⟩
  · rename_i hmissing
    exact .inr ⟨hmissing, h.symm⟩

theorem ensure_records {name : String} {b : Benchmark} (h : s.ensure name = (b, s')) :
    s'.experiments = s.experiments ∧ s'.indices = s.indices ∧ s'.physicalIndices = s.physicalIndices := by
  rcases ensure_cases h with ⟨_, rfl⟩ | ⟨_, hmade⟩
  · exact ⟨rfl, rfl, rfl⟩
  · cases hmade
    exact ⟨rfl, rfl, rfl⟩

/-- A benchmark keeps its name, or gets one that no benchmark has. -/
theorem renameBenchmark_eq_ok {writtenOld writtenNew : String} {b : Benchmark}
    (h : s.renameBenchmark writtenOld writtenNew = .ok (b, s')) :
    ∃ old new found, canonical writtenOld = .ok old ∧ canonical writtenNew = .ok new
      ∧ s.benchmark? old = some found
      ∧ (old = new ∧ b = found ∧ s' = s
        ∨ s.benchmark? new = none ∧ b = { found with name := new }
          ∧ ∃ t, (s.putBenchmark b).renameTable found b = .ok t ∧ s' = t.touch) := by
  unfold renameBenchmark at h
  obtain ⟨old, hold, h⟩ := bind_eq_ok.1 h
  obtain ⟨new, hnew, h⟩ := bind_eq_ok.1 h
  obtain ⟨found, hfound, h⟩ := bind_eq_ok.1 h
  refine ⟨old, new, found, hold, hnew, require_eq_ok.1 hfound, ?_⟩
  split at h
  · rename_i heq
    cases h
    exact .inl ⟨heq, rfl, rfl⟩
  · obtain ⟨hfree, h⟩ := guard_eq_ok.1 h
    obtain ⟨t, ht, h⟩ := bind_eq_ok.1 h
    cases h
    exact .inr ⟨by simpa using hfree, rfl, t, ht, rfl⟩

theorem setDescription_eq_ok {written : String} {description : Option String}
    (h : s.setDescription written description = .ok s') :
    ∃ name b, canonical written = .ok name ∧ s.benchmark? name = some b
      ∧ s' = (s.putBenchmark { b with description := description }).touch := by
  unfold setDescription at h
  obtain ⟨b, hb, h⟩ := bind_eq_ok.1 h
  obtain ⟨name, hname, hfound⟩ := benchmark_eq_ok hb
  cases h
  exact ⟨name, b, hname, hfound, rfl⟩

theorem removeBenchmark_eq_ok {written : String} (h : s.removeBenchmark written = .ok s') :
    ∃ name b, canonical written = .ok name ∧ s.benchmark? name = some b ∧ s.experimentsOf b = []
      ∧ s.fieldsOf b = []
      ∧ s' = { s.dropTable b.table with
          indices := s.indices.filter (·.benchmark != b.id)
          benchmarks := s.benchmarks.filter (·.id != b.id) }.touch := by
  unfold removeBenchmark at h
  obtain ⟨b, hb, h⟩ := bind_eq_ok.1 h
  obtain ⟨name, hname, hfound⟩ := benchmark_eq_ok hb
  obtain ⟨hcount, h⟩ := guard_eq_ok.1 h
  obtain ⟨hfields, h⟩ := guard_eq_ok.1 h
  cases h
  refine ⟨name, b, hname, hfound, ?_, by simpa using hfields, rfl⟩
  exact List.length_eq_zero_iff.mp (not_ne_iff.mp hcount)

/-! ## §3 Fields -/

theorem requireNoData_eq_ok {b : Benchmark} {change : SchemaChange} {u : Unit}
    (h : s.requireNoData b change = .ok u) : s.experimentsOf b = [] := by
  unfold requireNoData at h
  split at h
  · rename_i hcount
    exact List.length_eq_zero_iff.mp hcount
  · cases h

/-- The store with a further field. -/
def putNewField (s : Store) (f : Field) : Store :=
  { s with fields := s.fields ++ [f], last := { s.last with field := f.id } }

/-- A field is added under a name that no field of the benchmark has. Where there are experiments, it is
    no key and has a default. -/
theorem addField_eq_ok {written : String} {new : NewField} {f : Field}
    (h : s.addField written new = .ok (f, s')) :
    ∃ bench name default b s₁ t, canonical written = .ok bench ∧ canonical new.name = .ok name
      ∧ defaultValue name new = .ok default ∧ s.ensure bench = (b, s₁)
      ∧ (∀ g ∈ s₁.fieldsOf b, g.name ≠ name)
      ∧ (s₁.experimentsOf b ≠ [] → new.key = false ∧ default.isNull = false)
      ∧ f = ⟨s₁.last.field + 1, b.id, name, new.numeric, new.key,
          ((s₁.fieldsOf b).map (·.position)).foldl max 0 + 1⟩
      ∧ (s₁.putNewField f).rebuild b (s₁.fieldsOf b) (s₁.fieldsOf b ++ [f]) = .ok t
      ∧ s' = (if default.isNull then t else t.updateTable b.table (·.fill f.column default)).touch := by
  unfold addField at h
  obtain ⟨bench, hbench, h⟩ := bind_eq_ok.1 h
  obtain ⟨name, hname, h⟩ := bind_eq_ok.1 h
  obtain ⟨default, hdefault, h⟩ := bind_eq_ok.1 h
  rcases hensure : s.ensure bench with ⟨b, s₁⟩
  rw [hensure] at h
  obtain ⟨hfree, h⟩ := guard_eq_ok.1 h
  obtain ⟨hkey, h⟩ := guard_eq_ok.1 h
  obtain ⟨hnull, h⟩ := guard_eq_ok.1 h
  obtain ⟨t, ht, h⟩ := bind_eq_ok.1 h
  cases h
  refine ⟨bench, name, default, b, s₁, t, hbench, hname, hdefault, hensure, ?_, ?_, rfl, ht, rfl⟩
  · simpa using hfree
  · -- Both checks on the default are made only where there is data.
    intro hdata
    have hcount : s₁.countOf b ≠ 0 := fun hzero => hdata (List.length_eq_zero_iff.mp hzero)
    simpa [hcount] using And.intro hkey hnull

/-- A new field is what was asked for, under its canonical name. -/
theorem addField_field {written : String} {new : NewField} {f : Field}
    (h : s.addField written new = .ok (f, s')) :
    canonical new.name = .ok f.name ∧ f.numeric = new.numeric ∧ f.key = new.key := by
  obtain ⟨_, _, _, _, _, _, _, hname, _, _, _, _, hf, _, _⟩ := addField_eq_ok h
  rw [hf]
  exact ⟨hname, rfl, rfl⟩

/-- A further field leaves all experiments and indices as they are. -/
theorem addField_records {written : String} {new : NewField} {f : Field}
    (h : s.addField written new = .ok (f, s')) :
    s'.experiments = s.experiments ∧ s'.indices = s.indices := by
  obtain ⟨_, _, _, _, _, t, _, _, _, hensure, _, _, _, ht, rfl⟩ := addField_eq_ok h
  obtain ⟨hexperiments, hindices, _⟩ := ensure_records hensure
  obtain ⟨l, rfl⟩ := rebuild_eq_ok ht
  split <;> exact ⟨hexperiments, hindices⟩

/-- The store without a field of a benchmark and without the indices over it. -/
def withoutField (s : Store) (b : Benchmark) (f : Field) : Store :=
  { s with
    indices := s.indices.filter fun i => !(i.benchmark == b.id && i.fields.contains f.name)
    fields := s.fields.filter (·.id != f.id) }

theorem removeField_eq_ok {written writtenField : String}
    (h : s.removeField written writtenField = .ok s') :
    ∃ bench name b f t, canonical written = .ok bench ∧ canonical writtenField = .ok name
      ∧ s.benchmark? bench = some b ∧ s.experimentsOf b = [] ∧ f ∈ s.fieldsOf b ∧ f.name = name
      ∧ (s.withoutField b f).rebuild b (s.fieldsOf b) ((s.fieldsOf b).filter (·.id != f.id)) = .ok t
      ∧ s' = t.touch := by
  unfold removeField at h
  obtain ⟨bench, hbench, h⟩ := bind_eq_ok.1 h
  obtain ⟨name, hname, h⟩ := bind_eq_ok.1 h
  obtain ⟨b, hb, h⟩ := bind_eq_ok.1 h
  obtain ⟨_, hdata, h⟩ := bind_eq_ok.1 h
  obtain ⟨f, hf, h⟩ := bind_eq_ok.1 h
  obtain ⟨t, ht, h⟩ := bind_eq_ok.1 h
  cases h
  obtain ⟨hmem, hfname⟩ := of_requireField_eq_ok hf
  exact ⟨bench, name, b, f, t, hbench, hname, require_eq_ok.1 hb, requireNoData_eq_ok hdata, hmem, hfname,
    ht, rfl⟩

/-- A field keeps its name, or gets one that no field of the benchmark has. -/
theorem renameField_eq_ok {written writtenField writtenNew : String} {g : Field}
    (h : s.renameField written writtenField writtenNew = .ok (g, s')) :
    ∃ bench name new b f, canonical written = .ok bench ∧ canonical writtenField = .ok name
      ∧ canonical writtenNew = .ok new ∧ s.benchmark? bench = some b ∧ f ∈ s.fieldsOf b ∧ f.name = name
      ∧ (f.name = new ∧ g = f ∧ s' = s
        ∨ (∀ f' ∈ s.fieldsOf b, f'.name ≠ new) ∧ g = { f with name := new }
          ∧ ∃ t, ((s.putField g).renameInIndices b f.name new).rebuild b (s.fieldsOf b)
              (((s.putField g).renameInIndices b f.name new).fieldsOf b) = .ok t
            ∧ s' = t.touch) := by
  unfold renameField at h
  obtain ⟨bench, hbench, h⟩ := bind_eq_ok.1 h
  obtain ⟨name, hname, h⟩ := bind_eq_ok.1 h
  obtain ⟨new, hnew, h⟩ := bind_eq_ok.1 h
  obtain ⟨b, hb, h⟩ := bind_eq_ok.1 h
  obtain ⟨f, hf, h⟩ := bind_eq_ok.1 h
  obtain ⟨hmem, hfname⟩ := of_requireField_eq_ok hf
  refine ⟨bench, name, new, b, f, hbench, hname, hnew, require_eq_ok.1 hb, hmem, hfname, ?_⟩
  split at h
  · rename_i heq
    cases h
    exact .inl ⟨heq, rfl, rfl⟩
  · obtain ⟨hfree, h⟩ := guard_eq_ok.1 h
    obtain ⟨t, ht, h⟩ := bind_eq_ok.1 h
    cases h
    exact .inr ⟨by simpa using hfree, rfl, t, ht, rfl⟩

/-- A field keeps its kind, or gets another one in a benchmark without experiments. -/
theorem setNumeric_eq_ok {written writtenField : String} {flag : Bool}
    (h : s.setNumeric written writtenField flag = .ok s') :
    ∃ bench name b f, canonical written = .ok bench ∧ canonical writtenField = .ok name
      ∧ s.benchmark? bench = some b ∧ f ∈ s.fieldsOf b ∧ f.name = name
      ∧ (f.numeric = flag ∧ s' = s
        ∨ s.experimentsOf b = []
          ∧ ∃ t, (s.putField { f with numeric := flag }).rebuild b (s.fieldsOf b)
              ((s.putField { f with numeric := flag }).fieldsOf b) = .ok t
            ∧ s' = t.touch) := by
  unfold setNumeric at h
  obtain ⟨bench, hbench, h⟩ := bind_eq_ok.1 h
  obtain ⟨name, hname, h⟩ := bind_eq_ok.1 h
  obtain ⟨b, hb, h⟩ := bind_eq_ok.1 h
  obtain ⟨f, hf, h⟩ := bind_eq_ok.1 h
  obtain ⟨hmem, hfname⟩ := of_requireField_eq_ok hf
  refine ⟨bench, name, b, f, hbench, hname, require_eq_ok.1 hb, hmem, hfname, ?_⟩
  split at h
  · rename_i heq
    cases h
    exact .inl ⟨heq, rfl⟩
  · obtain ⟨_, hdata, h⟩ := bind_eq_ok.1 h
    obtain ⟨t, ht, h⟩ := bind_eq_ok.1 h
    cases h
    exact .inr ⟨requireNoData_eq_ok hdata, t, ht, rfl⟩

/-- A field stays a key or not, or becomes one or not in a benchmark without experiments. -/
theorem setKey_eq_ok {written writtenField : String} {flag : Bool}
    (h : s.setKey written writtenField flag = .ok s') :
    ∃ bench name b f, canonical written = .ok bench ∧ canonical writtenField = .ok name
      ∧ s.benchmark? bench = some b ∧ f ∈ s.fieldsOf b ∧ f.name = name
      ∧ (f.key = flag ∧ s' = s
        ∨ s.experimentsOf b = [] ∧ s' = (s.putField { f with key := flag }).touch) := by
  unfold setKey at h
  obtain ⟨bench, hbench, h⟩ := bind_eq_ok.1 h
  obtain ⟨name, hname, h⟩ := bind_eq_ok.1 h
  obtain ⟨b, hb, h⟩ := bind_eq_ok.1 h
  obtain ⟨f, hf, h⟩ := bind_eq_ok.1 h
  obtain ⟨hmem, hfname⟩ := of_requireField_eq_ok hf
  refine ⟨bench, name, b, f, hbench, hname, require_eq_ok.1 hb, hmem, hfname, ?_⟩
  split at h
  · rename_i heq
    cases h
    exact .inl ⟨heq, rfl⟩
  · obtain ⟨_, hdata, h⟩ := bind_eq_ok.1 h
    cases h
    exact .inr ⟨requireNoData_eq_ok hdata, rfl⟩

/-! ## §4 Indices -/

/-- The fields of an index that is accepted are there, each once, and there are as many as were
    written. -/
theorem indexFields_eq_ok {b : Benchmark} {known : List Field} {index : String} {written names : List String}
    (h : indexFields b known index written = .ok names) :
    names.length = written.length ∧ names.Nodup ∧ ∀ name ∈ names, name ∈ known.map (·.name) := by
  refine (foldlM_invariant (fun n (names : List String) => names.length = n ∧ names.Nodup
    ∧ ∀ name ∈ names, name ∈ known.map (·.name)) (n := 0) ?_ (by simp) h).imp_left (by simpa using ·)
  rintro n before text after ⟨hlength, hnodup, hknown⟩ hstep
  obtain ⟨name, _, hstep⟩ := bind_eq_ok.1 hstep
  obtain ⟨f, hf, hstep⟩ := bind_eq_ok.1 hstep
  obtain ⟨hfresh, hstep⟩ := guard_eq_ok.1 hstep
  cases hstep
  have hmem : f.name ∈ known.map (·.name) := List.mem_map_of_mem (of_requireField_eq_ok hf).1
  refine ⟨by simp [hlength], ?_, ?_⟩
  · refine List.nodup_append.mpr ⟨hnodup, by simp, fun a ha c hc heq => ?_⟩
    rw [List.mem_singleton.mp hc] at heq
    exact hfresh (by simpa [← heq] using ha)
  · intro name hname
    rcases List.mem_append.mp hname with hold | hnew
    · exact hknown name hold
    · rwa [List.mem_singleton.mp hnew]

/-- The store with a further index. -/
def putNewIndex (s : Store) (i : FieldIndex) : Store :=
  { s with indices := s.indices ++ [i], last := { s.last with index := i.id } }

/-- An index is made over some fields of a benchmark, each once, under a name that no index of the
    benchmark has. -/
theorem createIndex_eq_ok {written writtenIndex : String} {fields : List String} {i : FieldIndex}
    (h : s.createIndex written writtenIndex fields = .ok (i, s')) :
    ∃ bench name b, canonical written = .ok bench ∧ canonical writtenIndex = .ok name
      ∧ s.benchmark? bench = some b ∧ (∀ j ∈ s.indicesOf b, j.name ≠ name)
      ∧ i.id = s.last.index + 1 ∧ i.benchmark = b.id ∧ i.name = name
      ∧ i.fields ≠ [] ∧ i.fields.Nodup ∧ (∀ f ∈ i.fields, f ∈ (s.fieldsOf b).map (·.name))
      ∧ s' = ((s.putNewIndex i).makePhysicalIndex b i).touch := by
  unfold createIndex at h
  obtain ⟨bench, hbench, h⟩ := bind_eq_ok.1 h
  obtain ⟨name, hname, h⟩ := bind_eq_ok.1 h
  obtain ⟨hsome, h⟩ := guard_eq_ok.1 h
  obtain ⟨b, hb, h⟩ := bind_eq_ok.1 h
  obtain ⟨names, hnames, h⟩ := bind_eq_ok.1 h
  obtain ⟨hfree, h⟩ := guard_eq_ok.1 h
  cases h
  obtain ⟨hlength, hnodup, hknown⟩ := indexFields_eq_ok hnames
  refine ⟨bench, name, b, hbench, hname, require_eq_ok.1 hb, by simpa using hfree, rfl, rfl, rfl, ?_,
    hnodup, hknown, rfl⟩
  intro hnil
  rw [show names = [] from hnil] at hlength
  exact hsome (by simpa using (List.length_eq_zero_iff.mp hlength.symm))

/-- The store without the index of a benchmark with a name. -/
def withoutIndex (s : Store) (b : Benchmark) (name : String) : Store :=
  { s with indices := s.indices.filter fun i => !(i.benchmark == b.id && i.name == name) }

theorem dropIndex_eq_ok {written writtenIndex : String} (h : s.dropIndex written writtenIndex = .ok s') :
    ∃ bench name b, canonical written = .ok bench ∧ canonical writtenIndex = .ok name
      ∧ s.benchmark? bench = some b ∧ (∃ i ∈ s.indicesOf b, i.name = name)
      ∧ s' = ((s.withoutIndex b name).dropPhysicalIndex (physicalIndexName b.name name)).touch := by
  unfold dropIndex at h
  obtain ⟨bench, hbench, h⟩ := bind_eq_ok.1 h
  obtain ⟨name, hname, h⟩ := bind_eq_ok.1 h
  obtain ⟨b, hb, h⟩ := bind_eq_ok.1 h
  obtain ⟨hthere, h⟩ := guard_eq_ok.1 h
  cases h
  exact ⟨bench, name, b, hbench, hname, require_eq_ok.1 hb, by simpa using hthere, rfl⟩

/-! ## §5 Experiments -/

/-- An accepted list of values has a value for each field, made from its text. -/
theorem typed_eq_ok {f : Field} {values : SortedMap String String} {v : Value}
    (h : f.typed values = .ok v) :
    typedValue? f.numeric ((values.find? f.name).getD "") = some v ∧ (f.key = true → v.isNull = false) := by
  unfold Field.typed at h
  dsimp only at h
  split at h
  · cases h
  · rename_i w hw
    split at h
    · cases h
    · rename_i hkey
      cases h
      exact ⟨hw, fun hf => by simpa [hf] using hkey⟩

theorem insertValues_eq_ok {b : Benchmark} {fields : List Field} {values : SortedMap String String}
    {outcome : InsertOutcome} (h : s.insertValues b fields values = .ok (outcome, s')) :
    ∃ typed, fields.mapM (Field.typed values) = .ok typed ∧
      ((∃ e, s.experiment? b (identityOf fields typed) = some e ∧ outcome = .existing e.id
          ∧ s' = { s with last := { s.last with experiment := s.last.experiment + 1 } })
        ∨ s.experiment? b (identityOf fields typed) = none
          ∧ outcome = .inserted (s.last.experiment + 1)
          ∧ s' = s.addExperiment b fields (identityOf fields typed) typed) := by
  unfold insertValues at h
  obtain ⟨typed, htyped, h⟩ := bind_eq_ok.1 h
  refine ⟨typed, htyped, ?_⟩
  dsimp only at h
  split at h
  · rename_i e he
    cases h
    exact .inl ⟨e, he, rfl, rfl⟩
  · rename_i hnone
    cases h
    exact .inr ⟨hnone, rfl, rfl⟩

theorem insertFields_eq_ok {b : Benchmark} {fields : List Field} (h : s.insertFields b = .ok fields) :
    fields = s.fieldsOf b ∧ ∃ f ∈ fields, f.key = true := by
  unfold insertFields at h
  split at h
  · rename_i hkey
    cases h
    exact ⟨rfl, by simpa using hkey⟩
  · cases h

theorem insert_eq_ok {written : String} {values : SortedMap String String} {outcome : InsertOutcome}
    (h : s.insert written values = .ok (outcome, s')) :
    ∃ bench named b t, canonical written = .ok bench ∧ canonicalValues values = .ok named
      ∧ s.benchmark? bench = some b ∧ (∃ f ∈ s.fieldsOf b, f.key = true)
      ∧ s.insertValues b (s.fieldsOf b) named = .ok (outcome, t)
      ∧ s' = if outcome.isInserted then t.touch else t := by
  unfold insert at h
  obtain ⟨bench, hbench, h⟩ := bind_eq_ok.1 h
  obtain ⟨named, hnamed, h⟩ := bind_eq_ok.1 h
  obtain ⟨b, hb, h⟩ := bind_eq_ok.1 h
  obtain ⟨fields, hfields, h⟩ := bind_eq_ok.1 h
  obtain ⟨hown, hkey⟩ := insertFields_eq_ok hfields
  rw [hown] at hkey h
  obtain ⟨_, _, h⟩ := bind_eq_ok.1 h
  obtain ⟨⟨o, t⟩, ht, h⟩ := bind_eq_ok.1 h
  rw [mapError_eq_ok] at ht
  cases h
  exact ⟨bench, named, b, t, hbench, hnamed, require_eq_ok.1 hb, hkey, ht, rfl⟩

theorem setOutlier_eq_ok {written : String} {id : Int} {flag : Bool}
    (h : s.setOutlier written id flag = .ok s') :
    ∃ name b, canonical written = .ok name ∧ s.benchmark? name = some b
      ∧ s' = (s.mark b [id] flag).touch := by
  unfold setOutlier at h
  obtain ⟨b, hb, h⟩ := bind_eq_ok.1 h
  obtain ⟨name, hname, hfound⟩ := benchmark_eq_ok hb
  obtain ⟨_, h⟩ := guard_eq_ok.1 h
  cases h
  exact ⟨name, b, hname, hfound, rfl⟩

theorem setOutlierWhere_eq_ok {written condition : String} {flag : Bool} {n : Nat}
    (h : s.setOutlierWhere written condition flag = .ok (n, s')) :
    ∃ name b ids, canonical written = .ok name ∧ s.benchmark? name = some b
      ∧ s.matchingIds b condition = .ok ids ∧ s' = (s.mark b ids flag).touch := by
  unfold setOutlierWhere at h
  obtain ⟨b, hb, h⟩ := bind_eq_ok.1 h
  obtain ⟨name, hname, hfound⟩ := benchmark_eq_ok hb
  obtain ⟨ids, hids, h⟩ := bind_eq_ok.1 h
  cases h
  exact ⟨name, b, ids, hname, hfound, hids, rfl⟩

theorem delete_eq_ok {written : String} {ids : List Int} {n : Nat}
    (h : s.delete written ids = .ok (n, s')) :
    ∃ name b, canonical written = .ok name ∧ s.benchmark? name = some b
      ∧ s' = (s.erase b ids).touch := by
  unfold delete at h
  obtain ⟨b, hb, h⟩ := bind_eq_ok.1 h
  obtain ⟨name, hname, hfound⟩ := benchmark_eq_ok hb
  cases h
  exact ⟨name, b, hname, hfound, rfl⟩

theorem deleteWhere_eq_ok {written condition : String} {n : Nat}
    (h : s.deleteWhere written condition = .ok (n, s')) :
    ∃ name b ids, canonical written = .ok name ∧ s.benchmark? name = some b
      ∧ s.matchingIds b condition = .ok ids ∧ s' = (s.erase b ids).touch := by
  unfold deleteWhere at h
  obtain ⟨b, hb, h⟩ := bind_eq_ok.1 h
  obtain ⟨name, hname, hfound⟩ := benchmark_eq_ok hb
  obtain ⟨ids, hids, h⟩ := bind_eq_ok.1 h
  cases h
  exact ⟨name, b, ids, hname, hfound, hids, rfl⟩

end Store

end BenchPlot
