import BenchPlot.Proofs.Store.AutoKey
import BenchPlot.Proofs.Store.Reach

/-!
# Stores without their times

A store keeps three kinds of times: the present one, that of its last change, and for each experiment the one
when it came in. No operation looks at them. So what insertions and the preparation of an import do to two
stores that differ in times only is the same, in times apart.

Main statements: `insertValues_timeless`, `addField_timeless` and `prepareAutoKey_timeless`.
-/

namespace BenchPlot

/-- An experiment without the time when it came in. -/
def Experiment.timeless (e : Experiment) : Experiment :=
  { e with created := "" }

namespace Store

variable {s s' t : Store} {b : Benchmark}

/-- A store without its times. -/
def timeless (s : Store) : Store :=
  { s with
    clock := ""
    metadata := s.metadata.filter (·.1 != "db_updated_at")
    experiments := s.experiments.map Experiment.timeless }

/-! ## §1 Times that change -/

theorem filter_putEntry (key value : String) (l : List (String × String)) :
    (putEntry key value l).filter (·.1 != key) = l.filter (·.1 != key) := by
  induction l with
  | nil => simp [putEntry]
  | cons entry rest ih =>
    obtain ⟨k, v⟩ := entry
    by_cases hk : k = key
    · simp [putEntry, hk]
    · simp [putEntry, hk, ih]

@[simp] theorem timeless_touch (s : Store) : s.touch.timeless = s.timeless := by
  simp [timeless, touch, putMetadata, filter_putEntry]

@[simp] theorem timeless_atTime (s : Store) (time : String) : (s.atTime time).timeless = s.timeless := rfl

@[simp] theorem timeless_timeless (s : Store) : s.timeless.timeless = s.timeless := by
  have hmap : s.experiments.map (Experiment.timeless ∘ Experiment.timeless)
      = s.experiments.map Experiment.timeless := rfl
  simp [timeless, List.filter_filter, hmap]

/-! ## §2 Insertions -/

theorem experiment?_timeless (s : Store) (b : Benchmark) (identity : String) :
    s.timeless.experiment? b identity = (s.experiment? b identity).map Experiment.timeless :=
  List.find?_map

/-- An insertion into a store without its times leaves what it leaves in the store, without the times. -/
theorem insertValues_timeless (s : Store) (b : Benchmark) (fields : List Field)
    (values : SortedMap String String) :
    s.timeless.insertValues b fields values
      = (s.insertValues b fields values).map (Prod.map id timeless) := by
  unfold insertValues
  cases fields.mapM (Field.typed values) with
  | error e => rfl
  | ok typed =>
    simp only [bind, Except.bind, experiment?_timeless]
    cases s.experiment? b (identityOf fields typed) with
    | some e => rfl
    | none =>
      -- The experiment that comes in loses its time, which is the present one.
      have hadded : s.timeless.addExperiment b fields (identityOf fields typed) typed
          = (s.addExperiment b fields (identityOf fields typed) typed).timeless := by
        simp [addExperiment, updateTable, timeless, Experiment.timeless]
      exact congrArg (fun t => Except.ok (InsertOutcome.inserted (s.last.experiment + 1), t)) hadded

/-- Insertions into stores that differ in times only have one outcome, and leave such stores again. -/
theorem insertValues_congr {fields : List Field} {values : SortedMap String String} {outcome : InsertOutcome}
    (hs : s'.timeless = s.timeless) (hok : s.insertValues b fields values = .ok (outcome, t)) :
    ∃ t', s'.insertValues b fields values = .ok (outcome, t') ∧ t'.timeless = t.timeless := by
  have hsame : (s'.insertValues b fields values).map (Prod.map id timeless)
      = (s.insertValues b fields values).map (Prod.map id timeless) := by
    rw [← insertValues_timeless, hs, insertValues_timeless]
  rcases hresult : s'.insertValues b fields values with e | ⟨outcome', t'⟩
  · rw [hok, hresult] at hsame
    cases hsame
  · rw [hok, hresult] at hsame
    simp only [Except.map, Prod.map, id, Except.ok.injEq, Prod.mk.injEq] at hsame
    exact ⟨t', by rw [hsame.1], hsame.2⟩

/-! ## §3 New fields -/

theorem countOf_timeless (s : Store) (b : Benchmark) : s.timeless.countOf b = s.countOf b := by
  have howner : (fun e : Experiment => e.benchmark == b.id) ∘ Experiment.timeless
      = fun e => e.benchmark == b.id := rfl
  simp [countOf, experimentsOf, timeless, List.filter_map, howner]

theorem ensure_timeless (s : Store) (name : String) :
    s.timeless.ensure name = Prod.map id timeless (s.ensure name) := by
  have hfound : s.timeless.benchmark? name = s.benchmark? name := rfl
  unfold ensure
  rw [hfound]
  cases s.benchmark? name <;> rfl

theorem makePhysicalIndex_timeless (s : Store) (b : Benchmark) (i : FieldIndex) :
    s.timeless.makePhysicalIndex b i = (s.makePhysicalIndex b i).timeless := by
  unfold makePhysicalIndex
  dsimp only
  rw [apply_ite timeless]
  rfl

theorem rebuild_timeless (s : Store) (b : Benchmark) (previous current : List Field) :
    s.timeless.rebuild b previous current = (s.rebuild b previous current).map timeless := by
  have hindices : ∀ t : Store, t.timeless.makePhysicalIndices b = (t.makePhysicalIndices b).timeless := by
    intro t
    exact List.foldl_hom timeless fun t i => makePhysicalIndex_timeless t b i
  unfold rebuild
  split
  · rfl
  · split
    · rfl
    · -- The new table takes over rows only, and those have no times.
      apply congrArg Except.ok
      exact hindices { s.dropTable b.table with
        tables := (s.dropTable b.table).tables ++
          [⟨b.table, current.map Field.toColumn, s.carriedRows b.table previous current⟩] }

theorem addField_timeless (s : Store) (bench : String) (new : NewField) :
    (s.timeless.addField bench new).map (Prod.map id timeless)
      = (s.addField bench new).map (Prod.map id timeless) := by
  unfold addField
  simp only [bind, Except.bind]
  cases canonical bench with
  | error e => rfl
  | ok bench =>
  cases canonical new.name with
  | error e => rfl
  | ok name =>
  dsimp only
  cases defaultValue name new with
  | error e => rfl
  | ok default =>
  rcases hensure : s.ensure bench with ⟨b, s₁⟩
  have hensured : s.timeless.ensure bench = (b, s₁.timeless) := by rw [ensure_timeless, hensure]; rfl
  have hfields : s₁.timeless.fieldsOf b = s₁.fieldsOf b := rfl
  simp only [hensured, hfields, countOf_timeless]
  split
  · rfl
  split
  · rfl
  split
  · rfl
  -- The table is built anew alike, and the time of the change goes.
  let f : Field := ⟨s₁.last.field + 1, b.id, name, new.numeric, new.key,
    ((s₁.fieldsOf b).map (·.position)).foldl max 0 + 1⟩
  let filled : Store → Field × Store := fun t =>
    (f, (if default.isNull then t else t.updateTable b.table (·.fill f.column default)).touch)
  have hrebuilt : (s₁.timeless.putNewField f).rebuild b (s₁.fieldsOf b) (s₁.fieldsOf b ++ [f])
      = ((s₁.putNewField f).rebuild b (s₁.fieldsOf b) (s₁.fieldsOf b ++ [f])).map timeless :=
    rebuild_timeless (s₁.putNewField f) b _ _
  change Except.map _
      (((s₁.timeless.putNewField f).rebuild b (s₁.fieldsOf b) (s₁.fieldsOf b ++ [f])).map filled)
    = Except.map _ (((s₁.putNewField f).rebuild b (s₁.fieldsOf b) (s₁.fieldsOf b ++ [f])).map filled)
  rw [hrebuilt]
  cases (s₁.putNewField f).rebuild b (s₁.fieldsOf b) (s₁.fieldsOf b ++ [f]) with
  | error e => rfl
  | ok t =>
    have hfilled : (filled t.timeless).2.timeless = (filled t).2.timeless := by
      simp only [filled, timeless_touch]
      split
      · exact timeless_timeless t
      · exact timeless_timeless (t.updateTable b.table (·.fill f.column default))
    exact congrArg (fun t => Except.ok (f, t)) hfilled

/-! ## §4 Before the first record -/

theorem ensureAutoKey_timeless (s : Store) (bench key : String) :
    Prod.map id timeless (s.timeless.ensureAutoKey bench key)
      = Prod.map id timeless (s.ensureAutoKey bench key) := by
  unfold ensureAutoKey
  cases canonical key with
  | error e => simp
  | ok column =>
    rcases hensure : s.ensure bench with ⟨b, s₁⟩
    have hensured : s.timeless.ensure bench = (b, s₁.timeless) := by rw [ensure_timeless, hensure]; rfl
    have hfields : s₁.timeless.fieldsOf b = s₁.fieldsOf b := rfl
    simp only [hensured, hfields]
    cases (s₁.fieldsOf b).find? (·.name == column) with
    | some f =>
      dsimp only
      split <;> simp
    | none =>
      have hadded := addField_timeless s₁ bench ⟨column, false, true, none⟩
      dsimp only
      revert hadded
      -- Both stores refuse the field, or both get it.
      rcases s₁.timeless.addField bench ⟨column, false, true, none⟩ with e₁ | ⟨f₁, t₁⟩ <;>
        rcases s₁.addField bench ⟨column, false, true, none⟩ with e₂ | ⟨f₂, t₂⟩ <;>
        simp +contextual [Except.map]

theorem prepareAutoKey_timeless (s : Store) (bench : String) (autoKey : Option String) :
    Prod.map id timeless (s.timeless.prepareAutoKey bench autoKey)
      = Prod.map id timeless (s.prepareAutoKey bench autoKey) := by
  cases autoKey with
  | none => simp [prepareAutoKey]
  | some key =>
    have hkey := ensureAutoKey_timeless s bench key
    unfold prepareAutoKey
    dsimp only
    -- The two stores differ in times only, so the results of both say the same.
    revert hkey
    rcases s.timeless.ensureAutoKey bench key with ⟨r₁, t₁⟩
    rcases s.ensureAutoKey bench key with ⟨r₂, t₂⟩
    simp +contextual

theorem prepareAutoKey_congr {bench : String} {autoKey found : Option String}
    (hs : s'.timeless = s.timeless) (hok : s.prepareAutoKey bench autoKey = (.ok found, t)) :
    ∃ t', s'.prepareAutoKey bench autoKey = (.ok found, t') ∧ t'.timeless = t.timeless := by
  have hsame : Prod.map id timeless (s'.prepareAutoKey bench autoKey)
      = Prod.map id timeless (s.prepareAutoKey bench autoKey) := by
    rw [← prepareAutoKey_timeless, hs, prepareAutoKey_timeless]
  rcases hresult : s'.prepareAutoKey bench autoKey with ⟨result, t'⟩
  rw [hok, hresult] at hsame
  simp only [Prod.map, id, Prod.mk.injEq] at hsame
  exact ⟨t', by rw [hsame.1], hsame.2⟩

/-- What is settled before the first record depends on the benchmarks and their fields only. -/
theorem importPlan_congr (hbenchmarks : s'.benchmarks = s.benchmarks) (hfields : s'.fields = s.fields)
    (bench : String) (bytes : List UInt8) (o : ImportOptions) (autoKey : Option String) :
    s'.importPlan bench bytes o autoKey = s.importPlan bench bytes o autoKey := by
  unfold importPlan require benchmark? insertFields fieldsOf
  rw [hbenchmarks, hfields]

end Store

end BenchPlot
