import BenchPlot.Proofs.Store.ImportSteps

/-!
# Key fields of digests

An import may ask for a key field that it fills with digests. What it asks for is there already, or it is
made, with its benchmark if that is missing; a second asking changes nothing.

Main statements: `ensureAutoKey_cases`, `Sound.ensureAutoKey_eq_ok` and `ensureAutoKey_of_hasTextKey`.
-/

namespace BenchPlot.Store

variable {s s' : Store} {b : Benchmark} {name : String}

/-! ## §1 The benchmark -/

theorem benchmark?_of_ensure (h : s.ensure name = (b, s')) : s'.benchmark? name = some b := by
  rcases ensure_cases h with ⟨hfound, rfl⟩ | ⟨hmissing, hmade⟩
  · exact hfound
  · -- The new benchmark comes last, and none before it has the name.
    cases hmade
    unfold benchmark? at hmissing ⊢
    rw [List.find?_append, hmissing]
    simp

theorem ensure_of_benchmark? (h : s.benchmark? name = some b) : s.ensure name = (b, s) := by
  unfold ensure
  rw [h]

/-! ## §2 The field -/

/-- A field is added alike before and after its benchmark was made. -/
theorem addField_ensure (hname : IsCanonical name) (h : s.ensure name = (b, s')) (new : NewField) :
    s'.addField name new = s.addField name new := by
  have hcanonical : canonical name = .ok name := mapError_eq_ok.2 hname
  have hagain : s'.ensure name = (b, s') := ensure_of_benchmark? (benchmark?_of_ensure h)
  unfold addField
  simp only [hcanonical, bind, Except.bind, h, hagain]

/-- The benchmark with a canonical name has a text key field with a canonical name. -/
def HasTextKey (s : Store) (name column : String) : Prop :=
  ∃ b f, s.benchmark? name = some b ∧ (s.fieldsOf b).find? (·.name == column) = some f
    ∧ f.key = true ∧ f.numeric = false

/-- A new text key field of a benchmark is found under its name. -/
theorem Sound.hasTextKey_addField (h : s.Sound) (hb : s.benchmark? name = some b)
    (hname : IsCanonical name) {column : String} {f : Field}
    (hok : s.addField name ⟨column, false, true, none⟩ = .ok (f, s')) : s'.HasTextKey name f.name := by
  have hsound : s'.Sound := h.addField hok
  obtain ⟨_, hnumeric, hkey⟩ := addField_field hok
  obtain ⟨bench, default, b', s₁, t, hbench, _, hensure, _, _, _, _, _, _, _, ht, _, hfields, _, rfl⟩ :=
    h.addField_eq_ok hok
  have hbname : name = bench := Except.ok.inj ((mapError_eq_ok.2 hname).symm.trans hbench)
  rw [← hbname, ensure_of_benchmark? hb] at hensure
  cases hensure
  have hbenchmarks : t.benchmarks = s.benchmarks := (rebuild_changedOnly ht).benchmarks
  -- Neither filling in the default nor the time of the change is seen by the benchmarks and the fields.
  generalize hs' : (if default.isNull then t else t.updateTable b.table (·.fill f.column default)).touch = s'
    at hsound
  have hkept : s'.benchmarks = s.benchmarks ∧ s'.ownFields b = s.ownFields b ++ [f] := by
    rw [← hs']
    split <;> exact ⟨hbenchmarks, hfields⟩
  have hmem : b ∈ s'.benchmarks := hkept.1 ▸ (of_benchmark?_eq_some hb).1
  refine ⟨b, f, ?_, ?_, hkey, hnumeric⟩
  · unfold benchmark?
    rw [hkept.1]
    exact hb
  · have hf : f ∈ s'.ownFields b := by
      rw [hkept.2]
      exact List.mem_append_right _ (List.mem_singleton_self f)
    rw [hsound.fieldsOf_eq hmem]
    exact find?_eq_some_of_mem (hsound.holdings b hmem).fieldNames hf

/-- Who asks for a key field of digests that is there gets it, and nothing changes. -/
theorem ensureAutoKey_of_hasTextKey {key column : String} (h : s.HasTextKey name column)
    (hkey : canonical key = .ok column) : s.ensureAutoKey name key = (.ok column, s) := by
  obtain ⟨b, f, hb, hf, hfkey, hnumeric⟩ := h
  have hfname : f.name = column := by simpa using List.find?_some hf
  unfold ensureAutoKey
  rw [hkey, ensure_of_benchmark? hb]
  simp [hf, hfkey, hnumeric, hfname]

theorem Sound.ensureAutoKey_eq_ok (h : s.Sound) (hname : IsCanonical name) {key column : String}
    (hok : s.ensureAutoKey name key = (.ok column, s')) :
    canonical key = .ok column ∧ s'.HasTextKey name column := by
  unfold ensureAutoKey at hok
  cases hkey : canonical key with
  | error e =>
    rw [hkey] at hok
    cases hok
  | ok found =>
    rw [hkey] at hok
    dsimp only at hok
    rcases hensure : s.ensure name with ⟨b, s₁⟩
    have hb : s₁.benchmark? name = some b := benchmark?_of_ensure hensure
    have h₁ : s₁.Sound := (h.ensure hname hensure).1
    rw [hensure] at hok
    dsimp only at hok
    split at hok
    · -- The field is there, and a text key.
      rename_i f hf
      have hfname : f.name = found := by simpa using List.find?_some hf
      split at hok
      · rename_i htext
        cases hok
        simp only [Bool.and_eq_true, Bool.not_eq_true'] at htext
        exact ⟨congrArg Except.ok hfname.symm, b, f, hb, hfname ▸ hf, htext⟩
      · cases hok
    · -- The field is added.
      split at hok
      · rename_i f s₂ hadded
        cases hok
        have hfname : f.name = found :=
          Except.ok.inj ((addField_field hadded).1.symm.trans
            (mapError_eq_ok.2 (isCanonical_of_canonical hkey)))
        exact ⟨congrArg Except.ok hfname.symm, h₁.hasTextKey_addField hb hname hadded⟩
      · cases hok

/-- An import asks for no key field, or it has one behind its preparation. -/
theorem prepareAutoKey_eq_ok {autoKey found : Option String}
    (hok : s.prepareAutoKey name autoKey = (.ok found, s')) :
    autoKey = none ∧ found = none ∧ s' = s
      ∨ ∃ key column, autoKey = some key ∧ found = some column
        ∧ s.ensureAutoKey name key = (.ok column, s') := by
  cases autoKey with
  | none =>
    cases hok
    exact .inl ⟨rfl, rfl, rfl⟩
  | some key =>
    unfold prepareAutoKey at hok
    dsimp only at hok
    rcases hensured : s.ensureAutoKey name key with ⟨e | column, t⟩
    · rw [hensured] at hok
      cases hok
    · rw [hensured] at hok
      cases hok
      exact .inr ⟨key, column, rfl, rfl, hensured⟩

/-- What is asked for a key field of digests leaves the store, the store with the benchmark, or the store
    with the field. -/
theorem ensureAutoKey_cases (hname : IsCanonical name) (key : String) :
    (s.ensureAutoKey name key).2 = s
      ∨ (s.benchmark? name = none ∧ (s.ensureAutoKey name key).2 = (s.insertBenchmark name none).2)
      ∨ ∃ column f, canonical key = .ok column
        ∧ s.addField name ⟨column, false, true, none⟩ = .ok (f, (s.ensureAutoKey name key).2) := by
  unfold ensureAutoKey
  cases hcolumn : canonical key with
  | error e => exact .inl rfl
  | ok column =>
    rcases hensure : s.ensure name with ⟨b, s₁⟩
    -- Where the field is not added, the benchmark was there or was made.
    have hensured : s₁ = s ∨ s.benchmark? name = none ∧ s₁ = (s.insertBenchmark name none).2 := by
      rcases ensure_cases hensure with ⟨_, hsame⟩ | ⟨hmissing, hmade⟩
      · exact .inl hsame
      · exact .inr ⟨hmissing, congrArg Prod.snd hmade⟩
    dsimp only
    split
    · split <;> exact hensured.imp_right .inl
    · cases hadded : s₁.addField name ⟨column, false, true, none⟩ with
      | error e => exact hensured.imp_right .inl
      | ok result =>
        rw [addField_ensure hname hensure] at hadded
        exact .inr (.inr ⟨column, result.1, rfl, hadded⟩)

end BenchPlot.Store
