import BenchPlot.Proofs.Store.Reach

/-!
# Later stores

What a history says about the store behind it: no number is given away twice. The last numbers grow, and a
field that was not there before has a number above all that were given away until then.

Main statements: `Later.run` and `Later.number_lt`.
-/

namespace BenchPlot.Store

variable {s s' s'' : Store}

/-! ## §1 The relation -/

/-- A store that comes later has given away more numbers, and each of its fields was there or is newer. -/
structure Later (s s' : Store) : Prop where
  lastField : s.last.field ≤ s'.last.field
  lastExperiment : s.last.experiment ≤ s'.last.experiment
  fields : ∀ f ∈ s'.fields, f.id ∈ s.fields.map (·.id) ∨ s.last.field < f.id

namespace Later

theorem refl (s : Store) : Later s s :=
  ⟨Nat.le_refl _, Nat.le_refl _, fun _ hf => .inl (List.mem_map_of_mem hf)⟩

theorem trans (h : Later s s') (h' : Later s' s'') : Later s s'' := by
  refine ⟨Nat.le_trans h.lastField h'.lastField, Nat.le_trans h.lastExperiment h'.lastExperiment,
    fun f hf => ?_⟩
  rcases h'.fields f hf with hold | hnew
  · obtain ⟨g, hg, hid⟩ := List.mem_map.mp hold
    exact hid ▸ h.fields g hg
  · exact .inr (Nat.lt_of_le_of_lt h.lastField hnew)

/-- What touches neither fields nor numbers leads to a later store. -/
theorem of_eq (hfields : s'.fields = s.fields) (hlast : s.last.field ≤ s'.last.field)
    (hexperiment : s.last.experiment ≤ s'.last.experiment) : Later s s' :=
  ⟨hlast, hexperiment, fun _ hf => .inl (List.mem_map_of_mem (hfields ▸ hf))⟩

theorem touch (h : Later s s') : Later s s'.touch :=
  ⟨h.lastField, h.lastExperiment, h.fields⟩

theorem rebuild {t : Store} {b : Benchmark} {previous current : List Field} (h : Later s t)
    (hok : t.rebuild b previous current = .ok s') : Later s s' := by
  obtain ⟨l, rfl⟩ := rebuild_eq_ok hok
  exact ⟨h.lastField, h.lastExperiment, h.fields⟩

theorem putField (g : Field) : Later s (s.putField g) := by
  refine ⟨Nat.le_refl _, Nat.le_refl _, fun f hf => .inl ?_⟩
  obtain ⟨f₀, hf₀, rfl⟩ := List.mem_map.mp hf
  split
  · rename_i hid
    exact eq_of_beq hid ▸ List.mem_map_of_mem hf₀
  · exact List.mem_map_of_mem hf₀

/-- In a later store, a field that is newer than the store has a number above those of older ones. -/
theorem number_lt (h : Later s s') (hs : s.Sound) {f f' : Field} (hf : f.id ∈ s.fields.map (·.id))
    (hf' : f' ∈ s'.fields) (hnew : f'.id ∉ s.fields.map (·.id)) : f.id < f'.id := by
  obtain ⟨g, hg, hid⟩ := List.mem_map.mp hf
  have hle : f.id ≤ s.last.field := hid ▸ hs.numbers.fields.le_last g hg
  exact Nat.lt_of_le_of_lt hle ((h.fields f' hf').resolve_left hnew)

/-! ## §2 Operations -/

theorem ensure {name : String} {b : Benchmark} (heq : s.ensure name = (b, s')) : Later s s' := by
  rcases ensure_cases heq with ⟨_, rfl⟩ | ⟨_, hmade⟩
  · exact refl s'
  · cases hmade
    exact of_eq rfl (Nat.le_refl _) (Nat.le_refl _)

theorem addField {written : String} {new : NewField} {f : Field}
    (hok : s.addField written new = .ok (f, s')) : Later s s' := by
  obtain ⟨_, _, default, b, s₁, t, _, _, _, hensure, _, _, hf, ht, rfl⟩ := addField_eq_ok hok
  have hid : f.id = s₁.last.field + 1 := by rw [hf]
  have hnew : Later s₁ (s₁.putNewField f) := by
    refine ⟨?_, Nat.le_refl _, fun g hg => ?_⟩
    · show s₁.last.field ≤ f.id
      omega
    · rcases List.mem_append.mp hg with hold | hlast
      · exact .inl (List.mem_map_of_mem hold)
      · rw [List.mem_singleton.mp hlast]
        exact .inr (by omega)
  have ht' : Later s t := ((ensure hensure).trans hnew).rebuild ht
  split
  · exact ht'.touch
  · exact ht'.trans (of_eq rfl (Nat.le_refl _) (Nat.le_refl _))

theorem insertValues {b : Benchmark} {fields : List Field} {values : SortedMap String String}
    {outcome : InsertOutcome} (hok : s.insertValues b fields values = .ok (outcome, s')) : Later s s' := by
  obtain ⟨typed, _, ⟨e, _, _, rfl⟩ | ⟨_, _, rfl⟩⟩ := insertValues_eq_ok hok
  · exact of_eq rfl (Nat.le_refl _) (Nat.le_succ _)
  · exact of_eq rfl (Nat.le_refl _) (Nat.le_succ _)

theorem insert {written : String} {values : SortedMap String String} {outcome : InsertOutcome}
    (hok : s.insert written values = .ok (outcome, s')) : Later s s' := by
  obtain ⟨_, _, _, t, _, _, _, _, ht, rfl⟩ := insert_eq_ok hok
  split
  · exact (insertValues ht).touch
  · exact insertValues ht

theorem keeps (s : Store) (plan : ImportPlan) : plan.Keeps (Later s) :=
  ⟨touch, fun h hok => h.trans (insertValues hok)⟩

theorem prepareAutoKey (s : Store) (bench : String) (autoKey : Option String) :
    Later s (s.prepareAutoKey bench autoKey).2 := by
  refine prepareAutoKey_induction autoKey (refl s) (fun b s₁ heq => ?_) fun s₁ s₂ f new h₁ hok => ?_
  · exact ensure heq
  · exact h₁.trans (addField hok)

theorem importCsv (s : Store) (bench : String) (bytes : List UInt8) (o : ImportOptions) (stop : Nat → Bool) :
    Later s (s.importCsv bench bytes o stop).store := by
  refine importCsv_induction stop (refl s) (fun name _ => prepareAutoKey s name o.autoKey)
    fun s₁ plan skipped reader name autoKey _ h₁ _ => ?_
  exact ((keeps s plan).run ⟨h₁, h₁⟩ o.chunkSize stop reader.records).committed

theorem apply (s : Store) (op : Operation) : Later s (s.apply op) := by
  -- Only new fields and new experiments are given numbers; all else moves or drops records.
  cases op with
  | createBenchmark =>
    refine orKeep_map_induction (refl s) fun b s' hok => ?_
    obtain ⟨_, _, _, _, rfl⟩ := createBenchmark_eq_ok hok
    exact touch (of_eq rfl (Nat.le_refl _) (Nat.le_refl _))
  | ensureBenchmark =>
    refine orKeep_map_induction (refl s) fun b s' hok => ?_
    obtain ⟨name, _, hok⟩ := bind_eq_ok.1 hok
    exact ensure (Except.ok.inj hok)
  | renameBenchmark =>
    refine orKeep_map_induction (refl s) fun b s' hok => ?_
    obtain ⟨_, _, _, _, _, _, ⟨_, _, rfl⟩ | ⟨_, _, t, ht, rfl⟩⟩ := renameBenchmark_eq_ok hok
    · exact refl _
    · obtain ⟨l, rfl⟩ := renameTable_eq_ok ht
      exact touch (of_eq rfl (Nat.le_refl _) (Nat.le_refl _))
  | setDescription =>
    refine orKeep_induction (refl s) fun s' hok => ?_
    obtain ⟨_, _, _, _, rfl⟩ := setDescription_eq_ok hok
    exact touch (of_eq rfl (Nat.le_refl _) (Nat.le_refl _))
  | removeBenchmark =>
    refine orKeep_induction (refl s) fun s' hok => ?_
    obtain ⟨_, _, _, _, _, _, rfl⟩ := removeBenchmark_eq_ok hok
    exact touch (of_eq rfl (Nat.le_refl _) (Nat.le_refl _))
  | addField => exact orKeep_map_induction (refl s) fun _ _ => addField
  | removeField =>
    refine orKeep_induction (refl s) fun s' hok => ?_
    obtain ⟨_, _, b, f, t, _, _, _, _, _, _, ht, rfl⟩ := removeField_eq_ok hok
    have hless : Later s (s.withoutField b f) :=
      ⟨Nat.le_refl _, Nat.le_refl _, fun g hg => .inl (List.mem_map_of_mem (List.mem_of_mem_filter hg))⟩
    exact (hless.rebuild ht).touch
  | renameField =>
    refine orKeep_map_induction (refl s) fun g s' hok => ?_
    obtain ⟨_, _, new, b, f, _, _, _, _, _, _, ⟨_, _, rfl⟩ | ⟨_, _, t, ht, rfl⟩⟩ :=
      renameField_eq_ok hok
    · exact refl _
    · -- A field with another name has its old number.
      have hput : Later s ((s.putField g).renameInIndices b f.name new) := (putField g).trans
        (of_eq rfl (Nat.le_refl _) (Nat.le_refl _))
      exact (hput.rebuild ht).touch
  | setNumeric =>
    refine orKeep_induction (refl s) fun s' hok => ?_
    obtain ⟨_, _, _, _, _, _, _, _, _, ⟨_, rfl⟩ | ⟨_, t, ht, rfl⟩⟩ := setNumeric_eq_ok hok
    · exact refl _
    · exact ((putField _).rebuild ht).touch
  | setKey =>
    refine orKeep_induction (refl s) fun s' hok => ?_
    obtain ⟨_, _, _, _, _, _, _, _, _, ⟨_, rfl⟩ | ⟨_, rfl⟩⟩ := setKey_eq_ok hok
    · exact refl _
    · exact (putField _).touch
  | createIndex =>
    refine orKeep_map_induction (refl s) fun i s' hok => ?_
    obtain ⟨_, _, b, _, _, _, _, _, _, _, _, _, _, rfl⟩ := createIndex_eq_ok hok
    obtain ⟨l, hl⟩ := makePhysicalIndex_eq (s.putNewIndex i) b i
    rw [hl]
    exact touch (of_eq rfl (Nat.le_refl _) (Nat.le_refl _))
  | dropIndex =>
    refine orKeep_induction (refl s) fun s' hok => ?_
    obtain ⟨_, _, _, _, _, _, _, rfl⟩ := dropIndex_eq_ok hok
    exact touch (of_eq rfl (Nat.le_refl _) (Nat.le_refl _))
  | insert => exact orKeep_map_induction (refl s) fun _ _ => insert
  | importCsv bench bytes options stop => exact importCsv s bench bytes options stop
  | setOutlier =>
    refine orKeep_induction (refl s) fun s' hok => ?_
    obtain ⟨_, _, _, _, rfl⟩ := setOutlier_eq_ok hok
    exact touch (of_eq rfl (Nat.le_refl _) (Nat.le_refl _))
  | setOutlierWhere =>
    refine orKeep_map_induction (refl s) fun n s' hok => ?_
    obtain ⟨_, _, _, _, _, _, rfl⟩ := setOutlierWhere_eq_ok hok
    exact touch (of_eq rfl (Nat.le_refl _) (Nat.le_refl _))
  | delete =>
    refine orKeep_map_induction (refl s) fun n s' hok => ?_
    obtain ⟨_, _, _, _, rfl⟩ := delete_eq_ok hok
    exact touch (of_eq rfl (Nat.le_refl _) (Nat.le_refl _))
  | deleteWhere =>
    refine orKeep_map_induction (refl s) fun n s' hok => ?_
    obtain ⟨_, _, _, _, _, _, rfl⟩ := deleteWhere_eq_ok hok
    exact touch (of_eq rfl (Nat.le_refl _) (Nat.le_refl _))

/-- A history leads to a later store. -/
theorem run (s : Store) (history : List (String × Operation)) : Later s (s.run history) := by
  induction history generalizing s with
  | nil => exact refl s
  | cons p rest ih =>
    have hclock : Later s (s.atTime p.1) := of_eq rfl (Nat.le_refl _) (Nat.le_refl _)
    exact (hclock.trans (apply _ p.2)).trans (ih _)

end Later

end BenchPlot.Store
