import BenchPlot.Proofs.Store.Reach

/-!
# What operations leave alone

An operation is about one benchmark, which it names; a renaming is about the benchmark that has the old
name. Whatever it does, all other benchmarks stay, with their fields, indices, experiments and tables.

Main statement: `Sound.leavesAlone_apply`.
-/

namespace BenchPlot

/-- The written name of the benchmark that an operation is about. -/
def Operation.bench : Operation → String
  | .createBenchmark name _ | .ensureBenchmark name | .setDescription name _ | .removeBenchmark name => name
  | .renameBenchmark old _ => old
  | .addField bench _ | .removeField bench _ | .renameField bench _ _ => bench
  | .setNumeric bench _ _ | .setKey bench _ _ => bench
  | .createIndex bench _ _ | .dropIndex bench _ => bench
  | .insert bench _ | .importCsv bench _ _ _ => bench
  | .setOutlier bench _ _ | .setOutlierWhere bench _ _ => bench
  | .delete bench _ | .deleteWhere bench _ => bench

namespace Store

variable {s s' s'' t : Store} {b c : Benchmark}

/-! ## §1 The relation -/

/-- A benchmark is there as before, and so is all that is kept of it. -/
structure LeavesAlone (c : Benchmark) (s s' : Store) : Prop where
  mem : c ∈ s'.benchmarks
  holding : s'.holding c = s.holding c

namespace LeavesAlone

theorem refl (hc : c ∈ s.benchmarks) : LeavesAlone c s s := ⟨hc, rfl⟩

theorem trans (h : LeavesAlone c s s') (h' : LeavesAlone c s' s'') : LeavesAlone c s s'' :=
  ⟨h'.mem, h'.holding.trans h.holding⟩

theorem touch (h : LeavesAlone c s s') : LeavesAlone c s s'.touch := ⟨h.mem, h.holding⟩

end LeavesAlone

theorem ChangedOnly.leavesAlone (h : ChangedOnly b s s') (hs : s.Sound) (hb : b ∈ s.benchmarks)
    (hc : c ∈ s.benchmarks) (hne : c.id ≠ b.id) : LeavesAlone c s s' := by
  refine ⟨?_, h.holding hne (hs.table_ne hb hc hne)⟩
  rw [h.benchmarks]
  exact hc

theorem Sound.id_ne_of_name_ne (h : s.Sound) (hb : b ∈ s.benchmarks) (hc : c ∈ s.benchmarks)
    (hother : b.name ≠ c.name) : c.id ≠ b.id := by
  intro heq
  exact hother (congrArg Benchmark.name (h.eq_of_id_eq hb hc heq.symm))

/-- The benchmark that a text names is another one than a benchmark that it does not name. -/
theorem Sound.id_ne_of_found (h : s.Sound) (hc : c ∈ s.benchmarks) {written name : String}
    (hother : canonical written ≠ .ok c.name) (hname : canonical written = .ok name)
    (hfound : s.benchmark? name = some b) : b ∈ s.benchmarks ∧ c.id ≠ b.id := by
  obtain ⟨hb, rfl⟩ := of_benchmark?_eq_some hfound
  refine ⟨hb, h.id_ne_of_name_ne hb hc ?_⟩
  intro heq
  exact hother (heq ▸ hname)

/-- The benchmark that two texts name is one. -/
theorem Sound.eq_of_found (h : s.Sound) (hc : c ∈ s.benchmarks) {written name : String}
    (hwritten : canonical written = .ok c.name) (hname : canonical written = .ok name)
    (hfound : s.benchmark? name = some b) : c = b := by
  obtain ⟨hb, hbname⟩ := of_benchmark?_eq_some hfound
  refine h.eq_of_name_eq hc hb (Eq.trans ?_ hbname.symm)
  exact Except.ok.inj (hwritten.symm.trans hname)

/-! ## §2 Benchmarks -/

theorem insertBenchmark_leavesAlone (hc : c ∈ s.benchmarks) (name : String) (description : Option String) :
    LeavesAlone c s (s.insertBenchmark name description).2 :=
  ⟨List.mem_append_left _ hc, rfl⟩

theorem ensure_leavesAlone (hc : c ∈ s.benchmarks) {name : String} (heq : s.ensure name = (b, s')) :
    LeavesAlone c s s' := by
  rcases ensure_cases heq with ⟨_, rfl⟩ | ⟨_, hmade⟩
  · exact .refl hc
  · cases hmade
    exact insertBenchmark_leavesAlone hc name none

theorem Sound.replaceBenchmark_leavesAlone (h : s.Sound) (hb : b ∈ s.benchmarks) (hc : c ∈ s.benchmarks)
    (hne : c.id ≠ b.id) {d : Benchmark} (hid : d.id = b.id)
    (hname : d.name = b.name ∨ ∀ e ∈ s.benchmarks, e.name ≠ d.name) (l : List PhysicalIndex) :
    LeavesAlone c s (s.replaceBenchmark b d l) :=
  ⟨(mem_putBenchmark hid hb).mpr (.inr ⟨hc, hne⟩), h.replaceBenchmark_other hb hname hc hne l⟩

/-! ## §3 Fields -/

theorem Sound.addField_leavesAlone (h : s.Sound) (hc : c ∈ s.benchmarks) {written : String} {new : NewField}
    {f : Field} (hother : canonical written ≠ .ok c.name) (hok : s.addField written new = .ok (f, s')) :
    LeavesAlone c s s' := by
  obtain ⟨bench, default, b, s₁, t, hbench, _, hensure, hbname, h₁, hb, howner, _, _, _, ht, _, _, _, rfl⟩ :=
    h.addField_eq_ok hok
  have hc₁ : LeavesAlone c s s₁ := ensure_leavesAlone hc hensure
  have hne : c.id ≠ b.id := h₁.id_ne_of_name_ne hb hc₁.mem fun heq => hother (by rw [hbench, ← hbname, heq])
  have hrebuilt : ChangedOnly b s₁ t := (putNewField_changedOnly howner).trans (rebuild_changedOnly ht)
  have hfilled : ChangedOnly b s₁
      (if default.isNull then t else t.updateTable b.table (·.fill f.column default)) := by
    split
    · exact hrebuilt
    · exact hrebuilt.trans (.updateTable fun _ => rfl)
  exact (hc₁.trans (hfilled.leavesAlone h₁ hb hc₁.mem hne)).touch

/-- What the operations on fields have in common that take away or change one: either nothing changes, or the
    records of the named benchmark do, and then its table is built anew. -/
inductive RemadeFor (s : Store) (written : String) : Store → Prop where
  | unchanged : RemadeFor s written s
  | rebuilt {name : String} {b : Benchmark} {t u : Store} {previous current : List Field}
      (hname : canonical written = .ok name) (hfound : s.benchmark? name = some b)
      (hchanged : ChangedOnly b s t) (hphysical : t.physicalIndices = s.physicalIndices)
      (hrebuilt : t.rebuild b previous current = .ok u) : RemadeFor s written u.touch

theorem Sound.removeField_remade (h : s.Sound) {written writtenField : String}
    (hok : s.removeField written writtenField = .ok s') : RemadeFor s written s' := by
  obtain ⟨_, _, b, f, t, hname, _, hfound, _, hf, _, ht, rfl⟩ := removeField_eq_ok hok
  rw [h.fieldsOf_eq (of_benchmark?_eq_some hfound).1] at hf
  exact .rebuilt hname hfound (h.withoutField_changedOnly hf) rfl ht

theorem Sound.renameField_remade (h : s.Sound) {written writtenField writtenNew : String} {g : Field}
    (hok : s.renameField written writtenField writtenNew = .ok (g, s')) : RemadeFor s written s' := by
  obtain ⟨_, _, new, b, f, hname, _, _, hfound, hf, _, ⟨_, _, rfl⟩ | ⟨_, rfl, t, ht, rfl⟩⟩ :=
    renameField_eq_ok hok
  · exact .unchanged
  · rw [h.fieldsOf_eq (of_benchmark?_eq_some hfound).1] at hf
    have hreplaces : s.Replaces b f { f with name := new } := ⟨hf, rfl, rfl, rfl⟩
    have hchanged := (hreplaces.changedOnly h).trans (renameInIndices_changedOnly _ b f.name new)
    exact .rebuilt hname hfound hchanged rfl ht

theorem Sound.setNumeric_remade (h : s.Sound) {written writtenField : String} {flag : Bool}
    (hok : s.setNumeric written writtenField flag = .ok s') : RemadeFor s written s' := by
  obtain ⟨_, _, b, f, hname, _, hfound, hf, _, ⟨_, rfl⟩ | ⟨_, t, ht, rfl⟩⟩ := setNumeric_eq_ok hok
  · exact .unchanged
  · rw [h.fieldsOf_eq (of_benchmark?_eq_some hfound).1] at hf
    have hreplaces : s.Replaces b f { f with numeric := flag } := ⟨hf, rfl, rfl, rfl⟩
    exact .rebuilt hname hfound (hreplaces.changedOnly h) rfl ht

theorem Sound.leavesAlone_of_remade (h : s.Sound) (hc : c ∈ s.benchmarks) {written : String}
    (hother : canonical written ≠ .ok c.name) (hremade : RemadeFor s written s') : LeavesAlone c s s' := by
  cases hremade with
  | unchanged => exact .refl hc
  | rebuilt hname hfound hchanged _ hrebuilt =>
    obtain ⟨hb, hne⟩ := h.id_ne_of_found hc hother hname hfound
    exact ((hchanged.trans (rebuild_changedOnly hrebuilt)).leavesAlone h hb hc hne).touch

/-! ## §4 Experiments -/

theorem insertValues_changedOnly {fields : List Field} {values : SortedMap String String}
    {outcome : InsertOutcome} (hok : s.insertValues b fields values = .ok (outcome, s')) :
    ChangedOnly b s s' := by
  obtain ⟨typed, _, ⟨e, _, _, rfl⟩ | ⟨_, _, rfl⟩⟩ := insertValues_eq_ok hok
  · exact ⟨rfl, .refl, .refl, .refl, fun _ _ => rfl⟩
  · exact addExperiment_changedOnly ..

theorem Sound.importCsv_leavesAlone (h : s.Sound) (hc : c ∈ s.benchmarks) {written : String}
    (hother : canonical written ≠ .ok c.name) (bytes : List UInt8) (o : ImportOptions) (stop : Nat → Bool) :
    LeavesAlone c s (s.importCsv written bytes o stop).store := by
  -- The stores of an import are sound all along, which is what each further step asks for.
  let P : Store → Prop := fun s' => LeavesAlone c s s' ∧ s'.Sound
  suffices hboth : P (s.importCsv written bytes o stop).store from hboth.1
  have hstart : P s := ⟨.refl hc, h⟩
  refine importCsv_induction stop hstart (fun name hname => ?_)
    fun s₁ plan skipped reader name autoKey hname h₁ hplan => ?_
  · have hcanonical := isCanonical_of_canonical hname
    have hnamed : canonical name ≠ .ok c.name := by
      intro heq
      rw [hname] at hother
      exact hother ((mapError_eq_ok.2 hcanonical).symm.trans heq)
    refine prepareAutoKey_induction o.autoKey hstart (fun b s₁ heq => ?_) fun s₁ s₂ f new h₁ hok => ?_
    · exact ⟨ensure_leavesAlone hc heq, (h.ensure hcanonical heq).1⟩
    · exact ⟨h₁.1.trans (h₁.2.addField_leavesAlone h₁.1.mem hnamed hok), h₁.2.addField hok⟩
  · have hfits : plan.Fits s₁ := h₁.2.fits_importPlan hplan
    have hfound : s₁.benchmark? name = some plan.benchmark := by
      obtain ⟨b, _, _, hfound, _, _, _, _, rfl, _⟩ := importPlan_eq_ok hplan
      exact hfound
    obtain ⟨_, hne⟩ := h₁.2.id_ne_of_found h₁.1.mem hother hname hfound
    -- Each row goes into the benchmark of the plan.
    have hkeeps : plan.Keeps fun s' => LeavesAlone c s s' ∧ plan.Fits s' := by
      refine ⟨fun h => ⟨h.1.touch, h.2.touch⟩, fun h hok => ?_⟩
      have hleft := (insertValues_changedOnly hok).leavesAlone h.2.sound h.2.benchmark h.1.mem hne
      exact ⟨h.1.trans hleft, h.2.insertValues hok⟩
    have hrun := (hkeeps.run (p := .start s₁) ⟨⟨h₁.1, hfits⟩, ⟨h₁.1, hfits⟩⟩ o.chunkSize stop
      reader.records).committed
    exact ⟨hrun.1, hrun.2.sound⟩

/-! ## §5 All operations -/

/-- An operation leaves every benchmark alone that it does not name. -/
theorem Sound.leavesAlone_apply (h : s.Sound) (hc : c ∈ s.benchmarks) {op : Operation}
    (hother : canonical op.bench ≠ .ok c.name) : LeavesAlone c s (s.apply op) := by
  have hrefl : LeavesAlone c s s := .refl hc
  cases op with
  | createBenchmark =>
    refine orKeep_map_induction hrefl fun b s' hok => ?_
    obtain ⟨name, _, _, _, rfl⟩ := createBenchmark_eq_ok hok
    exact (insertBenchmark_leavesAlone hc name _).touch
  | ensureBenchmark =>
    refine orKeep_map_induction hrefl fun b s' hok => ?_
    obtain ⟨name, _, hok⟩ := bind_eq_ok.1 hok
    exact ensure_leavesAlone hc (Except.ok.inj hok)
  | renameBenchmark =>
    refine orKeep_map_induction hrefl fun b s' hok => ?_
    obtain ⟨_, new, found, hname, _, hfound, ⟨_, _, rfl⟩ | ⟨hfree, rfl, t, ht, rfl⟩⟩ :=
      renameBenchmark_eq_ok hok
    · exact hrefl
    · obtain ⟨hb, hne⟩ := h.id_ne_of_found hc hother hname hfound
      obtain ⟨l, rfl⟩ := renameTable_eq_ok ht
      exact (h.replaceBenchmark_leavesAlone (d := { found with name := new }) hb hc hne rfl
        (.inr (benchmark?_eq_none.1 hfree)) l).touch
  | setDescription _ description =>
    refine orKeep_induction hrefl fun s' hok => ?_
    obtain ⟨_, b, hname, hfound, rfl⟩ := setDescription_eq_ok hok
    obtain ⟨hb, hne⟩ := h.id_ne_of_found hc hother hname hfound
    rw [putBenchmark_eq_replaceBenchmark (b := b) (c := { b with description := description }) rfl]
    exact (h.replaceBenchmark_leavesAlone (d := { b with description := description }) hb hc hne rfl
      (.inl rfl) _).touch
  | removeBenchmark =>
    refine orKeep_induction hrefl fun s' hok => ?_
    obtain ⟨_, b, hname, hfound, _, _, rfl⟩ := removeBenchmark_eq_ok hok
    obtain ⟨hb, hne⟩ := h.id_ne_of_found hc hother hname hfound
    refine LeavesAlone.touch ⟨?_, ?_⟩
    · exact List.mem_filter.mpr ⟨hc, bne_iff_ne.mpr hne⟩
    · exact (dropHolding_changedOnly s b).holding hne (h.table_ne hb hc hne)
  | addField => exact orKeep_map_induction hrefl fun f s' hok => h.addField_leavesAlone hc hother hok
  | removeField =>
    exact orKeep_induction hrefl fun s' hok => h.leavesAlone_of_remade hc hother (h.removeField_remade hok)
  | renameField =>
    exact orKeep_map_induction hrefl fun g s' hok =>
      h.leavesAlone_of_remade hc hother (h.renameField_remade hok)
  | setNumeric =>
    exact orKeep_induction hrefl fun s' hok => h.leavesAlone_of_remade hc hother (h.setNumeric_remade hok)
  | setKey _ _ flag =>
    refine orKeep_induction hrefl fun s' hok => ?_
    obtain ⟨_, _, b, f, hname, _, hfound, hf, _, ⟨_, rfl⟩ | ⟨_, rfl⟩⟩ := setKey_eq_ok hok
    · exact hrefl
    · obtain ⟨hb, hne⟩ := h.id_ne_of_found hc hother hname hfound
      rw [h.fieldsOf_eq hb] at hf
      have hreplaces : s.Replaces b f { f with key := flag } := ⟨hf, rfl, rfl, rfl⟩
      exact ((hreplaces.changedOnly h).leavesAlone h hb hc hne).touch
  | createIndex =>
    refine orKeep_map_induction hrefl fun i s' hok => ?_
    obtain ⟨_, _, b, hname, _, hfound, _, _, howner, _, _, _, _, rfl⟩ := createIndex_eq_ok hok
    obtain ⟨hb, hne⟩ := h.id_ne_of_found hc hother hname hfound
    obtain ⟨l, hl⟩ := makePhysicalIndex_eq (s.putNewIndex i) b i
    rw [hl]
    have hleft := (putNewIndex_changedOnly (s := s) howner).leavesAlone h hb hc hne
    exact LeavesAlone.touch ⟨hleft.mem, hleft.holding⟩
  | dropIndex =>
    refine orKeep_induction hrefl fun s' hok => ?_
    obtain ⟨_, name, b, hname, _, hfound, _, rfl⟩ := dropIndex_eq_ok hok
    obtain ⟨hb, hne⟩ := h.id_ne_of_found hc hother hname hfound
    have hleft := (withoutIndex_changedOnly s b name).leavesAlone h hb hc hne
    exact LeavesAlone.touch ⟨hleft.mem, hleft.holding⟩
  | insert =>
    refine orKeep_map_induction hrefl fun outcome s' hok => ?_
    obtain ⟨_, _, b, t, hname, _, hfound, _, ht, rfl⟩ := insert_eq_ok hok
    obtain ⟨hb, hne⟩ := h.id_ne_of_found hc hother hname hfound
    have hleft := (insertValues_changedOnly ht).leavesAlone h hb hc hne
    split
    · exact hleft.touch
    · exact hleft
  | importCsv _ bytes o stop => exact h.importCsv_leavesAlone hc hother bytes o stop
  | setOutlier =>
    refine orKeep_induction hrefl fun s' hok => ?_
    obtain ⟨_, b, hname, hfound, rfl⟩ := setOutlier_eq_ok hok
    obtain ⟨hb, hne⟩ := h.id_ne_of_found hc hother hname hfound
    exact ((mark_changedOnly ..).leavesAlone h hb hc hne).touch
  | setOutlierWhere =>
    refine orKeep_map_induction hrefl fun n s' hok => ?_
    obtain ⟨_, b, _, hname, hfound, _, rfl⟩ := setOutlierWhere_eq_ok hok
    obtain ⟨hb, hne⟩ := h.id_ne_of_found hc hother hname hfound
    exact ((mark_changedOnly ..).leavesAlone h hb hc hne).touch
  | delete =>
    refine orKeep_map_induction hrefl fun n s' hok => ?_
    obtain ⟨_, b, hname, hfound, rfl⟩ := delete_eq_ok hok
    obtain ⟨hb, hne⟩ := h.id_ne_of_found hc hother hname hfound
    exact ((erase_changedOnly ..).leavesAlone h hb hc hne).touch
  | deleteWhere =>
    refine orKeep_map_induction hrefl fun n s' hok => ?_
    obtain ⟨_, b, _, hname, hfound, _, rfl⟩ := deleteWhere_eq_ok hok
    obtain ⟨hb, hne⟩ := h.id_ne_of_found hc hother hname hfound
    exact ((erase_changedOnly ..).leavesAlone h hb hc hne).touch

end Store

end BenchPlot
