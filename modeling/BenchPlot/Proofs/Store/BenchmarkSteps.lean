import BenchPlot.Proofs.Store.Accepted
import BenchPlot.Proofs.Store.Sound

/-!
# Operations on benchmarks keep stores sound

A benchmark comes in under a name that none has, so neither fields nor a table wait for it. A benchmark that
gets another name takes its table along, and one that goes has nothing left that could stay behind.

Main statements: `Sound.ensure`, `Sound.createBenchmark`, `Sound.renameBenchmark`, `Sound.setDescription` and
`Sound.removeBenchmark`.
-/

namespace BenchPlot.Store

variable {s s' : Store} {b c : Benchmark}

/-! ## §1 New benchmarks -/

theorem Sound.holding_eq_empty (h : s.Sound) (hid : ¬s.Knows b.id)
    (hfree : ∀ c ∈ s.benchmarks, c.name ≠ b.name) : s.holding b = ⟨[], [], [], none⟩ := by
  -- Records and tables belong to benchmarks that are there.
  have hnone : ∀ {n : Nat}, s.Knows n → (n == b.id) = false := by
    intro n hn
    rw [beq_eq_false_iff_ne]
    rintro rfl
    exact hid hn
  have hfields : s.ownFields b = [] :=
    List.filter_eq_nil_iff.mpr fun f hf => by simp [hnone (h.fieldOwners f hf)]
  have hindices : s.ownIndices b = [] :=
    List.filter_eq_nil_iff.mpr fun i hi => by simp [hnone (h.indexOwners i hi)]
  have hexperiments : s.experimentsOf b = [] :=
    List.filter_eq_nil_iff.mpr fun e he => by simp [hnone (h.experimentOwners e he)]
  have htable : s.table? b.table = none := by
    refine List.find?_eq_none.mpr fun t ht heq => ?_
    obtain ⟨c, hc, hct⟩ := h.tableOwners t ht
    exact hfree c hc (tableName_inj.1 (hct.trans (eq_of_beq heq)))
  unfold holding
  rw [hfields, hindices, hexperiments, htable]

theorem Sound.not_knows_next (h : s.Sound) : ¬s.Knows (s.last.benchmark + 1) := by
  rintro ⟨c, hc, hcn⟩
  exact Nat.not_succ_le_self _ (hcn ▸ h.numbers.benchmarks.le_last c hc)

theorem Sound.insertBenchmark (h : s.Sound) {name : String} (hname : IsCanonical name)
    (hfree : s.benchmark? name = none) (description : Option String) :
    (s.insertBenchmark name description).2.Sound := by
  have hnumbers := h.numbers
  rw [benchmark?_eq_none] at hfree
  have hknows : ∀ {n : Nat}, s.Knows n → (s.insertBenchmark name description).2.Knows n := by
    rintro n ⟨c, hc, hcn⟩
    exact ⟨c, List.mem_append_left _ hc, hcn⟩
  refine ⟨{ hnumbers with benchmarks := hnumbers.benchmarks.append rfl },
    fun f hf => hknows (h.fieldOwners f hf), fun i hi => hknows (h.indexOwners i hi),
    fun e he => hknows (h.experimentOwners e he), nodup_map_append h.benchmarkNames hfree, h.tableNames,
    fun t ht => ?_, fun c hc => ?_⟩
  · obtain ⟨c, hc, hct⟩ := h.tableOwners t ht
    exact ⟨c, List.mem_append_left _ hc, hct⟩
  · rcases List.mem_append.mp hc with hold | hnew
    · exact h.holdings c hold
    · -- The number of the new benchmark lies above all numbers that records may refer to.
      obtain rfl := List.mem_singleton.mp hnew
      have hempty := h.holding_eq_empty (b := ⟨s.last.benchmark + 1, name, description⟩) h.not_knows_next
        hfree
      exact hempty ▸ Holding.Sound.empty hname

/-- The benchmark that is asked for is there afterwards, and what was kept is as before. -/
theorem Sound.ensure (h : s.Sound) {name : String} (hname : IsCanonical name)
    (heq : s.ensure name = (b, s')) : s'.Sound ∧ b ∈ s'.benchmarks ∧ b.name = name := by
  rcases ensure_cases heq with ⟨hfound, rfl⟩ | ⟨hfree, hmade⟩
  · obtain ⟨hmem, hb⟩ := of_benchmark?_eq_some hfound
    exact ⟨h, hmem, hb⟩
  · cases hmade
    exact ⟨h.insertBenchmark hname hfree none, by simp, rfl⟩

theorem Sound.ensureBenchmark (h : s.Sound) {written : String}
    (hok : s.ensureBenchmark written = .ok (b, s')) : s'.Sound := by
  unfold Store.ensureBenchmark at hok
  obtain ⟨name, hname, hok⟩ := bind_eq_ok.1 hok
  exact (h.ensure (isCanonical_of_canonical hname) (by simpa using Except.ok.inj hok)).1

theorem Sound.createBenchmark (h : s.Sound) {written : String} {description : Option String}
    (hok : s.createBenchmark written description = .ok (b, s')) : s'.Sound := by
  obtain ⟨name, hname, hfree, _, rfl⟩ := createBenchmark_eq_ok hok
  exact (h.insertBenchmark (isCanonical_of_canonical hname) hfree description).touch

/-! ## §2 Benchmarks that are put in place of others -/

theorem putBenchmark_ids (s : Store) (c : Benchmark) :
    (s.putBenchmark c).benchmarks.map (·.id) = s.benchmarks.map (·.id) := by
  simp only [putBenchmark, List.map_map]
  refine List.map_congr_left fun d _ => ?_
  simp only [Function.comp_apply]
  split
  · rename_i heq
    exact (eq_of_beq heq).symm
  · rfl

/-- The benchmarks behind a replacement are the new one and the others. -/
theorem mem_putBenchmark (hc : c.id = b.id) (hb : b ∈ s.benchmarks) {d : Benchmark} :
    d ∈ (s.putBenchmark c).benchmarks ↔ d = c ∨ d ∈ s.benchmarks ∧ d.id ≠ b.id := by
  simp only [putBenchmark, List.mem_map]
  constructor
  · rintro ⟨e, he, hed⟩
    split at hed
    · exact .inl hed.symm
    · rename_i hne
      exact .inr ⟨hed ▸ he, by simpa [← hed, hc] using hne⟩
  · rintro (rfl | ⟨hd, hne⟩)
    · exact ⟨b, hb, by simp [hc]⟩
    · exact ⟨d, hd, by simp [hc, hne]⟩

/-- The names stay distinct where the new name is the old one or one that no benchmark has. -/
theorem Sound.putBenchmark_names (h : s.Sound) (hb : b ∈ s.benchmarks) (hid : c.id = b.id)
    (hname : c.name = b.name ∨ ∀ d ∈ s.benchmarks, d.name ≠ c.name) :
    ((s.putBenchmark c).benchmarks.map (·.name)).Nodup := by
  have hids : ((s.putBenchmark c).benchmarks.map (·.id)).Nodup :=
    putBenchmark_ids s c ▸ h.numbers.benchmarks.nodup
  refine List.Nodup.map_on (fun x hx y hy hxy => ?_) (hids.of_map _)
  -- No benchmark but the replaced one may have had the new name.
  have hsame : ∀ d ∈ s.benchmarks, d.name = c.name → d.id = b.id := by
    intro d hd hdc
    rcases hname with hold | hfree
    · exact congrArg Benchmark.id (h.eq_of_name_eq hd hb (hdc.trans hold))
    · exact absurd hdc (hfree d hd)
  rcases (mem_putBenchmark hid hb).mp hx with rfl | ⟨hxs, hxne⟩ <;>
    rcases (mem_putBenchmark hid hb).mp hy with rfl | ⟨hys, hyne⟩
  · rfl
  · exact absurd (hsame y hys hxy.symm) hyne
  · exact absurd (hsame x hxs hxy) hxne
  · exact h.eq_of_name_eq hxs hys hxy

/-- No table but that of the replaced benchmark may have the name of the new one's table. -/
theorem Sound.renamedTable_free (h : s.Sound)
    (hname : c.name = b.name ∨ ∀ d ∈ s.benchmarks, d.name ≠ c.name) :
    ∀ t ∈ s.tables, t.name = c.table → t.name = b.table := by
  intro t ht heq
  obtain ⟨d, hd, hdt⟩ := h.tableOwners t ht
  have hdc : d.name = c.name := tableName_inj.1 (hdt.trans heq)
  rcases hname with hsame | hfree
  · exact heq.trans (congrArg tableName hsame)
  · exact absurd hdc (hfree d hd)

/-- The store with a benchmark in place of the one with its number, whose table has followed. -/
def replaceBenchmark (s : Store) (b c : Benchmark) (l : List PhysicalIndex) : Store :=
  { s.putBenchmark c with
    tables := s.renamedTables b.table c.table
    physicalIndices := l }

theorem replaceBenchmark_holding (hfree : ∀ t ∈ s.tables, t.name = c.table → t.name = b.table)
    {d : Benchmark} (hd : d.table = c.table ∨ d.table ≠ b.table) (l : List PhysicalIndex) :
    (s.replaceBenchmark b c l).holding d = ⟨s.ownFields d, s.ownIndices d, s.experimentsOf d,
      if d.table = c.table then (s.table? b.table).map fun t => { t with name := c.table }
      else s.table? d.table⟩ := by
  refine congrArg (Holding.mk _ _ _) ((find?_renamedTables hfree d.table).trans ?_)
  rcases hd with hsame | hother
  · rw [if_pos hsame, if_pos hsame]
  · rw [if_neg hother]

/-- What is kept of another benchmark is as before. -/
theorem Sound.replaceBenchmark_other (h : s.Sound) (hb : b ∈ s.benchmarks)
    (hname : c.name = b.name ∨ ∀ d ∈ s.benchmarks, d.name ≠ c.name) {d : Benchmark} (hd : d ∈ s.benchmarks)
    (hne : d.id ≠ b.id) (l : List PhysicalIndex) : (s.replaceBenchmark b c l).holding d = s.holding d := by
  have hother : d.table ≠ b.table := h.table_ne hb hd hne
  have hunlike : d.table ≠ c.table := fun heq =>
    have hdc : d.name = c.name := tableName_inj.1 heq
    hname.elim (fun hsame => hother (heq.trans (congrArg tableName hsame))) (· d hd hdc)
  rw [replaceBenchmark_holding (h.renamedTable_free hname) (.inr hother), if_neg hunlike]
  rfl

/-- A benchmark may be put in place of one with the same number, if its name is free, and the table has to
    follow the name. -/
theorem Sound.replaceBenchmark (h : s.Sound) (hb : b ∈ s.benchmarks) (hid : c.id = b.id)
    (hcanonical : IsCanonical c.name) (hname : c.name = b.name ∨ ∀ d ∈ s.benchmarks, d.name ≠ c.name)
    (l : List PhysicalIndex) : (s.replaceBenchmark b c l).Sound := by
  have hmem := fun d : Benchmark => mem_putBenchmark (d := d) hid hb
  have hfree := h.renamedTable_free hname
  have hknows : ∀ {n : Nat}, s.Knows n → ∃ d ∈ (s.putBenchmark c).benchmarks, d.id = n := by
    rintro n ⟨d, hd, rfl⟩
    have hmap : d.id ∈ (s.putBenchmark c).benchmarks.map (·.id) :=
      putBenchmark_ids s c ▸ List.mem_map_of_mem hd
    exact List.mem_map.mp hmap
  have hbenchmarks : Ascending Benchmark.id s.last.benchmark (s.putBenchmark c).benchmarks := by
    refine h.numbers.benchmarks.map fun d => ?_
    split
    · rename_i heq
      exact (eq_of_beq heq).symm
    · rfl
  refine ⟨{ h.numbers with benchmarks := hbenchmarks }, fun f hf => hknows (h.fieldOwners f hf),
    fun i hi => hknows (h.indexOwners i hi), fun e he => hknows (h.experimentOwners e he),
    h.putBenchmark_names hb hid hname, renamedTables_names_nodup h.tableNames hfree, fun t ht => ?_,
    fun d hd => ?_⟩
  · -- The table that was renamed is that of the new benchmark, and any other one is that of its old owner.
    obtain ⟨u, hu, rfl⟩ := List.mem_map.mp ht
    split
    · exact ⟨c, (hmem c).mpr (.inl rfl), rfl⟩
    · rename_i hne
      obtain ⟨d, hd, hdu⟩ := h.tableOwners u hu
      refine ⟨d, (hmem d).mpr (.inr ⟨hd, fun hdid => hne ?_⟩), hdu⟩
      rw [← hdu, h.eq_of_id_eq hd hb hdid, beq_self_eq_true]
  · -- The new benchmark takes over what was kept of the old one, and the others keep what is theirs.
    rcases (hmem d).mp hd with rfl | ⟨hds, hdne⟩
    · rw [replaceBenchmark_holding hfree (.inl rfl), if_pos rfl, ownFields, ownIndices, experimentsOf, hid]
      have hold := h.holdings b hb
      exact { hold with
        canonical := hcanonical
        table := (hold.table.rename _).congr hid }
    · rw [h.replaceBenchmark_other hb hname hds hdne]
      exact h.holdings d hds

theorem renamedTables_self (s : Store) (name : String) : s.renamedTables name name = s.tables := by
  refine (List.map_congr_left (g := id) fun t _ => ?_).trans (List.map_id _)
  split
  · rename_i heq
    rw [← eq_of_beq heq]
    rfl
  · rfl

/-- A benchmark that is put in place of one with its name takes over the table as it is. -/
theorem putBenchmark_eq_replaceBenchmark (hname : c.name = b.name) :
    s.putBenchmark c = s.replaceBenchmark b c s.physicalIndices := by
  have htables : s.renamedTables b.table c.table = s.tables := by
    rw [Benchmark.table, Benchmark.table, hname]
    exact renamedTables_self s _
  unfold Store.replaceBenchmark
  rw [htables]
  rfl

theorem Sound.setDescription (h : s.Sound) {written : String} {description : Option String}
    (hok : s.setDescription written description = .ok s') : s'.Sound := by
  obtain ⟨name, b, _, hfound, rfl⟩ := setDescription_eq_ok hok
  obtain ⟨hb, _⟩ := of_benchmark?_eq_some hfound
  rw [putBenchmark_eq_replaceBenchmark (b := b) (c := { b with description := description }) rfl]
  exact (h.replaceBenchmark hb (c := { b with description := description }) rfl
    (h.holdings b hb).canonical (.inl rfl) _).touch

theorem Sound.renameBenchmark (h : s.Sound) {old new : String}
    (hok : s.renameBenchmark old new = .ok (b, s')) : s'.Sound := by
  obtain ⟨_, name, found, _, hname, hfound, ⟨_, rfl, rfl⟩ | ⟨hfree, rfl, t, ht, rfl⟩⟩ :=
    renameBenchmark_eq_ok hok
  · exact h
  · obtain ⟨hb, _⟩ := of_benchmark?_eq_some hfound
    obtain ⟨l, rfl⟩ := renameTable_eq_ok ht
    exact (h.replaceBenchmark hb (c := { found with name := name }) rfl (isCanonical_of_canonical hname)
      (.inr (benchmark?_eq_none.1 hfree)) l).touch

/-! ## §3 Benchmarks that go -/

theorem dropHolding_changedOnly (s : Store) (b : Benchmark) : ChangedOnly b s { s.dropTable b.table with
    indices := s.indices.filter (·.benchmark != b.id) } :=
  ⟨rfl, .refl, .filter fun i _ hi => by simpa using hi, .refl, fun name hne =>
    (find?_dropped s.tables b.table name).trans (if_neg hne)⟩

theorem Sound.removeBenchmark (h : s.Sound) {written : String}
    (hok : s.removeBenchmark written = .ok s') : s'.Sound := by
  obtain ⟨name, b, _, hfound, hexperiments, hfields, rfl⟩ := removeBenchmark_eq_ok hok
  obtain ⟨hb, _⟩ := of_benchmark?_eq_some hfound
  rw [h.fieldsOf_eq hb] at hfields
  have hremain : ∀ c, c ∈ s.benchmarks.filter (·.id != b.id) ↔ c ∈ s.benchmarks ∧ c.id ≠ b.id := by
    simp
  have hknows : ∀ {n : Nat}, s.Knows n → n ≠ b.id →
      ∃ c ∈ s.benchmarks.filter (·.id != b.id), c.id = n := by
    rintro n ⟨c, hc, rfl⟩ hne
    exact ⟨c, (hremain c).mpr ⟨hc, hne⟩, rfl⟩
  -- No record that stays belongs to the benchmark.
  have hnumbers : Numbered { s.dropTable b.table with
      indices := s.indices.filter (·.benchmark != b.id)
      benchmarks := s.benchmarks.filter (·.id != b.id) } :=
    { h.numbers with
      benchmarks := h.numbers.benchmarks.filter _
      indices := h.numbers.indices.filter _ }
  refine Sound.touch ⟨hnumbers, fun f hf => hknows (h.fieldOwners f hf) ?_, fun i hi => ?_,
    fun e he => hknows (h.experimentOwners e he) ?_, ?_, ?_, fun t ht => ?_, fun c hc => ?_⟩
  · simpa using List.filter_eq_nil_iff.mp hfields f hf
  · obtain ⟨hmem, hother⟩ := List.mem_filter.mp hi
    exact hknows (h.indexOwners i hmem) (by simpa using hother)
  · simpa using List.filter_eq_nil_iff.mp hexperiments e he
  · exact h.benchmarkNames.sublist (List.filter_sublist.map _)
  · exact h.tableNames.sublist (List.filter_sublist.map _)
  · obtain ⟨hmem, hother⟩ := List.mem_filter.mp ht
    obtain ⟨c, hc, hct⟩ := h.tableOwners t hmem
    refine ⟨c, (hremain c).mpr ⟨hc, fun hid => ?_⟩, hct⟩
    rw [← hct, h.eq_of_id_eq hc hb hid] at hother
    simp at hother
  · obtain ⟨hcs, hcne⟩ := (hremain c).mp hc
    have hheld := (dropHolding_changedOnly s b).holding hcne (h.table_ne hb hcs hcne)
    exact hheld ▸ h.holdings c hcs

end BenchPlot.Store
