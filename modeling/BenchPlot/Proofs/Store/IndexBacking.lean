import BenchPlot.Proofs.Store.Frame
import Mathlib.Data.List.Infix

/-!
# Indices and the physical indices behind them

The physical indices of all benchmarks share one space of names, and a name is put together from those of a
benchmark and an index with an underscore, which the two may have as well. So the physical name tells apart
the indices of one benchmark, but not always those of two: an index `B_C` of `A` and an index `C` of `A_B`
have one physical name, the later one gets no physical index, and with either the one that is there is
dropped. As long as no two such indices are recorded at once, each index has its own physical index over its
columns, there are no others, and no operation touches those of a benchmark that it does not name.

Main statements: `physicalIndexName_eq_iff` and `history_backsIndices`.
-/

namespace BenchPlot

/-! ## §1 Physical names -/

/-- A part in the middle belongs to the name of the second benchmark, and to that of the first index. -/
def NamesOverlap (bench index bench' index' : String) : Prop :=
  ∃ middle, bench' = bench ++ "_" ++ middle ∧ index = middle ++ "_" ++ index'

/-- Two texts with a mark after the first part and before the second one are equal iff their parts are, or
    what is between the marks is in the first part of the one and in the second part of the other. -/
private theorem marked_eq_iff {α : Type} (mark : α) (l m l' m' : List α) :
    l ++ mark :: m = l' ++ mark :: m' ↔ (l = l' ∧ m = m')
      ∨ (∃ x, l' = l ++ mark :: x ∧ m = x ++ mark :: m')
      ∨ ∃ x, l = l' ++ mark :: x ∧ m' = x ++ mark :: m := by
  rw [List.append_eq_append_iff]
  constructor
  · rintro (⟨x, rfl, hx⟩ | ⟨x, rfl, hx⟩)
    · cases x with
      | nil => exact .inl ⟨by simp, by simpa using hx⟩
      | cons a x =>
        obtain ⟨rfl, rfl⟩ := List.cons.inj hx
        exact .inr (.inl ⟨x, rfl, rfl⟩)
    · cases x with
      | nil => exact .inl ⟨by simp, by simpa using hx.symm⟩
      | cons a x =>
        obtain ⟨rfl, rfl⟩ := List.cons.inj hx
        exact .inr (.inr ⟨x, rfl, rfl⟩)
  · rintro (⟨rfl, rfl⟩ | ⟨x, rfl, rfl⟩ | ⟨x, rfl, rfl⟩)
    · exact .inl ⟨[], by simp, rfl⟩
    · exact .inl ⟨mark :: x, rfl, rfl⟩
    · exact .inr ⟨mark :: x, rfl, rfl⟩

theorem physicalIndexName_toList (bench index : String) : (physicalIndexName bench index).toList
    = (bench.toList ++ '_' :: index.toList) ++ "_IDX".toList := by
  have hmark : "_".toList = ['_'] := by decide
  simp [physicalIndexName, String.toList_append, hmark]

theorem namesOverlap_iff (bench index bench' index' : String) : NamesOverlap bench index bench' index'
    ↔ ∃ x, bench'.toList = bench.toList ++ '_' :: x ∧ index.toList = x ++ '_' :: index'.toList := by
  have hmark : "_".toList = ['_'] := by decide
  constructor
  · rintro ⟨middle, rfl, rfl⟩
    exact ⟨middle.toList, by simp [String.toList_append, hmark], by simp [String.toList_append, hmark]⟩
  · rintro ⟨x, hbench, hindex⟩
    refine ⟨String.ofList x, String.toList_inj.mp ?_, String.toList_inj.mp ?_⟩
    · simp [String.toList_append, hmark, hbench]
    · simp [String.toList_append, hmark, hindex]

/-- The names of the indices of one benchmark do not overlap. -/
theorem NamesOverlap.ne {bench index bench' index' : String} (h : NamesOverlap bench index bench' index') :
    bench ≠ bench' := by
  obtain ⟨x, hbench, _⟩ := (namesOverlap_iff ..).1 h
  rintro rfl
  have hlength := congrArg List.length hbench
  rw [List.length_append, List.length_cons] at hlength
  omega

/-- Two indices have one physical name iff they are one index or their names overlap. -/
theorem physicalIndexName_eq_iff {bench index bench' index' : String} :
    physicalIndexName bench index = physicalIndexName bench' index' ↔ (bench = bench' ∧ index = index')
      ∨ NamesOverlap bench index bench' index' ∨ NamesOverlap bench' index' bench index := by
  rw [← String.toList_inj, physicalIndexName_toList, physicalIndexName_toList, List.append_cancel_right_eq,
    marked_eq_iff, namesOverlap_iff, namesOverlap_iff, String.toList_inj, String.toList_inj]

theorem physicalIndexName_inj_right {bench index index' : String} :
    physicalIndexName bench index = physicalIndexName bench index' ↔ index = index' := by
  rw [← String.toList_inj, physicalIndexName_toList, physicalIndexName_toList, List.append_cancel_right_eq,
    List.append_cancel_left_eq, List.cons_inj_right, String.toList_inj]

/-- The physical index that is behind an index of a benchmark. -/
def FieldIndex.backing (i : FieldIndex) (b : Benchmark) : PhysicalIndex :=
  ⟨physicalIndexName b.name i.name, b.table, i.fields.map columnName⟩

/-- A benchmark without a table has no index. -/
theorem Holding.Sound.indices_eq_nil {k : Holding} {b : Benchmark} (h : k.Sound b) (htable : k.table = none) :
    k.indices = [] := by
  have hfits := h.table
  rw [htable] at hfits
  refine List.eq_nil_iff_forall_not_mem.mpr fun i hi => ?_
  have hindex := h.indices i hi
  obtain ⟨name, hname⟩ := List.exists_mem_of_ne_nil _ hindex.nonempty
  have hknown := hindex.known name hname
  rw [hfits.1] at hknown
  cases hknown

namespace Store

variable {s s' t : Store} {b c : Benchmark}

/-! ## §2 Physical indices that are made and dropped -/

/-- The store with a further physical index. -/
def putPhysicalIndex (s : Store) (p : PhysicalIndex) : Store :=
  { s with physicalIndices := s.physicalIndices ++ [p] }

theorem makePhysicalIndex_of_free {i : FieldIndex} (htable : (s.table? b.table).isSome)
    (hfree : ∀ p ∈ s.physicalIndices, p.name ≠ (i.backing b).name) :
    s.makePhysicalIndex b i = s.putPhysicalIndex (i.backing b) := by
  have hnone : s.physicalIndices.any (·.name == physicalIndexName b.name i.name) = false := by
    rw [List.any_eq_false]
    intro p hp
    rw [beq_iff_eq]
    exact hfree p hp
  unfold makePhysicalIndex
  dsimp only
  rw [htable, hnone]
  rfl

/-- Indices whose physical names are free all get their physical indices. -/
theorem foldl_makePhysicalIndex {is : List FieldIndex} (hnames : (is.map (·.name)).Nodup)
    (htable : (s.table? b.table).isSome)
    (hfree : ∀ p ∈ s.physicalIndices, ∀ i ∈ is, p.name ≠ (i.backing b).name) :
    (is.foldl (fun s i => s.makePhysicalIndex b i) s).physicalIndices
      = s.physicalIndices ++ is.map (·.backing b) := by
  -- Along the indices: the one that is made takes no name that a later one needs.
  induction is generalizing s with
  | nil => simp
  | cons i rest ih =>
    rw [List.map_cons, List.nodup_cons] at hnames
    have hfirst := makePhysicalIndex_of_free (i := i) htable fun p hp => hfree p hp i (List.mem_cons_self ..)
    have hrest := ih (s := s.putPhysicalIndex (i.backing b)) hnames.2 htable ?_
    · rw [List.foldl_cons, hfirst, hrest]
      simp [putPhysicalIndex]
    · intro p hp j hj
      rcases List.mem_append.mp hp with hold | hnew
      · exact hfree p hold j (List.mem_cons_of_mem _ hj)
      · rw [List.mem_singleton.mp hnew]
        intro heq
        have hname : i.name = j.name := physicalIndexName_inj_right.1 heq
        exact hnames.1 (hname ▸ List.mem_map_of_mem hj)

theorem mem_makePhysicalIndices (hnames : ((s.ownIndices b).map (·.name)).Nodup)
    (htable : (s.table? b.table).isSome)
    (hfree : ∀ p ∈ s.physicalIndices, ∀ i ∈ s.ownIndices b, p.name ≠ (i.backing b).name)
    (p : PhysicalIndex) : p ∈ (s.makePhysicalIndices b).physicalIndices
      ↔ p ∈ s.physicalIndices ∨ ∃ i ∈ s.ownIndices b, p = i.backing b := by
  have hperm := s.indicesOf_perm b
  have hmade : (s.makePhysicalIndices b).physicalIndices
      = s.physicalIndices ++ (s.indicesOf b).map (·.backing b) := by
    refine foldl_makePhysicalIndex ((hperm.map _).nodup_iff.mpr hnames) htable fun p hp i hi => ?_
    exact hfree p hp i (hperm.mem_iff.mp hi)
  rw [hmade, List.mem_append, List.mem_map]
  simp only [hperm.mem_iff, eq_comm]

theorem mem_foldl_dropPhysicalIndex {is : List FieldIndex} {p : PhysicalIndex} :
    p ∈ (is.foldl (fun s i => s.dropPhysicalIndex (physicalIndexName b.name i.name)) s).physicalIndices
      ↔ p ∈ s.physicalIndices ∧ ∀ i ∈ is, p.name ≠ (i.backing b).name := by
  induction is generalizing s with
  | nil => simp
  | cons i rest ih =>
    rw [List.foldl_cons, ih]
    simp only [dropPhysicalIndex, List.mem_filter, bne_iff_ne, List.forall_mem_cons, and_assoc]
    rfl

/-! ## §3 Backed indices -/

/-- An index of a benchmark is recorded. -/
def HasIndex (s : Store) (b : Benchmark) (i : FieldIndex) : Prop :=
  b ∈ s.benchmarks ∧ i ∈ s.ownIndices b

/-- The physical indices are those behind the recorded indices. -/
def Backed (s : Store) : Prop :=
  ∀ p, p ∈ s.physicalIndices ↔ ∃ b i, s.HasIndex b i ∧ p = i.backing b

/-- The names of no two recorded indices overlap. -/
def IndexNamesApart (s : Store) : Prop :=
  ∀ b i c j, s.HasIndex b i → s.HasIndex c j → ¬NamesOverlap b.name i.name c.name j.name

theorem Backed.congr (h : s.Backed) (hindices : ∀ b i, s'.HasIndex b i ↔ s.HasIndex b i)
    (hphysical : s'.physicalIndices = s.physicalIndices) : s'.Backed := by
  intro p
  simp only [hphysical, hindices]
  exact h p

theorem Backed.touch (h : s.Backed) : s.touch.Backed := h

theorem IndexNamesApart.congr (h : s.IndexNamesApart)
    (hindices : ∀ b i, s'.HasIndex b i ↔ s.HasIndex b i) : s'.IndexNamesApart := by
  intro b i c j hi hj
  exact h b i c j ((hindices b i).1 hi) ((hindices c j).1 hj)

theorem indexNamesApart_iff : s.IndexNamesApart ↔ ∀ b ∈ s.benchmarks, ∀ i ∈ s.ownIndices b,
    ∀ c ∈ s.benchmarks, ∀ j ∈ s.ownIndices c,
      physicalIndexName b.name i.name = physicalIndexName c.name j.name → b.name = c.name := by
  constructor
  · intro h b hb i hi c hc j hj heq
    rcases physicalIndexName_eq_iff.1 heq with ⟨hbench, _⟩ | hoverlap | hoverlap
    · exact hbench
    · exact absurd hoverlap (h b i c j ⟨hb, hi⟩ ⟨hc, hj⟩)
    · exact absurd hoverlap (h c j b i ⟨hc, hj⟩ ⟨hb, hi⟩)
  · intro h b i c j hi hj hoverlap
    exact hoverlap.ne (h b hi.1 i hi.2 c hj.1 j hj.2 (physicalIndexName_eq_iff.2 (.inr (.inl hoverlap))))

instance (s : Store) : Decidable s.IndexNamesApart :=
  decidable_of_iff _ indexNamesApart_iff.symm

theorem hasIndex_congr (hbenchmarks : s'.benchmarks = s.benchmarks) (hindices : s'.indices = s.indices)
    (b : Benchmark) (i : FieldIndex) : s'.HasIndex b i ↔ s.HasIndex b i := by
  unfold HasIndex ownIndices
  rw [hbenchmarks, hindices]

/-- Of recorded indices that are apart, no two have one physical name. -/
theorem IndexNamesApart.eq_of_name_eq (h : s.IndexNamesApart) (hs : s.Sound) {i j : FieldIndex}
    (hi : s.HasIndex b i) (hj : s.HasIndex c j) (heq : (i.backing b).name = (j.backing c).name) :
    b = c ∧ i = j := by
  rcases physicalIndexName_eq_iff.1 heq with ⟨hbench, hindex⟩ | hoverlap | hoverlap
  · obtain rfl := hs.eq_of_name_eq hi.1 hj.1 hbench
    exact ⟨rfl, List.inj_on_of_nodup_map (hs.holdings b hi.1).indexNames hi.2 hj.2 hindex⟩
  · exact absurd hoverlap (h b i c j hi hj)
  · exact absurd hoverlap (h c j b i hj hi)

theorem Sound.table_eq_iff (h : s.Sound) (hb : b ∈ s.benchmarks) (hc : c ∈ s.benchmarks) :
    c.table = b.table ↔ c = b := by
  constructor
  · intro htable
    exact h.eq_of_name_eq hc hb (tableName_inj.1 htable)
  · rintro rfl
    rfl

/-- The physical indices of a benchmark's table are those behind its indices. -/
theorem Backed.mem_table_iff (h : s.Backed) (hs : s.Sound) (hb : b ∈ s.benchmarks) {p : PhysicalIndex} :
    p ∈ s.physicalIndices ∧ p.table = b.table ↔ ∃ i ∈ s.ownIndices b, p = i.backing b := by
  constructor
  · rintro ⟨hp, htable⟩
    obtain ⟨c, i, ⟨hc, hi⟩, rfl⟩ := (h p).1 hp
    obtain rfl := (hs.table_eq_iff hb hc).1 htable
    exact ⟨i, hi, rfl⟩
  · rintro ⟨i, hi, rfl⟩
    exact ⟨(h _).2 ⟨b, i, ⟨hb, hi⟩, rfl⟩, rfl⟩

theorem ChangedOnly.ownIndices (h : ChangedOnly b s s') (hne : c.id ≠ b.id) :
    s'.ownIndices c = s.ownIndices c :=
  h.indices _ hne

theorem ChangedOnly.hasIndex_iff (h : ChangedOnly b s s') (hs : s.Sound) (hb : b ∈ s.benchmarks)
    (hne : c ≠ b) (i : FieldIndex) : s'.HasIndex c i ↔ s.HasIndex c i := by
  unfold HasIndex
  rw [h.benchmarks]
  refine and_congr_right fun hc => ?_
  rw [h.ownIndices fun hid => hne (hs.eq_of_id_eq hc hb hid)]

/-- Where only one benchmark has changed, what matters are the physical indices of its table. -/
theorem Backed.of_changedOnly (h : s.Backed) (hs : s.Sound) (hb : b ∈ s.benchmarks)
    (hchanged : ChangedOnly b s s')
    (hmem : ∀ p, p ∈ s'.physicalIndices
      ↔ (p ∈ s.physicalIndices ∧ p.table ≠ b.table) ∨ ∃ i ∈ s'.ownIndices b, p = i.backing b) :
    s'.Backed := by
  intro p
  rw [hmem]
  constructor
  · rintro (⟨hp, htable⟩ | ⟨i, hi, rfl⟩)
    · obtain ⟨c, i, hi, rfl⟩ := (h p).1 hp
      have hne : c ≠ b := fun heq => htable ((hs.table_eq_iff hb hi.1).2 heq)
      exact ⟨c, i, (hchanged.hasIndex_iff hs hb hne i).2 hi, rfl⟩
    · exact ⟨b, i, ⟨hchanged.benchmarks ▸ hb, hi⟩, rfl⟩
  · rintro ⟨c, i, hi, rfl⟩
    by_cases heq : c = b
    · subst heq
      exact .inr ⟨i, hi.2, rfl⟩
    · have hold : s.HasIndex c i := (hchanged.hasIndex_iff hs hb heq i).1 hi
      exact .inl ⟨(h _).2 ⟨c, i, hold, rfl⟩, fun htable => heq ((hs.table_eq_iff hb hold.1).1 htable)⟩

/-- The physical name of an index is not that of a physical index of another benchmark. -/
theorem Backed.name_ne (h : s.Backed) (hs : s.Sound) (hb : b ∈ s.benchmarks) (hchanged : ChangedOnly b s s')
    (hs' : s'.Sound) (hapart : s'.IndexNamesApart) {p : PhysicalIndex} (hp : p ∈ s.physicalIndices)
    (htable : p.table ≠ b.table) {i : FieldIndex} (hi : i ∈ s'.ownIndices b) :
    p.name ≠ (i.backing b).name := by
  obtain ⟨c, j, hj, rfl⟩ := (h p).1 hp
  have hne : c ≠ b := fun heq => htable ((hs.table_eq_iff hb hj.1).2 heq)
  have hj' : s'.HasIndex c j := (hchanged.hasIndex_iff hs hb hne j).2 hj
  intro heq
  exact hne (hapart.eq_of_name_eq hs' hj' ⟨hchanged.benchmarks ▸ hb, hi⟩ heq).1

theorem Sound.insertBenchmark_hasIndex (h : s.Sound) (name : String) (description : Option String)
    (c : Benchmark) (i : FieldIndex) :
    (s.insertBenchmark name description).2.HasIndex c i ↔ s.HasIndex c i := by
  constructor
  · rintro ⟨hc, hi⟩
    refine ⟨?_, hi⟩
    rcases List.mem_append.mp hc with hold | hnew
    · exact hold
    · -- The number of the new benchmark is one that no index has as its owner.
      obtain ⟨hmem, howner⟩ := List.mem_filter.mp hi
      rw [List.mem_singleton.mp hnew] at howner
      have hknown := h.indexOwners i hmem
      rw [eq_of_beq howner] at hknown
      exact absurd hknown h.not_knows_next
  · rintro ⟨hc, hi⟩
    exact ⟨List.mem_append_left _ hc, hi⟩

theorem Sound.ensure_hasIndex (h : s.Sound) {name : String} (heq : s.ensure name = (b, s'))
    (c : Benchmark) (i : FieldIndex) : s'.HasIndex c i ↔ s.HasIndex c i := by
  rcases ensure_cases heq with ⟨_, rfl⟩ | ⟨_, hmade⟩
  · rfl
  · cases hmade
    exact h.insertBenchmark_hasIndex name none c i

/-! ## §4 Operations on fields and indices -/

/-- After a change of fields the table has the physical indices behind the indices of its benchmark. -/
theorem mem_rebuild_physicalIndices {previous current : List Field}
    (hok : t.rebuild b previous current = .ok s') (hown : (s'.holding b).Sound b)
    (hfree : ∀ p ∈ t.physicalIndices, p.table ≠ b.table → ∀ i ∈ t.ownIndices b,
      p.name ≠ (i.backing b).name) (p : PhysicalIndex) :
    p ∈ s'.physicalIndices
      ↔ (p ∈ t.physicalIndices ∧ p.table ≠ b.table) ∨ ∃ i ∈ t.ownIndices b, p = i.backing b := by
  rw [rebuild_holding hok] at hown
  unfold Store.rebuild at hok
  split at hok
  · -- Without fields there are no indices that could ask for one.
    rename_i hempty
    cases hok
    have hnone : t.ownIndices b = [] :=
      hown.indices_eq_nil (by simp [rebuiltTable, List.isEmpty_iff.mp hempty])
    rw [hnone]
    simp [dropTable]
  · split at hok
    · cases hok
    · cases hok
      refine Iff.trans (mem_makePhysicalIndices ?_ ?_ (fun p hp i hi => ?_) p) ?_
      · exact hown.indexNames
      · exact List.find?_isSome.mpr ⟨_, List.mem_append_right _ (List.mem_singleton_self _), by simp⟩
      · obtain ⟨hmem, htable⟩ := List.mem_filter.mp hp
        exact hfree p hmem (bne_iff_ne.mp htable) i hi
      · simp [dropTable, ownIndices]

theorem Backed.rebuild (h : s.Backed) (hs : s.Sound) (hb : b ∈ s.benchmarks) (hchanged : ChangedOnly b s t)
    (hphysical : t.physicalIndices = s.physicalIndices) {previous current : List Field}
    (hok : t.rebuild b previous current = .ok s') (hs' : s'.Sound) (hapart : s'.IndexNamesApart) :
    s'.Backed := by
  have hall : ChangedOnly b s s' := hchanged.trans (rebuild_changedOnly hok)
  have hindices : s'.ownIndices b = t.ownIndices b := congrArg Holding.indices (rebuild_holding hok)
  have hbs' : b ∈ s'.benchmarks := hall.benchmarks ▸ hb
  refine h.of_changedOnly hs hb hall fun p => ?_
  rw [mem_rebuild_physicalIndices hok (hs'.holdings b hbs') ?_ p, hphysical, hindices]
  intro p hp htable i hi
  rw [hphysical] at hp
  exact h.name_ne hs hb hall hs' hapart hp htable (hindices ▸ hi)

theorem Backed.remade (h : s.Backed) (hs : s.Sound) {written : String} (hremade : RemadeFor s written s')
    (hs' : s'.Sound) (hapart : s'.IndexNamesApart) : s'.Backed := by
  cases hremade with
  | unchanged => exact h
  | rebuilt _ hfound hchanged hphysical hrebuilt =>
    obtain ⟨hb, _⟩ := of_benchmark?_eq_some hfound
    exact (h.rebuild hs hb hchanged hphysical hrebuilt hs'.of_touch hapart).touch

theorem Backed.addField (h : s.Backed) (hs : s.Sound) {written : String} {new : NewField} {f : Field}
    (hok : s.addField written new = .ok (f, s')) (hapart : s.IndexNamesApart) :
    s'.Backed ∧ s'.IndexNamesApart := by
  obtain ⟨_, default, b, s₁, t, _, _, hensure, _, h₁, hb, howner, _, _, _, ht, hsound, _, _, rfl⟩ :=
    hs.addField_eq_ok hok
  have hfirst : ∀ c i, s₁.HasIndex c i ↔ s.HasIndex c i := hs.ensure_hasIndex hensure
  have hphysical : s₁.physicalIndices = s.physicalIndices := (ensure_records hensure).2.2
  have hlast : ∀ c i, t.HasIndex c i ↔ s₁.HasIndex c i := by
    obtain ⟨l, rfl⟩ := rebuild_eq_ok ht
    exact hasIndex_congr rfl rfl
  have hapart₁ : t.IndexNamesApart := (hapart.congr hfirst).congr hlast
  have hbacked : t.Backed :=
    (h.congr hfirst hphysical).rebuild h₁ hb (putNewField_changedOnly howner) rfl ht hsound hapart₁
  split
  · exact ⟨hbacked, hapart₁⟩
  · exact ⟨hbacked.congr (hasIndex_congr rfl rfl) rfl, hapart₁.congr (hasIndex_congr rfl rfl)⟩

theorem Backed.createIndex (h : s.Backed) (hs : s.Sound) {written writtenIndex : String}
    {fields : List String} {i : FieldIndex} (hok : s.createIndex written writtenIndex fields = .ok (i, s'))
    (hapart : s'.IndexNamesApart) : s'.Backed := by
  have hs' := hs.createIndex hok
  obtain ⟨_, name, b, _, _, hfound, hfresh, _, howner, hname, hfull, _, hknown, rfl⟩ := createIndex_eq_ok hok
  obtain ⟨hb, _⟩ := of_benchmark?_eq_some hfound
  have hown : (s.putNewIndex i).ownIndices b = s.ownIndices b ++ [i] := by
    simp [ownIndices, Store.putNewIndex, howner]
  have hnew : i ∈ (s.putNewIndex i).ownIndices b := by
    rw [hown]
    exact List.mem_append_right _ (List.mem_singleton_self i)
  have hchanged : ChangedOnly b s (s.putNewIndex i) := putNewIndex_changedOnly howner
  -- The index is over some fields, so there is a table.
  have htable : ((s.putNewIndex i).table? b.table).isSome := by
    obtain ⟨f, hf⟩ := List.exists_mem_of_ne_nil _ hfull
    rw [hs.fieldsOf_eq hb] at hknown
    refine (isSome_of_fits (hs.holdings b hb).table).2 fun hnil => ?_
    have hmem := hknown f hf
    rw [show s.ownFields b = [] from hnil] at hmem
    cases hmem
  -- Its physical name is free: on the own table the index would be a duplicate, elsewhere the names overlap.
  have hfree : ∀ p ∈ (s.putNewIndex i).physicalIndices, p.name ≠ (i.backing b).name := by
    intro p hp
    by_cases hpt : p.table = b.table
    · obtain ⟨j, hj, rfl⟩ := (h.mem_table_iff hs hb).1 ⟨hp, hpt⟩
      intro heq
      have hsame : j.name = i.name := physicalIndexName_inj_right.1 heq
      exact hfresh j ((s.indicesOf_perm b).mem_iff.mpr hj) (hsame.trans hname)
    · obtain ⟨l, hl⟩ := makePhysicalIndex_eq (s.putNewIndex i) b i
      rw [hl] at hs' hapart
      exact h.name_ne hs hb hchanged (hs'.of_touch.of_sameContent ⟨rfl, rfl, rfl, rfl, rfl, rfl⟩)
        (hapart.congr (hasIndex_congr rfl rfl)) hp hpt hnew
  rw [makePhysicalIndex_of_free htable hfree]
  refine h.of_changedOnly hs hb (hchanged.trans ⟨rfl, .refl, .refl, .refl, fun _ _ => rfl⟩) fun p => ?_
  show p ∈ s.physicalIndices ++ [i.backing b] ↔ _ ∨ ∃ j ∈ (s.putNewIndex i).ownIndices b, p = j.backing b
  simp only [hown, List.mem_append, List.mem_singleton, or_and_right, exists_or, exists_eq_left,
    ← h.mem_table_iff hs hb]
  by_cases hpt : p.table = b.table <;> simp [hpt]

theorem Backed.dropIndex (h : s.Backed) (hs : s.Sound) {written writtenIndex : String}
    (hok : s.dropIndex written writtenIndex = .ok s') (hapart : s.IndexNamesApart) : s'.Backed := by
  obtain ⟨_, name, b, _, _, hfound, ⟨i, hi, hname⟩, rfl⟩ := dropIndex_eq_ok hok
  obtain ⟨hb, _⟩ := of_benchmark?_eq_some hfound
  have hdropped : s.HasIndex b i := ⟨hb, (s.indicesOf_perm b).mem_iff.mp hi⟩
  have hown : (s.withoutIndex b name).ownIndices b = (s.ownIndices b).filter (·.name != name) := by
    simp only [Store.withoutIndex, ownIndices, List.filter_filter]
    refine List.filter_congr fun j _ => ?_
    cases j.benchmark == b.id <;> simp [bne]
  have hchanged := withoutIndex_changedOnly s b name
  refine h.of_changedOnly hs hb (hchanged.trans ⟨rfl, .refl, .refl, .refl, fun _ _ => rfl⟩) fun p => ?_
  show p ∈ s.physicalIndices.filter (·.name != physicalIndexName b.name name)
    ↔ _ ∨ ∃ j ∈ (s.withoutIndex b name).ownIndices b, p = j.backing b
  rw [List.mem_filter, bne_iff_ne, hown]
  constructor
  · rintro ⟨hp, hne⟩
    obtain ⟨c, j, hj, rfl⟩ := (h p).1 hp
    by_cases htable : (j.backing c).table = b.table
    · obtain rfl := (hs.table_eq_iff hb hj.1).1 htable
      refine .inr ⟨j, List.mem_filter.mpr ⟨hj.2, bne_iff_ne.mpr ?_⟩, rfl⟩
      rintro rfl
      exact hne rfl
    · exact .inl ⟨hp, htable⟩
  · rintro (⟨hp, htable⟩ | ⟨j, hj, rfl⟩)
    · -- The name that is dropped is that of the index, and no index of another benchmark has it.
      refine ⟨hp, fun heq => ?_⟩
      obtain ⟨c, j, hj, rfl⟩ := (h p).1 hp
      have hsame : (j.backing c).name = (i.backing b).name := by
        rw [heq, ← hname]
        rfl
      obtain ⟨rfl, _⟩ := hapart.eq_of_name_eq hs hj hdropped hsame
      exact htable rfl
    · obtain ⟨hj, hjname⟩ := List.mem_filter.mp hj
      refine ⟨(h _).2 ⟨b, j, ⟨hb, hj⟩, rfl⟩, fun heq => ?_⟩
      exact bne_iff_ne.mp hjname (physicalIndexName_inj_right.1 heq)

/-! ## §5 Operations on benchmarks -/

/-- The indices of a benchmark that is put in place of another one are those that the other one had. -/
theorem putBenchmark_ownIndices (hid : c.id = b.id) :
    (s.putBenchmark c).ownIndices c = s.ownIndices b := by
  unfold ownIndices
  rw [hid]
  rfl

theorem Sound.putBenchmark_hasIndex (h : s.Sound) (hb : b ∈ s.benchmarks) (hid : c.id = b.id)
    (d : Benchmark) (i : FieldIndex) :
    (s.putBenchmark c).HasIndex d i ↔ (d = c ∧ s.HasIndex b i) ∨ (s.HasIndex d i ∧ d ≠ b) := by
  have hown : (s.putBenchmark c).ownIndices c = s.ownIndices b := putBenchmark_ownIndices hid
  unfold HasIndex
  rw [mem_putBenchmark hid hb]
  constructor
  · rintro ⟨rfl | ⟨hd, hne⟩, hi⟩
    · exact .inl ⟨rfl, hb, hown ▸ hi⟩
    · refine .inr ⟨⟨hd, hi⟩, ?_⟩
      rintro rfl
      exact hne rfl
  · rintro (⟨rfl, _, hi⟩ | ⟨⟨hd, hi⟩, hne⟩)
    · exact ⟨.inl rfl, hown ▸ hi⟩
    · exact ⟨.inr ⟨hd, fun heq => hne (h.eq_of_id_eq hd hb heq)⟩, hi⟩

/-- With its table a benchmark takes its physical indices to its new name. -/
theorem Backed.mem_renameTable (h : s.Backed) (hs : s.Sound) (hapart : s.IndexNamesApart)
    (hb : b ∈ s.benchmarks) (hid : c.id = b.id) (hok : (s.putBenchmark c).renameTable b c = .ok t)
    (hfree : ∀ p ∈ s.physicalIndices, p.table ≠ b.table → ∀ i ∈ s.ownIndices b,
      p.name ≠ (i.backing c).name) (p : PhysicalIndex) :
    p ∈ t.physicalIndices
      ↔ (p ∈ s.physicalIndices ∧ p.table ≠ b.table) ∨ ∃ i ∈ s.ownIndices b, p = i.backing c := by
  have hown : (s.putBenchmark c).ownIndices c = s.ownIndices b := putBenchmark_ownIndices hid
  have hheld := hs.holdings b hb
  unfold renameTable at hok
  split at hok
  · -- A benchmark without a table has neither indices nor physical ones.
    rename_i hnone
    cases hok
    have hnil : s.ownIndices b = [] := hheld.indices_eq_nil hnone
    rw [hnil]
    show p ∈ s.physicalIndices ↔ _
    have htable : p ∈ s.physicalIndices → p.table ≠ b.table := by
      intro hp heq
      obtain ⟨i, hi, _⟩ := (h.mem_table_iff hs hb).1 ⟨hp, heq⟩
      rw [hnil] at hi
      cases hi
    simpa using htable
  · rename_i table htable
    obtain ⟨l, hl⟩ := dropPhysicalIndices_eq (s.putBenchmark c) b
    -- What is dropped are the physical indices of the benchmark, so none is left that follows its table.
    have hrest : ∀ q, q ∈ l ↔ q ∈ s.physicalIndices ∧ q.table ≠ b.table := by
      intro q
      have hl' : l = ((s.putBenchmark c).dropPhysicalIndices b).physicalIndices := by rw [hl]
      rw [hl', dropPhysicalIndices, mem_foldl_dropPhysicalIndex]
      refine and_congr_right fun hq => ⟨fun hnames heq => ?_, fun hother i hi heq => ?_⟩
      · obtain ⟨i, hi, rfl⟩ := (h.mem_table_iff hs hb).1 ⟨hq, heq⟩
        exact hnames i ((indicesOf_perm _ b).mem_iff.mpr hi) rfl
      · obtain ⟨d, j, hj, rfl⟩ := (h q).1 hq
        have hown : i ∈ s.ownIndices b := (indicesOf_perm _ b).mem_iff.mp hi
        obtain ⟨rfl, _⟩ := hapart.eq_of_name_eq hs hj ⟨hb, hown⟩ heq
        exact hother rfl
    have hmoved : (l.map fun q => if q.table == b.table then { q with table := c.table } else q) = l := by
      refine (List.map_congr_left (g := id) fun q hq => ?_).trans (List.map_id _)
      exact if_neg (by simpa using ((hrest q).1 hq).2)
    rw [hl] at hok
    dsimp only at hok
    split at hok
    · cases hok
    · -- Behind the renaming they are made anew, under names that are free.
      cases hok
      refine Iff.trans (mem_makePhysicalIndices ?_ ?_ (fun q hq i hi => ?_) p) ?_
      · show (((s.putBenchmark c).ownIndices c).map (·.name)).Nodup
        rw [hown]
        exact hheld.indexNames
      · obtain ⟨hmem, hname⟩ := of_table?_eq_some htable
        exact List.find?_isSome.mpr ⟨_, List.mem_map_of_mem hmem, by simp [hname]⟩
      · replace hq : q ∈ l := hmoved ▸ hq
        replace hi : i ∈ s.ownIndices b := hown ▸ hi
        exact hfree q ((hrest q).1 hq).1 ((hrest q).1 hq).2 i hi
      · show p ∈ l.map _ ∨ (∃ i ∈ (s.putBenchmark c).ownIndices c, _) ↔ _
        rw [hmoved, hrest, hown]

theorem Backed.renameBenchmark (h : s.Backed) (hs : s.Sound) {old new : String}
    (hok : s.renameBenchmark old new = .ok (c, s')) (hapart : s.IndexNamesApart)
    (hapart' : s'.IndexNamesApart) : s'.Backed := by
  have hs' := hs.renameBenchmark hok
  obtain ⟨_, name, b, _, _, hfound, ⟨_, rfl, rfl⟩ | ⟨_, hc, t, ht, rfl⟩⟩ := renameBenchmark_eq_ok hok
  · exact h
  obtain ⟨hb, _⟩ := of_benchmark?_eq_some hfound
  have hid : c.id = b.id := by rw [hc]
  have hindices : ∀ d i, t.HasIndex d i ↔ (d = c ∧ s.HasIndex b i) ∨ (s.HasIndex d i ∧ d ≠ b) := by
    intro d i
    rw [← hs.putBenchmark_hasIndex hb hid]
    obtain ⟨l, rfl⟩ := renameTable_eq_ok ht
    exact hasIndex_congr rfl rfl d i
  have hmem := h.mem_renameTable hs hapart hb hid ht fun p hp htable i hi heq => by
    -- Behind the renaming the two indices would have one physical name.
    obtain ⟨d, j, hj, rfl⟩ := (h p).1 hp
    have hne : d ≠ b := fun heq => htable ((hs.table_eq_iff hb hj.1).2 heq)
    have hj' : t.HasIndex d j := (hindices d j).2 (.inr ⟨hj, hne⟩)
    have hi' : t.HasIndex c i := (hindices c i).2 (.inl ⟨rfl, hb, hi⟩)
    obtain ⟨rfl, _⟩ := IndexNamesApart.eq_of_name_eq (s := t.touch) hapart' hs' hj' hi' heq
    exact hne (hs.eq_of_id_eq hj.1 hb hid)
  show t.Backed
  intro p
  rw [hmem]
  constructor
  · rintro (⟨hp, htable⟩ | ⟨i, hi, rfl⟩)
    · obtain ⟨d, j, hj, rfl⟩ := (h p).1 hp
      have hne : d ≠ b := fun heq => htable ((hs.table_eq_iff hb hj.1).2 heq)
      exact ⟨d, j, (hindices d j).2 (.inr ⟨hj, hne⟩), rfl⟩
    · exact ⟨c, i, (hindices c i).2 (.inl ⟨rfl, hb, hi⟩), rfl⟩
  · rintro ⟨d, i, hi, rfl⟩
    rcases (hindices d i).1 hi with ⟨rfl, hi⟩ | ⟨hi, hne⟩
    · exact .inr ⟨i, hi.2, rfl⟩
    · exact .inl ⟨(h _).2 ⟨d, i, hi, rfl⟩, fun htable => hne ((hs.table_eq_iff hb hi.1).1 htable)⟩

theorem Backed.setDescription (h : s.Backed) (hs : s.Sound) {written : String} {description : Option String}
    (hok : s.setDescription written description = .ok s') : s'.Backed := by
  obtain ⟨_, b, _, hfound, rfl⟩ := setDescription_eq_ok hok
  obtain ⟨hb, _⟩ := of_benchmark?_eq_some hfound
  have hindices := hs.putBenchmark_hasIndex (c := { b with description := description }) hb rfl
  intro p
  show p ∈ s.physicalIndices ↔ ∃ d i, (s.putBenchmark _).HasIndex d i ∧ _
  rw [h p]
  simp only [hindices]
  constructor
  · rintro ⟨d, i, hi, rfl⟩
    by_cases heq : d = b
    · subst heq
      exact ⟨_, i, .inl ⟨rfl, hi⟩, rfl⟩
    · exact ⟨d, i, .inr ⟨hi, heq⟩, rfl⟩
  · rintro ⟨d, i, ⟨rfl, hi⟩ | ⟨hi, _⟩, rfl⟩
    · exact ⟨b, i, hi, rfl⟩
    · exact ⟨d, i, hi, rfl⟩

theorem Backed.removeBenchmark (h : s.Backed) (hs : s.Sound) {written : String}
    (hok : s.removeBenchmark written = .ok s') : s'.Backed := by
  obtain ⟨_, b, _, hfound, _, _, rfl⟩ := removeBenchmark_eq_ok hok
  obtain ⟨hb, _⟩ := of_benchmark?_eq_some hfound
  have hchanged := dropHolding_changedOnly s b
  have hindices : ∀ d i, HasIndex { s.dropTable b.table with
      indices := s.indices.filter (·.benchmark != b.id)
      benchmarks := s.benchmarks.filter (·.id != b.id) } d i ↔ s.HasIndex d i ∧ d ≠ b := by
    intro d i
    unfold HasIndex
    simp only [List.mem_filter, bne_iff_ne]
    constructor
    · rintro ⟨⟨hd, hne⟩, hi⟩
      refine ⟨⟨hd, (hchanged.ownIndices hne).symm ▸ hi⟩, ?_⟩
      rintro rfl
      exact hne rfl
    · rintro ⟨⟨hd, hi⟩, hne⟩
      have hid : d.id ≠ b.id := fun heq => hne (hs.eq_of_id_eq hd hb heq)
      exact ⟨⟨hd, hid⟩, hchanged.ownIndices hid ▸ hi⟩
  intro p
  show p ∈ s.physicalIndices.filter (·.table != b.table) ↔ ∃ d i, HasIndex { s.dropTable b.table with
      indices := s.indices.filter (·.benchmark != b.id)
      benchmarks := s.benchmarks.filter (·.id != b.id) } d i ∧ _
  simp only [hindices, List.mem_filter, bne_iff_ne]
  constructor
  · rintro ⟨hp, htable⟩
    obtain ⟨d, i, hi, rfl⟩ := (h p).1 hp
    exact ⟨d, i, ⟨hi, fun heq => htable ((hs.table_eq_iff hb hi.1).2 heq)⟩, rfl⟩
  · rintro ⟨d, i, ⟨hi, hne⟩, rfl⟩
    exact ⟨(h _).2 ⟨d, i, hi, rfl⟩, fun htable => hne ((hs.table_eq_iff hb hi.1).1 htable)⟩

/-! ## §6 Imports -/

theorem insertValues_hasIndex {fields : List Field} {values : SortedMap String String}
    {outcome : InsertOutcome} (hok : s.insertValues b fields values = .ok (outcome, s')) :
    (∀ c i, s'.HasIndex c i ↔ s.HasIndex c i) ∧ s'.physicalIndices = s.physicalIndices := by
  obtain ⟨typed, _, ⟨e, _, _, rfl⟩ | ⟨_, _, rfl⟩⟩ := insertValues_eq_ok hok
  · exact ⟨hasIndex_congr rfl rfl, rfl⟩
  · exact ⟨hasIndex_congr rfl rfl, rfl⟩

theorem Backed.importCsv (h : s.Backed) (hs : s.Sound) (hapart : s.IndexNamesApart) (bench : String)
    (bytes : List UInt8) (o : ImportOptions) (stop : Nat → Bool) :
    (s.importCsv bench bytes o stop).store.Backed := by
  -- The stores of an import have the same indices all along, so their names stay apart.
  let P : Store → Prop := fun s' => s'.Sound ∧ s'.Backed ∧ s'.IndexNamesApart
  suffices hall : P (s.importCsv bench bytes o stop).store from hall.2.1
  have hstart : P s := ⟨hs, h, hapart⟩
  refine importCsv_induction stop hstart (fun name hname => ?_)
    fun s₁ plan skipped reader name autoKey hname h₁ hplan => ?_
  · refine prepareAutoKey_induction o.autoKey hstart (fun b s₁ heq => ?_) fun s₁ s₂ f new h₁ hok => ?_
    · have hindices := hs.ensure_hasIndex heq
      exact ⟨(hs.ensure (isCanonical_of_canonical hname) heq).1,
        h.congr hindices (ensure_records heq).2.2, hapart.congr hindices⟩
    · exact ⟨h₁.1.addField hok, h₁.2.1.addField h₁.1 hok h₁.2.2⟩
  · have hfits : plan.Fits s₁ := h₁.1.fits_importPlan hplan
    have hkeeps : plan.Keeps fun s' => plan.Fits s' ∧ s'.Backed ∧ s'.IndexNamesApart := by
      refine ⟨fun h => ⟨h.1.touch, h.2⟩, fun h hok => ?_⟩
      obtain ⟨hindices, hphysical⟩ := insertValues_hasIndex hok
      exact ⟨h.1.insertValues hok, h.2.1.congr hindices hphysical, h.2.2.congr hindices⟩
    have hrun := (hkeeps.run (p := .start s₁) ⟨⟨hfits, h₁.2⟩, ⟨hfits, h₁.2⟩⟩ o.chunkSize stop
      reader.records).committed
    exact ⟨hrun.1.sound, hrun.2⟩

/-! ## §7 Histories -/

theorem Backed.apply (h : s.Backed) (hs : s.Sound) (hapart : s.IndexNamesApart) {op : Operation}
    (hapart' : (s.apply op).IndexNamesApart) : (s.apply op).Backed := by
  have hs' := hs.apply op
  revert hs' hapart'
  -- A refused operation leaves everything, so each case is about the store of an accepted one.
  let P : Store → Prop := fun s' => s'.IndexNamesApart → s'.Sound → s'.Backed
  suffices hall : P (s.apply op) from hall
  have hrefl : P s := fun _ _ => h
  cases op with
  | createBenchmark =>
    refine orKeep_map_induction hrefl fun b s' hok _ _ => ?_
    obtain ⟨name, _, _, _, rfl⟩ := createBenchmark_eq_ok hok
    exact h.congr (hs.insertBenchmark_hasIndex name _) rfl
  | ensureBenchmark =>
    refine orKeep_map_induction hrefl fun b s' hok _ _ => ?_
    obtain ⟨name, _, hok⟩ := bind_eq_ok.1 hok
    exact h.congr (hs.ensure_hasIndex (Except.ok.inj hok)) (ensure_records (Except.ok.inj hok)).2.2
  | renameBenchmark =>
    exact orKeep_map_induction hrefl fun c s' hok hapart' _ => h.renameBenchmark hs hok hapart hapart'
  | setDescription => exact orKeep_induction hrefl fun s' hok _ _ => h.setDescription hs hok
  | removeBenchmark => exact orKeep_induction hrefl fun s' hok _ _ => h.removeBenchmark hs hok
  | addField => exact orKeep_map_induction hrefl fun f s' hok _ _ => (h.addField hs hok hapart).1
  | removeField =>
    exact orKeep_induction hrefl fun s' hok hapart' hs' => h.remade hs (hs.removeField_remade hok) hs' hapart'
  | renameField =>
    exact orKeep_map_induction hrefl fun g s' hok hapart' hs' =>
      h.remade hs (hs.renameField_remade hok) hs' hapart'
  | setNumeric =>
    exact orKeep_induction hrefl fun s' hok hapart' hs' => h.remade hs (hs.setNumeric_remade hok) hs' hapart'
  | setKey =>
    refine orKeep_induction hrefl fun s' hok _ _ => ?_
    obtain ⟨_, _, _, _, _, _, _, _, _, ⟨_, rfl⟩ | ⟨_, rfl⟩⟩ := setKey_eq_ok hok
    · exact h
    · exact h.congr (hasIndex_congr rfl rfl) rfl
  | createIndex =>
    exact orKeep_map_induction hrefl fun i s' hok hapart' _ => h.createIndex hs hok hapart'
  | dropIndex => exact orKeep_induction hrefl fun s' hok _ _ => h.dropIndex hs hok hapart
  | insert =>
    refine orKeep_map_induction hrefl fun outcome s' hok _ _ => ?_
    obtain ⟨_, _, b, t, _, _, _, _, ht, rfl⟩ := insert_eq_ok hok
    obtain ⟨hindices, hphysical⟩ := insertValues_hasIndex ht
    have hbacked : t.Backed := h.congr hindices hphysical
    split
    · exact hbacked
    · exact hbacked
  | importCsv bench bytes o stop =>
    intro _ _
    exact h.importCsv hs hapart bench bytes o stop
  | setOutlier =>
    refine orKeep_induction hrefl fun s' hok _ _ => ?_
    obtain ⟨_, _, _, _, rfl⟩ := setOutlier_eq_ok hok
    exact h.congr (hasIndex_congr rfl rfl) rfl
  | setOutlierWhere =>
    refine orKeep_map_induction hrefl fun n s' hok _ _ => ?_
    obtain ⟨_, _, _, _, _, _, rfl⟩ := setOutlierWhere_eq_ok hok
    exact h.congr (hasIndex_congr rfl rfl) rfl
  | delete =>
    refine orKeep_map_induction hrefl fun n s' hok _ _ => ?_
    obtain ⟨_, _, _, _, rfl⟩ := delete_eq_ok hok
    exact h.congr (hasIndex_congr rfl rfl) rfl
  | deleteWhere =>
    refine orKeep_map_induction hrefl fun n s' hok _ _ => ?_
    obtain ⟨_, _, _, _, _, _, rfl⟩ := deleteWhere_eq_ok hok
    exact h.congr (hasIndex_congr rfl rfl) rfl

/-- At no moment of a history do the names of two recorded indices overlap. -/
def KeepsNamesApart (s : Store) (history : List (String × Operation)) : Prop :=
  ∀ before after, history = before ++ after → (s.run before).IndexNamesApart

theorem Backed.run (h : s.Backed) (hs : s.Sound) {history : List (String × Operation)}
    (hapart : s.KeepsNamesApart history) : (s.run history).Backed := by
  -- Along the history: each operation finds and leaves names that are apart.
  induction history generalizing s with
  | nil => exact h
  | cons p rest ih =>
    have hfirst : (s.atTime p.1).Backed := h
    have hbefore : (s.atTime p.1).IndexNamesApart := hapart [] (p :: rest) rfl
    have hafter : ((s.atTime p.1).apply p.2).IndexNamesApart := hapart [p] rest rfl
    refine ih (hfirst.apply (hs.atTime p.1) hbefore hafter) ((hs.atTime p.1).apply p.2) ?_
    rintro before after rfl
    exact hapart (p :: before) after rfl

/-- Two indices have one physical name iff their names overlap. In every history that keeps the names of
    recorded indices apart, each index of a benchmark with a table has its physical index there, over the
    columns of its fields in their order; and an operation touches no physical index on the table of a
    benchmark that it does not name. -/
theorem history_backsIndices {clock : String} {history : List (String × Operation)}
    (hapart : (new clock).KeepsNamesApart history) :
    (∀ bench index bench' index', physicalIndexName bench index = physicalIndexName bench' index'
      ↔ (bench = bench' ∧ index = index')
        ∨ NamesOverlap bench index bench' index' ∨ NamesOverlap bench' index' bench index)
      ∧ (∀ b ∈ ((new clock).run history).benchmarks, (((new clock).run history).table? b.table).isSome →
        ∀ i ∈ ((new clock).run history).indicesOf b,
          ⟨b.name ++ "_" ++ i.name ++ "_IDX", b.name ++ "_VIEW", i.fields.map columnName⟩
            ∈ ((new clock).run history).physicalIndices)
      ∧ ∀ before time op after, history = before ++ (time, op) :: after →
        ∀ c ∈ ((new clock).run before).benchmarks, canonical op.bench ≠ .ok c.name →
          ∀ p : PhysicalIndex, p.table = c.table →
            (p ∈ ((new clock).run (before ++ [(time, op)])).physicalIndices
              ↔ p ∈ ((new clock).run before).physicalIndices) := by
  have hnew : (new clock).Sound := sound_new clock
  have hbacked : ∀ before after, history = before ++ after → ((new clock).run before).Backed := by
    rintro before after rfl
    refine Backed.run (fun p => ?_) hnew fun earlier later heq => ?_
    · constructor
      · intro hp
        cases hp
      · rintro ⟨b, i, ⟨hb, _⟩, _⟩
        cases hb
    · exact hapart earlier (later ++ after) (by rw [heq, List.append_assoc])
  refine ⟨fun _ _ _ _ => physicalIndexName_eq_iff, fun b hb _ i hi => ?_, ?_⟩
  · have hown : i ∈ ((new clock).run history).ownIndices b := (indicesOf_perm _ b).mem_iff.mp hi
    exact (hbacked history [] (by simp) _).2 ⟨b, i, ⟨hb, hown⟩, rfl⟩
  · rintro before time op after rfl c hc hother p htable
    have hfound : ((new clock).run before).Sound := hnew.run before
    have hlast : ((new clock).run (before ++ [(time, op)])).Sound := hnew.run _
    have hleft : LeavesAlone c ((new clock).run before) ((new clock).run (before ++ [(time, op)])) := by
      have hstep : LeavesAlone c (((new clock).run before).atTime time)
          ((((new clock).run before).atTime time).apply op) :=
        (hfound.atTime time).leavesAlone_apply hc hother
      rw [run_append]
      exact ⟨hstep.mem, hstep.holding⟩
    -- Before and behind the operation they are those behind the indices of the benchmark.
    have hbefore := (hbacked before _ rfl).mem_table_iff hfound hc (p := p)
    have hafter := (hbacked (before ++ [(time, op)]) after (by simp)).mem_table_iff hlast hleft.mem (p := p)
    have hindices : ((new clock).run (before ++ [(time, op)])).ownIndices c
        = ((new clock).run before).ownIndices c := congrArg Holding.indices hleft.holding
    rw [hindices] at hafter
    simpa [htable] using hafter.trans hbefore.symm

/-- A history with an index for each of two benchmarks. -/
def sampleIndices (index : String) : List (String × Operation) := [
  ("1", .addField "a b" ⟨"size", true, true, none⟩),
  ("2", .addField "a" ⟨"time", true, true, none⟩),
  ("3", .createIndex "a b" "c" ["size"]),
  ("4", .createIndex "a" index ["time"])]

theorem backedIndices_sample : (new "0").KeepsNamesApart (sampleIndices "d")
    ∧ ((new "0").run (sampleIndices "d")).indices.length = 2
    ∧ ∀ b ∈ ((new "0").run (sampleIndices "d")).benchmarks,
      (((new "0").run (sampleIndices "d")).table? b.table).isSome →
        ∀ i ∈ ((new "0").run (sampleIndices "d")).indicesOf b,
          ⟨b.name ++ "_" ++ i.name ++ "_IDX", b.name ++ "_VIEW", i.fields.map columnName⟩
            ∈ ((new "0").run (sampleIndices "d")).physicalIndices := by
  have hall : (∀ before ∈ (sampleIndices "d").inits, ((new "0").run before).IndexNamesApart)
      ∧ ((new "0").run (sampleIndices "d")).indices.length = 2 := by
    decide +kernel
  have hapart : (new "0").KeepsNamesApart (sampleIndices "d") := by
    intro before after heq
    exact hall.1 before ((List.mem_inits ..).mpr ⟨after, heq.symm⟩)
  exact ⟨hapart, hall.2, (history_backsIndices hapart).2.1⟩

/-- Of two indices with one physical name the later one has no physical index, and takes that of the earlier
    one along when it is dropped. -/
theorem overlappingIndices_sample :
    ((new "0").run (sampleIndices "b c")).indices.map (fun i => (i.benchmark, i.name, i.fields))
        = [(1, "C", ["SIZE"]), (2, "B_C", ["TIME"])]
      ∧ ((new "0").run (sampleIndices "b c")).physicalIndices = [⟨"A_B_C_IDX", "A_B_VIEW", ["_SIZE"]⟩]
      ∧ ((new "0").run (sampleIndices "b c" ++ [("5", .dropIndex "a" "b c")])).physicalIndices = [] := by
  decide +kernel

end Store

end BenchPlot
