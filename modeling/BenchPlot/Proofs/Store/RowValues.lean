import BenchPlot.Proofs.SortedMap
import BenchPlot.Proofs.Store.AutoKey

/-!
# The values of imported records

An import keys the values of a record by names of fields, which are canonical, and in the order of the names.
Canonical names are found again as they are, so an insertion under written names takes the values of a record
as the import does.

Main statements: `canonicalValues_of_sorted` and `Prepares.insert_valuesOf`.
-/

namespace BenchPlot

/-! ## §1 The names of a record -/

namespace ImportPlan

variable {plan : ImportPlan} {record : List String}

theorem valuesOf_sorted (plan : ImportPlan) (record : List String) : (plan.valuesOf record).Sorted := by
  have hnamed : ∀ l : List (String × String), (SortedMap.ofList l).Sorted := by
    intro l
    exact SortedMap.sorted_empty.foldl_insert l
  unfold valuesOf
  dsimp only
  split
  · exact (hnamed _).foldl_insert plan.fixed.entries
  · exact ((hnamed _).foldl_insert plan.fixed.entries).insert _ _

/-- A name comes from a column, from the fixed values, or it is that of the key field of digests. -/
theorem mem_keys_valuesOf {k : String} (h : k ∈ (plan.valuesOf record).keys) :
    some k ∈ plan.columns ∨ k ∈ plan.fixed.keys ∨ plan.autoKey = some k := by
  -- Before the digest comes in, a name is that of a column or of a fixed value.
  have hcolumns : ∀ {l : List (String × String)}, l = (plan.columns.zip record).filterMap
      (fun entry => entry.1.map fun name => (name, entry.2)) →
      k ∈ ((SortedMap.ofList l).union plan.fixed).keys → some k ∈ plan.columns ∨ k ∈ plan.fixed.keys := by
    intro l hl hk
    rcases SortedMap.mem_keys_foldl_insert hk with hnamed | hfixed
    · rcases SortedMap.mem_keys_foldl_insert hnamed with hnone | hlist
      · cases hnone
      · obtain ⟨entry, hentry, rfl⟩ := List.mem_map.mp hlist
        rw [hl] at hentry
        obtain ⟨⟨column, value⟩, hzip, hnamed⟩ := List.mem_filterMap.mp hentry
        obtain ⟨name, rfl, rfl⟩ := Option.map_eq_some_iff.mp hnamed
        exact .inl (List.of_mem_zip hzip).1
    · exact .inr hfixed
  unfold valuesOf at h
  dsimp only at h
  split at h
  · exact (hcolumns rfl h).imp_right .inl
  · rename_i name hname
    rcases SortedMap.mem_keys_insert h with rfl | hother
    · exact .inr (.inr hname)
    · exact (hcolumns rfl hother).imp_right .inl

end ImportPlan

namespace Store

variable {s s' u : Store} {b : Benchmark} {values : SortedMap String String}

/-! ## §2 Canonical names -/

/-- Values under canonical names, in the order of the names, are found again as they are. -/
theorem canonicalValues_of_sorted (hsorted : values.Sorted) (hcanonical : ∀ k ∈ values.keys, IsCanonical k) :
    canonicalValues values = .ok values := by
  -- Along the entries: those before are in the map already, and the next name is above all of them.
  suffices hfold : ∀ before rest : List (String × String), values.entries = before ++ rest →
      rest.foldlM (fun m entry => do
        let field ← canonical entry.1
        if m.contains field then .error (.invalidValue (.givenTwice field entry.1))
        else .ok (m.insert field entry.2)) (⟨before⟩ : SortedMap String String) = .ok values by
    exact hfold [] values.entries rfl
  intro before rest
  induction rest generalizing before with
  | nil =>
    intro heq
    rw [List.append_nil] at heq
    rw [← heq]
    rfl
  | cons entry rest ih =>
    intro heq
    obtain ⟨name, value⟩ := entry
    have hname : canonical name = .ok name := by
      apply mapError_eq_ok.2
      apply hcanonical name
      unfold SortedMap.keys
      rw [heq]
      simp
    have habove : ∀ j ∈ (⟨before⟩ : SortedMap String String).keys, compare name j = .gt := by
      intro j hj
      obtain ⟨old, hold, rfl⟩ := List.mem_map.mp hj
      unfold SortedMap.Sorted at hsorted
      rw [heq] at hsorted
      exact Std.OrientedCmp.gt_of_lt ((List.pairwise_append.mp hsorted).2.2 old hold _ (List.mem_cons_self ..))
    have hnext := ih (before ++ [(name, value)]) (by rw [heq, List.append_assoc]; rfl)
    rw [List.foldlM_cons]
    simp only [hname, bind, Except.bind, SortedMap.contains_of_above habove, Bool.false_eq_true, if_false]
    rw [SortedMap.insert_of_above habove]
    exact hnext

/-- Values under canonical names are in the order of the names. -/
theorem sorted_of_canonicalValues {named : SortedMap String String} (h : canonicalValues values = .ok named) :
    named.Sorted := by
  refine foldlM_invariant (fun _ (m : SortedMap String String) => m.Sorted) (fun n m entry m' hm hok => ?_)
    (n := 0) SortedMap.sorted_empty h
  obtain ⟨field, _, hok⟩ := bind_eq_ok.1 hok
  split at hok
  · cases hok
  · cases hok
    exact hm.insert field entry.2

theorem requireKnown_eq_ok {fields : List Field} :
    requireKnown b fields values = .ok () ↔ ∀ k ∈ values.keys, ∃ f ∈ fields, f.name = k := by
  unfold requireKnown
  cases hfind : values.keys.find? fun name => !fields.any (·.name == name) with
  | some unknown =>
    have hmem := List.mem_of_find?_eq_some hfind
    have hunknown := List.find?_some hfind
    simp only [reduceCtorEq, false_iff, not_forall]
    exact ⟨unknown, hmem, by simpa using hunknown⟩
  | none => simpa using hfind

/-! ## §3 Insertions of records -/

namespace Prepares

variable {bench : String} {bytes : List UInt8} {o : ImportOptions} {p : Preparation}

theorem sound (h : s.Prepares bench bytes o p) (hs : s.Sound) : p.first.Sound := by
  have hfirst := hs.prepareAutoKey (isCanonical_of_canonical h.name) o.autoKey
  rwa [h.first] at hfirst

/-- A plan is about the benchmark that is named, with its fields, a key among them. -/
theorem benchmark (h : s.Prepares bench bytes o p) :
    p.first.benchmark? p.name = some p.plan.benchmark
      ∧ p.first.fieldsOf p.plan.benchmark = p.plan.fields ∧ ∃ f ∈ p.plan.fields, f.key = true := by
  obtain ⟨b, _, _, hfound, hkey, _, _, _, hplan, _⟩ := importPlan_eq_ok h.plan
  rw [hplan]
  exact ⟨hfound, rfl, hkey⟩

theorem hasTextKey (h : s.Prepares bench bytes o p) (hs : s.Sound) {column : String}
    (hcolumn : p.autoKey = some column) : p.first.HasTextKey p.name column := by
  rcases prepareAutoKey_eq_ok h.first with ⟨_, hnone, _⟩ | ⟨key, found, _, hfound, hensured⟩
  · rw [hnone] at hcolumn
    cases hcolumn
  · rw [hfound] at hcolumn
    cases hcolumn
    exact (hs.ensureAutoKey_eq_ok (isCanonical_of_canonical h.name) hensured).2

/-- The values of a record are those of fields. -/
theorem known (h : s.Prepares bench bytes o p) (hs : s.Sound) {record : List String} {k : String}
    (hk : k ∈ (p.plan.valuesOf record).keys) : ∃ f ∈ p.plan.fields, f.name = k := by
  obtain ⟨b, fixed, headers, hfound, _, _, hknown, _, hplan, _⟩ := importPlan_eq_ok h.plan
  rcases ImportPlan.mem_keys_valuesOf hk with hcolumn | hfixed | hauto
  · -- A column is taken only if it names a field.
    rw [hplan] at hcolumn ⊢
    obtain ⟨header, _, hheader⟩ := List.mem_map.mp hcolumn
    unfold importColumn? at hheader
    split at hheader
    · cases hheader
    · split at hheader
      · rename_i hfield
        cases hheader
        simp only [Bool.and_eq_true] at hfield
        simpa using hfield.1
      · cases hheader
  · rw [hplan] at hfixed ⊢
    exact requireKnown_eq_ok.1 hknown k hfixed
  · rw [hplan] at hauto ⊢
    obtain ⟨b', f, hb', hf, _⟩ := h.hasTextKey hs hauto
    rw [hfound] at hb'
    cases hb'
    exact ⟨f, List.mem_of_find?_eq_some hf, by simpa using List.find?_some hf⟩

/-- An insertion under written names takes the values of a record as the import does. -/
theorem insert_valuesOf (h : s.Prepares bench bytes o p) (hs : s.Sound)
    (hbenchmarks : u.benchmarks = p.first.benchmarks) (hfields : u.fields = p.first.fields)
    (record : List String) {outcome : InsertOutcome} {t : Store}
    (hok : u.insertValues p.plan.benchmark p.plan.fields (p.plan.valuesOf record) = .ok (outcome, t)) :
    u.insert bench (p.plan.valuesOf record) = .ok (outcome, if outcome.isInserted then t.touch else t) := by
  obtain ⟨hfound, hown, key, hkey, hiskey⟩ := h.benchmark
  have hu : u.benchmark? p.name = some p.plan.benchmark := by
    unfold benchmark?
    rw [hbenchmarks]
    exact hfound
  have hufields : u.fieldsOf p.plan.benchmark = p.plan.fields := by
    unfold fieldsOf
    rw [hfields]
    exact hown
  have hcanonical : ∀ k ∈ (p.plan.valuesOf record).keys, IsCanonical k := by
    intro k hk
    obtain ⟨f, hf, rfl⟩ := h.known hs hk
    obtain ⟨hmem, _⟩ := of_benchmark?_eq_some hfound
    rw [← hown, (h.sound hs).fieldsOf_eq hmem] at hf
    exact ((h.sound hs).holdings _ hmem).fieldCanonical f hf
  have hnames := canonicalValues_of_sorted (p.plan.valuesOf_sorted record) hcanonical
  have hknown : requireKnown p.plan.benchmark p.plan.fields (p.plan.valuesOf record) = .ok () :=
    requireKnown_eq_ok.2 fun k hk => h.known hs hk
  have hinsert : u.insertFields p.plan.benchmark = .ok p.plan.fields := by
    unfold insertFields
    rw [hufields, if_pos]
    exact List.any_eq_true.mpr ⟨key, hkey, hiskey⟩
  unfold Store.insert
  simp only [bind, Except.bind, h.name, hnames, require_eq_ok.2 hu, hinsert, hknown, hok, Except.mapError,
    pure, Except.pure]

end Prepares

end Store

end BenchPlot
