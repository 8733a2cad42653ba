import BenchPlot.Proofs.Plan.CurveData
import BenchPlot.Proofs.Plan.Equality

/-!
# The instances of a curve

The query of an instance selects, among the rows of the query of its curve, those that have the values of the
instance. A text with a null character cannot be written out in a query, so an instance with such a value is
refused. The combinations of values are all choices of one value for each field, in lexicographic order.

Main statements: `combinations_pairwise`, `Sound.exists_own` and `bindCurve_eq_ok`.
-/

namespace BenchPlot

/-! ## §1 Combinations -/

section Combinations

variable {α β : Type} {sets : List (α × List β)}

theorem mem_combinations {c : List (α × β)} :
    c ∈ combinations sets ↔ List.Forall₂ (fun set p => set.1 = p.1 ∧ p.2 ∈ set.2) sets c := by
  induction sets generalizing c with
  | nil => rw [combinations, List.mem_singleton, List.forall₂_nil_left_iff]
  | cons set rest ih =>
    obtain ⟨a, values⟩ := set
    rw [combinations, List.mem_flatMap, List.forall₂_cons_left_iff]
    constructor
    · rintro ⟨v, hv, hc⟩
      obtain ⟨later, hlater, rfl⟩ := List.mem_map.mp hc
      exact ⟨(a, v), later, ⟨rfl, hv⟩, ih.mp hlater, rfl⟩
    · rintro ⟨⟨_, v⟩, later, ⟨rfl, hv⟩, hlater, rfl⟩
      exact ⟨v, hv, List.mem_map_of_mem (ih.mpr hlater)⟩

/-- Combinations of ascending values ascend; the last value varies fastest. -/
theorem combinations_pairwise {before : β → β → Prop} (h : ∀ set ∈ sets, set.2.Pairwise before) :
    (combinations sets).Pairwise (List.Lex fun p q => before p.2 q.2) := by
  induction sets with
  | nil => exact List.pairwise_singleton _ _
  | cons set rest ih =>
    obtain ⟨a, values⟩ := set
    rw [combinations, List.pairwise_flatMap]
    constructor
    · -- Under one first value the others ascend.
      intro v _
      exact List.pairwise_map.mpr ((ih fun set hset => h set (List.mem_cons_of_mem _ hset)).imp List.Lex.cons)
    · refine (h (a, values) (List.mem_cons_self ..)).imp fun {v w} hvw x hx y hy => ?_
      obtain ⟨_, _, rfl⟩ := List.mem_map.mp hx
      obtain ⟨_, _, rfl⟩ := List.mem_map.mp hy
      exact List.Lex.rel hvw

end Combinations

/-! ## §2 Queries of instances -/

theorem RowQuery.foldl_with (q : RowQuery) (predicates : List String) :
    predicates.foldl RowQuery.with_ q = ⟨q.predicates ++ predicates, q.includeOutliers⟩ := by
  induction predicates generalizing q with
  | nil => simp
  | cons p rest ih => simp [ih, RowQuery.with_]

/-- The predicates that the fields have the values of a combination. -/
def equalityPredicates (combination : List (Field × Value)) : List String :=
  combination.map fun p => equalityPredicate p.1 p.2

/-- The query of an instance. -/
def RowQuery.forInstance (q : RowQuery) (combination : List (Field × Value)) : RowQuery :=
  ⟨q.predicates ++ equalityPredicates combination, q.includeOutliers⟩

theorem RowQuery.foldl_equality (q : RowQuery) (combination : List (Field × Value)) :
    combination.foldl (fun q p => q.with_ (equalityPredicate p.1 p.2)) q = q.forInstance combination := by
  rw [forInstance, equalityPredicates, ← foldl_with, List.foldl_map]

/-- A row has the values of an iteration. -/
def HasValues (iteration : List (String × Value)) (r : StoredRow) : Prop :=
  ∀ p ∈ iteration, r.values.find? p.1 = some p.2

/-- The values of a combination by the names of the fields. -/
def byName (combination : List (Field × Value)) : List (String × Value) :=
  combination.map fun p => (p.1.name, p.2)

namespace Store

variable {s : Store} {b : Benchmark} {t : WideTable} {written : String} {q : RowQuery} {rows : List StoredRow}

/-- A value that may be asked for: the field is one of the benchmark's and may hold it. -/
def Asks (s : Store) (b : Benchmark) (p : Field × Value) : Prop :=
  p.1 ∈ s.fieldsOf b ∧ p.1.Admits p.2

/-- The predicates of a combination are conditions that hold exactly at the rows with its values. -/
theorem Sound.conditions?_equalities (h : s.Sound) (hb : b ∈ s.benchmarks) (ht : s.table? b.table = some t)
    {combination : List (Field × Value)} (hasks : ∀ p ∈ combination, s.Asks b p)
    (hwritten : ∀ p ∈ combination, p.2.IsWritten) (includeOutliers : Bool) : ∃ conditions,
      (RowQuery.mk (equalityPredicates combination) includeOutliers).conditions? t = some conditions
        ∧ ∀ r ∈ t.rows, (conditions.all (·.holds r.data)) = true ↔
          ∀ p ∈ combination, t.cell r p.1.column = p.2 := by
  induction combination with
  | nil => exact ⟨[], rfl, by simp⟩
  | cons p rest ih =>
    obtain ⟨conditions, hrest, hmeaning⟩ := ih (fun p hp => hasks p (List.mem_cons_of_mem _ hp))
      fun p hp => hwritten p (List.mem_cons_of_mem _ hp)
    obtain ⟨hf, hv⟩ := hasks p (List.mem_cons_self ..)
    have hw := hwritten p (List.mem_cons_self ..)
    obtain ⟨c, hfirst, hholds⟩ := h.exists_equality hb ht hf hv hw includeOutliers
    refine ⟨c :: conditions, ?_, fun r hr => ?_⟩
    · show (RowQuery.mk ([equalityPredicate p.1 p.2] ++ equalityPredicates rest) includeOutliers).conditions? t = _
      rw [conditions?_append, hfirst, hrest]
      rfl
    · rw [List.all_cons, Bool.and_eq_true, hholds r hr, hmeaning r hr, List.forall_mem_cons]

theorem Sound.complete_forInstance (h : s.Sound) (hb : b ∈ s.benchmarks) (hq : q.Complete)
    {combination : List (Field × Value)} (hasks : ∀ p ∈ combination, s.Asks b p)
    (hwritten : ∀ p ∈ combination, p.2.IsWritten) : (q.forInstance combination).Complete := by
  refine List.forall_mem_append.mpr ⟨hq, fun x hx => ?_⟩
  obtain ⟨p, hp, rfl⟩ := List.mem_map.mp hx
  obtain ⟨hf, hv⟩ := hasks p hp
  obtain ⟨u, hu, -⟩ := exists_isPredicate_equality (h.fieldCanonical hb hf) hv (hwritten p hp)
  exact hu.isComplete

/-- Each selected row has a value of each field, which the field may hold. -/
theorem Sound.exists_value_of_selectRows (h : s.Sound) (hwritten : s.benchmark written = .ok b)
    (hb : b ∈ s.benchmarks) (hq : q.Complete) (hrows : s.selectRows written q = .ok rows) {f : Field}
    (hf : f ∈ s.fieldsOf b) : ∀ r ∈ rows, ∃ v, r.values.find? f.name = some v ∧ f.Admits v := by
  obtain ⟨t, ht⟩ := h.exists_table hb hf
  rw [h.selectRows_eq hwritten hb ht hq] at hrows
  split at hrows
  · cases hrows
    intro r hr
    obtain ⟨w, hw, rfl⟩ := List.mem_map.mp hr
    exact ⟨_, find?_storedRow (h.fieldNames hb) hf w, h.admits_cell hb ht hf w (List.mem_of_mem_filter hw)⟩
  · cases hrows

/-- The query of an instance selects, of the rows of the query of the curve, those with its values. -/
theorem Sound.exists_own (h : s.Sound) (hname : s.benchmark written = .ok b) (hb : b ∈ s.benchmarks)
    (hq : q.Complete) {combination : List (Field × Value)} (hasks : ∀ p ∈ combination, s.Asks b p)
    (hwritten : ∀ p ∈ combination, p.2.IsWritten) (hrows : s.selectRows written q = .ok rows) : ∃ own,
      s.selectRows written (q.forInstance combination) = .ok own ∧ own.Sublist rows
        ∧ ∀ r ∈ rows, r ∈ own ↔ HasValues (byName combination) r := by
  cases ht : s.table? b.table with
  | none =>
    -- Without a table there is no field, so there are no values to ask for.
    have hnil : combination = [] := by
      refine List.eq_nil_iff_forall_not_mem.mpr fun p hp => ?_
      obtain ⟨t, htable⟩ := h.exists_table hb (hasks p hp).1
      rw [ht] at htable
      cases htable
    have hsame : q.forInstance combination = q := by
      rw [hnil, RowQuery.forInstance, equalityPredicates, List.map_nil, List.append_nil]
    rw [hsame, hnil]
    exact ⟨rows, hrows, .refl _, fun r hr => ⟨fun _ p hp => (List.not_mem_nil hp).elim, fun _ => hr⟩⟩
  | some t =>
    obtain ⟨more, hmore, hmeaning⟩ := h.conditions?_equalities hb ht hasks hwritten q.includeOutliers
    have hcomplete := h.complete_forInstance hb hq hasks hwritten
    refine h.exists_selected hname hb ht hcomplete hmore (fun w hw => ?_) hrows
    rw [hmeaning w hw, HasValues, byName, List.forall_mem_map]
    refine forall₂_congr fun p hp => ?_
    rw [find?_storedRow (h.fieldNames hb) (hasks p hp).1, Option.some_inj]

/-- Where an instance is selected, its values can be written out. -/
theorem Sound.isWritten_of_selectRows (h : s.Sound) (hname : s.benchmark written = .ok b) (hb : b ∈ s.benchmarks)
    (hq : q.Complete) {combination : List (Field × Value)} (hasks : ∀ p ∈ combination, s.Asks b p)
    (hreads : ∀ p ∈ combination, ∀ x, p.2 = .number x → ReadsBack x)
    (hrows : s.selectRows written (q.forInstance combination) = .ok rows) : ∀ p ∈ combination, p.2.IsWritten := by
  -- Along the combination, behind values that are written out.
  suffices hall : ∀ before after, combination = before ++ after → (∀ p ∈ before, p.2.IsWritten) →
      ∀ p ∈ after, p.2.IsWritten from hall [] combination rfl fun _ hp => (List.not_mem_nil hp).elim
  intro before after
  induction after generalizing before with
  | nil => exact fun _ _ p hp => (List.not_mem_nil hp).elim
  | cons p rest ih =>
    rintro rfl hbefore
    have hmem : p ∈ before ++ p :: rest := List.mem_append_right _ (List.mem_cons_self ..)
    obtain ⟨hf, hv⟩ := hasks p hmem
    have hp : p.2.IsWritten := by
      cases hvalue : p.2 with
      | null => trivial
      | number x => exact hreads p hmem x hvalue
      | text x =>
        intro hnull
        have hcomplete := h.complete_forInstance hb hq (fun p hp => hasks p (List.mem_append_left _ hp)) hbefore
        have hquery : q.forInstance (before ++ p :: rest) = ⟨(q.forInstance before).predicates
            ++ equalityPredicate p.1 (.text x) :: equalityPredicates rest, q.includeOutliers⟩ := by
          simp [RowQuery.forInstance, equalityPredicates, hvalue]
        rw [hquery, h.selectRows_cut hname hb hf (hvalue ▸ hv).1 hnull hcomplete] at hrows
        cases hrows
      | bool x => trivial
    have hlater := ih (before ++ [p]) (by simp)
      (List.forall_mem_append.mpr ⟨hbefore, List.forall_mem_singleton.mpr hp⟩)
    exact List.forall_mem_cons.mpr ⟨hp, hlater⟩

end Store

/-! ## §3 Accepted steps -/

theorem resolveField_eq_ok {location : Location} {b : Benchmark} {fields : List Field} {name : String} {f : Field}
    (h : resolveField location b fields name = .ok f) : canonicalName name = .ok f.name ∧ f ∈ fields := by
  unfold resolveField at h
  split at h
  · cases h
  · rename_i canonical hcanonical
    split at h
    · rename_i g hfound
      cases h
      have hname : f.name = canonical := by simpa using List.find?_some hfound
      exact ⟨hname ▸ hcanonical, List.mem_of_find?_eq_some hfound⟩
    · cases h

namespace BenchBinding

variable {b : BenchBinding} {curve : CurvePlan} {query : RowQuery}

/-- The query of a curve: that of its bench with the filters of the curve. -/
def curveQuery (b : BenchBinding) (curve : CurvePlan) : Except PlanError RowQuery :=
  b.query.withFilters b.scope b.benchmark b.fields curve.filters

theorem iteratedField_eq_ok {name : String} {set : Field × List Value}
    (h : b.iteratedField curve query name = .ok set) : canonicalName name = .ok set.1.name ∧ set.1 ∈ b.fields
      ∧ b.store.distinctValues b.benchmark.name set.1.name query = .ok set.2 := by
  unfold iteratedField at h
  obtain ⟨field, hfield, h⟩ := bind_eq_ok.1 h
  obtain ⟨values, hvalues, h⟩ := bind_eq_ok.1 h
  cases h
  obtain ⟨hname, hmem⟩ := resolveField_eq_ok hfield
  exact ⟨hname, hmem, mapError_eq_ok.1 hvalues⟩

/-- An instance has the iteration and, row by row, the pairs of its rows. -/
theorem instanceOf_eq_ok {iteration : List (String × Value)} {rows : List StoredRow} {d : CurveData}
    (h : b.instanceOf curve iteration rows = .ok d) : d.iteration = iteration ∧ ∃ pairs,
      List.Forall₂ (fun r p => b.pairOf curve r = .ok p) rows pairs ∧ d.Holds pairs := by
  unfold instanceOf at h
  obtain ⟨label, _, h⟩ := bind_eq_ok.1 h
  obtain ⟨markText, _, h⟩ := bind_eq_ok.1 h
  obtain ⟨pairs, hpairs, h⟩ := bind_eq_ok.1 h
  cases h
  exact ⟨CurveData.iteration_pushAll .., pairs, forall₂_of_mapM_eq_ok hpairs, CurveData.holds_pushAll ..⟩

theorem bindInstance_eq_ok {combination : List (Field × Value)} {d : CurveData}
    (h : b.bindInstance curve query combination = .ok d) : ∃ own,
      b.store.selectRows b.benchmark.name (query.forInstance combination) = .ok own
        ∧ b.instanceOf curve (byName combination) own = .ok d := by
  unfold bindInstance at h
  rw [RowQuery.foldl_equality] at h
  obtain ⟨own, hown, h⟩ := bind_eq_ok.1 h
  exact ⟨own, mapError_eq_ok.1 hown, h⟩

/-- The instances of a curve are those of all combinations; without any there is an empty one. -/
theorem bindCurve_eq_ok {bound : BoundCurve} (h : b.bindCurve curve = .ok bound) : ∃ query sets instances,
    b.curveQuery curve = .ok query
      ∧ List.Forall₂ (fun name set => b.iteratedField curve query name = .ok set) curve.iterate sets
      ∧ List.Forall₂ (fun c d => b.bindInstance curve query c = .ok d) (combinations sets) instances
      ∧ bound.instances = if instances.isEmpty then [CurveData.new (defaultLabel curve b.plan []) none []]
        else instances := by
  unfold bindCurve at h
  obtain ⟨_, _, h⟩ := bind_eq_ok.1 h
  obtain ⟨query, hquery, h⟩ := bind_eq_ok.1 h
  obtain ⟨sets, hsets, h⟩ := bind_eq_ok.1 h
  obtain ⟨instances, hinstances, h⟩ := bind_eq_ok.1 h
  cases h
  exact ⟨query, sets, instances, hquery, forall₂_of_mapM_eq_ok hsets, forall₂_of_mapM_eq_ok hinstances, rfl⟩

end BenchBinding

/-- A binding stands on a sound store, which has the benchmark and its fields. -/
structure BenchBinding.Sound (b : BenchBinding) : Prop where
  store : b.store.Sound
  mem : b.benchmark ∈ b.store.benchmarks
  found : b.store.benchmark b.benchmark.name = .ok b.benchmark
  fields : b.fields = b.store.fieldsOf b.benchmark

/-- A bench that is bound has the benchmark and its fields from the store. -/
theorem BenchPlan.sound_binding {store : Store} {scope : Scope} {bench : BenchPlan} {b : BenchBinding}
    (h : store.Sound) (hb : bench.binding store scope = .ok b) : b.Sound ∧ b.store = store := by
  unfold BenchPlan.binding at hb
  obtain ⟨found, hfound, hb⟩ := bind_eq_ok.1 hb
  cases found with
  | none => cases hb
  | some benchmark =>
    obtain ⟨query, hquery, hb⟩ := bind_eq_ok.1 hb
    cases hb
    obtain ⟨name, hname, hlookup⟩ := bind_eq_ok.1 (mapError_eq_ok.1 hfound)
    have hsome : store.benchmark? name = some benchmark := Except.ok.inj hlookup
    obtain ⟨hmem, rfl⟩ := Store.of_benchmark?_eq_some hsome
    -- A canonical name is written as it is.
    have hcanonical : Store.canonical benchmark.name = .ok benchmark.name :=
      mapError_eq_ok.2 (Store.isCanonical_of_canonical hname)
    have hwritten : store.benchmark benchmark.name = .ok benchmark :=
      bind_eq_ok.2 ⟨_, hcanonical, Store.require_eq_ok.2 hsome⟩
    exact ⟨⟨h, hmem, hwritten, rfl⟩, rfl⟩

/-- A bench of the benchmark `runs` with one filter. -/
def sampleBench (filter : String) : BenchPlan :=
  ⟨0, 0, ⟨"plan", 1⟩, "runs", [⟨filter, ⟨"plan", 2⟩⟩], [], false, none, [0]⟩

end BenchPlot
