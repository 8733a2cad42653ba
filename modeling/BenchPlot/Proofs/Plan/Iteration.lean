import BenchPlot.Proofs.Plan.Instances
import BenchPlot.Proofs.Store.Reach

/-!
# Iteration partitions the selected rows

The instances of a curve share out the rows that its query selects: each row gives its pair to the one instance
that stands for the row's values of the iterated fields. The instances come in lexicographic order of the
values, so those of the last field vary fastest. Where fields are iterated over and no row is selected there is
one empty instance.

Main statement: `bindCurve_partitions`.
-/

namespace BenchPlot

/-! ## §1 The values of the iterated fields -/

/-- The values of an iterated field are those in the selected rows, in ascending order. -/
structure IsIterated (s : Store) (b : Benchmark) (rows : List StoredRow) (name : String)
    (set : Field × List Value) : Prop where
  name : canonicalName name = .ok set.1.name
  field : set.1 ∈ s.fieldsOf b
  ascend : set.2.Pairwise fun v w => Value.order v w = .lt
  mem : ∀ v, v ∈ set.2 ↔ ∃ r ∈ rows, r.values.find? set.1.name = some v

/-- An iteration over fields, by their written names, that takes values from the rows. -/
def Iterates (rows : List StoredRow) (names : List String) (iteration : List (String × Value)) : Prop :=
  List.Forall₂ (fun name p => canonicalName name = .ok p.1 ∧ ∃ r ∈ rows, r.values.find? p.1 = some p.2)
    names iteration

/-- The values of one iteration come before those of another one, which differ in the first place. -/
def IterationBefore : List (String × Value) → List (String × Value) → Prop :=
  List.Lex fun p q => Value.order p.2 q.2 = .lt

/-- An iteration over fields takes values from some row. -/
theorem Iterates.rows_or_names {rows : List StoredRow} {names : List String} {iteration : List (String × Value)}
    (h : Iterates rows names iteration) : rows ≠ [] ∨ names = [] := by
  cases h with
  | nil => exact .inr rfl
  | cons hp _ =>
    obtain ⟨-, r, hr, -⟩ := hp
    exact .inl (List.ne_nil_of_mem hr)

theorem not_iterationBefore_self (iteration : List (String × Value)) : ¬IterationBefore iteration iteration := by
  refine List.lex_irrefl (fun p hlt => ?_) iteration
  have hself : Value.order p.2 p.2 = .eq := Std.ReflCmp.compare_self
  rw [hself] at hlt
  cases hlt

section Sets

variable {s : Store} {b : Benchmark} {rows : List StoredRow} {names : List String} {sets : List (Field × List Value)}

/-- The combinations of the values are the iterations that take them from the rows. -/
theorem exists_combination_iff (h : List.Forall₂ (IsIterated s b rows) names sets)
    (iteration : List (String × Value)) : (∃ c ∈ combinations sets, byName c = iteration) ↔ Iterates rows names iteration := by
  simp only [mem_combinations]
  unfold Iterates
  induction h generalizing iteration with
  | nil =>
    rw [List.forall₂_nil_left_iff]
    constructor
    · rintro ⟨c, hc, rfl⟩
      cases hc
      rfl
    · rintro rfl
      exact ⟨[], .nil, rfl⟩
  | @cons name set names sets hset _ ih =>
    constructor
    · rintro ⟨c, hc, rfl⟩
      obtain ⟨p, rest, ⟨hfield, hvalue⟩, hrest, rfl⟩ := List.forall₂_cons_left_iff.mp hc
      have hname : canonicalName name = .ok p.1.name := hfield ▸ hset.name
      have htaken : ∃ r ∈ rows, r.values.find? p.1.name = some p.2 := hfield ▸ (hset.mem p.2).mp hvalue
      exact .cons ⟨hname, htaken⟩ ((ih _).mp ⟨rest, hrest, rfl⟩)
    · intro hiteration
      obtain ⟨p, rest, ⟨hname, hvalue⟩, hrest, rfl⟩ := List.forall₂_cons_left_iff.mp hiteration
      obtain ⟨c, hc, rfl⟩ := (ih _).mpr hrest
      have hsame : set.1.name = p.1 := Except.ok.inj (hset.name.symm.trans hname)
      refine ⟨(set.1, p.2) :: c, .cons ⟨rfl, (hset.mem p.2).mpr (hsame ▸ hvalue)⟩ hc, ?_⟩
      rw [byName, List.map_cons, hsame]
      rfl

theorem byName_pairwise (h : List.Forall₂ (IsIterated s b rows) names sets) :
    ((combinations sets).map byName).Pairwise IterationBefore := by
  have hascend : ∀ set ∈ sets, set.2.Pairwise fun v w => Value.order v w = .lt := by
    intro set hset
    obtain ⟨name, _, hiterated⟩ := exists_mem_of_forall₂ h.flip hset
    exact hiterated.ascend
  refine List.pairwise_map.mpr ((combinations_pairwise hascend).imp fun hlex => ?_)
  -- The names of the fields keep the places of the values.
  induction hlex with
  | nil => exact .nil
  | rel hlt => exact .rel hlt
  | cons _ ih => exact .cons ih

/-- What a combination asks for are values that the rows have. -/
theorem of_mem_combination (h : List.Forall₂ (IsIterated s b rows) names sets) {c : List (Field × Value)}
    (hc : c ∈ combinations sets) : ∀ p ∈ c, p.1 ∈ s.fieldsOf b
      ∧ ∃ name ∈ names, canonicalName name = .ok p.1.name ∧ ∃ r ∈ rows, r.values.find? p.1.name = some p.2 := by
  intro p hp
  obtain ⟨set, hset, hfield, hvalue⟩ := exists_mem_of_forall₂ (mem_combinations.mp hc).flip hp
  obtain ⟨name, hname, hiterated⟩ := exists_mem_of_forall₂ h.flip hset
  rw [← hfield]
  exact ⟨hiterated.field, name, hname, hiterated.name, (hiterated.mem p.2).mp hvalue⟩

/-- A row has an iteration, which is the only one whose values it has. -/
theorem exists_iteration {r : StoredRow} (hr : r ∈ rows)
    (hnames : ∀ name ∈ names, ∃ field v, canonicalName name = .ok field ∧ r.values.find? field = some v) :
    ∃ iteration, Iterates rows names iteration ∧ HasValues iteration r := by
  induction names with
  | nil => exact ⟨[], .nil, fun p hp => (List.not_mem_nil hp).elim⟩
  | cons name names ih =>
    obtain ⟨iteration, hiterates, hvalues⟩ := ih fun name hname => hnames name (List.mem_cons_of_mem _ hname)
    obtain ⟨field, v, hfield, hv⟩ := hnames name (List.mem_cons_self ..)
    exact ⟨(field, v) :: iteration, .cons ⟨hfield, r, hr, hv⟩ hiterates, List.forall_mem_cons.mpr ⟨hv, hvalues⟩⟩

theorem eq_of_hasValues {r : StoredRow} {iteration iteration' : List (String × Value)}
    (h : Iterates rows names iteration) (h' : Iterates rows names iteration') (hvalues : HasValues iteration r)
    (hvalues' : HasValues iteration' r) : iteration = iteration' := by
  unfold Iterates at h h'
  induction h generalizing iteration' with
  | nil =>
    cases h'
    rfl
  | @cons name p names rest hp _ ih =>
    obtain ⟨p', rest', hp', hrest', rfl⟩ := List.forall₂_cons_left_iff.mp h'
    obtain ⟨hfirst, hlater⟩ := List.forall_mem_cons.mp hvalues
    obtain ⟨hfirst', hlater'⟩ := List.forall_mem_cons.mp hvalues'
    have hname : p.1 = p'.1 := Except.ok.inj (hp.1.symm.trans hp'.1)
    rw [hname, hfirst'] at hfirst
    rw [Prod.ext hname (Option.some.inj hfirst).symm, ih hrest' hlater hlater']

end Sets

/-! ## §2 Instances -/

/-- An instance holds the pairs of the rows that have its values. -/
def BenchBinding.HoldsOwn (b : BenchBinding) (curve : CurvePlan) (rows : List StoredRow) (d : CurveData) : Prop :=
  ∃ own pairs, own.Sublist rows ∧ (∀ r ∈ rows, r ∈ own ↔ HasValues d.iteration r)
    ∧ List.Forall₂ (fun r p => b.pairOf curve r = .ok p) own pairs ∧ d.Holds pairs

/-- The instances of a curve share out the rows that its query selects.

    An instance holds the pairs of the rows that have its values, and each row has the values of one instance.
    The instances ascend, and where there are rows, or nothing is iterated over, they are those of all iterations
    that take their values from the rows. Else there is one instance, which is empty. -/
structure BenchBinding.Partitions (b : BenchBinding) (curve : CurvePlan) (rows : List StoredRow)
    (instances : List CurveData) : Prop where
  own : ∀ d ∈ instances, b.HoldsOwn curve rows d
  once : ∀ r ∈ rows, ∃ before d after, instances = before ++ d :: after ∧ HasValues d.iteration r
    ∧ ∀ e ∈ before ++ after, ¬HasValues e.iteration r
  ordered : (instances.map (·.iteration)).Pairwise IterationBefore
  combined : rows ≠ [] ∨ curve.iterate = [] → ∀ iteration,
    iteration ∈ instances.map (·.iteration) ↔ Iterates rows curve.iterate iteration
  empty : rows = [] → curve.iterate ≠ [] → instances = [CurveData.new (defaultLabel curve b.plan []) none []]

variable {b : BenchBinding} {curve : CurvePlan} {query : RowQuery} {rows : List StoredRow}

/-- Where a row is selected, some instance has pairs. -/
theorem BenchBinding.Partitions.exists_not_isEmpty {instances : List CurveData}
    (h : b.Partitions curve rows instances) (hrows : rows ≠ []) : ∃ d ∈ instances, d.isEmpty = false := by
  obtain ⟨r, hr⟩ := List.exists_mem_of_ne_nil rows hrows
  obtain ⟨before, d, after, rfl, hvalues, -⟩ := h.once r hr
  have hd : d ∈ before ++ d :: after := List.mem_append_right _ (List.mem_cons_self ..)
  obtain ⟨own, pairs, -, hown, hpairs, hholds⟩ := h.own d hd
  refine ⟨d, hd, Bool.eq_false_iff.mpr fun hempty => ?_⟩
  -- The row is among those of the instance, which hold a pair each.
  rw [hholds.eq_nil_of_isEmpty hempty, List.forall₂_nil_right_iff] at hpairs
  have hmem := (hown r hr).mpr hvalues
  rw [hpairs] at hmem
  cases hmem

/-- Instances whose iterations are those of the rows share out the rows. -/
theorem BenchBinding.partitions_of_own {instances : List CurveData}
    (hown : ∀ d ∈ instances, b.HoldsOwn curve rows d)
    (hordered : (instances.map (·.iteration)).Pairwise IterationBefore)
    (hcombined : ∀ iteration, iteration ∈ instances.map (·.iteration) ↔ Iterates rows curve.iterate iteration)
    (hvalues : ∀ r ∈ rows, ∃ iteration, Iterates rows curve.iterate iteration ∧ HasValues iteration r)
    (hsome : rows ≠ [] ∨ curve.iterate = []) : b.Partitions curve rows instances := by
  refine ⟨hown, fun r hr => ?_, hordered, fun _ => hcombined, fun hrows hiterate => ?_⟩
  · obtain ⟨iteration, hiteration, hhas⟩ := hvalues r hr
    obtain ⟨d, hd, rfl⟩ := List.mem_map.mp ((hcombined _).mpr hiteration)
    obtain ⟨before, after, rfl⟩ := List.append_of_mem hd
    refine ⟨before, d, after, rfl, hhas, fun e he hhas' => ?_⟩
    have hmem : e ∈ before ++ d :: after := List.perm_middle.symm.subset (List.mem_cons_of_mem _ he)
    -- The other instance would have the same iteration, but the iterations ascend.
    have hsame := eq_of_hasValues ((hcombined _).mp (List.mem_map_of_mem hmem)) hiteration hhas' hhas
    have hdistinct : ((before ++ d :: after).map (·.iteration)).Nodup := by
      refine hordered.imp fun {i j} hlex heq => ?_
      subst heq
      exact not_iterationBefore_self i hlex
    rw [List.map_append, List.map_cons, List.nodup_middle, List.nodup_cons, ← List.map_append] at hdistinct
    exact hdistinct.1 (hsame ▸ List.mem_map_of_mem he)
  · exact hsome.elim (fun h => (h hrows).elim) fun h => (hiterate h).elim

/-- Where nothing is selected, an instance without pairs stands for all that there are not. -/
theorem BenchBinding.partitions_empty (hiterate : curve.iterate ≠ []) :
    b.Partitions curve [] [CurveData.new (defaultLabel curve b.plan []) none []] := by
  refine ⟨fun d hd => ?_, fun r hr => (List.not_mem_nil hr).elim, List.pairwise_singleton _ _,
    fun hsome => ?_, fun _ _ => rfl⟩
  · rw [List.mem_singleton.mp hd]
    exact ⟨[], [], .refl _, fun r hr => (List.not_mem_nil hr).elim, .nil, CurveData.holds_pushAll _ _ _ []⟩
  · exact hsome.elim (fun h => (h rfl).elim) fun h => (hiterate h).elim

/-! ## §3 Bound curves -/

/-- The numbers that the rows have in iterated fields are read back from their texts. -/
def NumbersReadBack (rows : List StoredRow) (names : List String) : Prop :=
  ∀ r ∈ rows, ∀ name ∈ names, ∀ field x, canonicalName name = .ok field →
    r.values.find? field = some (.number x) → ReadsBack x

namespace BenchBinding

theorem Sound.exists_isIterated (h : b.Sound) (hq : query.Complete) {name : String} {set : Field × List Value}
    (hset : b.iteratedField curve query name = .ok set) : ∃ rows,
      b.store.selectRows b.benchmark.name query = .ok rows ∧ IsIterated b.store b.benchmark rows name set := by
  obtain ⟨hcanonical, hfield, hdistinct⟩ := iteratedField_eq_ok hset
  rw [h.fields] at hfield
  have hidem : Store.canonical set.1.name = .ok set.1.name :=
    mapError_eq_ok.2 (h.store.fieldCanonical h.mem hfield)
  obtain ⟨rows, hrows, hascend, hmem⟩ :=
    (h.store.selects_distinct h.found h.mem hq hfield hidem set.2).mp hdistinct
  refine ⟨rows, hrows, hcanonical, hfield, ?_, hmem⟩
  have hstored : ∀ v ∈ set.2, v.Stored := by
    intro v hv
    obtain ⟨r, hr, hfound⟩ := (hmem v).mp hv
    obtain ⟨w, hw, hadmits⟩ := h.store.exists_value_of_selectRows h.found h.mem hq hrows hfield r hr
    rw [hfound] at hw
    exact Option.some.inj hw ▸ hadmits.stored
  -- The order of the query language is that of the values.
  refine hascend.imp_of_mem fun hv hw hlt => ?_
  rwa [Value.order_ofValue (hstored _ hv) (hstored _ hw)] at hlt

/-- The rows of a curve are selected, and the values of the iterated fields are those in the rows. -/
theorem Sound.exists_rows (h : b.Sound) (hq : query.Complete) {names : List String}
    {sets : List (Field × List Value)} {instances : List CurveData}
    (hsets : List.Forall₂ (fun name set => b.iteratedField curve query name = .ok set) names sets)
    (hinstances : List.Forall₂ (fun c d => b.bindInstance curve query c = .ok d) (combinations sets) instances) :
    ∃ rows, b.store.selectRows b.benchmark.name query = .ok rows
      ∧ List.Forall₂ (IsIterated b.store b.benchmark rows) names sets := by
  have hselected : ∃ rows, b.store.selectRows b.benchmark.name query = .ok rows := by
    cases hsets with
    | nil =>
      -- Nothing is iterated over, so the one instance has the query of the curve.
      obtain ⟨d, _, hd, _, _⟩ := List.forall₂_cons_left_iff.mp hinstances
      obtain ⟨own, hown, _⟩ := bindInstance_eq_ok hd
      have hsame : query.forInstance [] = query := by
        rw [RowQuery.forInstance, equalityPredicates, List.map_nil, List.append_nil]
      exact ⟨own, hsame ▸ hown⟩
    | cons hset _ =>
      obtain ⟨rows, hrows, _⟩ := h.exists_isIterated hq hset
      exact ⟨rows, hrows⟩
  obtain ⟨rows, hrows⟩ := hselected
  refine ⟨rows, hrows, hsets.imp fun name set hset => ?_⟩
  obtain ⟨rows', hrows', hiterated⟩ := h.exists_isIterated hq hset
  rw [hrows] at hrows'
  exact Except.ok.inj hrows' ▸ hiterated

/-- Each row has the values of an iteration that takes its values from the rows. -/
theorem Sound.exists_iteration (h : b.Sound) (hq : query.Complete)
    (hrows : b.store.selectRows b.benchmark.name query = .ok rows) {names : List String}
    {sets : List (Field × List Value)} (hsets : List.Forall₂ (IsIterated b.store b.benchmark rows) names sets) :
    ∀ r ∈ rows, ∃ iteration, Iterates rows names iteration ∧ HasValues iteration r := by
  intro r hr
  refine BenchPlot.exists_iteration hr fun name hname => ?_
  obtain ⟨set, _, hset⟩ := exists_mem_of_forall₂ hsets hname
  obtain ⟨v, hv, _⟩ := h.store.exists_value_of_selectRows h.found h.mem hq hrows hset.field r hr
  exact ⟨set.1.name, v, hset.name, hv⟩

/-- The instance of a combination of values in the rows holds the pairs of the rows that have these values. -/
theorem Sound.holdsOwn (h : b.Sound) (hq : query.Complete)
    (hrows : b.store.selectRows b.benchmark.name query = .ok rows) {names : List String}
    {sets : List (Field × List Value)} (hsets : List.Forall₂ (IsIterated b.store b.benchmark rows) names sets)
    (hreads : NumbersReadBack rows names) {c : List (Field × Value)} (hc : c ∈ combinations sets) {d : CurveData}
    (hd : b.bindInstance curve query c = .ok d) : b.HoldsOwn curve rows d := by
  have hvalues := of_mem_combination hsets hc
  have hasks : ∀ p ∈ c, b.store.Asks b.benchmark p := by
    intro p hp
    obtain ⟨hfield, _, _, _, r, hr, hfound⟩ := hvalues p hp
    obtain ⟨v, hv, hadmitted⟩ := h.store.exists_value_of_selectRows h.found h.mem hq hrows hfield r hr
    rw [hfound] at hv
    exact ⟨hfield, Option.some.inj hv ▸ hadmitted⟩
  have hnumbers : ∀ p ∈ c, ∀ x, p.2 = .number x → ReadsBack x := by
    intro p hp x hx
    obtain ⟨_, name, hname, hcanonical, r, hr, hfound⟩ := hvalues p hp
    exact hreads r hr name hname p.1.name x hcanonical (hx ▸ hfound)
  obtain ⟨selected, hselected, hinstance⟩ := bindInstance_eq_ok hd
  have hwritten := h.store.isWritten_of_selectRows h.found h.mem hq hasks hnumbers hselected
  obtain ⟨own, hsame, hsub, hiff⟩ := h.store.exists_own h.found h.mem hq hasks hwritten hrows
  obtain rfl : selected = own := Except.ok.inj (hselected.symm.trans hsame)
  obtain ⟨hiteration, pairs, hpairs, hholds⟩ := instanceOf_eq_ok hinstance
  exact ⟨selected, pairs, hsub, hiteration ▸ hiff, hpairs, hholds⟩

theorem map_iteration_eq {cs : List (List (Field × Value))} {instances : List CurveData}
    (h : List.Forall₂ (fun c d => b.bindInstance curve query c = .ok d) cs instances) :
    instances.map (·.iteration) = cs.map byName := by
  refine (map_eq_map_of_forall₂ h fun c d hd => ?_).symm
  obtain ⟨_, _, hinstance⟩ := bindInstance_eq_ok hd
  exact (instanceOf_eq_ok hinstance).1.symm

/-- The instances of a curve that is bound share out the rows that its query selects. -/
theorem bindCurve_partitions {store : Store} {scope : Scope} {bench : BenchPlan} {bound : BoundCurve}
    (h : store.Reachable) (hb : bench.binding store scope = .ok b) (hquery : b.curveQuery curve = .ok query)
    (hcomplete : query.Complete) (hbound : b.bindCurve curve = .ok bound)
    (hreads : ∀ rows, store.selectRows b.benchmark.name query = .ok rows → NumbersReadBack rows curve.iterate) :
    ∃ rows, store.selectRows b.benchmark.name query = .ok rows ∧ b.Partitions curve rows bound.instances := by
  obtain ⟨hsound, rfl⟩ := BenchPlan.sound_binding h.sound hb
  obtain ⟨query', sets, instances, hquery', hsets, hinstances, hresult⟩ := bindCurve_eq_ok hbound
  obtain rfl : query = query' := Except.ok.inj (hquery.symm.trans hquery')
  obtain ⟨rows, hrows, hiterated⟩ := hsound.exists_rows hcomplete hsets hinstances
  refine ⟨rows, hrows, ?_⟩
  have hvalues := hsound.exists_iteration hcomplete hrows hiterated
  have hiterations := map_iteration_eq hinstances
  have hcombined : ∀ iteration, iteration ∈ instances.map (·.iteration) ↔ Iterates rows curve.iterate iteration := by
    intro iteration
    rw [hiterations, List.mem_map]
    exact exists_combination_iff hiterated iteration
  have hown : ∀ d ∈ instances, b.HoldsOwn curve rows d := by
    intro d hd
    obtain ⟨c, hc, hinstance⟩ := exists_mem_of_forall₂ hinstances.flip hd
    exact hsound.holdsOwn hcomplete hrows hiterated (hreads rows hrows) hc hinstance
  by_cases hsome : ∃ iteration, Iterates rows curve.iterate iteration
  · obtain ⟨iteration, hiterates⟩ := hsome
    obtain ⟨d, hd, _⟩ := List.mem_map.mp ((hcombined iteration).mpr hiterates)
    rw [hresult, List.isEmpty_eq_false_iff_exists_mem.mpr ⟨d, hd⟩, if_neg Bool.false_ne_true]
    exact partitions_of_own hown (hiterations ▸ byName_pairwise hiterated) hcombined hvalues hiterates.rows_or_names
  · -- Without an iteration there is no instance to bind, and no row, which would have one.
    have hempty : instances = [] := by
      refine List.eq_nil_iff_forall_not_mem.mpr fun d hd => hsome ⟨d.iteration, ?_⟩
      exact (hcombined _).mp (List.mem_map_of_mem hd)
    have hnone : rows = [] := by
      refine List.eq_nil_iff_forall_not_mem.mpr fun r hr => ?_
      obtain ⟨iteration, hiterates, _⟩ := hvalues r hr
      exact hsome ⟨iteration, hiterates⟩
    have hiterate : curve.iterate ≠ [] := fun hnil => hsome ⟨[], hnil ▸ .nil⟩
    rw [hresult, hempty, hnone]
    exact partitions_empty hiterate

end BenchBinding

/-! ## §4 A bench and its curve -/

/-- Numbers that are whole and below `10 ^ 15` are read back. -/
theorem NumbersReadBack.of_isSmallWhole {names : List String} (h : ∀ r ∈ rows, ∀ name ∈ names, ∀ field x,
    canonicalName name = .ok field → r.values.find? field = some (.number x) → isSmallWhole x = true) :
    NumbersReadBack rows names :=
  fun r hr name hname field x hfield hx => readsBack_of_isSmallWhole (h r hr name hname field x hfield hx)

/-- A curve with an instance for each size. -/
def sampleCurve : CurvePlan :=
  ⟨0, 0, ⟨"plan", 3⟩, 0, ⟨"$size", [.column "size"]⟩, ⟨"1", [.literal (.number 1.0)]⟩, none, none, none, none, none,
    none, ["size"], [], ⟨false, false, false, false, false, false, false⟩⟩

/-- The bench and the curve, bound, with the query of the curve and its rows. -/
def sampleBound (store : Store) (filter : String) :
    Except PlanError (BenchBinding × RowQuery × BoundCurve × List StoredRow) := do
  let b ← (sampleBench filter).binding store default
  let query ← b.curveQuery sampleCurve
  let bound ← b.bindCurve sampleCurve
  let rows ← BenchBinding.atCurve sampleCurve (store.selectRows b.benchmark.name query)
  pure (b, query, bound, rows)

/-- Whether the size of a row is whole and below `10 ^ 15`. -/
def hasSmallSize (r : StoredRow) : Bool :=
  match r.values.find? "SIZE" with
  | some (.number x) => isSmallWhole x
  | _ => false

theorem numbersReadBack_sizes (h : rows.all hasSmallSize = true) : NumbersReadBack rows sampleCurve.iterate := by
  refine .of_isSmallWhole fun r hr name hname field x hfield hx => ?_
  have hsize : canonicalName "size" = .ok "SIZE" := by cbv
  obtain rfl : name = "size" := List.mem_singleton.mp hname
  obtain rfl : field = "SIZE" := Except.ok.inj (hfield.symm.trans hsize)
  have hsmall := List.all_eq_true.mp h r hr
  rw [hasSmallSize, hx] at hsmall
  exact hsmall

theorem sampleBound_eq_ok {store : Store} {filter : String} {bound : BoundCurve}
    (h : sampleBound store filter = .ok (b, query, bound, rows)) :
    (sampleBench filter).binding store default = .ok b ∧ b.curveQuery sampleCurve = .ok query
      ∧ b.bindCurve sampleCurve = .ok bound ∧ store.selectRows b.benchmark.name query = .ok rows := by
  unfold sampleBound at h
  obtain ⟨_, hb, h⟩ := bind_eq_ok.1 h
  obtain ⟨_, hquery, h⟩ := bind_eq_ok.1 h
  obtain ⟨_, hbound, h⟩ := bind_eq_ok.1 h
  obtain ⟨_, hrows, h⟩ := bind_eq_ok.1 h
  cases h
  exact ⟨hb, hquery, hbound, mapError_eq_ok.1 hrows⟩

/-- The sizes below 15 are those of one experiment, which has an instance. -/
theorem partitions_sample : ∃ b bound rows, (sampleBench "$size < 15").binding Store.sample default = .ok b
    ∧ b.bindCurve sampleCurve = .ok bound ∧ rows.map (·.experiment) = [1]
    ∧ b.Partitions sampleCurve rows bound.instances := by
  have hrun : (sampleBound Store.sample "$size < 15").toOption.map (fun r =>
      (r.2.1, r.2.2.2.map (·.experiment), r.2.2.2.all hasSmallSize)) = some (⟨["_SIZE < 15"], false⟩, [1], true) := by
    decide +kernel
  obtain ⟨⟨b, query, bound, rows⟩, hok, hresult⟩ := exists_eq_ok hrun
  obtain ⟨hb, hquery, hbound, hrows⟩ := sampleBound_eq_ok hok
  obtain ⟨hpredicates, hexperiments, hsmall⟩ : query = ⟨["_SIZE < 15"], false⟩ ∧ rows.map (·.experiment) = [1]
      ∧ rows.all hasSmallSize = true := by
    simpa using hresult
  have hcomplete : IsComplete "_SIZE < 15" := by
    refine .inr ⟨.binary (.compare .lt) (.name ⟨.bare, "_SIZE"⟩) (.literal (.integer 15)), by decide,
      [.word "_SIZE", .symbol .less, .number (.integer 15)], ?_, ?_, ?_⟩
    all_goals cbv
  have hreads : ∀ rows', Store.sample.selectRows b.benchmark.name query = .ok rows' →
      NumbersReadBack rows' sampleCurve.iterate := by
    intro rows' hrows'
    rw [hrows] at hrows'
    exact Except.ok.inj hrows' ▸ numbersReadBack_sizes hsmall
  obtain ⟨rows', hrows', hpartitions⟩ := BenchBinding.bindCurve_partitions Store.reachable_sample hb hquery
    (by rw [hpredicates]; exact List.forall_mem_singleton.mpr hcomplete) hbound hreads
  rw [hrows] at hrows'
  exact ⟨b, bound, rows, hb, hbound, hexperiments, Except.ok.inj hrows' ▸ hpartitions⟩

/-- The store in which one experiment was inserted. -/
def Store.sampleStart : Store :=
  (Store.new "0").run (Store.sampleHistory.take 3)

/-- A filter that is no expression of its own may take the condition of an instance into itself. Then the one row
    that is selected is in no instance. -/
theorem lostRow_sample : Store.sampleStart.Reachable ∧ ∃ b query bound rows,
    (sampleBench "2) BETWEEN (0").binding Store.sampleStart default = .ok b
      ∧ b.curveQuery sampleCurve = .ok query ∧ b.bindCurve sampleCurve = .ok bound
      ∧ Store.sampleStart.selectRows b.benchmark.name query = .ok rows ∧ NumbersReadBack rows sampleCurve.iterate
      ∧ ¬b.Partitions sampleCurve rows bound.instances := by
  refine ⟨⟨"0", _, rfl⟩, ?_⟩
  have hrun : (sampleBound Store.sampleStart "2) BETWEEN (0").toOption.map (fun r =>
      (r.2.2.1.instances.all (·.isEmpty), r.2.2.2.map (·.experiment), r.2.2.2.all hasSmallSize))
      = some (true, [1], true) := by
    decide +kernel
  obtain ⟨⟨b, query, bound, rows⟩, hok, hresult⟩ := exists_eq_ok hrun
  obtain ⟨hb, hquery, hbound, hrows⟩ := sampleBound_eq_ok hok
  obtain ⟨hempty, hexperiments, hsmall⟩ : bound.instances.all (·.isEmpty) = true ∧ rows.map (·.experiment) = [1]
      ∧ rows.all hasSmallSize = true := by
    simpa using hresult
  refine ⟨b, query, bound, rows, hb, hquery, hbound, hrows, numbersReadBack_sizes hsmall, fun hpartitions => ?_⟩
  have hsome : rows ≠ [] := by
    rintro rfl
    cases hexperiments
  obtain ⟨d, hd, hfull⟩ := hpartitions.exists_not_isEmpty hsome
  rw [List.all_eq_true.mp hempty d hd] at hfull
  cases hfull

end BenchPlot
