import BenchPlot.Proofs.SortedMap
import BenchPlot.Proofs.Store.Conditions

/-!
# Selections are conjunctions

A query selects the rows at which all its predicates hold, whatever operators stand in them: with the
predicates of two queries it selects what both select. Without outliers it selects what it selects with them,
less the outliers; and blank predicates change nothing. The distinct values of a field are those in the rows
that the same query selects.

Main statement: `reachable_selectsConjunctively`.
-/

namespace BenchPlot

/-! ## §1 Ascending lists -/

/-- Of lists that ascend strictly, those with the same members are the same. -/
theorem eq_of_ascending {α : Type} {R : α → α → Prop} {l l' : List α}
    (hasymm : ∀ a ∈ l, ∀ b ∈ l, R a b → ¬R b a) (h : l.Pairwise R) (h' : l'.Pairwise R)
    (hmem : ∀ a, a ∈ l ↔ a ∈ l') : l = l' := by
  have hnodup : ∀ {m : List α}, m.Pairwise R → (∀ a ∈ m, a ∈ l) → m.Nodup := by
    intro m hm hsub
    refine hm.imp_of_mem fun ha hb hab heq => ?_
    subst heq
    exact hasymm _ (hsub _ ha) _ (hsub _ hb) hab hab
  have hperm : l.Perm l' :=
    (List.perm_ext_iff_of_nodup (hnodup h fun _ => id) (hnodup h' fun a ha => (hmem a).mpr ha)).mpr hmem
  exact hperm.eq_of_pairwise
    (fun a b ha hb hab hba => (hasymm a ha b ((hmem b).mpr hb) hab hba).elim) h h'

namespace Value

/-- Whether a value may stand before another one. -/
def mayPrecede (a b : Value) : Bool :=
  (order a b).isLE

theorem mergeSort_pairwise (values : List Value) :
    (values.mergeSort mayPrecede).Pairwise fun a b => order a b ≠ .gt := by
  have htrans : ∀ a b c, mayPrecede a b = true → mayPrecede b c = true → mayPrecede a c = true :=
    fun _ _ _ => Std.TransCmp.isLE_trans
  have htotal : ∀ a b, (mayPrecede a b || mayPrecede b a) = true := by
    intro a b
    cases hab : order a b with
    | gt => simp [mayPrecede, hab, Std.OrientedCmp.lt_of_gt hab]
    | _ => simp [mayPrecede, hab]
  refine (List.pairwise_mergeSort htrans htotal values).imp fun {a b} hab hgt => ?_
  rw [mayPrecede, hgt] at hab
  cases hab

end Value

/-! ## §2 The rows of a query -/

namespace Store

variable {s : Store} {b : Benchmark} {t : WideTable} {written : String} {q : RowQuery}

/-- The rows of a wide table stand in the order of their experiments. -/
theorem Sound.rows_ascending (h : s.Sound) (hb : b ∈ s.benchmarks) (ht : s.table? b.table = some t) :
    t.rows.Pairwise fun r r' => r.experiment < r'.experiment := by
  have hnumbers : t.rows.map (·.experiment) = (s.experimentsOf b).map (·.id) :=
    map_eq_map_of_forall₂ (h.fits_table hb ht).2 fun r e hre => hre.experiment
  have hascending : ((s.experimentsOf b).map (·.id)).Pairwise (· < ·) :=
    List.pairwise_map.mpr (h.numbers.experiments.filter _).pairwise
  rw [← hnumbers] at hascending
  exact List.pairwise_map.mp hascending

/-- The rows that a query selects are those that it takes, in the order of the table. -/
theorem Sound.selectRows_eq (h : s.Sound) (hwritten : s.benchmark written = .ok b) (hb : b ∈ s.benchmarks)
    (ht : s.table? b.table = some t) (hq : q.Complete) :
    s.selectRows written q = match q.conditions? t with
      | some conditions => .ok ((t.rows.filter (q.takes conditions)).map (storedRow t (s.fieldsOf b)))
      | none => .error .query := by
  rw [Store.selectRows_eq hwritten ht, q.rows_eq hq isColumnWord_exp (column?_exp t _)]
  cases q.conditions? t with
  | none => rfl
  | some conditions =>
    have hsorted := apply_byExperiment ((h.rows_ascending hb ht).filter (q.takes conditions)) none
    simp only [Sql.ResolvedSelection.apply, Sql.satisfies, List.filter_true] at hsorted
    exact congrArg (fun rows => Except.ok (rows.map (storedRow t (s.fieldsOf b)))) hsorted

/-- The value of a field in a selected row is that of its cell. -/
theorem find?_storedRow {fields : List Field} (hnames : (fields.map (·.name)).Nodup) {f : Field} (hf : f ∈ fields)
    (r : WideRow) : (storedRow t fields r).values.find? f.name = some (t.cell r f.column) := by
  have hkeys : ((fields.map fun f => (f.name, t.cell r f.column)).map (·.1)).Nodup := by
    rw [List.map_map]
    exact hnames
  exact SortedMap.find?_ofList hkeys (List.mem_map.mpr ⟨f, hf, rfl⟩)

/-! ## §3 The values of a query -/

/-- The cells under a column are values that can be stored, and a query sees them under its name. -/
structure ReadsCells (t : WideTable) (f : Field) (i : Nat) (rows : List WideRow) : Prop where
  stored : ∀ r ∈ rows, (t.cell r f.column).Stored
  evaluate : ∀ r ∈ rows, (Sql.Term.name ⟨i, f.affinity⟩ : Sql.Term Sql.Column).evaluate r.data
    = Sql.Datum.ofValue (t.cell r f.column)

/-- Rows in the order of a column have its cells in the order of values. -/
theorem ReadsCells.map_mergeSort {f : Field} {i : Nat} {rows : List WideRow} (h : ReadsCells t f i rows) :
    (rows.mergeSort fun a b => Sql.mayPrecede [(.name ⟨i, f.affinity⟩, false)] a.data b.data).map
      (t.cell · f.column) = (rows.map (t.cell · f.column)).mergeSort Value.mayPrecede := by
  refine List.map_mergeSort fun r hr r' hr' => ?_
  simp only [Sql.mayPrecede, h.evaluate r hr, h.evaluate r' hr', Value.mayPrecede, Bool.false_eq_true, if_false,
    Value.order_ofValue (h.stored r hr) (h.stored r' hr')]
  cases (t.cell r f.column).order (t.cell r' f.column) <;> rfl

/-- The column of a field is found in a query, and shows the cells of the field. -/
theorem Sound.exists_readsCells (h : s.Sound) (hb : b ∈ s.benchmarks) (ht : s.table? b.table = some t)
    {f : Field} (hf : f ∈ s.fieldsOf b) (columns : List String) : ∃ i,
      (t.names columns).column? f.column = some (.name ⟨i, f.affinity⟩) ∧ ReadsCells t f i t.rows := by
  obtain ⟨hcolumns, hrows⟩ := h.fits_table hb ht
  obtain ⟨i, hplace, hcell⟩ := column?_field hcolumns (fun _ => h.fieldCanonical hb) (h.fieldNames hb) hf columns
  refine ⟨i, hplace, fun r hr => (h.admits_cell hb ht hf r hr).stored, fun r hr => ?_⟩
  obtain ⟨e, _, hre⟩ := exists_mem_of_forall₂ hrows hr
  exact hcell r hre.cells.length_eq.symm

theorem distinctValues_eq (hwritten : s.benchmark written = .ok b) (ht : s.table? b.table = some t) {f : Field}
    {field : String} (hfield : canonical field = .ok f.name)
    (hrequired : requireField b (s.fieldsOf b) f.name = .ok f) (q : RowQuery) :
    s.distinctValues written field q = (q.rows t [f.column] f.column).map fun rows =>
      Sql.distinctRows (fun v => [Sql.Datum.ofValue v]) (rows.map (t.cell · f.column)) := by
  unfold distinctValues
  simp only [hwritten, hfield, hrequired, ht, bind, Except.bind]
  cases q.rows t [f.column] f.column <;> rfl

theorem Sound.requireField_eq (h : s.Sound) (hb : b ∈ s.benchmarks) {f : Field} (hf : f ∈ s.fieldsOf b) :
    requireField b (s.fieldsOf b) f.name = .ok f := by
  rw [requireField, find?_eq_some_of_mem (h.fieldNames hb) hf]

/-- Values that stand in the order of the query language, each once. -/
def ValuesAscend (values : List Value) : Prop :=
  values.Pairwise fun v w => (Sql.Datum.ofValue v).order (Sql.Datum.ofValue w) = .lt

/-- The distinct values of a field ascend, and are those in the rows that the query takes. -/
theorem Sound.distinctValues_eq (h : s.Sound) (hwritten : s.benchmark written = .ok b) (hb : b ∈ s.benchmarks)
    (ht : s.table? b.table = some t) {f : Field} (hf : f ∈ s.fieldsOf b) {field : String}
    (hfield : canonical field = .ok f.name) (hq : q.Complete) :
    match q.conditions? t with
      | some conditions => ∃ values, s.distinctValues written field q = .ok values ∧ ValuesAscend values
          ∧ (∀ v ∈ values, v.Stored)
          ∧ ∀ v, v ∈ values ↔ ∃ r ∈ t.rows.filter (q.takes conditions), t.cell r f.column = v
      | none => s.distinctValues written field q = .error .query := by
  obtain ⟨i, hplace, hreads⟩ := h.exists_readsCells hb ht hf [f.column]
  have hword : Sql.IsColumnWord f.column := isColumnWord_columnName (h.fieldCanonical hb hf)
  rw [Store.distinctValues_eq hwritten ht hfield (h.requireField_eq hb hf), q.rows_eq hq hword hplace]
  cases q.conditions? t with
  | none => rfl
  | some conditions =>
    have htaken : ReadsCells t f i (t.rows.filter (q.takes conditions)) :=
      ⟨fun r hr => hreads.stored r (List.mem_of_mem_filter hr),
        fun r hr => hreads.evaluate r (List.mem_of_mem_filter hr)⟩
    have hmem : ∀ v, v ∈ ((t.rows.filter (q.takes conditions)).map (t.cell · f.column)).mergeSort Value.mayPrecede
        ↔ ∃ r ∈ t.rows.filter (q.takes conditions), t.cell r f.column = v := fun v => by
      rw [(List.mergeSort_perm _ _).mem_iff, List.mem_map]
    have hstored : ∀ v ∈ ((t.rows.filter (q.takes conditions)).map (t.cell · f.column)).mergeSort Value.mayPrecede,
        v.Stored := by
      intro v hv
      obtain ⟨r, hr, rfl⟩ := (hmem v).mp hv
      exact htaken.stored r hr
    obtain ⟨hascending, hsame⟩ := Value.distinctRows_sorted hstored (Value.mergeSort_pairwise _)
    refine ⟨_, congrArg Except.ok (congrArg _ htaken.map_mergeSort), ?_, fun v hv => hstored v ((hsame v).mp hv),
      fun v => (hsame v).trans (hmem v)⟩
    refine hascending.imp_of_mem fun {v w} hv hw hlt => ?_
    rwa [Value.order_ofValue (hstored v ((hsame v).mp hv)) (hstored w ((hsame w).mp hw))]

/-! ## §4 Conjunctions -/

/-- Selections from a benchmark are conjunctions of predicates that are complete on their own.

    A query with the predicates of two queries selects what both select. Without outliers a query selects what
    it selects with them, less the outliers. Blank predicates change nothing. The distinct values of a field
    are those in the rows that the same query selects. -/
structure SelectsConjunctively (s : Store) (written : String) : Prop where
  both : ∀ p q includeOutliers, (∀ x ∈ p, IsComplete x) → (∀ x ∈ q, IsComplete x) → ∀ rows,
    s.selectRows written ⟨p ++ q, includeOutliers⟩ = .ok rows ↔ ∃ left right,
      s.selectRows written ⟨p, includeOutliers⟩ = .ok left ∧ s.selectRows written ⟨q, includeOutliers⟩ = .ok right
        ∧ rows.Pairwise (fun r r' => r.experiment < r'.experiment) ∧ ∀ r, r ∈ rows ↔ r ∈ left ∧ r ∈ right
  outliers : ∀ p, (∀ x ∈ p, IsComplete x) →
    s.selectRows written ⟨p, false⟩ = (s.selectRows written ⟨p, true⟩).map fun rows => rows.filter (!·.outlier)
  blank : ∀ p q includeOutliers x, Text.trim x = "" →
    s.selectRows written ⟨p ++ x :: q, includeOutliers⟩ = s.selectRows written ⟨p ++ q, includeOutliers⟩
      ∧ ∀ field, s.distinctValues written field ⟨p ++ x :: q, includeOutliers⟩
        = s.distinctValues written field ⟨p ++ q, includeOutliers⟩
  distinct : ∀ p includeOutliers, (∀ x ∈ p, IsComplete x) → ∀ b f field, s.benchmark written = .ok b →
    f ∈ s.fieldsOf b → canonical field = .ok f.name → ∀ values,
      s.distinctValues written field ⟨p, includeOutliers⟩ = .ok values ↔ ∃ rows,
        s.selectRows written ⟨p, includeOutliers⟩ = .ok rows ∧ ValuesAscend values
          ∧ ∀ v, v ∈ values ↔ ∃ r ∈ rows, r.values.find? f.name = some v

theorem conditions?_append (p q : List String) (includeOutliers : Bool) :
    (RowQuery.mk (p ++ q) includeOutliers).conditions? t
      = ((RowQuery.mk p includeOutliers).conditions? t).bind fun left =>
          ((RowQuery.mk q includeOutliers).conditions? t).map (left ++ ·) := by
  simp only [RowQuery.conditions?, RowQuery.fragments, List.map_append, List.filter_append, List.mapM_append]
  cases ((p.map Text.trim).filter fun p => !p.isEmpty).mapM t.condition? with
  | none => rfl
  | some left => cases ((q.map Text.trim).filter fun p => !p.isEmpty).mapM t.condition? <;> rfl

theorem takes_append {includeOutliers : Bool} (p q p' q' : List String) (left right : List (Sql.Term Sql.Column))
    (r : WideRow) : (RowQuery.mk (p ++ q) includeOutliers).takes (left ++ right) r
      = ((RowQuery.mk p' includeOutliers).takes left r && (RowQuery.mk q' includeOutliers).takes right r) := by
  simp only [RowQuery.takes, List.all_append]
  cases left.all (·.holds r.data) <;> cases right.all (·.holds r.data) <;>
    cases includeOutliers <;> cases r.outlier <;> rfl

/-- Blank predicates are left out of what is written. -/
theorem rows_blank {x : String} (hx : Text.trim x = "") (p q : List String) (includeOutliers : Bool)
    (columns : List String) (orderBy : String) : (RowQuery.mk (p ++ x :: q) includeOutliers).rows t columns orderBy
      = (RowQuery.mk (p ++ q) includeOutliers).rows t columns orderBy := by
  have hclauses : (RowQuery.mk (p ++ x :: q) includeOutliers).clauses
      = (RowQuery.mk (p ++ q) includeOutliers).clauses := by
    simp [RowQuery.clauses, hx]
  simp only [RowQuery.rows, RowQuery.selection?, hclauses]

/-- A row is known by its experiment. -/
theorem eq_of_storedRow_eq {fields : List Field} {rows : List WideRow}
    (hascending : rows.Pairwise fun r r' => r.experiment < r'.experiment) {r r' : WideRow} (hr : r ∈ rows)
    (hr' : r' ∈ rows) (h : storedRow t fields r = storedRow t fields r') : r = r' := by
  have hnodup : (rows.map (·.experiment)).Nodup := List.pairwise_map.mpr (hascending.imp Nat.ne_of_lt)
  exact List.inj_on_of_nodup_map hnodup hr hr' (congrArg StoredRow.experiment h)

/-- Further predicates select, of the rows of a query, those at which their conditions hold. -/
theorem Sound.exists_selected (h : s.Sound) (hwritten : s.benchmark written = .ok b) (hb : b ∈ s.benchmarks)
    (ht : s.table? b.table = some t) {more : List String}
    (hq : RowQuery.Complete ⟨q.predicates ++ more, q.includeOutliers⟩) {conditions : List (Sql.Term Sql.Column)}
    (hmore : (RowQuery.mk more q.includeOutliers).conditions? t = some conditions) {P : StoredRow → Prop}
    (hholds : ∀ w ∈ t.rows, (conditions.all (·.holds w.data)) = true ↔ P (storedRow t (s.fieldsOf b) w))
    {rows : List StoredRow} (hrows : s.selectRows written q = .ok rows) : ∃ own,
      s.selectRows written ⟨q.predicates ++ more, q.includeOutliers⟩ = .ok own ∧ own.Sublist rows
        ∧ ∀ r ∈ rows, r ∈ own ↔ P r := by
  have hfirst : q.Complete := fun p hp => hq p (List.mem_append_left _ hp)
  have hconditions : (RowQuery.mk (q.predicates ++ more) q.includeOutliers).conditions? t
      = (q.conditions? t).map (· ++ conditions) := by
    rw [conditions?_append, hmore]
    cases q.conditions? t <;> rfl
  rw [h.selectRows_eq hwritten hb ht hfirst] at hrows
  rw [h.selectRows_eq hwritten hb ht hq, hconditions]
  cases hfound : q.conditions? t with
  | none =>
    rw [hfound] at hrows
    cases hrows
  | some before =>
    rw [hfound] at hrows
    cases hrows
    have hfilter : t.rows.filter ((RowQuery.mk (q.predicates ++ more) q.includeOutliers).takes (before ++ conditions))
        = (t.rows.filter (q.takes before)).filter fun w => conditions.all (·.holds w.data) := by
      rw [List.filter_filter]
      refine List.filter_congr fun w _ => ?_
      rw [RowQuery.takes, List.all_append, RowQuery.takes, Bool.and_comm (before.all _), Bool.and_assoc]
    refine ⟨_, rfl, ?_, fun r hr => ?_⟩
    · rw [hfilter]
      exact List.filter_sublist.map _
    · obtain ⟨w, hw, rfl⟩ := List.mem_map.mp hr
      rw [← hholds w (List.mem_of_mem_filter hw), hfilter]
      constructor
      · intro hmem
        obtain ⟨w', hw', heq⟩ := List.mem_map.mp hmem
        obtain ⟨htaken, hall⟩ := List.mem_filter.mp hw'
        have hascending := (h.rows_ascending hb ht).filter (q.takes before)
        rwa [← eq_of_storedRow_eq hascending htaken hw heq]
      · intro hall
        exact List.mem_map_of_mem (List.mem_filter.mpr ⟨hw, hall⟩)

/-- The rows that satisfy two conditions are those that satisfy the one and the other. -/
theorem map_filter_and {fields : List Field} {rows : List WideRow}
    (hascending : rows.Pairwise fun r r' => r.experiment < r'.experiment) (c d : WideRow → Bool)
    (selected : List StoredRow) :
    (rows.filter fun r => c r && d r).map (storedRow t fields) = selected ↔
      selected.Pairwise (fun r r' => r.experiment < r'.experiment) ∧ ∀ r, r ∈ selected ↔
        r ∈ (rows.filter c).map (storedRow t fields) ∧ r ∈ (rows.filter d).map (storedRow t fields) := by
  have hpair : ((rows.filter fun r => c r && d r).map (storedRow t fields)).Pairwise
      fun r r' => r.experiment < r'.experiment :=
    List.pairwise_map.mpr (hascending.filter _)
  have hmem : ∀ x, x ∈ (rows.filter fun r => c r && d r).map (storedRow t fields) ↔
      x ∈ (rows.filter c).map (storedRow t fields) ∧ x ∈ (rows.filter d).map (storedRow t fields) := by
    intro x
    simp only [List.mem_map, List.mem_filter, Bool.and_eq_true]
    constructor
    · rintro ⟨r, ⟨hr, hc, hd⟩, rfl⟩
      exact ⟨⟨r, ⟨hr, hc⟩, rfl⟩, r, ⟨hr, hd⟩, rfl⟩
    · rintro ⟨⟨r, ⟨hr, hc⟩, rfl⟩, r', ⟨hr', hd⟩, heq⟩
      -- What both conditions show is one row.
      rw [eq_of_storedRow_eq hascending hr' hr heq] at hd
      exact ⟨r, ⟨hr, hc, hd⟩, rfl⟩
  constructor
  · rintro rfl
    exact ⟨hpair, hmem⟩
  · rintro ⟨hpair', hmem'⟩
    exact eq_of_ascending (fun _ _ _ _ => Nat.lt_asymm) hpair hpair' fun x => (hmem x).trans (hmem' x).symm

theorem Sound.selects_both (h : s.Sound) (hwritten : s.benchmark written = .ok b) (hb : b ∈ s.benchmarks)
    (ht : s.table? b.table = some t) {p q : List String} {includeOutliers : Bool} (hp : ∀ x ∈ p, IsComplete x)
    (hq : ∀ x ∈ q, IsComplete x) (rows : List StoredRow) :
    s.selectRows written ⟨p ++ q, includeOutliers⟩ = .ok rows ↔ ∃ left right,
      s.selectRows written ⟨p, includeOutliers⟩ = .ok left ∧ s.selectRows written ⟨q, includeOutliers⟩ = .ok right
        ∧ rows.Pairwise (fun r r' => r.experiment < r'.experiment)
        ∧ ∀ r, r ∈ rows ↔ r ∈ left ∧ r ∈ right := by
  have hpq : RowQuery.Complete ⟨p ++ q, includeOutliers⟩ := List.forall_mem_append.mpr ⟨hp, hq⟩
  rw [h.selectRows_eq hwritten hb ht hpq, h.selectRows_eq hwritten hb ht (q := ⟨p, includeOutliers⟩) hp,
    h.selectRows_eq hwritten hb ht (q := ⟨q, includeOutliers⟩) hq, conditions?_append]
  cases (RowQuery.mk p includeOutliers).conditions? t with
  | none => simp
  | some left =>
    cases (RowQuery.mk q includeOutliers).conditions? t with
    | none => simp
    | some right =>
      have htakes : (RowQuery.mk (p ++ q) includeOutliers).takes (left ++ right) = fun r =>
          (RowQuery.mk p includeOutliers).takes left r && (RowQuery.mk q includeOutliers).takes right r :=
        funext fun r => takes_append p q p q left right r
      simp only [Option.bind_some, Option.map_some, Except.ok.injEq, htakes,
        map_filter_and (h.rows_ascending hb ht), exists_and_left, exists_eq_left']

theorem Sound.selects_outliers (h : s.Sound) (hwritten : s.benchmark written = .ok b) (hb : b ∈ s.benchmarks)
    (ht : s.table? b.table = some t) {p : List String} (hp : ∀ x ∈ p, IsComplete x) :
    s.selectRows written ⟨p, false⟩
      = (s.selectRows written ⟨p, true⟩).map fun rows => rows.filter (!·.outlier) := by
  rw [h.selectRows_eq hwritten hb ht (q := ⟨p, false⟩) hp, h.selectRows_eq hwritten hb ht (q := ⟨p, true⟩) hp]
  have hconditions : (RowQuery.mk p false).conditions? t = (RowQuery.mk p true).conditions? t := rfl
  rw [hconditions]
  cases (RowQuery.mk p true).conditions? t with
  | none => rfl
  | some conditions =>
    simp only [Except.map, List.filter_map, List.filter_filter]
    congr 2
    refine List.filter_congr fun r _ => ?_
    simp [RowQuery.takes, storedRow, Bool.and_comm]

theorem Sound.selects_distinct (h : s.Sound) (hwritten : s.benchmark written = .ok b) (hb : b ∈ s.benchmarks)
    {p : List String} {includeOutliers : Bool} (hp : ∀ x ∈ p, IsComplete x) {f : Field} (hf : f ∈ s.fieldsOf b)
    {field : String} (hfield : canonical field = .ok f.name) (values : List Value) :
    s.distinctValues written field ⟨p, includeOutliers⟩ = .ok values ↔ ∃ rows,
      s.selectRows written ⟨p, includeOutliers⟩ = .ok rows ∧ ValuesAscend values
        ∧ ∀ v, v ∈ values ↔ ∃ r ∈ rows, r.values.find? f.name = some v := by
  obtain ⟨t, ht⟩ := h.exists_table hb hf
  have hvalues := h.distinctValues_eq hwritten hb ht hf hfield (q := ⟨p, includeOutliers⟩) hp
  rw [h.selectRows_eq hwritten hb ht (q := ⟨p, includeOutliers⟩) hp]
  cases hconditions : (RowQuery.mk p includeOutliers).conditions? t with
  | none =>
    rw [hconditions] at hvalues
    simp [hvalues]
  | some conditions =>
    rw [hconditions] at hvalues
    obtain ⟨found, hfound, hascend, hstored, hmem⟩ := hvalues
    have hshown : ∀ v, (∃ r ∈ (t.rows.filter ((RowQuery.mk p includeOutliers).takes conditions)).map
        (storedRow t (s.fieldsOf b)), r.values.find? f.name = some v) ↔ v ∈ found := by
      intro v
      rw [hmem]
      simp only [List.mem_map, exists_exists_and_eq_and, find?_storedRow (h.fieldNames hb) hf, Option.some.injEq]
    simp only [hfound, Except.ok.injEq, exists_eq_left', hshown]
    constructor
    · rintro rfl
      exact ⟨hascend, fun _ => Iff.rfl⟩
    · rintro ⟨hascend', hmem'⟩
      refine eq_of_ascending (fun v hv w hw hlt hgt => ?_) hascend hascend' fun v => (hmem' v).symm
      rw [Value.order_ofValue (hstored v hv) (hstored w hw)] at hlt
      rw [Value.order_ofValue (hstored w hw) (hstored v hv)] at hgt
      rw [Std.OrientedCmp.gt_of_lt hlt] at hgt
      cases hgt

/-- Where there is no benchmark of the name, or no table, all queries have one answer, which has no rows. -/
theorem selectRows_constant (s : Store) (written : String) :
    (∃ b t, s.benchmark written = .ok b ∧ b ∈ s.benchmarks ∧ s.table? b.table = some t)
      ∨ ∃ answer : Except StoreError (List StoredRow), (∀ q, s.selectRows written q = answer)
        ∧ ∀ rows, answer = .ok rows → rows = [] := by
  cases hwritten : s.benchmark written with
  | error e =>
    refine .inr ⟨.error e, fun q => ?_, fun rows hrows => by cases hrows⟩
    unfold selectRows
    rw [hwritten]
    rfl
  | ok b =>
    obtain ⟨name, _, hfound⟩ := benchmark_eq_ok hwritten
    cases ht : s.table? b.table with
    | some t => exact .inl ⟨b, t, rfl, (of_benchmark?_eq_some hfound).1, ht⟩
    | none =>
      refine .inr ⟨.ok [], fun q => ?_, fun rows hrows => (Except.ok.inj hrows).symm⟩
      unfold selectRows
      simp only [hwritten, ht, bind, Except.bind]
      rfl

/-- In every reachable store selections are conjunctions of complete predicates. -/
theorem reachable_selectsConjunctively (h : s.Reachable) (written : String) :
    s.SelectsConjunctively written := by
  have hsound := h.sound
  refine ⟨fun p q includeOutliers hp hq rows => ?_, fun p hp => ?_,
    fun p q includeOutliers x hx => ⟨?_, fun field => ?_⟩,
    fun p includeOutliers hp b f field hwritten hf hfield values => ?_⟩
  · rcases s.selectRows_constant written with ⟨b, t, hwritten, hb, ht⟩ | ⟨answer, hanswer, hnone⟩
    · exact hsound.selects_both hwritten hb ht hp hq rows
    · simp only [hanswer]
      constructor
      · intro hrows
        obtain rfl := hnone rows hrows
        exact ⟨[], [], hrows, hrows, .nil, by simp⟩
      · rintro ⟨left, right, hleft, -, -, hmem⟩
        obtain rfl := hnone left hleft
        have hempty : rows = [] := List.eq_nil_iff_forall_not_mem.mpr fun r hr =>
          List.not_mem_nil ((hmem r).mp hr).1
        rw [hleft, hempty]
  · rcases s.selectRows_constant written with ⟨b, t, hwritten, hb, ht⟩ | ⟨answer, hanswer, hnone⟩
    · exact hsound.selects_outliers hwritten hb ht hp
    · rw [hanswer, hanswer]
      cases answer with
      | error e => rfl
      | ok rows =>
        obtain rfl := hnone rows rfl
        rfl
  · unfold selectRows
    simp only [rows_blank hx]
  · unfold distinctValues
    simp only [rows_blank hx]
  · obtain ⟨name, _, hfound⟩ := benchmark_eq_ok hwritten
    exact hsound.selects_distinct hwritten (of_benchmark?_eq_some hfound).1 hp hf hfield values

theorem selectsConjunctively_sample : IsComplete "_SIZE = 10 OR OUT" ∧ sample.SelectsConjunctively "runs"
    ∧ (sample.selectRows "runs" ⟨["_SIZE = 10 OR OUT"] ++ ["OUT"], true⟩).map (·.map (·.experiment)) = .ok [2] := by
  refine ⟨.inr ⟨.binary .or (.binary (.compare .eq) (.name ⟨.bare, "_SIZE"⟩) (.literal (.integer 10)))
    (.name ⟨.bare, "OUT"⟩), by decide,
    [.word "_SIZE", .symbol .equal, .number (.integer 10), .word "OR", .word "OUT"], ?_, ?_, ?_⟩, reachable_selectsConjunctively reachable_sample "runs", by decide +kernel⟩
  all_goals cbv

end Store

end BenchPlot
