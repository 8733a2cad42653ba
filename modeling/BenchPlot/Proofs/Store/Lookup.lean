import BenchPlot.Store.Import
import Mathlib.Data.List.Nodup

/-!
# Looking up what a store keeps

How the look-ups of a store see its basic changes: what is found is there, a table that is changed or
dropped leaves the other tables alone, and a benchmark's fields are found in the order in which they are
kept. The wide table of a benchmark after its fields changed, and after it got another name, are given as
lists of tables.

Main statements: `table?_updateTable`, `rebuild_eq_ok`, `renameTable_eq_ok` and `fieldsOf_eq_ownFields`.
-/

namespace BenchPlot

namespace Store

variable {s s' : Store}

/-! ## §1 Benchmarks -/

theorem of_benchmark?_eq_some {name : String} {b : Benchmark} (h : s.benchmark? name = some b) :
    b ∈ s.benchmarks ∧ b.name = name :=
  ⟨List.mem_of_find?_eq_some h, by simpa using List.find?_some h⟩

theorem benchmark?_eq_none {name : String} :
    s.benchmark? name = none ↔ ∀ b ∈ s.benchmarks, b.name ≠ name := by
  simp [benchmark?]

theorem require_eq_ok {name : String} {b : Benchmark} :
    s.require name = .ok b ↔ s.benchmark? name = some b := by
  unfold require
  split <;> simp_all

/-! ## §2 Fields and indices of one benchmark -/

/-- The fields of a benchmark in the order in which they are kept. -/
def ownFields (s : Store) (b : Benchmark) : List Field :=
  s.fields.filter (·.benchmark == b.id)

/-- The indices of a benchmark in the order in which they are kept. -/
def ownIndices (s : Store) (b : Benchmark) : List FieldIndex :=
  s.indices.filter (·.benchmark == b.id)

/-- The fields of a benchmark whose positions ascend are found in the order in which they are kept. -/
theorem fieldsOf_eq_ownFields {b : Benchmark}
    (h : (s.ownFields b).Pairwise fun f g => f.position < g.position) : s.fieldsOf b = s.ownFields b :=
  List.mergeSort_of_pairwise (h.imp fun hlt => decide_eq_true (Nat.le_of_lt hlt))

theorem indicesOf_perm (s : Store) (b : Benchmark) : (s.indicesOf b).Perm (s.ownIndices b) :=
  List.mergeSort_perm _ _

theorem of_requireField_eq_ok {b : Benchmark} {fields : List Field} {name : String} {f : Field}
    (h : requireField b fields name = .ok f) : f ∈ fields ∧ f.name = name := by
  unfold requireField at h
  split at h
  · rename_i g hg
    cases h
    exact ⟨List.mem_of_find?_eq_some hg, by simpa using List.find?_some hg⟩
  · cases h

/-! ## §3 Tables -/

theorem of_table?_eq_some {name : String} {t : WideTable} (h : s.table? name = some t) :
    t ∈ s.tables ∧ t.name = name :=
  ⟨List.mem_of_find?_eq_some h, by simpa using List.find?_some h⟩

/-- A change of one table that keeps its name is seen in this table only. -/
theorem table?_updateTable {f : WideTable → WideTable} (hf : ∀ t, (f t).name = t.name)
    (changed name : String) : (s.updateTable changed f).table? name
      = if name = changed then (s.table? name).map f else s.table? name := by
  have hname : (fun t : WideTable => (if t.name == changed then f t else t).name) = WideTable.name := by
    funext t
    split <;> simp [hf]
  simp only [table?, updateTable, List.find?_map]
  have hfind : ((·.name == name) ∘ fun t : WideTable => if t.name == changed then f t else t)
      = (·.name == name) := by
    funext t
    exact congrArg (· == name) (congrFun hname t)
  rw [hfind]
  cases hs : s.tables.find? (·.name == name) with
  | none => simp
  | some t =>
    have ht : t.name = name := by simpa using List.find?_some hs
    simp only [Option.map_some, ht]
    by_cases heq : name = changed <;> simp [heq]

theorem find?_dropped (tables : List WideTable) (dropped name : String) :
    (tables.filter (·.name != dropped)).find? (·.name == name)
      = if name = dropped then none else tables.find? (·.name == name) := by
  rw [List.find?_filter]
  split
  · rename_i heq
    simp [heq]
  · rename_i hne
    congr 1
    funext t
    by_cases ht : t.name = name
    · simp [ht, hne]
    · simp [ht]

/-- The tables of a store after the fields of a benchmark changed. -/
def rebuiltTables (s : Store) (b : Benchmark) (previous current : List Field) : List WideTable :=
  s.tables.filter (·.name != b.table) ++
    if current.isEmpty then []
    else [⟨b.table, current.map Field.toColumn, s.carriedRows b.table previous current⟩]

/-- After the fields of a benchmark changed its table is the rebuilt one, and the others are as before. -/
theorem find?_rebuiltTables (s : Store) (b : Benchmark) (previous current : List Field) (name : String) :
    (s.rebuiltTables b previous current).find? (·.name == name)
      = if name = b.table then
          if current = [] then none
          else some ⟨b.table, current.map Field.toColumn, s.carriedRows b.table previous current⟩
        else s.table? name := by
  rw [rebuiltTables, List.find?_append, find?_dropped]
  by_cases hname : name = b.table
  · cases current <;> simp [hname]
  · have hlater : ((if current.isEmpty then [] else
        [(⟨b.table, current.map Field.toColumn, s.carriedRows b.table previous current⟩ : WideTable)]).find?
          (·.name == name)) = none := by
      cases current <;> simp [Ne.symm hname]
    rw [if_neg hname, if_neg hname, hlater, Option.or_none]
    rfl

theorem rebuiltTables_names_nodup (h : (s.tables.map (·.name)).Nodup) (b : Benchmark)
    (previous current : List Field) :
    ((s.rebuiltTables b previous current).map (·.name)).Nodup := by
  have hrest : ((s.tables.filter (·.name != b.table)).map (·.name)).Nodup :=
    h.sublist (List.filter_sublist.map _)
  unfold rebuiltTables
  split
  · rwa [List.append_nil]
  · rw [List.map_append, List.nodup_append]
    refine ⟨hrest, by simp, fun name hname other hother heq => ?_⟩
    obtain ⟨t, ht, rfl⟩ := List.mem_map.mp hname
    have hne : t.name ≠ b.table := by simpa using (List.mem_filter.mp ht).2
    exact hne (heq.trans (by simpa using hother))

theorem updateTable_names {f : WideTable → WideTable} (hf : ∀ t, (f t).name = t.name) (changed : String) :
    (s.updateTable changed f).tables.map (·.name) = s.tables.map (·.name) := by
  simp only [updateTable, List.map_map]
  refine List.map_congr_left fun t _ => ?_
  simp only [Function.comp_apply]
  split
  · exact hf t
  · rfl

/-- The tables of a store after one table got another name. -/
def renamedTables (s : Store) (old new : String) : List WideTable :=
  s.tables.map fun t => if t.name == old then { t with name := new } else t

/-- A table that gets a name that no other table has is found under this name, and no more under its old
    one. -/
theorem find?_renamedTables {old new : String} (hfree : ∀ t ∈ s.tables, t.name = new → t.name = old)
    (name : String) :
    (s.renamedTables old new).find? (·.name == name)
      = if name = new then (s.table? old).map fun t => { t with name := new }
        else if name = old then none else s.table? name := by
  have hbeq : ∀ {x y : String}, x ≠ y → (x == y) = false := beq_eq_false_iff_ne.mpr
  induction hl : s.tables generalizing s with
  | nil => simp [renamedTables, table?, hl]
  | cons t rest ih =>
    have htail := ih (s := { s with tables := rest })
      (fun u hu => hfree u (by rw [hl]; exact List.mem_cons_of_mem _ hu)) rfl
    have hfirst : t.name = new → t.name = old := hfree t (by rw [hl]; exact List.mem_cons_self ..)
    simp only [renamedTables, table?, hl, List.map_cons, List.find?_cons] at htail ⊢
    rw [htail]
    -- The first table is the renamed one, or the one that is looked for, or neither.
    by_cases hold : t.name = old
    · subst hold
      by_cases hname : name = new
      · simp [hname]
      · by_cases hnold : name = t.name
        · simp [hnold, hbeq (fun heq => hname (hnold.trans heq.symm)), hnold ▸ hname]
        · simp [hname, hnold, hbeq (Ne.symm hname), hbeq (Ne.symm hnold)]
    · have hne : t.name ≠ new := fun heq => hold (hfirst heq)
      by_cases hname : name = new
      · simp [hbeq hold, hname, hbeq hne]
      · by_cases htname : t.name = name
        · subst htname
          simp [hold, hne]
        · simp [hold, hname, hbeq htname]

theorem renamedTables_names_nodup (h : (s.tables.map (·.name)).Nodup) {old new : String}
    (hfree : ∀ t ∈ s.tables, t.name = new → t.name = old) :
    ((s.renamedTables old new).map (·.name)).Nodup := by
  have hnames : (s.renamedTables old new).map (·.name)
      = (s.tables.map (·.name)).map fun name => if name = old then new else name := by
    simp only [renamedTables, List.map_map]
    refine List.map_congr_left fun t _ => ?_
    by_cases ht : t.name = old <;> simp [ht]
  have hother : ∀ name ∈ s.tables.map (·.name), name = new → name = old := by
    intro name hname
    obtain ⟨t, ht, rfl⟩ := List.mem_map.mp hname
    exact hfree t ht
  rw [hnames]
  -- Only the new name could meet another one, and no other table has it.
  refine List.Nodup.map_on (fun x hx y hy hxy => ?_) h
  have hxn := hother x hx
  have hyn := hother y hy
  grind

theorem makePhysicalIndex_eq (s : Store) (b : Benchmark) (i : FieldIndex) :
    ∃ l, s.makePhysicalIndex b i = { s with physicalIndices := l } := by
  unfold makePhysicalIndex
  dsimp only
  split
  · exact ⟨_, rfl⟩
  · exact ⟨s.physicalIndices, rfl⟩

/-- Steps that change the physical indices only, one after the other, change these only. -/
private theorem foldl_physicalIndices {f : Store → FieldIndex → Store}
    (hf : ∀ s i, ∃ l, f s i = { s with physicalIndices := l }) (is : List FieldIndex) (s : Store) :
    ∃ l, is.foldl f s = { s with physicalIndices := l } := by
  induction is generalizing s with
  | nil => exact ⟨s.physicalIndices, rfl⟩
  | cons i rest ih =>
    obtain ⟨l, hl⟩ := hf s i
    obtain ⟨m, hm⟩ := ih (f s i)
    exact ⟨m, by rw [List.foldl_cons, hm, hl]⟩

theorem makePhysicalIndices_eq (s : Store) (b : Benchmark) :
    ∃ l, s.makePhysicalIndices b = { s with physicalIndices := l } :=
  foldl_physicalIndices (fun s i => makePhysicalIndex_eq s b i) _ s

theorem dropPhysicalIndices_eq (s : Store) (b : Benchmark) :
    ∃ l, s.dropPhysicalIndices b = { s with physicalIndices := l } :=
  foldl_physicalIndices (fun _ _ => ⟨_, rfl⟩) _ s

/-- After a change of fields the tables are the rebuilt ones, and all but the tables and the physical
    indices is as before. -/
theorem rebuild_eq_ok {b : Benchmark} {previous current : List Field}
    (h : s.rebuild b previous current = .ok s') :
    ∃ l, s' = { s with tables := s.rebuiltTables b previous current, physicalIndices := l } := by
  unfold rebuild at h
  split at h
  · -- Without fields the table is dropped and no other one is made.
    rename_i hempty
    cases h
    exact ⟨s.physicalIndices.filter (·.table != b.table), by simp [dropTable, rebuiltTables, hempty]⟩
  · split at h
    · cases h
    · rename_i hfull _
      cases h
      obtain ⟨l, hl⟩ := makePhysicalIndices_eq
        { s.dropTable b.table with
          tables := (s.dropTable b.table).tables ++
            [⟨b.table, current.map Field.toColumn, s.carriedRows b.table previous current⟩] } b
      exact ⟨l, by rw [hl]; simp [dropTable, rebuiltTables, hfull]⟩

/-- After a renaming the table has the new name, and all but the tables and the physical indices is as
    before. -/
theorem renameTable_eq_ok {old new : Benchmark} (h : s.renameTable old new = .ok s') :
    ∃ l, s' = { s with tables := s.renamedTables old.table new.table, physicalIndices := l } := by
  unfold renameTable at h
  split at h
  · -- A benchmark without fields has no table, so there is nothing to rename.
    rename_i hnone
    cases h
    have hsame : s.renamedTables old.table new.table = s.tables := by
      refine List.map_congr_left (g := id) (fun t ht => ?_) |>.trans (List.map_id _)
      have hne : ¬(t.name == old.table) = true := List.find?_eq_none.mp hnone t ht
      simp [hne]
    exact ⟨s.physicalIndices, by rw [hsame]⟩
  · -- The physical indices are dropped before the renaming and made again behind it.
    obtain ⟨l, hl⟩ := dropPhysicalIndices_eq s old
    rw [hl] at h
    dsimp only at h
    split at h
    · cases h
    · cases h
      obtain ⟨m, hm⟩ := makePhysicalIndices_eq
        { s with
          tables := s.renamedTables old.table new.table
          physicalIndices := l.map fun i =>
            if i.table == old.table then { i with table := new.table } else i } new
      exact ⟨m, hm⟩

end Store

end BenchPlot
