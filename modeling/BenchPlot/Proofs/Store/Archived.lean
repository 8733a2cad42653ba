import BenchPlot.Proofs.Decimal.Finite
import BenchPlot.Proofs.Store.Reach
import BenchPlot.Proofs.Text.Lines
import BenchPlot.Proofs.Text.Utf8
import BenchPlot.Store.Archive

/-!
# Archived stores

What is kept of a store comes back. No written cell has a tab or a line end, so that the records of an archive are its
lines and the cells of a record are the pieces of its line; each kind of cells is read as what it was written for; and
the rows of a table are found by its name, which no other table has.

Main statements: `Archive.ofLine?_body`, `Archive.store?_records` and `Store.Sound.ofBytes?_toBytes`.
-/

namespace BenchPlot

namespace Archive

/-! ## §1 Cells and records -/

theorem unescape_cons {c : Char} (hc : c ≠ '\\') (cs : List Char) : unescape (c :: cs) = c :: unescape cs := by
  rw [unescape.eq_6]
  all_goals exact fun _ heq => absurd heq hc

/-- A written cell is read as the cell. -/
theorem unescape_escape (cs : List Char) : unescape (escape cs) = cs := by
  fun_induction escape cs with
  | case1 => rfl
  | case2 rest ih => rw [unescape, ih]
  | case3 rest ih => rw [unescape, ih]
  | case4 rest ih => rw [unescape, ih]
  | case5 rest ih => rw [unescape, ih]
  | case6 c rest hescape htab hfeed hreturn ih => rw [unescape_cons hescape, ih]

/-- Tabs and line ends do not stand in a written cell. -/
theorem notMem_escape {c : Char} (hc : c = '\t' ∨ c = '\n' ∨ c = '\r') (cs : List Char) : c ∉ escape cs := by
  have hne : ∀ d ∈ ['\\', 't', 'n', 'r'], c ≠ d := by
    rintro d hd rfl
    revert hd
    rcases hc with rfl | rfl | rfl <;> decide
  -- What is written for one of these characters starts with a backslash and a letter that stands for it.
  have hcode : ∀ {d rest}, d ∈ ['\\', 't', 'n', 'r'] → c ∉ escape rest → c ∉ '\\' :: d :: escape rest := by
    intro d rest hd ih
    exact List.not_mem_cons_of_ne_of_not_mem (hne '\\' (by decide))
      (List.not_mem_cons_of_ne_of_not_mem (hne d hd) ih)
  fun_induction escape cs with
  | case1 => exact List.not_mem_nil
  | case2 rest ih => exact hcode (by decide) ih
  | case3 rest ih => exact hcode (by decide) ih
  | case4 rest ih => exact hcode (by decide) ih
  | case5 rest ih => exact hcode (by decide) ih
  | case6 d rest hescape htab hfeed hreturn ih =>
    refine List.not_mem_cons_of_ne_of_not_mem ?_ ih
    rintro rfl
    rcases hc with rfl | rfl | rfl
    · exact htab rfl
    · exact hfeed rfl
    · exact hreturn rfl

/-- The pieces of the line of a record. -/
def Record.pieces (r : Record) : List (List Char) :=
  (r.1 :: r.2).map fun cell => escape cell.toList

/-- The line of a record without its line end. -/
def Record.body (r : Record) : List Char :=
  List.intercalate ['\t'] r.pieces

theorem toList_line (r : Record) : r.line.toList = r.body ++ ['\n'] := by
  have hcells : ∀ cell : String, (String.ofList (escape cell.toList)).toList = escape cell.toList :=
    fun _ => String.toList_ofList
  rw [Record.line, String.toList_append, String.toList_intercalate, List.map_map]
  simp only [Function.comp_def, hcells]
  rfl

theorem notMem_body {c : Char} (hc : c = '\n' ∨ c = '\r') (r : Record) : c ∉ r.body := by
  intro hmem
  rcases Text.mem_intercalate.mp hmem with ⟨piece, hpiece, hin⟩ | ⟨htab, -⟩
  · obtain ⟨cell, _, rfl⟩ := List.mem_map.mp hpiece
    exact notMem_escape (.inr hc) _ hin
  · rcases hc with rfl | rfl <;> exact absurd htab (by decide)

/-- The line of a record is read as the record. -/
theorem ofLine?_body (r : Record) : Record.ofLine? r.body = some r := by
  have htabs : ∀ piece ∈ r.pieces, '\t' ∉ piece := by
    intro piece hpiece
    obtain ⟨cell, _, rfl⟩ := List.mem_map.mp hpiece
    exact notMem_escape (.inl rfl) _
  have hpieces : Text.piecesAt '\t' r.body = r.pieces := Text.piecesAt_intercalate (List.cons_ne_nil _ _) htabs
  have hcells : ∀ cell : String, String.ofList (unescape (escape cell.toList)) = cell := by
    intro cell
    rw [unescape_escape, String.ofList_toList]
  unfold Record.ofLine?
  rw [hpieces, Record.pieces, List.map_map]
  simp only [Function.comp_def, hcells, List.map_id']

/-- What is written for each element of a list is read element by element. -/
theorem mapM_map_eq_some {α β γ : Type} {write : α → β} {read? : β → Option γ} {f : α → γ} {l : List α}
    (h : ∀ a ∈ l, read? (write a) = some (f a)) : (l.map write).mapM read? = some (l.map f) := by
  induction l with
  | nil => rfl
  | cons a rest ih =>
    obtain ⟨ha, hrest⟩ := List.forall_mem_cons.mp h
    simp only [List.map_cons, List.mapM_cons, ha, ih hrest, Option.bind_eq_bind, Option.bind_some, Option.pure_def]

/-- A list comes back where each of its elements does. -/
theorem mapM_map_self {α β : Type} {write : α → β} {read? : β → Option α} {l : List α}
    (h : ∀ a ∈ l, read? (write a) = some a) : (l.map write).mapM read? = some l :=
  (mapM_map_eq_some h).trans (congrArg some (List.map_id' l))

/-- What is written record by record is read record by record. -/
theorem mapM_ofLine?_lines (rs : List Record) :
    (Text.lineChars (String.join (rs.map Record.line)).toList).mapM Record.ofLine? = some rs := by
  have hlines : (String.join (rs.map Record.line)).toList = (rs.map Record.body).flatMap fun line => line ++ ['\n'] := by
    rw [String.toList_join, List.flatMap_map, List.flatMap_map]
    exact List.flatMap_congr fun r _ => toList_line r
  have hends : ∀ line ∈ rs.map Record.body, '\n' ∉ line ∧ '\r' ∉ line := by
    intro line hline
    obtain ⟨r, _, rfl⟩ := List.mem_map.mp hline
    exact ⟨notMem_body (.inl rfl) r, notMem_body (.inr rfl) r⟩
  rw [hlines, Text.lineChars_flatMap hends]
  exact mapM_map_self fun r _ => ofLine?_body r

/-! ## §2 Single cells -/

theorem flag?_flagCell (b : Bool) : flag? (flagCell b) = some b := by
  cases b <;> decide

theorem natural?_naturalCell (n : Nat) : natural? (naturalCell n) = some n := by
  have htext : (naturalCell n).toList = Decimal.digitChars n := String.toList_ofList
  have hfull : Decimal.digitChars n ≠ [] := Nat.toDigits_ne_nil
  rw [natural?, htext, Decimal.readNatural?, if_pos, Decimal.digitsValue_digitChars]
  rw [Bool.and_eq_true, Bool.not_eq_true', List.isEmpty_eq_false_iff, List.all_eq_true]
  exact ⟨hfull, fun c hc => Decimal.isDigit_of_mem_digitChars hc⟩

theorem optional?_optionalCell (s : Option String) : optional? (optionalCell s) = some s := by
  cases s with
  | none => rfl
  | some s =>
    have htext : (optionalCell (some s)).toList = '+' :: s.toList := String.toList_append
    simp only [optional?, htext, String.ofList_toList]

theorem value?_valueCell (v : Value) : value? (valueCell v) = some v := by
  cases v with
  | null => rfl
  | number x =>
    have htext : (valueCell (.number x)).toList = 'n' :: (naturalCell x.toBits.toNat).toList := String.toList_append
    have hbits : Decimal.readNatural? (naturalCell x.toBits.toNat).toList = some x.toBits.toNat :=
      natural?_naturalCell _
    -- The bits tell apart what one decimal text would not, such as the two zeros.
    simp only [value?, htext, hbits, Option.map_some, UInt64.ofNat_toNat, Decimal.ofBits_toBits_self]
  | text s =>
    have htext : (valueCell (.text s)).toList = 't' :: s.toList := String.toList_append
    simp only [value?, htext, String.ofList_toList]
  | bool b =>
    have htext : (valueCell (.bool b)).toList = 'b' :: (flagCell b).toList := String.toList_append
    simp only [value?, htext, String.ofList_toList, flag?_flagCell, Option.map_some]

theorem column?_columnCell (c : WideColumn) : column? (columnCell c) = some c := by
  obtain ⟨name, numeric⟩ := c
  have htext : (columnCell ⟨name, numeric⟩).toList = (flagCell numeric).toList ++ name.toList := String.toList_append
  cases numeric <;> simp [column?, htext, flagCell, flag?]

/-! ## §3 Parts of a store -/

theorem benchmark?_benchmarkCells (b : Benchmark) : benchmark? (benchmarkCells b) = some b := by
  simp only [benchmark?, benchmarkCells, natural?_naturalCell, optional?_optionalCell, Option.bind_eq_bind,
    Option.bind_some]

theorem field?_fieldCells (f : Field) : field? (fieldCells f) = some f := by
  simp only [field?, fieldCells, natural?_naturalCell, flag?_flagCell, Option.bind_eq_bind, Option.bind_some]

theorem index?_indexCells (i : FieldIndex) : index? (indexCells i) = some i := by
  simp only [index?, indexCells, natural?_naturalCell, Option.bind_eq_bind, Option.bind_some]

theorem experiment?_experimentCells (e : Experiment) : experiment? (experimentCells e) = some e := by
  simp only [experiment?, experimentCells, natural?_naturalCell, flag?_flagCell, Option.bind_eq_bind,
    Option.bind_some]

theorem physicalIndex?_physicalIndexCells (i : PhysicalIndex) : physicalIndex? (physicalIndexCells i) = some i :=
  rfl

/-- A row is read back, but only for the table that it was written for. -/
theorem rowOf?_rowCells (name table : String) (r : WideRow) :
    rowOf? name (rowCells table r) = some (if table = name then some r else none) := by
  have hcells : (r.cells.map valueCell).mapM value? = some r.cells := mapM_map_self fun v _ => value?_valueCell v
  by_cases h : table = name
  · simp only [rowOf?, rowCells, if_pos h, natural?_naturalCell, flag?_flagCell, hcells, Option.bind_eq_bind,
      Option.bind_some]
  · simp only [rowOf?, rowCells, if_neg h]

/-- The rows of all tables, with the names of the tables. -/
def namedRows (tables : List WideTable) : List (String × WideRow) :=
  tables.flatMap fun t => t.rows.map fun r => (t.name, r)

/-- The rows under the name of a table are those of the table. -/
theorem filterMap_namedRows {tables : List WideTable} (h : (tables.map (·.name)).Nodup) {t : WideTable}
    (ht : t ∈ tables) :
    (namedRows tables).filterMap (fun p => if p.1 = t.name then some p.2 else none) = t.rows := by
  have hown : ((t.rows.map fun r => (t.name, r)).filterMap fun p => if p.1 = t.name then some p.2 else none)
      = t.rows := by
    simp [List.filterMap_map]
  have hother : ∀ others : List WideTable, t.name ∉ others.map (·.name) →
      (namedRows others).filterMap (fun p => if p.1 = t.name then some p.2 else none) = [] := by
    intro others hothers
    rw [List.filterMap_eq_nil_iff]
    intro p hp
    obtain ⟨u, hu, hin⟩ := List.mem_flatMap.mp hp
    obtain ⟨r, _, rfl⟩ := List.mem_map.mp hin
    have hne : u.name ≠ t.name := fun heq => hothers (heq ▸ List.mem_map_of_mem hu)
    exact if_neg hne
  -- The table stands somewhere among all, and no other has its name.
  obtain ⟨before, after, rfl⟩ := List.append_of_mem ht
  rw [List.map_append, List.map_cons, List.nodup_middle, List.nodup_cons, List.mem_append, not_or] at h
  have hbefore := hother before h.1.1
  have hafter := hother after h.1.2
  rw [namedRows] at hbefore hafter
  rw [namedRows, List.flatMap_append, List.flatMap_cons, List.filterMap_append, List.filterMap_append, hown, hbefore,
    hafter, List.nil_append, List.append_nil]

theorem table?_tableCells {tables : List WideTable} (h : (tables.map (·.name)).Nodup) {t : WideTable}
    (ht : t ∈ tables) :
    table? ((namedRows tables).map fun p => rowCells p.1 p.2) (t.name :: t.columns.map columnCell) = some t := by
  have hcolumns : (t.columns.map columnCell).mapM column? = some t.columns :=
    mapM_map_self fun c _ => column?_columnCell c
  have hrows := mapM_map_eq_some (l := namedRows tables) fun p _ => rowOf?_rowCells t.name p.1 p.2
  have hown := filterMap_namedRows h ht
  simp only [table?, hrows, hcolumns, Option.bind_eq_bind, Option.bind_some, List.filterMap_map, Function.id_comp]
  rw [hown]

/-! ## §4 Records by their kinds -/

theorem ofKind_append (kind : String) (rs more : List Record) :
    ofKind kind (rs ++ more) = ofKind kind rs ++ ofKind kind more := by
  rw [ofKind, List.filter_append, List.map_append]
  rfl

/-- Records of one kind are all found under it, and none of them under another. -/
theorem ofKind_map (kind kind' : String) {α : Type} (l : List α) (cells : α → List String) :
    ofKind kind (l.map fun a => (kind', cells a)) = if kind' = kind then l.map cells else [] := by
  unfold ofKind
  split
  · rename_i heq
    simp [List.filter_map, heq, Function.comp_def]
  · rename_i hne
    simp [List.filter_map, hne, Function.comp_def]

/-- The cells of the last numbers. -/
def lastCells (last : LastNumbers) : List String :=
  [last.benchmark, last.field, last.index, last.experiment].map naturalCell

/-- The records of a store, kind by kind. -/
theorem records_eq (s : Store) : records s = title ::
    ([s.last].map (fun last => ("last", lastCells last)) ++
    s.metadata.map (fun e => ("metadata", [e.1, e.2])) ++
    s.benchmarks.map (fun b => ("benchmark", benchmarkCells b)) ++
    s.fields.map (fun f => ("field", fieldCells f)) ++
    s.indices.map (fun i => ("index", indexCells i)) ++
    s.experiments.map (fun e => ("experiment", experimentCells e)) ++
    s.tables.map (fun t => ("table", t.name :: t.columns.map columnCell)) ++
    (namedRows s.tables).map (fun p => ("row", rowCells p.1 p.2)) ++
    s.physicalIndices.map fun i => ("physical index", physicalIndexCells i)) := by
  have hrows : (s.tables.flatMap fun t => t.rows.map fun r => ("row", rowCells t.name r))
      = (namedRows s.tables).map fun p => ("row", rowCells p.1 p.2) := by
    rw [namedRows, List.map_flatMap]
    refine List.flatMap_congr fun t _ => ?_
    rw [List.map_map]
    rfl
  rw [records, hrows]
  rfl

/-- The records of a store are read as the store, if no two tables have one name. -/
theorem store?_records {s : Store} (h : (s.tables.map (·.name)).Nodup) (clock : String) :
    store? clock (records s).tail = some (s.atTime clock) := by
  have hlast : lastNumbers? ([s.last].map lastCells) = some s.last := by
    simp only [lastNumbers?, lastCells, List.map_cons, List.map_nil, natural?_naturalCell, Option.bind_eq_bind,
      Option.bind_some]
  have hmetadata : (s.metadata.map fun e => [e.1, e.2]).mapM entry? = some s.metadata :=
    mapM_map_self fun _ _ => rfl
  have hbenchmarks := mapM_map_self (l := s.benchmarks) fun b _ => benchmark?_benchmarkCells b
  have hfields := mapM_map_self (l := s.fields) fun f _ => field?_fieldCells f
  have hindices := mapM_map_self (l := s.indices) fun i _ => index?_indexCells i
  have hexperiments := mapM_map_self (l := s.experiments) fun e _ => experiment?_experimentCells e
  have htables : (s.tables.map fun t => t.name :: t.columns.map columnCell).mapM
      (table? ((namedRows s.tables).map fun p => rowCells p.1 p.2)) = some s.tables :=
    mapM_map_self fun t ht => table?_tableCells h ht
  have hphysical := mapM_map_self (l := s.physicalIndices) fun i _ => physicalIndex?_physicalIndexCells i
  -- Under each kind only the records of this kind are found.
  unfold store?
  simp only [records_eq, List.tail_cons, ofKind_append, ofKind_map, String.reduceEq, if_true, if_false,
    List.append_nil, List.nil_append, hlast, hmetadata, hbenchmarks, hfields, hindices, hexperiments, htables,
    hphysical, Option.bind_eq_bind, Option.bind_some]
  rfl

theorem clock_of_store? {s : Store} {clock : String} {rs : List Record} (h : store? clock rs = some s) :
    s.clock = clock := by
  simp only [store?, Option.bind_eq_bind, Option.bind_eq_some_iff, Option.some.injEq] at h
  obtain ⟨_, _, _, _, _, _, _, _, _, _, _, _, _, _, _, _, rfl⟩ := h
  rfl

end Archive

/-! ## §5 Archives -/

namespace Store

variable {s : Store}

/-- An archived store is read as the store, at the time of reading. -/
theorem Sound.ofBytes?_toBytes (h : s.Sound) (clock : String) : ofBytes? clock s.toBytes = some (s.atTime clock) := by
  have htitle : Archive.records s = Archive.title :: (Archive.records s).tail := by rw [Archive.records_eq, List.tail_cons]
  have hread := Archive.mapM_ofLine?_lines (Archive.records s)
  rw [ofBytes?, toBytes, Text.decode?_encode]
  simp only [Option.bind_eq_bind, Option.bind_some, hread]
  rw [htitle]
  exact (if_pos rfl).trans (Archive.store?_records h.tableNames clock)

theorem clock_of_ofBytes? {clock : String} {bytes : List UInt8} (h : ofBytes? clock bytes = some s) :
    s.clock = clock := by
  obtain ⟨text, _, h⟩ := Option.bind_eq_some_iff.mp h
  obtain ⟨records, _, h⟩ := Option.bind_eq_some_iff.mp h
  split at h
  · split at h
    · exact Archive.clock_of_store? h
    · cases h
  · cases h

/-- No archive is empty. -/
theorem toBytes_ne_nil (s : Store) : s.toBytes ≠ [] := by
  intro hempty
  have hnone : Text.encode "" = [] := by
    rw [Text.encode_eq]
    rfl
  have htext : String.join ((Archive.records s).map Archive.Record.line) = "" :=
    Text.encode_injective (hempty.trans hnone.symm)
  -- A text without lines would have no records, but there is always the title.
  have hread := Archive.mapM_ofLine?_lines (Archive.records s)
  rw [htext, Archive.records_eq] at hread
  cases hread

end Store

end BenchPlot
