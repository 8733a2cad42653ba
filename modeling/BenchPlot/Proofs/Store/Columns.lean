import BenchPlot.Proofs.Sql.Reading
import BenchPlot.Proofs.Store.MirrorInvariant
import BenchPlot.Proofs.Store.ValueOrder

/-!
# Columns in queries

The column of a field is one word in a query, and in the wide table of the benchmark the word stands for this
column and no other: letters count in either case, but canonical names have upper-case letters only.

Main statements: `isColumnWord_column` and `column?_field`.
-/

namespace BenchPlot

/-! ## §1 Canonical names as words -/

private theorem foldChar_word : ∀ n < 128, Sql.isWordChar (foldChar (Char.ofNat n)) = true
    ∧ (foldChar (Char.ofNat n)).toUpper = foldChar (Char.ofNat n) := by
  decide

theorem isWordChar_foldChar (c : Char) : Sql.isWordChar (foldChar c) = true := by
  obtain ⟨n, hn, hc⟩ := foldChar_eq_ascii c
  rw [hc]
  exact (foldChar_word n hn).1

theorem toUpper_foldChar (c : Char) : (foldChar c).toUpper = foldChar c := by
  obtain ⟨n, hn, hc⟩ := foldChar_eq_ascii c
  rw [hc]
  exact (foldChar_word n hn).2

theorem IsCanonical.exists_foldChar {name : String} (h : IsCanonical name) {c : Char} (hc : c ∈ name.toList) :
    ∃ d, c = foldChar d := by
  rw [eq_of_canonicalName h, String.toList_ofList] at hc
  obtain ⟨d, _, rfl⟩ := List.mem_map.mp hc
  exact ⟨d, rfl⟩

theorem toList_columnName (name : String) : (columnName name).toList = '_' :: name.toList := by
  simp [columnName]

theorem toList_asciiUpper_columnName (name : String) :
    (Text.asciiUpper (columnName name)).toList = '_' :: name.toList.map Char.toUpper := by
  rw [Text.asciiUpper, String.toList_map, toList_columnName]
  rfl

/-- A word with an underscore in front is none of the words of the language. -/
theorem asciiUpper_columnName_ne (name : String) {word : String} (hword : word.toList.head? ≠ some '_') :
    Text.asciiUpper (columnName name) ≠ word := by
  rintro rfl
  rw [toList_asciiUpper_columnName] at hword
  exact hword rfl

/-- The upper-case form of the column of a canonical name is the column itself. -/
theorem asciiUpper_columnName {name : String} (h : IsCanonical name) :
    Text.asciiUpper (columnName name) = columnName name := by
  refine String.toList_inj.mp ?_
  rw [toList_asciiUpper_columnName, toList_columnName]
  congr 1
  refine (List.map_congr_left (g := id) fun c hc => ?_).trans (List.map_id _)
  obtain ⟨d, rfl⟩ := h.exists_foldChar hc
  exact toUpper_foldChar d

theorem isColumnWord_columnName {name : String} (h : IsCanonical name) : Sql.IsColumnWord (columnName name) := by
  have hne : ∀ {word : String}, word.toList.head? ≠ some '_' → Text.asciiUpper (columnName name) ≠ word :=
    asciiUpper_columnName_ne name
  refine ⟨⟨'_', name.toList, toList_columnName name, rfl, by decide, by decide, fun d hd => ?_⟩, ?_,
    hne (by decide), hne (by decide)⟩
  · obtain ⟨e, rfl⟩ := h.exists_foldChar hd
    exact isWordChar_foldChar e
  · unfold Sql.Keyword.ofWord?
    split <;> first | rfl | (rename_i heq; exact (hne (by decide) heq).elim)

theorem isColumnWord_exp : Sql.IsColumnWord "EXP" := by
  refine ⟨⟨'E', ['X', 'P'], by simp, by decide, by decide, by decide, ?_⟩, by cbv, ?_, ?_⟩
  · simp only [List.forall_mem_cons]
    exact ⟨rfl, rfl, List.forall_mem_nil _⟩
  · exact ne_of_beq_false (by cbv)
  · exact ne_of_beq_false (by cbv)

/-! ## §2 Columns of fields -/

/-- The affinity of the column of a field. -/
def Field.affinity (f : Field) : Sql.Affinity :=
  if f.numeric then .real else .text

/-- The column of a field as a query sees it. -/
def Field.queryColumn (f : Field) : Sql.TableColumn :=
  ⟨f.column, f.affinity⟩

theorem sameName_column {f g : Field} (hf : IsCanonical f.name) (hg : IsCanonical g.name) :
    Sql.sameName f.column g.column = (f.column == g.column) := by
  rw [Sql.sameName, Field.column, Field.column, asciiUpper_columnName hf, asciiUpper_columnName hg]

/-- The place of the column of a field is that of its cell. -/
theorem findIdx?_queryColumns {fields : List Field} (hcanonical : ∀ f ∈ fields, IsCanonical f.name)
    (hnames : (fields.map (·.name)).Nodup) {f : Field} (hf : f ∈ fields) :
    ∃ i, (fields.map Field.queryColumn).findIdx? (fun c => Sql.sameName c.name f.column) = some i
      ∧ fields[i]? = some f
      ∧ ∀ cells : List Value, cells.length = fields.length →
        (((fields.map Field.toColumn).zip cells).find? (·.1.name == f.column)).map (·.2) = cells[i]? := by
  induction fields with
  | nil => cases hf
  | cons g rest ih =>
    obtain ⟨hfresh, hrest⟩ := List.nodup_cons.mp hnames
    have hg : IsCanonical g.name := hcanonical g (List.mem_cons_self ..)
    have hsame : Sql.sameName g.queryColumn.name f.column = (g.column == f.column) :=
      sameName_column hg (hcanonical f hf)
    rcases List.mem_cons.mp hf with rfl | hlater
    · refine ⟨0, by simp [List.findIdx?_cons, hsame], rfl, fun cells hcells => ?_⟩
      cases cells with
      | nil => simp at hcells
      | cons c cells => simp [Field.toColumn]
    · obtain ⟨i, hi, hfi, hcell⟩ := ih (fun f hf => hcanonical f (List.mem_cons_of_mem _ hf)) hrest hlater
      have hother : (g.column == f.column) = false := by
        have hne : g.name ≠ f.name := fun heq => hfresh (List.mem_map.mpr ⟨f, hlater, heq.symm⟩)
        simpa [Field.column, columnName_inj] using hne
      refine ⟨i + 1, by simp [List.findIdx?_cons, hsame, hother, hi], by simpa using hfi, fun cells hcells => ?_⟩
      cases cells with
      | nil => simp at hcells
      | cons c cells =>
        have hname : (g.toColumn.name == f.column) = false := hother
        simpa [hname] using hcell cells (by simpa using hcells)

/-- The column of a field in a query is the cell of the field. -/
theorem column?_field {t : WideTable} {fields : List Field} (hcolumns : t.columns = fields.map Field.toColumn)
    (hcanonical : ∀ f ∈ fields, IsCanonical f.name) (hnames : (fields.map (·.name)).Nodup) {f : Field}
    (hf : f ∈ fields) (columns : List String) : ∃ i,
      (t.names columns).column? f.column = some (.name ⟨i, f.affinity⟩)
      ∧ ∀ r : WideRow, r.cells.length = fields.length →
        (Sql.Term.name ⟨i, f.affinity⟩ : Sql.Term Sql.Column).evaluate r.data
          = Sql.Datum.ofValue (t.cell r f.column) := by
  obtain ⟨i, hi, hfi, hcell⟩ := findIdx?_queryColumns hcanonical hnames hf
  have hquery : t.queryColumns = fixedColumns.map (⟨·, .integer⟩) ++ fields.map Field.queryColumn := by
    rw [WideTable.queryColumns, hcolumns, List.map_map]
    rfl
  have hfixed : (fixedColumns.map (Sql.TableColumn.mk · .integer)).findIdx?
      (fun c => Sql.sameName c.name f.column) = none := by
    rw [List.findIdx?_eq_none_iff]
    intro c hc
    obtain ⟨name, hname, rfl⟩ := List.mem_map.mp hc
    have hbare : ∀ n ∈ fixedColumns, (Text.asciiUpper n).toList.head? ≠ some '_' := by
      simp only [fixedColumns, List.forall_mem_cons]
      refine ⟨?_, ?_, ?_, List.forall_mem_nil _⟩ <;> cbv <;> simp
    have hne := asciiUpper_columnName_ne f.name (hbare name hname)
    simpa [Sql.sameName, Field.column] using fun heq => hne heq.symm
  have hplace : t.queryColumns.findIdx? (fun c => Sql.sameName c.name f.column) = some (i + 3) := by
    rw [hquery, List.findIdx?_append, hfixed, hi]
    rfl
  refine ⟨i + 3, ?_, fun r hr => ?_⟩
  · have hat : (t.names columns).columns[i + 3]? = some f.queryColumn := by
      simp [WideTable.names, hquery, fixedColumns, hfi]
    have hcolumns : (t.names columns).columns = t.queryColumns := rfl
    rw [Sql.Names.column?, hcolumns, hplace]
    simp [Sql.Names.columnAt?, hat, Field.queryColumn]
  · rw [WideTable.cell, hcolumns, hcell r.cells hr]
    have hlt : i < r.cells.length := hr ▸ (List.getElem?_eq_some_iff.mp hfi).1
    simp [Sql.Term.evaluate, WideRow.data, hlt]

end BenchPlot
