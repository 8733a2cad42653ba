import BenchPlot.Sql.Statement

/-!
# Tables and statements on them

A table is a row of columns and the rows of data in it. A statement is resolved against the table
before it is run: so a name that no column has is a fault even where there is no row.

Main definitions: `Selection.resolve?` and `ResolvedSelection.apply`, which take rows of any type and
put them in order; `Table.select?`, `Table.update?` and `Table.delete?`.
-/

namespace BenchPlot.Sql

/-- A column of a table. -/
structure TableColumn where
  name : String
  affinity : Affinity
  deriving DecidableEq, Repr

/-- A table. Where one column numbers the rows, further names stand for it. -/
structure Table where
  columns : List TableColumn
  rowNumber : Option Nat
  rows : List (List Datum)

/-- The result of a selection. -/
structure QueryResult where
  columns : List String
  rows : List (List Datum)

/-- The names that stand for the number of a row where no column has them. -/
def rowNumberNames : List String := ["ROWID", "_ROWID_", "OID"]

/-- Whether two names are the same, in any letter case. -/
def sameName (a b : String) : Bool :=
  Text.asciiUpper a == Text.asciiUpper b

/-! ## §1 Names -/

/-- What names in a statement can stand for: columns, and the results that were given a name. -/
structure Names where
  columns : List TableColumn
  rowNumber : Option Nat
  outputs : List (Option String × Term Column)

namespace Names

/-- The column with a given place. -/
def columnAt? (n : Names) (index : Nat) : Option (Term Column) :=
  n.columns[index]?.map fun c => .name ⟨index, c.affinity⟩

/-- The column that a name stands for. -/
def column? (n : Names) (name : String) : Option (Term Column) :=
  match n.columns.findIdx? fun c => sameName c.name name with
  | some index => n.columnAt? index
  | none =>
    if rowNumberNames.contains (Text.asciiUpper name) then n.rowNumber.bind n.columnAt? else none

/-- The result that was given a name. -/
def output? (n : Names) (name : String) : Option (Term Column) :=
  (n.outputs.find? fun o => o.1.any (sameName name)).map (·.2)

/-- What a name that is neither a column nor a result stands for. -/
def literal? (name : Name) : Option (Term Column) :=
  match name.form with
  | .bare => (Term.truthWord? (.name name)).map fun b => .literal (.ofTruth (some b))
  | .quoted => none
  | .doubleQuoted => some (.literal (.text name.text))

/-- What a name stands for. -/
def find? (n : Names) (name : Name) : Option (Term Column) :=
  ((n.column? name.text).or (n.output? name.text)).or (literal? name)

end Names

/-! ## §2 Selections of rows -/

/-- A selection over the columns of a table. -/
structure ResolvedSelection where
  condition : Option (Term Column)
  order : List (Term Column × Bool)

/-- The term by which an order key puts rows in order: a number stands for the result with that
    place, and a name rather for a result than for a column. -/
def OrderKey.resolve? (n : Names) (k : OrderKey) : Option (Term Column × Bool) :=
  match k.term with
  | .literal (.integer i) =>
    if i ≤ 0 then none else n.outputs[i.toNat - 1]?.map fun o => (o.2, k.descending)
  | .name name => ((n.output? name.text).or (n.find? name)).map fun t => (t, k.descending)
  | t => (t.resolve? n.find?).map fun t => (t, k.descending)

/-- The term of a condition, if there is a condition. -/
def resolveCondition? (n : Names) : Option WrittenTerm → Option (Option (Term Column))
  | none => some none
  | some t => (t.resolve? n.find?).map some

/-- The selection over the columns that its names stand for. -/
def Selection.resolve? (n : Names) (s : Selection) : Option ResolvedSelection :=
  match resolveCondition? n s.condition, s.order.mapM (OrderKey.resolve? n) with
  | some condition, some order => some ⟨condition, order⟩
  | _, _ => none

/-- Whether a row satisfies a condition. -/
def satisfies (condition : Option (Term Column)) (cells : List Datum) : Bool :=
  match condition with
  | none => true
  | some t => t.holds cells

/-- Whether a row with the cells `a` may stand before one with the cells `b`. -/
def mayPrecede (order : List (Term Column × Bool)) (a b : List Datum) : Bool :=
  match order with
  | [] => true
  | (t, descending) :: rest =>
    let o := (t.evaluate a).order (t.evaluate b)
    match if descending then o.swap else o with
    | .lt => true
    | .eq => mayPrecede rest a b
    | .gt => false

/-- The rows that are taken, in order. Rows that no key tells apart keep their order. -/
def ResolvedSelection.apply {α : Type} (s : ResolvedSelection) (cells : α → List Datum)
    (rows : List α) : List α :=
  let taken := rows.filter fun r => satisfies s.condition (cells r)
  if s.order.isEmpty then taken
  else
    -- The sort is stable, so rows that no key tells apart stay in the order of the table.
    taken.mergeSort fun a b => mayPrecede s.order (cells a) (cells b)

/-! ## §3 Statements on a table -/

/-- The results that a result column stands for, with the names given to them, and the terms that
    have them as values. -/
def ResultColumn.expand? (t : Table) (c : ResultColumn) :
    Option (List (String × Option String × Option (Term Column))) :=
  let n : Names := ⟨t.columns, t.rowNumber, []⟩
  match c.output with
  | .all =>
    if t.columns.isEmpty then none
    else some (t.columns.zipIdx.map fun (column, i) =>
      (column.name, none, some (.name ⟨i, column.affinity⟩)))
  | .count => some [(c.given.getD c.text, c.given, none)]
  | .term written =>
    (written.resolve? n.find?).map fun term =>
      let name :=
        match term with
        | .name column => (t.columns[column.index]?.map TableColumn.name).getD c.text
        | _ => c.text
      [(c.given.getD name, c.given, some term)]

/-- Rows without those that equal an earlier one. -/
def distinctRows {α : Type} (cells : α → List Datum) (rows : List α) : List α :=
  rows.foldl (fun kept r =>
    if kept.any fun k => ((cells k).zip (cells r)).all fun p => p.1.order p.2 == .eq then kept
    else kept ++ [r]) []

namespace Table

/-- A table without columns and with one row, which a selection without a table is made from. -/
def unit : Table := ⟨[], none, [[]]⟩

/-- The result of a selection of a table. With the number of rows among the results there is one row
    of results, which shows the first of the rows otherwise. -/
def select? (t : Table) (distinct : Bool) (columns : List ResultColumn) (s : Selection) :
    Option QueryResult :=
  match columns.mapM (ResultColumn.expand? t) with
  | none => none
  | some expanded =>
    let results := expanded.flatten
    -- The condition and the order may refer to results by the names given to them.
    let outputs := results.map fun r => (r.2.1, r.2.2.getD (.literal .null))
    match s.resolve? ⟨t.columns, t.rowNumber, outputs⟩ with
    | none => none
    | some selection =>
      let taken := selection.apply id t.rows
      let show_ (cells : List Datum) : List Datum := results.map fun r =>
        match r.2.2 with
        | some term => term.evaluate cells
        | none => .integer taken.length
      let rows :=
        -- A count makes one row of all, and of none as well.
        if results.any fun r => r.2.2.isNone then
          [show_ ((t.rows.find? (satisfies selection.condition)).getD [])]
        else if distinct then distinctRows id (taken.map show_)
        else taken.map show_
      some ⟨results.map (·.1), rows⟩

/-- A row with changed cells: each term is evaluated at the old row. -/
def changeRow (t : Table) (changes : List (Nat × Term Column)) (cells : List Datum) : List Datum :=
  changes.foldl (fun row (index, term) =>
    let affinity := (t.columns[index]?.map TableColumn.affinity).getD .none
    row.set index (affinity.store (term.evaluate cells))) cells

/-- The changes over the columns that their names stand for. -/
def resolveChange? (n : Names) (change : String × WrittenTerm) : Option (Nat × Term Column) :=
  match n.column? change.1, change.2.resolve? n.find? with
  | some (.name column), some term => some (column.index, term)
  | _, _ => none

/-- The rows after a change of those that satisfy a condition. -/
def update? (t : Table) (changes : List (String × WrittenTerm)) (condition : Option WrittenTerm) :
    Option (List (List Datum)) :=
  let n : Names := ⟨t.columns, t.rowNumber, []⟩
  match changes.mapM (resolveChange? n), resolveCondition? n condition with
  | some changes, some condition =>
    some (t.rows.map fun row => if satisfies condition row then t.changeRow changes row else row)
  | _, _ => none

/-- The rows after the removal of those that satisfy a condition. -/
def delete? (t : Table) (condition : Option WrittenTerm) : Option (List (List Datum)) :=
  (resolveCondition? ⟨t.columns, t.rowNumber, []⟩ condition).map fun condition =>
    t.rows.filter fun row => !satisfies condition row

end Table

end BenchPlot.Sql
