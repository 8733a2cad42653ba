import BenchPlot.Proofs.Decimal.Order
import BenchPlot.Sql.Table
import Mathlib.Data.List.Induction

/-!
# The order of stored values

The values that fields hold are ordered as the data of queries are: nothing first, then numbers by their size,
then texts by their characters. On them the order is total, and only a value itself is equal to it. So sorted
values without repetitions ascend strictly.

Main statements: `order_ofValue`, `Value.order_eq_iff` and `distinctRows_sorted`.
-/

namespace BenchPlot

/-! ## §1 Stored values -/

/-- The values that fields may hold: no truth values, and only finite numbers, without a sign on zero. -/
def Value.Stored : Value → Prop
  | .null | .text _ => True
  | .number x => Decimal.isFinite x = true ∧ ((x == 0.0) = true → x = 0.0)
  | .bool _ => False

theorem Field.Admits.stored {f : Field} {v : Value} (h : f.Admits v) : v.Stored := by
  cases v with
  | number x => exact h.2
  | bool b => exact h
  | _ => trivial

namespace Value

/-- The kind of a value: nothing, a number, or a text. -/
def kind : Value → Nat
  | .null => 0
  | .number _ | .bool _ => 1
  | .text _ => 2

/-- The place of a number in the order of numbers. -/
def place : Value → Int
  | .number x => Decimal.place x
  | _ => 0

/-- The characters of a text. -/
def letters : Value → String
  | .text s => s
  | _ => ""

/-- The order of values, by kind, by size and by characters. -/
def order : Value → Value → Ordering :=
  compareLex (compareOn kind) (compareLex (compareOn place) (compareOn letters))

instance : Std.TransCmp order :=
  inferInstanceAs (Std.TransCmp (compareLex (compareOn kind) (compareLex (compareOn place) (compareOn letters))))

variable {a b c : Value}

theorem order_eq_iff (ha : a.Stored) (hb : b.Stored) : order a b = .eq ↔ a = b := by
  constructor
  · intro h
    simp only [order, compareLex, compareOn, Ordering.then_eq_eq, Std.LawfulEqCmp.compare_eq_iff_eq] at h
    obtain ⟨hkind, hplace, hletters⟩ := h
    cases a <;> cases b <;> try first | exact ha.elim | exact hb.elim
    case null.null => rfl
    case number.number x y => rw [Decimal.eq_of_place_eq ha.2 hb.2 hplace]
    case text.text s t => exact congrArg text hletters
    all_goals cases hkind
  · rintro rfl
    exact Std.ReflCmp.compare_self

/-- Data of stored values are ordered as the values. -/
theorem order_ofValue (ha : a.Stored) (hb : b.Stored) :
    (Sql.Datum.ofValue a).order (Sql.Datum.ofValue b) = order a b := by
  have hreal : ∀ {x}, (number x).Stored → Sql.Datum.ofValue (.number x) = .real x := by
    intro x hx
    rw [Sql.Datum.ofValue, Sql.Datum.ofFloat, Decimal.isNaN_of_isFinite hx.1]
    rfl
  cases a <;> cases b <;> try first | exact ha.elim | exact hb.elim
  case number.number x y =>
    rw [hreal ha, hreal hb, Sql.Datum.order, Decimal.compare?_eq ha.1 hb.1]
    simp [order, compareLex, compareOn, kind, place, letters]
  case text.text s t =>
    simp [Sql.Datum.ofValue, Sql.Datum.order, order, compareLex, compareOn, kind, place, letters]
  case null.number x => rw [hreal hb]; rfl
  case number.null x => rw [hreal ha]; rfl
  case number.text x t => rw [hreal ha]; rfl
  case text.number t x => rw [hreal hb]; rfl
  all_goals rfl

end Value

/-! ## §2 Rows without repetitions -/

namespace Sql

variable {α : Type} {cells : α → List Datum} {rows : List α}

/-- Whether two rows have equal cells. -/
def SameCells (cells : α → List Datum) (k r : α) : Prop :=
  (((cells k).zip (cells r)).all fun p => p.1.order p.2 == .eq) = true

theorem distinctRows_concat (cells : α → List Datum) (rows : List α) (r : α) :
    ((∃ k ∈ distinctRows cells rows, SameCells cells k r)
      ∧ distinctRows cells (rows ++ [r]) = distinctRows cells rows) ∨
    ((∀ k ∈ distinctRows cells rows, ¬SameCells cells k r)
      ∧ distinctRows cells (rows ++ [r]) = distinctRows cells rows ++ [r]) := by
  have hstep : distinctRows cells (rows ++ [r]) = if (distinctRows cells rows).any fun k =>
      ((cells k).zip (cells r)).all fun p => p.1.order p.2 == .eq then distinctRows cells rows
      else distinctRows cells rows ++ [r] := by
    rw [distinctRows, List.foldl_append]
    rfl
  rw [hstep]
  split
  · rename_i hany
    exact .inl ⟨List.any_eq_true.mp hany, rfl⟩
  · rename_i hnone
    refine .inr ⟨fun k hk hsame => hnone (List.any_eq_true.mpr ⟨k, hk, hsame⟩), rfl⟩

theorem distinctRows_sublist (cells : α → List Datum) (rows : List α) : (distinctRows cells rows).Sublist rows := by
  induction rows using List.reverseRecOn with
  | nil => exact .refl _
  | append_singleton rows r ih =>
    rcases distinctRows_concat cells rows r with ⟨_, heq⟩ | ⟨_, heq⟩ <;> rw [heq]
    · exact ih.trans (List.sublist_append_left _ _)
    · exact ih.append (.refl _)

theorem distinctRows_pairwise (cells : α → List Datum) (rows : List α) :
    (distinctRows cells rows).Pairwise fun k r => ¬SameCells cells k r := by
  induction rows using List.reverseRecOn with
  | nil => exact .nil
  | append_singleton rows r ih =>
    rcases distinctRows_concat cells rows r with ⟨_, heq⟩ | ⟨hfresh, heq⟩ <;> rw [heq]
    · exact ih
    · exact List.pairwise_append.mpr ⟨ih, List.pairwise_singleton _ _, fun k hk r' hr' =>
        List.mem_singleton.mp hr' ▸ hfresh k hk⟩

theorem exists_distinctRows (cells : α → List Datum) {r : α} (hr : r ∈ rows) :
    r ∈ distinctRows cells rows ∨ ∃ k ∈ distinctRows cells rows, SameCells cells k r := by
  induction rows using List.reverseRecOn with
  | nil => cases hr
  | append_singleton rows last ih =>
    rcases distinctRows_concat cells rows last with ⟨hsame, heq⟩ | ⟨_, heq⟩ <;> rw [heq]
    · rcases List.mem_append.mp hr with hold | hlast
      · exact ih hold
      · exact .inr (List.mem_singleton.mp hlast ▸ hsame)
    · rcases List.mem_append.mp hr with hold | hlast
      · rcases ih hold with hmem | ⟨k, hk, hsame⟩
        · exact .inl (List.mem_append_left _ hmem)
        · exact .inr ⟨k, List.mem_append_left _ hk, hsame⟩
      · exact .inl (List.mem_append_right _ hlast)

end Sql

namespace Value

theorem sameCells_iff {k r : Value} (hk : k.Stored) (hr : r.Stored) :
    Sql.SameCells (fun v => [Sql.Datum.ofValue v]) k r ↔ k = r := by
  rw [← order_eq_iff hk hr, ← order_ofValue hk hr]
  simp [Sql.SameCells]

/-- Sorted values without those that equal an earlier one ascend strictly, and no value is missing. -/
theorem distinctRows_sorted {rows : List Value} (hstored : ∀ v ∈ rows, v.Stored)
    (hsorted : rows.Pairwise fun a b => order a b ≠ .gt) :
    (Sql.distinctRows (fun v => [Sql.Datum.ofValue v]) rows).Pairwise (fun a b => order a b = .lt)
      ∧ ∀ v, v ∈ Sql.distinctRows (fun v => [Sql.Datum.ofValue v]) rows ↔ v ∈ rows := by
  have hsub := Sql.distinctRows_sublist (fun v => [Sql.Datum.ofValue v]) rows
  have hheld : ∀ v ∈ Sql.distinctRows (fun v => [Sql.Datum.ofValue v]) rows, v.Stored := fun v hv =>
    hstored v (hsub.subset hv)
  refine ⟨?_, fun v => ⟨fun hv => hsub.subset hv, fun hv => ?_⟩⟩
  · refine ((hsorted.sublist hsub).and (Sql.distinctRows_pairwise _ rows)).imp_of_mem ?_
    rintro a b ha hb ⟨hle, hne⟩
    rw [sameCells_iff (hheld a ha) (hheld b hb), ← order_eq_iff (hheld a ha) (hheld b hb)] at hne
    cases hab : order a b with
    | lt => rfl
    | eq => exact (hne hab).elim
    | gt => exact (hle hab).elim
  · rcases Sql.exists_distinctRows (fun v => [Sql.Datum.ofValue v]) hv with hmem | ⟨k, hk, hsame⟩
    · exact hmem
    · rw [sameCells_iff (hheld k hk) (hstored v hv)] at hsame
      exact hsame ▸ hk

end Value

end BenchPlot
