import BenchPlot.Value.AxisKey
import Mathlib.Data.String.Basic
import Mathlib.Order.Compare

/-!
# The order of positions along an axis

Positions are compared by their kind, then as numbers, then as texts. So the order of the keys of an axis is
total, and keys are equal exactly if their values have one position.

Main statement: `AxisKey.compare_eq_iff`.
-/

namespace BenchPlot

namespace AxisPlace

/-- The number at a place. -/
def numeral : AxisPlace → Int
  | .number key => key
  | _ => 0

/-- The text at a place. -/
def letters : AxisPlace → String
  | .text s => s
  | _ => ""

theorem compareText_eq (s t : String) : compareText s t = Ord.compare s t := by
  rcases lt_trichotomy s t with hlt | rfl | hgt
  · rw [compareText, if_pos hlt, compare_lt_iff_lt.mpr hlt]
  · rw [compareText, if_neg (lt_irrefl s), if_neg (lt_irrefl s), compare_eq_iff_eq.mpr rfl]
  · rw [compareText, if_neg hgt.not_gt, if_pos hgt, compare_gt_iff_gt.mpr hgt]

/-- Places are compared by kind, by number and by text. -/
theorem compare_eq_lex (a b : AxisPlace) : a.compare b
    = compareLex (compareOn rank) (compareLex (compareOn numeral) (compareOn letters)) a b := by
  cases a <;> cases b <;>
    simp [compare, compareText_eq, compareLex, compareOn, rank, numeral, letters, Nat.compare_eq_lt.mpr,
      Nat.compare_eq_gt.mpr]

theorem compare_eq_iff {a b : AxisPlace} : a.compare b = .eq ↔ a = b := by
  rw [compare_eq_lex]
  constructor
  · intro h
    simp only [compareLex, compareOn, Ordering.then_eq_eq, Std.LawfulEqCmp.compare_eq_iff_eq] at h
    obtain ⟨hrank, hnumeral, hletters⟩ := h
    cases a <;> cases b
    case start.start => rfl
    case number.number x y => exact congrArg number hnumeral
    case text.text s t => exact congrArg text hletters
    all_goals cases hrank
  · rintro rfl
    exact Std.ReflCmp.compare_self

end AxisPlace

namespace AxisKey

/-- The place of the value of a key. -/
def place (k : AxisKey) : AxisPlace :=
  k.value.axisPlace

theorem compare_eq_lex : (compare : AxisKey → AxisKey → Ordering)
    = compareLex (compareOn fun k => k.place.rank)
        (compareLex (compareOn fun k => k.place.numeral) (compareOn fun k => k.place.letters)) :=
  funext fun a => funext fun b => AxisPlace.compare_eq_lex a.place b.place

instance : Std.TransOrd AxisKey := by
  show Std.TransCmp (compare : AxisKey → AxisKey → Ordering)
  rw [compare_eq_lex]
  infer_instance

/-- Keys are equal exactly if their values have one position. -/
theorem compare_eq_iff {a b : AxisKey} : compare a b = .eq ↔ a.place = b.place :=
  AxisPlace.compare_eq_iff

end AxisKey

end BenchPlot
