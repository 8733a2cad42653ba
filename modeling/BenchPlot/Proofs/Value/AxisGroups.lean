import BenchPlot.Proofs.Decimal.ReadBack
import BenchPlot.Proofs.Value.AxisOrder

/-!
# Groups of positions along an axis

Along an axis values stand in three groups: null, then numbers and their texts, then words, which are all other texts
and the truth values. Numbers are ordered by the total order of floats, words by their texts. So the order of all
values is total, and two of them have one position only if they are in one group and have one number or one text.

Main statement: `AxisKey.ordersValues`.
-/

namespace BenchPlot

/-! ## §1 The total order of floats -/

/-- No two floats have one place in the total order. -/
theorem Decimal.orderKey_injective : Function.Injective Decimal.orderKey := by
  intro x y h
  refine eq_of_toBits_eq (UInt64.toNat_inj.mp ?_)
  unfold orderKey at h
  dsimp only at h
  -- Places of negative floats are negative, and those of positive floats are not.
  split at h <;> split at h <;> omega

theorem Decimal.totalCompare_eq_iff {x y : Float} : totalCompare x y = .eq ↔ x = y := by
  rw [totalCompare, Std.LawfulEqCmp.compare_eq_iff_eq]
  exact orderKey_injective.eq_iff

/-! ## §2 Groups -/

namespace Value

/-- Whether a value stands behind all numbers along an axis: a truth value, or a text that is no number. -/
def isWord (v : Value) : Bool :=
  !v.isNull && !v.isNumeric

variable {v : Value}

theorem axisPlace_eq_start_iff : v.axisPlace = .start ↔ v.isNull = true := by
  cases v with
  | null => exact iff_of_true rfl rfl
  | number x => exact iff_of_false nofun nofun
  | bool b => exact iff_of_false nofun nofun
  | text s => cases hs : readNumber? s <;> simp [axisPlace, toNumber?, hs, isNull]

theorem axisPlace_eq_number_iff {key : Int} : v.axisPlace = .number key ↔
    v.isNumeric = true ∧ ∃ x, v.toNumber? = some x ∧ Decimal.orderKey x = key := by
  cases v with
  | null => exact iff_of_false nofun nofun
  | number x => simp [axisPlace, toNumber?, isNumeric]
  | bool b => exact iff_of_false nofun nofun
  | text s => cases hs : readNumber? s <;> simp [axisPlace, toNumber?, hs, isNumeric]

theorem axisPlace_eq_text_iff {s : String} : v.axisPlace = .text s ↔ v.isWord = true ∧ v.display = s := by
  cases v with
  | null => exact iff_of_false nofun nofun
  | number x => exact iff_of_false nofun nofun
  | bool b => simp [axisPlace, isWord, isNull, isNumeric]
  | text t => cases ht : readNumber? t <;> simp [axisPlace, toNumber?, ht, isWord, isNull, isNumeric, display]

theorem exists_toNumber?_of_isNumeric (h : v.isNumeric = true) : ∃ x, v.toNumber? = some x := by
  cases v with
  | number x => exact ⟨x, rfl⟩
  | text s => exact Option.isSome_iff_exists.mp h
  | null => cases h
  | bool b => cases h

end Value

/-! ## §3 The order of all values -/

namespace AxisKey

/-- The order of the values along an axis is total, and goes by groups. -/
structure OrdersValues : Prop where
  swap : ∀ a b : AxisKey, compare b a = (compare a b).swap
  /-- One value stands before the other or has its position, and no two of these at once. -/
  trichotomy : ∀ a b : AxisKey,
    (compare a b = .lt ∧ compare a b ≠ .eq ∧ compare b a ≠ .lt)
      ∨ (compare a b ≠ .lt ∧ compare a b = .eq ∧ compare b a ≠ .lt)
      ∨ (compare a b ≠ .lt ∧ compare a b ≠ .eq ∧ compare b a = .lt)
  ltTrans : ∀ a b c : AxisKey, compare a b = .lt → compare b c = .lt → compare a c = .lt
  leTrans : ∀ a b c : AxisKey, compare a b ≠ .gt → compare b c ≠ .gt → compare a c ≠ .gt
  sameEquivalence : Equivalence fun a b : AxisKey => compare a b = .eq
  /-- Values at one position stand in one order to all others. -/
  sameCompare : ∀ a a' b b' : AxisKey, compare a a' = .eq → compare b b' = .eq → compare a b = compare a' b'
  nullFirst : ∀ a b : AxisKey, a.value.isNull = true → b.value.isNull = false → compare a b = .lt
  wordLast : ∀ a b : AxisKey, a.value.isWord = false → b.value.isWord = true → compare a b = .lt
  numbers : ∀ a b : AxisKey, a.value.isNumeric = true → b.value.isNumeric = true →
    ∃ x y, a.value.toNumber? = some x ∧ b.value.toNumber? = some y ∧ compare a b = Decimal.totalCompare x y
  words : ∀ a b : AxisKey, a.value.isWord = true → b.value.isWord = true →
    compare a b = AxisPlace.compareText a.value.display b.value.display
  /-- Two values have one position iff both are null, or both are numeric and one number in the total order, or both
      are words and shown as one text. -/
  same : ∀ a b : AxisKey, compare a b = .eq ↔
    (a.value.isNull = true ∧ b.value.isNull = true)
      ∨ (a.value.isNumeric = true ∧ b.value.isNumeric = true ∧ ∃ x y, a.value.toNumber? = some x
        ∧ b.value.toNumber? = some y ∧ Decimal.totalCompare x y = .eq)
      ∨ (a.value.isWord = true ∧ b.value.isWord = true ∧ a.value.display = b.value.display)

variable {a b : AxisKey}

theorem compare_eq_places (a b : AxisKey) : compare a b = a.place.compare b.place := rfl

theorem place_of_isNull (h : a.value.isNull = true) : a.place = .start :=
  Value.axisPlace_eq_start_iff.mpr h

theorem place_of_toNumber? (h : a.value.isNumeric = true) {x : Float} (hx : a.value.toNumber? = some x) :
    a.place = .number (Decimal.orderKey x) :=
  Value.axisPlace_eq_number_iff.mpr ⟨h, x, hx, rfl⟩

theorem place_of_isWord (h : a.value.isWord = true) : a.place = .text a.value.display :=
  Value.axisPlace_eq_text_iff.mpr ⟨h, rfl⟩

/-- Values have one position iff they are in one group and have one number or one text. -/
theorem compare_eq_iff_groups : compare a b = .eq ↔
    (a.value.isNull = true ∧ b.value.isNull = true)
      ∨ (a.value.isNumeric = true ∧ b.value.isNumeric = true ∧ ∃ x y, a.value.toNumber? = some x
        ∧ b.value.toNumber? = some y ∧ Decimal.totalCompare x y = .eq)
      ∨ (a.value.isWord = true ∧ b.value.isWord = true ∧ a.value.display = b.value.display) := by
  rw [compare_eq_iff]
  constructor
  · intro h
    cases hb : b.place with
    | start =>
      exact .inl ⟨Value.axisPlace_eq_start_iff.mp (h.trans hb), Value.axisPlace_eq_start_iff.mp hb⟩
    | number key =>
      obtain ⟨hnumeric, x, hx, hkey⟩ := Value.axisPlace_eq_number_iff.mp (h.trans hb)
      obtain ⟨hnumeric', y, hy, rfl⟩ := Value.axisPlace_eq_number_iff.mp hb
      have hxy := Decimal.totalCompare_eq_iff.mpr (Decimal.orderKey_injective hkey)
      exact .inr (.inl ⟨hnumeric, hnumeric', x, y, hx, hy, hxy⟩)
    | text s =>
      obtain ⟨hword, htext⟩ := Value.axisPlace_eq_text_iff.mp (h.trans hb)
      obtain ⟨hword', rfl⟩ := Value.axisPlace_eq_text_iff.mp hb
      exact .inr (.inr ⟨hword, hword', htext⟩)
  · rintro (⟨ha, hb⟩ | ⟨ha, hb, x, y, hx, hy, hxy⟩ | ⟨ha, hb, htext⟩)
    · rw [place_of_isNull ha, place_of_isNull hb]
    · rw [place_of_toNumber? ha hx, place_of_toNumber? hb hy, Decimal.totalCompare_eq_iff.mp hxy]
    · rw [place_of_isWord ha, place_of_isWord hb, htext]

theorem compare_of_isNull (ha : a.value.isNull = true) (hb : b.value.isNull = false) : compare a b = .lt := by
  rw [compare_eq_places, place_of_isNull ha]
  cases hplace : b.place with
  | start =>
    have hnull := Value.axisPlace_eq_start_iff.mp hplace
    exact absurd (hb.symm.trans hnull) Bool.false_ne_true
  | number key => rfl
  | text s => rfl

theorem compare_of_isWord (ha : a.value.isWord = false) (hb : b.value.isWord = true) : compare a b = .lt := by
  rw [compare_eq_places, place_of_isWord hb]
  cases hplace : a.place with
  | start => rfl
  | number key => rfl
  | text s =>
    have hword := (Value.axisPlace_eq_text_iff.mp hplace).1
    exact absurd (ha.symm.trans hword) Bool.false_ne_true

/-- The values along an axis are in a total order by groups. -/
theorem ordersValues : OrdersValues where
  swap a b := Std.OrientedCmp.eq_swap
  trichotomy a b := by
    have hswap : compare b a = (compare a b).swap := Std.OrientedCmp.eq_swap
    rw [hswap]
    cases compare a b <;> simp
  ltTrans a b c := Std.TransCmp.lt_trans
  leTrans a b c := by
    simp only [ne_eq, ← Ordering.isLE_iff_ne_gt]
    exact Std.TransCmp.isLE_trans
  sameEquivalence := ⟨fun a => Std.ReflCmp.compare_self, Std.OrientedCmp.eq_symm, Std.TransCmp.eq_trans⟩
  sameCompare a a' b b' ha hb := (Std.TransCmp.congr_left ha).trans (Std.TransCmp.congr_right hb)
  nullFirst a b := compare_of_isNull
  wordLast a b := compare_of_isWord
  numbers a b ha hb := by
    obtain ⟨x, hx⟩ := Value.exists_toNumber?_of_isNumeric ha
    obtain ⟨y, hy⟩ := Value.exists_toNumber?_of_isNumeric hb
    refine ⟨x, y, hx, hy, ?_⟩
    rw [compare_eq_places, place_of_toNumber? ha hx, place_of_toNumber? hb hy]
    rfl
  words a b ha hb := by
    rw [compare_eq_places, place_of_isWord ha, place_of_isWord hb]
    rfl
  same a b := compare_eq_iff_groups

end AxisKey

end BenchPlot
