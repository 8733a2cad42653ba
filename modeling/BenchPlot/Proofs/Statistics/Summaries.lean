import BenchPlot.Layout.Basic
import BenchPlot.Proofs.Decimal.ZeroSigns
import BenchPlot.Proofs.Statistics.Bounds

/-!
# Summaries of a bucket

How many values a bucket has, which of them is the greatest and the least, their range and their median do not depend on
the order of the rows that they come from: in the floats that the program computes with, all that the order can change is
the sign of a zero, and no text shows that. The greatest and the least value are extremes indeed, and the range of
numbers is their difference.

Main statement: `Aggregation.summaries_apply`.
-/

namespace BenchPlot

open Decimal (place SameNumber sameNumber_of_place lt_iff_place compare?_places place_mono place_mem_Icc)

/-! ## §1 Samples of floats -/

/-- A sample of numbers, the infinities among them. -/
def IsSample (xs : List Float) : Prop :=
  ∀ x ∈ xs, x.isNaN = false

/-- An operation that keeps one of two numbers, and keeps it by their places. -/
structure KeepsByPlace (f : Float → Float → Float) (op : Int → Int → Int) : Prop where
  number : ∀ {x y}, x.isNaN = false → y.isNaN = false → (f x y).isNaN = false
  place : ∀ {x y}, x.isNaN = false → y.isNaN = false → place (f x y) = op (place x) (place y)

theorem keepsByPlace_lesser : KeepsByPlace Decimal.lesser min where
  number {x y} hx hy := by
    unfold Decimal.lesser
    rw [if_neg (ne_true_of_eq_false hx)]
    split <;> assumption
  place {x y} hx hy := by
    unfold Decimal.lesser
    rw [if_neg (ne_true_of_eq_false hx)]
    split
    · rename_i hlt
      exact (min_eq_right ((lt_iff_place hy hx).mp hlt).le).symm
    · rename_i hle
      exact (min_eq_left (not_lt.mp (mt (lt_iff_place hy hx).mpr hle))).symm

theorem keepsByPlace_greaterOf : KeepsByPlace Decimal.greaterOf max where
  number {x y} hx hy := by
    unfold Decimal.greaterOf
    rw [if_neg (ne_true_of_eq_false hx)]
    split <;> assumption
  place {x y} hx hy := by
    unfold Decimal.greaterOf
    rw [if_neg (ne_true_of_eq_false hx)]
    split
    · rename_i hlt
      exact (max_eq_right ((lt_iff_place hx hy).mp hlt).le).symm
    · rename_i hle
      exact (max_eq_left (not_lt.mp (mt (lt_iff_place hx hy).mpr hle))).symm

/-- Folding an operation for which `b` absorbs everything else gives `b`, if it is there. -/
theorem foldl_eq_of_absorbs {op : Int → Int → Int} [Std.Associative op] {b : Int} {l : List Int}
    (hl : ∀ c ∈ l, op b c = b ∧ op c b = b) {a : Int} (ha : op a b = b) (hb : b ∈ l) : l.foldl op a = b := by
  have hfixed : ∀ l : List Int, (∀ c ∈ l, op b c = b ∧ op c b = b) → l.foldl op b = b := by
    intro l hl
    induction l with
    | nil => rfl
    | cons c rest ih =>
      obtain ⟨hc, hrest⟩ := List.forall_mem_cons.mp hl
      rw [List.foldl_cons, hc.1, ih hrest]
  induction l generalizing a with
  | nil => cases hb
  | cons c rest ih =>
    obtain ⟨hc, hrest⟩ := List.forall_mem_cons.mp hl
    rw [List.foldl_cons]
    rcases List.mem_cons.mp hb with rfl | hb
    · rw [ha, hfixed rest hrest]
    · have hkept : op (op a c) b = b :=
        calc op (op a c) b = op a (op c b) := Std.Associative.assoc a c b
          _ = b := by rw [hc.2, ha]
      exact ih hrest hkept hb

namespace KeepsByPlace

variable {f : Float → Float → Float} {op : Int → Int → Int} {xs ys : List Float} {start : Float}

/-- What is kept of a sample is kept by the places of its numbers. -/
theorem place_foldl (hf : KeepsByPlace f op) (hxs : IsSample xs) (hstart : start.isNaN = false) :
    Decimal.place (xs.foldl f start) = (xs.map Decimal.place).foldl op (Decimal.place start) := by
  induction xs generalizing start with
  | nil => rfl
  | cons x rest ih =>
    obtain ⟨hx, hrest⟩ := List.forall_mem_cons.mp hxs
    rw [List.foldl_cons, List.map_cons, List.foldl_cons, ih hrest (hf.number hstart hx), hf.place hstart hx]

/-- The same number is kept, whatever order the numbers of a sample come in. -/
theorem sameNumber_of_perm [Std.Commutative op] [Std.Associative op] (hf : KeepsByPlace f op) (h : xs.Perm ys)
    (hxs : IsSample xs) (hstart : start.isNaN = false) : SameNumber (xs.foldl f start) (ys.foldl f start) := by
  have hys : IsSample ys := fun y hy => hxs y (h.mem_iff.mpr hy)
  refine sameNumber_of_place ?_
  rw [hf.place_foldl hxs hstart, hf.place_foldl hys hstart]
  exact (h.map Decimal.place).foldl_op_eq

/-- A number of a sample that is kept beside every other one is what is kept of the sample. -/
theorem sameNumber_of_absorbs [Std.Associative op] (hf : KeepsByPlace f op) (hxs : IsSample xs)
    (hstart : start.isNaN = false) {x : Float} (hx : x ∈ xs)
    (habsorbs : ∀ y, y ∈ xs ∨ y = start → op (Decimal.place x) (Decimal.place y) = Decimal.place x
      ∧ op (Decimal.place y) (Decimal.place x) = Decimal.place x) :
    SameNumber (xs.foldl f start) x := by
  refine sameNumber_of_place ((hf.place_foldl hxs hstart).trans
    (foldl_eq_of_absorbs (fun c hc => ?_) (habsorbs start (.inr rfl)).2 (List.mem_map_of_mem hx)))
  obtain ⟨y, hy, rfl⟩ := List.mem_map.mp hc
  exact habsorbs y (.inl hy)

end KeepsByPlace

namespace Statistics

variable {xs ys : List Float}

theorem sameNumber_least (h : xs.Perm ys) (hxs : IsSample xs) :
    SameNumber (Arithmetic.least xs) (Arithmetic.least ys) :=
  keepsByPlace_lesser.sameNumber_of_perm h hxs rfl

theorem sameNumber_greatest (h : xs.Perm ys) (hxs : IsSample xs) :
    SameNumber (Arithmetic.greatest xs) (Arithmetic.greatest ys) :=
  keepsByPlace_greaterOf.sameNumber_of_perm h hxs rfl

/-- A number of a sample that none is below is the least one. -/
theorem sameNumber_least_of_le (hxs : IsSample xs) {x : Float} (hx : x ∈ xs) (hle : ∀ y ∈ xs, place x ≤ place y) :
    SameNumber (Arithmetic.least xs) x := by
  refine keepsByPlace_lesser.sameNumber_of_absorbs hxs rfl hx fun y hy => ?_
  have hxy : place x ≤ place y := by
    rcases hy with hy | rfl
    · exact hle y hy
    · exact (place_mem_Icc (hxs x hx)).2
  exact ⟨min_eq_left hxy, min_eq_right hxy⟩

/-- A number of a sample that none is above is the greatest one. -/
theorem sameNumber_greatest_of_le (hxs : IsSample xs) {x : Float} (hx : x ∈ xs)
    (hle : ∀ y ∈ xs, place y ≤ place x) : SameNumber (Arithmetic.greatest xs) x := by
  refine keepsByPlace_greaterOf.sameNumber_of_absorbs hxs rfl hx fun y hy => ?_
  have hxy : place y ≤ place x := by
    rcases hy with hy | rfl
    · exact hle y hy
    · exact (place_mem_Icc (hxs x hx)).1
  exact ⟨max_eq_left hxy, max_eq_right hxy⟩

/-- The numbers of a sample in order have their places in order. -/
theorem map_place_sorted (hxs : IsSample xs) :
    (sorted xs).map place = (xs.map place).mergeSort (fun a b => decide (a ≤ b)) := by
  refine List.map_mergeSort fun x hx y hy => ?_
  show (!decide (y < x)) = decide (place x ≤ place y)
  rw [← decide_not, decide_eq_decide, lt_iff_place (hxs y hy) (hxs x hx), not_lt]

/-- Whatever order the numbers of a sample come in, the same number stands at each position of their order. -/
theorem sameNumber_sorted (h : xs.Perm ys) (hxs : IsSample xs) (n : Nat) :
    Option.Rel SameNumber (sorted xs)[n]? (sorted ys)[n]? := by
  have hys : IsSample ys := fun y hy => hxs y (h.mem_iff.mpr hy)
  have hplaces : (sorted xs).map place = (sorted ys).map place := by
    have htrans : ∀ a b c : Int, decide (a ≤ b) = true → decide (b ≤ c) = true → decide (a ≤ c) = true := by
      intro a b c
      simpa using Int.le_trans
    have htotal : ∀ a b : Int, (decide (a ≤ b) || decide (b ≤ a)) = true := by
      intro a b
      simpa using Int.le_total a b
    rw [map_place_sorted hxs, map_place_sorted hys]
    refine List.Perm.eq_of_pairwise (fun a b _ _ hab hba => ?_) (List.pairwise_mergeSort htrans htotal _)
      (List.pairwise_mergeSort htrans htotal _)
      (((List.mergeSort_perm _ _).trans (h.map place)).trans (List.mergeSort_perm _ _).symm)
    exact Int.le_antisymm (of_decide_eq_true hab) (of_decide_eq_true hba)
  have hplace := congrArg (·[n]?) hplaces
  simp only [List.getElem?_map] at hplace
  cases hx : (sorted xs)[n]? with
  | none =>
    rw [hx] at hplace
    rw [Option.map_eq_none_iff.mp hplace.symm]
    exact .none
  | some x =>
    rw [hx] at hplace
    obtain ⟨y, hy, hxy⟩ := Option.map_eq_some_iff.mp hplace.symm
    rw [hy]
    exact .some (sameNumber_of_place hxy.symm)

/-- So the median is the same number; the sum of the two middle ones may be a zero of any sign. -/
theorem sameNumber_median? (h : xs.Perm ys) (hxs : IsSample xs) :
    Option.Rel SameNumber (median? xs) (median? ys) := by
  have hmiddle := sameNumber_sorted h hxs
  unfold median?
  rw [← h.length_eq]
  dsimp only
  split
  · exact hmiddle _
  · have hlow := hmiddle (xs.length / 2 - 1)
    have hhigh := hmiddle (xs.length / 2)
    generalize (sorted xs)[xs.length / 2 - 1]? = low, (sorted ys)[xs.length / 2 - 1]? = low' at hlow ⊢
    generalize (sorted xs)[xs.length / 2]? = high, (sorted ys)[xs.length / 2]? = high' at hhigh ⊢
    cases hlow with
    | none => cases hhigh <;> exact .none
    | some hlow =>
      cases hhigh with
      | none => exact .none
      | some hhigh => exact .some ((hlow.add hhigh).div _)

/-- There are statistics of all numbers but of none. -/
theorem exists_statistics {α : Type} [Arithmetic α] {xs : List α} (h : xs ≠ []) :
    ∃ average middle spread, mean? xs = some average ∧ median? xs = some middle ∧ deviation? xs = some spread := by
  obtain ⟨x, rest, rfl⟩ := List.exists_cons_of_ne_nil h
  have hmiddle : ∃ middle, median? (x :: rest) = some middle := by
    have hlength : (sorted (x :: rest)).length = rest.length + 1 := List.length_mergeSort _
    unfold median?
    dsimp only
    rw [List.length_cons]
    split
    · exact ⟨_, List.getElem?_eq_getElem (by omega)⟩
    · rw [List.getElem?_eq_getElem (by omega), List.getElem?_eq_getElem (by omega)]
      exact ⟨_, rfl⟩
  obtain ⟨middle, hmiddle⟩ := hmiddle
  cases rest with
  | nil => exact ⟨_, middle, _, rfl, hmiddle, rfl⟩
  | cons y rest => exact ⟨_, middle, _, rfl, hmiddle, rfl⟩

end Statistics

/-! ## §2 Triples and their texts -/

/-- The texts that show a triple. -/
def Triple.texts (t : Triple (Reduced Float)) : Triple String :=
  ⟨t.value.toValue.display, t.low.toValue.display, t.high.toValue.display⟩

theorem texts_number {x y : Float} (h : SameNumber x y) :
    (Triple.number x).texts = (Triple.number y).texts :=
  congrArg Triple.flat h.numberText_eq

theorem texts_spread {x x' low low' high high' : Float} (h : SameNumber x x') (hlow : SameNumber low low')
    (hhigh : SameNumber high high') : (Triple.spread x low high).texts = (Triple.spread x' low' high').texts := by
  show Triple.mk (numberText x) (numberText low) (numberText high) = _
  rw [h.numberText_eq, hlow.numberText_eq, hhigh.numberText_eq]
  rfl

namespace Aggregation

theorem reduceNumbers_range {xs : List Float} (h : xs ≠ []) :
    reduceNumbers .range xs = some (.number (Arithmetic.greatest xs - Arithmetic.least xs)) := by
  obtain ⟨_, _, _, haverage, hmiddle, hspread⟩ := Statistics.exists_statistics h
  unfold reduceNumbers
  rw [haverage, hmiddle, hspread]

theorem reduceNumbers_median (xs : List Float) : reduceNumbers .median xs
    = (Statistics.median? xs).map fun middle => .spread middle (Arithmetic.least xs) (Arithmetic.greatest xs) := by
  cases xs with
  | nil =>
    have hnone : Statistics.median? ([] : List Float) = none := by simp [Statistics.median?, Statistics.sorted]
    rw [hnone]
    rfl
  | cons x rest =>
    obtain ⟨_, _, _, haverage, hmiddle, hspread⟩ := Statistics.exists_statistics (List.cons_ne_nil x rest)
    unfold reduceNumbers
    rw [haverage, hmiddle, hspread]
    rfl

/-- The range and the median of a sample show the same texts, whatever order its numbers come in. -/
theorem texts_reduceNumbers {xs ys : List Float} (h : xs.Perm ys) (hxs : IsSample xs) {a : Aggregation}
    (ha : a = .range ∨ a = .median) :
    (reduceNumbers a xs).map Triple.texts = (reduceNumbers a ys).map Triple.texts := by
  have hleast := Statistics.sameNumber_least h hxs
  have hgreatest := Statistics.sameNumber_greatest h hxs
  rcases ha with rfl | rfl
  · cases xs with
    | nil => rw [h.nil_eq]
    | cons x rest =>
      have hys : ys ≠ [] := fun hnil => List.cons_ne_nil x rest (h.trans (hnil ▸ .refl _)).eq_nil
      rw [reduceNumbers_range (List.cons_ne_nil x rest), reduceNumbers_range hys]
      exact congrArg some (texts_number (hgreatest.sub hleast))
  · rw [reduceNumbers_median, reduceNumbers_median, Option.map_map, Option.map_map]
    have hmedian := Statistics.sameNumber_median? h hxs
    generalize Statistics.median? xs = middle, Statistics.median? ys = middle' at hmedian
    cases hmedian with
    | none => rfl
    | some hmiddle => exact congrArg some (texts_spread hmiddle hleast hgreatest)

/-! ## §3 Extremes -/

section Extremes

variable {κ : Type} [LinearOrder κ] {wanted : Ordering}

theorem compare_ne_trans (hwanted : wanted ≠ .eq) {a b c : κ} (hab : compare a b ≠ wanted)
    (hbc : compare b c ≠ wanted) : compare a c ≠ wanted := by
  cases wanted with
  | eq => exact absurd rfl hwanted
  | lt =>
    rw [Ne, compare_lt_iff_lt, not_lt] at *
    exact hbc.trans hab
  | gt =>
    rw [Ne, compare_gt_iff_gt, not_lt] at *
    exact hab.trans hbc

theorem compare_ne_of_eq (hwanted : wanted ≠ .eq) {a b : κ} (h : compare a b = wanted) : compare b a ≠ wanted := by
  cases wanted with
  | eq => exact absurd rfl hwanted
  | lt =>
    rw [compare_lt_iff_lt] at h
    rw [Ne, compare_lt_iff_lt]
    exact h.not_gt
  | gt =>
    rw [compare_gt_iff_gt] at h
    rw [Ne, compare_gt_iff_gt]
    exact h.not_gt

theorem eq_of_compare_ne (hwanted : wanted ≠ .eq) {a b : κ} (hab : compare a b ≠ wanted)
    (hba : compare b a ≠ wanted) : a = b := by
  cases wanted with
  | eq => exact absurd rfl hwanted
  | lt =>
    rw [Ne, compare_lt_iff_lt, not_lt] at hab hba
    exact le_antisymm hba hab
  | gt =>
    rw [Ne, compare_gt_iff_gt, not_lt] at hab hba
    exact le_antisymm hab hba

/-- A number that is not before another one in the total order is not before it. -/
theorem compare_place_ne (hwanted : wanted ≠ .eq) {x y : Float}
    (h : compare (Decimal.orderKey x) (Decimal.orderKey y) ≠ wanted) : compare (place x) (place y) ≠ wanted := by
  cases wanted with
  | eq => exact absurd rfl hwanted
  | lt =>
    rw [Ne, compare_lt_iff_lt, not_lt] at *
    exact place_mono h
  | gt =>
    rw [Ne, compare_gt_iff_gt, not_lt] at *
    exact place_mono h

/-- The foremost of several values is one of them, and none of them is before it, if keys tell which one is. -/
theorem foremost_eq_some (hwanted : wanted ≠ .eq) {key : Value → κ} {exceeds : Value → Value → Bool}
    {values : List Value}
    (hexceeds : ∀ v ∈ values, ∀ w ∈ values, exceeds v w = (compare (key v) (key w) == wanted))
    {best : Value} (h : foremost exceeds values = some best) :
    best ∈ values ∧ ∀ v ∈ values, compare (key v) (key best) ≠ wanted := by
  -- Along the fold: the best value so far takes the place of all that have been seen.
  have hfold : ∀ (rest : List Value) (seen : Value), (∀ v ∈ seen :: rest, v ∈ values) →
      rest.foldl (fun best w => if exceeds w best then w else best) seen ∈ seen :: rest
        ∧ ∀ v ∈ seen :: rest, compare (key v)
          (key (rest.foldl (fun best w => if exceeds w best then w else best) seen)) ≠ wanted := by
    intro rest
    induction rest with
    | nil =>
      intro seen _
      refine ⟨List.mem_singleton.mpr rfl, fun v hv => ?_⟩
      rw [List.mem_singleton.mp hv, List.foldl_nil, compare_eq_iff_eq.mpr rfl]
      exact hwanted.symm
    | cons w rest ih =>
      intro seen hmem
      obtain ⟨hseen, hw, hrest⟩ : seen ∈ values ∧ w ∈ values ∧ ∀ v ∈ rest, v ∈ values := by simpa using hmem
      rw [List.foldl_cons]
      cases hcase : exceeds w seen with
      | true =>
        obtain ⟨hbest, hnone⟩ := ih w (List.forall_mem_cons.mpr ⟨hw, hrest⟩)
        rw [if_pos rfl]
        refine ⟨List.mem_cons_of_mem _ hbest, List.forall_mem_cons.mpr ⟨?_, hnone⟩⟩
        rw [hexceeds w hw seen hseen, beq_iff_eq] at hcase
        exact compare_ne_trans hwanted (compare_ne_of_eq hwanted hcase) (hnone w (List.mem_cons_self ..))
      | false =>
        obtain ⟨hbest, hnone⟩ := ih seen (List.forall_mem_cons.mpr ⟨hseen, hrest⟩)
        obtain ⟨hfirst, hothers⟩ := List.forall_mem_cons.mp hnone
        rw [if_neg Bool.false_ne_true]
        rw [hexceeds w hw seen hseen, beq_eq_false_iff_ne] at hcase
        refine ⟨?_, List.forall_mem_cons.mpr ⟨hfirst, List.forall_mem_cons.mpr
          ⟨compare_ne_trans hwanted hcase hfirst, hothers⟩⟩⟩
        rcases List.mem_cons.mp hbest with hbest | hbest
        · exact List.mem_cons.mpr (.inl hbest)
        · exact List.mem_cons_of_mem _ (List.mem_cons_of_mem _ hbest)
  cases values with
  | nil => cases h
  | cons v rest =>
    obtain rfl := Option.some.inj h
    exact hfold rest v fun _ hv => hv

end Extremes

variable {wanted : Ordering} {values : List Value}

theorem exists_number_of_isNumeric {v : Value} (h : v.isNumeric = true) : ∃ x, v.toNumber? = some x := by
  cases v with
  | null => cases h
  | number x => exact ⟨x, rfl⟩
  | text s => exact Option.isSome_iff_exists.mp h
  | bool b => cases h

theorem exists_foremost (exceeds : Value → Value → Bool) (h : values ≠ []) :
    ∃ best, foremost exceeds values = some best := by
  obtain ⟨v, rest, rfl⟩ := List.exists_cons_of_ne_nil h
  exact ⟨_, rfl⟩

/-- Where all values are numbers, the extreme one is the number of one of them that none is before. -/
theorem exists_extreme_number (hwanted : wanted ≠ .eq) (hfull : values ≠ [])
    (hnumeric : ∀ v ∈ values, v.isNumeric = true) : ∃ v ∈ values, ∃ x, v.toNumber? = some x
      ∧ extreme wanted values = some (.flat (.given (.number x)) : Triple (Reduced Float))
      ∧ ∀ w ∈ values, ∀ y, w.toNumber? = some y → compare (Decimal.orderKey y) (Decimal.orderKey x) ≠ wanted := by
  obtain ⟨best, hbest⟩ := exists_foremost (fun v w => compareIn true v w == wanted) hfull
  have hkeys : ∀ v ∈ values, ∀ w ∈ values, (compareIn true v w == wanted)
      = (compare ((v.toNumber?.map Decimal.orderKey).getD 0) ((w.toNumber?.map Decimal.orderKey).getD 0) == wanted) := by
    intro v hv w hw
    obtain ⟨x, hx⟩ := exists_number_of_isNumeric (hnumeric v hv)
    obtain ⟨y, hy⟩ := exists_number_of_isNumeric (hnumeric w hw)
    rw [compareIn, if_pos rfl, hx, hy]
    rfl
  obtain ⟨hmem, hnone⟩ := foremost_eq_some hwanted hkeys hbest
  obtain ⟨x, hx⟩ := exists_number_of_isNumeric (hnumeric best hmem)
  refine ⟨best, hmem, x, hx, ?_, fun w hw y hy => ?_⟩
  · unfold extreme
    rw [List.all_eq_true.mpr hnumeric]
    dsimp only
    rw [hbest, Option.map_some, hx]
  · have hbefore := hnone w hw
    rw [hx, hy] at hbefore
    exact hbefore

/-- Where a value is no number, the extreme one is one of the values, and no text is before its text. -/
theorem exists_extreme_text (hwanted : wanted ≠ .eq) (htext : ∃ v ∈ values, v.isNumeric = false) :
    ∃ best ∈ values, extreme wanted values = some (.flat (.given best) : Triple (Reduced Float))
      ∧ ∀ w ∈ values, compare w.display best.display ≠ wanted := by
  obtain ⟨v, hv, hvtext⟩ := htext
  obtain ⟨best, hbest⟩ := exists_foremost (fun v w => compareIn false v w == wanted) (List.ne_nil_of_mem hv)
  have hkeys : ∀ v ∈ values, ∀ w ∈ values, (compareIn false v w == wanted) = (compare v.display w.display == wanted) :=
    fun v _ w _ => rfl
  obtain ⟨hmem, hnone⟩ := foremost_eq_some hwanted hkeys hbest
  refine ⟨best, hmem, ?_, hnone⟩
  have hsome : values.all Value.isNumeric = false := List.all_eq_false.mpr ⟨v, hv, ne_true_of_eq_false hvtext⟩
  unfold extreme
  rw [hsome]
  dsimp only
  rw [hbest]
  rfl

/-- The extreme value shows the same texts, whatever order the values come in. -/
theorem texts_extreme {others : List Value} (hwanted : wanted ≠ .eq) (h : values.Perm others) :
    (extreme wanted values).map Triple.texts = (extreme wanted others).map Triple.texts := by
  by_cases hfull : values = []
  · subst hfull
    rw [h.nil_eq]
  have hfull' : others ≠ [] := fun hnil => hfull (h.trans (hnil ▸ .refl _)).eq_nil
  by_cases hnumeric : ∀ v ∈ values, v.isNumeric = true
  · have hnumeric' : ∀ v ∈ others, v.isNumeric = true := fun v hv => hnumeric v (h.mem_iff.mpr hv)
    obtain ⟨v, hv, x, hx, hextreme, hnone⟩ := exists_extreme_number hwanted hfull hnumeric
    obtain ⟨w, hw, y, hy, hextreme', hnone'⟩ := exists_extreme_number hwanted hfull' hnumeric'
    -- Neither number is before the other one.
    have hkey := eq_of_compare_ne hwanted (hnone' v (h.mem_iff.mp hv) x hx) (hnone w (h.mem_iff.mpr hw) y hy)
    have hsame : SameNumber x y := sameNumber_of_place (le_antisymm (place_mono hkey.le) (place_mono hkey.ge))
    rw [hextreme, hextreme']
    exact congrArg some (congrArg Triple.flat hsame.numberText_eq)
  · have htext : ∃ v ∈ values, v.isNumeric = false := by simpa using hnumeric
    have htext' : ∃ v ∈ others, v.isNumeric = false := by
      obtain ⟨v, hv, hvtext⟩ := htext
      exact ⟨v, h.mem_iff.mp hv, hvtext⟩
    obtain ⟨v, hv, hextreme, hnone⟩ := exists_extreme_text hwanted htext
    obtain ⟨w, hw, hextreme', hnone'⟩ := exists_extreme_text hwanted htext'
    rw [hextreme, hextreme']
    exact congrArg some (congrArg Triple.flat
      (eq_of_compare_ne hwanted (hnone' v (h.mem_iff.mp hv)) (hnone w (h.mem_iff.mpr hw))))

/-! ## §4 Buckets -/

/-- The values of a bucket that are there. -/
def present (bucket : List Value) : List Value :=
  bucket.filter fun v => !v.isNull

/-- The numbers of a bucket. -/
def numbers (bucket : List Value) : List Float :=
  (present bucket).filterMap Value.toNumber?

/-- What a bucket is reduced to, as texts. -/
def textsOf (a : Aggregation) (bucket : List Value) : List (Triple String) :=
  (a.apply bucket : List (Triple (Reduced Float))).map Triple.texts

/-- Summaries are taken of the values that are there. -/
theorem apply_summaries (bucket : List Value) :
    (Aggregation.count.apply bucket : List (Triple (Reduced Float)))
        = (if (present bucket).length = 0 then [] else [.number (Arithmetic.ofNatural (present bucket).length)])
      ∧ (Aggregation.max.apply bucket : List (Triple (Reduced Float))) = (extreme .gt (present bucket)).toList
      ∧ (Aggregation.min.apply bucket : List (Triple (Reduced Float))) = (extreme .lt (present bucket)).toList
      ∧ ∀ a, a = .range ∨ a = .median →
        (a.apply bucket : List (Triple (Reduced Float))) = (reduceNumbers a (numbers bucket)).toList := by
  have hnumbers : (numbers bucket).map Arithmetic.ofFloat = numbers bucket := List.map_id _
  unfold apply
  rw [← hnumbers]
  unfold numbers present
  dsimp only
  cases hempty : bucket.filter fun v => !v.isNull with
  | nil =>
    refine ⟨rfl, rfl, rfl, fun a ha => ?_⟩
    rcases ha with rfl | rfl
    · rfl
    · rw [List.filterMap_nil, List.map_nil, reduceNumbers_median]
      simp [Statistics.median?, Statistics.sorted]
  | cons v rest =>
    refine ⟨rfl, rfl, rfl, fun a ha => ?_⟩
    rcases ha with rfl | rfl <;> rfl

/-- The aggregations that sum a bucket up by its values alone. -/
def summaries : List Aggregation :=
  [.count, .max, .min, .range, .median]

/-- A summary is one triple at most. -/
theorem length_textsOf_le_one {a : Aggregation} (ha : a ∈ summaries) (bucket : List Value) :
    (a.textsOf bucket).length ≤ 1 := by
  obtain ⟨hcount, hmax, hmin, hreduced⟩ := apply_summaries bucket
  have hshort : ∀ o : Option (Triple (Reduced Float)), (o.toList.map Triple.texts).length ≤ 1 := by
    intro o
    cases o <;> simp
  unfold textsOf
  fin_cases ha
  · rw [hcount]
    split <;> simp
  · exact hmax ▸ hshort _
  · exact hmin ▸ hshort _
  · exact hreduced _ (.inl rfl) ▸ hshort _
  · exact hreduced _ (.inr rfl) ▸ hshort _

/-- What is shown as the extreme value of a bucket: where all values are numbers, the number of one of them that none of
    them is before; otherwise one of the values, and no text of a value is before its text. -/
structure IsExtreme (wanted : Ordering) (bucket : List Value) (shown : Value) : Prop where
  number : (∀ v ∈ present bucket, v.isNumeric = true) → ∃ v ∈ present bucket, ∃ x, v.toNumber? = some x
    ∧ shown = .number x
    ∧ ∀ w ∈ present bucket, ∀ y, w.toNumber? = some y → ∃ o ≠ wanted, Decimal.compare? y x = some o
  text : (∃ v ∈ present bucket, v.isNumeric = false) → shown ∈ present bucket
    ∧ ∀ w ∈ present bucket, compare w.display shown.display ≠ wanted

section Buckets

variable {bucket : List Value} (hbucket : ∀ x, Value.number x ∈ bucket → x.isNaN = false)
include hbucket

/-- The numbers of a bucket are numbers, if it holds no value that is none. -/
theorem isNaN_of_mem_present {v : Value} (hv : v ∈ present bucket) {x : Float} (hx : v.toNumber? = some x) :
    x.isNaN = false := by
  cases v with
  | null => cases hx
  | number y =>
    obtain rfl := Option.some.inj hx
    exact hbucket y (List.mem_of_mem_filter hv)
  | text s => exact Decimal.isNaN_of_isFinite (isFinite_of_readNumber? hx)
  | bool b =>
    obtain rfl := Option.some.inj hx
    cases b <;> rfl

theorem isSample_numbers : IsSample (numbers bucket) := by
  intro x hx
  obtain ⟨v, hv, hvx⟩ := List.mem_filterMap.mp hx
  exact isNaN_of_mem_present hbucket hv hvx

theorem isExtreme_extreme {wanted : Ordering} (hwanted : wanted ≠ .eq) {t : Triple (Reduced Float)}
    (h : extreme wanted (present bucket) = some t) : t = .flat t.value ∧ IsExtreme wanted bucket t.value.toValue := by
  by_cases hnumeric : ∀ v ∈ present bucket, v.isNumeric = true
  · have hfull : present bucket ≠ [] := by
      intro hnil
      rw [hnil] at h
      cases h
    obtain ⟨v, hv, x, hx, hextreme, hnone⟩ := exists_extreme_number hwanted hfull hnumeric
    obtain rfl := Option.some.inj (h.symm.trans hextreme)
    refine ⟨rfl, fun _ => ⟨v, hv, x, hx, rfl, fun w hw y hy => ?_⟩, fun ⟨w, hw, htext⟩ => ?_⟩
    · refine ⟨_, ?_, compare?_places (isNaN_of_mem_present hbucket hw hy) (isNaN_of_mem_present hbucket hv hx)⟩
      exact compare_place_ne hwanted (hnone w hw y hy)
    · exact absurd (hnumeric w hw) (ne_true_of_eq_false htext)
  · have htext : ∃ v ∈ present bucket, v.isNumeric = false := by simpa using hnumeric
    obtain ⟨best, hbest, hextreme, hnone⟩ := exists_extreme_text hwanted htext
    obtain rfl := Option.some.inj (h.symm.trans hextreme)
    exact ⟨rfl, fun hall => absurd hall hnumeric, fun _ => ⟨hbest, hnone⟩⟩

/-- The range of numbers is their greatest one less their least one. -/
theorem exists_range (hfull : present bucket ≠ []) (hnumeric : ∀ v ∈ present bucket, v.isNumeric = true) :
    ∃ x y r : Float, extreme .gt (present bucket) = some (.flat (.given (.number x)) : Triple (Reduced Float))
      ∧ extreme .lt (present bucket) = some (.flat (.given (.number y)) : Triple (Reduced Float))
      ∧ reduceNumbers .range (numbers bucket) = some (.number r) ∧ SameNumber r (x - y) := by
  obtain ⟨v, hv, x, hx, hgreatest, hnone⟩ := exists_extreme_number (show Ordering.gt ≠ .eq by decide) hfull hnumeric
  obtain ⟨w, hw, y, hy, hleast, hnone'⟩ := exists_extreme_number (show Ordering.lt ≠ .eq by decide) hfull hnumeric
  have hsample := isSample_numbers hbucket
  have hmem : x ∈ numbers bucket := List.mem_filterMap.mpr ⟨v, hv, hx⟩
  have hmem' : y ∈ numbers bucket := List.mem_filterMap.mpr ⟨w, hw, hy⟩
  refine ⟨x, y, _, hgreatest, hleast, reduceNumbers_range (List.ne_nil_of_mem hmem), .sub ?_ ?_⟩
  · refine Statistics.sameNumber_greatest_of_le hsample hmem fun z hz => place_mono ?_
    obtain ⟨u, hu, huz⟩ := List.mem_filterMap.mp hz
    exact not_lt.mp (mt compare_gt_iff_gt.mpr (hnone u hu z huz))
  · refine Statistics.sameNumber_least_of_le hsample hmem' fun z hz => place_mono ?_
    obtain ⟨u, hu, huz⟩ := List.mem_filterMap.mp hz
    exact not_lt.mp (mt compare_lt_iff_lt.mpr (hnone' u hu z huz))

/-- The summaries of a bucket show the same texts, whatever order its values come in. -/
theorem textsOf_perm {a : Aggregation} (ha : a ∈ summaries) {others : List Value} (h : bucket.Perm others) :
    a.textsOf bucket = a.textsOf others := by
  have hpresent : (present bucket).Perm (present others) := h.filter _
  have hnumbers : (numbers bucket).Perm (numbers others) := hpresent.filterMap _
  have hsample := isSample_numbers hbucket
  obtain ⟨hcount, hmax, hmin, hreduced⟩ := apply_summaries bucket
  obtain ⟨hcount', hmax', hmin', hreduced'⟩ := apply_summaries others
  have hlist : ∀ {o o' : Option (Triple (Reduced Float))}, o.map Triple.texts = o'.map Triple.texts →
      o.toList.map Triple.texts = o'.toList.map Triple.texts := by
    intro o o' ho
    rw [← Option.toList_map, ho, Option.toList_map]
  unfold textsOf
  fin_cases ha
  · rw [hcount, hcount', hpresent.length_eq]
  · rw [hmax, hmax']
    exact hlist (texts_extreme (by decide) hpresent)
  · rw [hmin, hmin']
    exact hlist (texts_extreme (by decide) hpresent)
  · rw [hreduced _ (.inl rfl), hreduced' _ (.inl rfl)]
    exact hlist (texts_reduceNumbers hnumbers hsample (.inl rfl))
  · rw [hreduced _ (.inr rfl), hreduced' _ (.inr rfl)]
    exact hlist (texts_reduceNumbers hnumbers hsample (.inr rfl))

/-- The summaries of a bucket without what is not a number show the same texts, whatever order its values come in. What
    is shown as its greatest or its least value is one of its values, up to the form in which a number is written, and
    none of its values is beyond it. The range of numbers is the difference of the two. -/
theorem summaries_apply :
    (∀ a ∈ summaries, (a.textsOf bucket).length ≤ 1
        ∧ ∀ others, bucket.Perm others → a.textsOf bucket = a.textsOf others)
      ∧ (∀ t : Triple (Reduced Float), t ∈ Aggregation.max.apply bucket →
        t = .flat t.value ∧ IsExtreme .gt bucket t.value.toValue)
      ∧ (∀ t : Triple (Reduced Float), t ∈ Aggregation.min.apply bucket →
        t = .flat t.value ∧ IsExtreme .lt bucket t.value.toValue)
      ∧ (present bucket ≠ [] → (∀ v ∈ present bucket, v.isNumeric = true) → ∃ x y r : Float,
        Aggregation.max.apply bucket = [(.flat (.given (.number x)) : Triple (Reduced Float))]
          ∧ Aggregation.min.apply bucket = [(.flat (.given (.number y)) : Triple (Reduced Float))]
          ∧ Aggregation.range.apply bucket = [(.number r : Triple (Reduced Float))] ∧ SameNumber r (x - y)) := by
  obtain ⟨-, hmax, hmin, hreduced⟩ := apply_summaries bucket
  refine ⟨fun a ha => ⟨length_textsOf_le_one ha bucket, fun others => textsOf_perm hbucket ha⟩, fun t ht => ?_,
    fun t ht => ?_, fun hfull hnumeric => ?_⟩
  · rw [hmax] at ht
    exact isExtreme_extreme hbucket (by decide) (Option.mem_toList.mp ht)
  · rw [hmin] at ht
    exact isExtreme_extreme hbucket (by decide) (Option.mem_toList.mp ht)
  · obtain ⟨x, y, r, hgreatest, hleast, hrange, hsame⟩ := exists_range hbucket hfull hnumeric
    refine ⟨x, y, r, ?_, ?_, ?_, hsame⟩
    · rw [hmax, hgreatest]
      rfl
    · rw [hmin, hleast]
      rfl
    · rw [hreduced _ (.inl rfl), hrange]
      rfl

end Buckets

/-! A number, a text that is one, and nothing. -/

def sampleBucket : List Value :=
  [.text "10", .null, .number 9.0]

theorem summaries_sample :
    (∀ x, Value.number x ∈ sampleBucket → x.isNaN = false) ∧ sampleBucket.Perm sampleBucket.reverse
      ∧ (Aggregation.max.textsOf sampleBucket.reverse).map Triple.value = ["10"]
      ∧ Aggregation.median.textsOf sampleBucket = Aggregation.median.textsOf sampleBucket.reverse
      ∧ ∃ x y r : Float, Aggregation.max.apply sampleBucket = [(.flat (.given (.number x)) : Triple (Reduced Float))]
        ∧ Aggregation.min.apply sampleBucket = [(.flat (.given (.number y)) : Triple (Reduced Float))]
        ∧ Aggregation.range.apply sampleBucket = [(.number r : Triple (Reduced Float))] ∧ SameNumber r (x - y) := by
  have hbucket : ∀ x, Value.number x ∈ sampleBucket → x.isNaN = false := by
    intro x hx
    have hnine : x = 9.0 := by simpa [sampleBucket] using hx
    rw [hnine]
    rfl
  have hperm : sampleBucket.Perm sampleBucket.reverse := (List.reverse_perm _).symm
  obtain ⟨hsummaries, -, -, hrange⟩ := summaries_apply hbucket
  refine ⟨hbucket, hperm, ?_, (hsummaries .median (by decide)).2 _ hperm, hrange (by decide) (by decide)⟩
  rw [← (hsummaries .max (by decide)).2 _ hperm]
  decide +kernel

end Aggregation

end BenchPlot
