import Mathlib
import BenchPlot.Proofs.Statistics.ExactNumbers

/-!
# Statistics between their bounds

In exact numbers the mean and the median of a sample lie between its least and its greatest number, and neither its
deviation nor the width of its confidence interval is negative. So each triple that a bucket is reduced to has its value
between its bounds.

Main statement: `Aggregation.brackets_apply`.
-/

namespace BenchPlot

/-! ## §1 Intervals -/

section Intervals

variable {K : Type} [ExactField K] {low high x y : K}

/-- A number that is moved towards another one of an interval by a fraction of the distance stays in it. -/
theorem add_div_mem_Icc (hx : x ∈ Set.Icc low high) (hy : y ∈ Set.Icc low high) (seen : Nat) :
    x + (y - x) / ((seen + 1 : Nat) : K) ∈ Set.Icc low high := by
  obtain ⟨hlow, hhigh⟩ := hx
  obtain ⟨hlow', hhigh'⟩ := hy
  have hone : (1 : K) ≤ ((seen + 1 : Nat) : K) := by exact_mod_cast Nat.le_add_left 1 seen
  have hpositive : (0 : K) < ((seen + 1 : Nat) : K) := zero_lt_one.trans_le hone
  constructor
  · have hmove : low - x ≤ (y - x) / ((seen + 1 : Nat) : K) := by
      rw [le_div_iff₀ hpositive]
      nlinarith
    linarith
  · have hmove : (y - x) / ((seen + 1 : Nat) : K) ≤ high - x := by
      rw [div_le_iff₀ hpositive]
      nlinarith
    linarith

/-- The middle of two numbers of an interval is in it. -/
theorem middle_mem_Icc (hx : x ∈ Set.Icc low high) (hy : y ∈ Set.Icc low high) :
    (x + y) / ((2 : Nat) : K) ∈ Set.Icc low high := by
  obtain ⟨hlow, hhigh⟩ := hx
  obtain ⟨hlow', hhigh'⟩ := hy
  have htwo : (0 : K) < ((2 : Nat) : K) := by exact_mod_cast Nat.two_pos
  constructor
  · rw [le_div_iff₀ htwo]
    push_cast
    linarith
  · rw [div_le_iff₀ htwo]
    push_cast
    linarith

end Intervals

/-! ## §2 Statistics -/

namespace Statistics

variable {K : Type} [ExactNumbers K] {xs : List K} {low high : K}

theorem least_le {x : K} (h : x ∈ xs) : Arithmetic.least xs ≤ x := by
  show xs.min?.getD 0 ≤ x
  cases hmin : xs.min? with
  | none => rw [List.min?_eq_none_iff.mp hmin] at h; cases h
  | some m => exact (List.min?_eq_some_iff.mp hmin).2 x h

theorem le_greatest {x : K} (h : x ∈ xs) : x ≤ Arithmetic.greatest xs := by
  show x ≤ xs.max?.getD 0
  cases hmax : xs.max? with
  | none => rw [List.max?_eq_none_iff.mp hmax] at h; cases h
  | some m => exact (List.max?_eq_some_iff.mp hmax).2 x h

/-- All numbers of a sample lie between the least and the greatest. -/
theorem mem_Icc_of_mem {x : K} (h : x ∈ xs) : x ∈ Set.Icc (Arithmetic.least xs) (Arithmetic.greatest xs) :=
  ⟨least_le h, le_greatest h⟩

theorem runningMean_mem_Icc {mean : K} (hmean : mean ∈ Set.Icc low high) (seen : Nat)
    (h : ∀ x ∈ xs, x ∈ Set.Icc low high) : runningMean mean seen xs ∈ Set.Icc low high := by
  induction xs generalizing mean seen with
  | nil => exact hmean
  | cons x rest ih =>
    obtain ⟨hx, hrest⟩ := List.forall_mem_cons.mp h
    exact ih (add_div_mem_Icc hmean hx seen) (seen + 1) hrest

/-- The mean of numbers of an interval is in it. -/
theorem mean?_mem_Icc {mean : K} (h : ∀ x ∈ xs, x ∈ Set.Icc low high) (hmean : mean? xs = some mean) :
    mean ∈ Set.Icc low high := by
  cases xs with
  | nil => cases hmean
  | cons x rest =>
    obtain ⟨hx, hrest⟩ := List.forall_mem_cons.mp h
    obtain rfl := Option.some.inj hmean
    -- The first number is the mean so far, whatever the sum started from.
    have hfirst : (0 : K) + (x - 0) / ((0 + 1 : Nat) : K) = x := by simp
    have hstart : runningMean (Arithmetic.ofNatural 0 : K) 0 (x :: rest) = runningMean x 1 rest := by
      refine congrArg (fun m => runningMean m 1 rest) (Eq.trans ?_ hfirst)
      show ((0 : Nat) : K) + (x - ((0 : Nat) : K)) / ((0 + 1 : Nat) : K) = 0 + (x - 0) / ((0 + 1 : Nat) : K)
      rw [Nat.cast_zero]
    rw [hstart]
    exact runningMean_mem_Icc hx 1 hrest

/-- Two numbers in ascending order. -/
theorem sorted_pair {α : Type} [Arithmetic α] (x y : α) :
    sorted [x, y] = if Arithmetic.isLess y x then [y, x] else [x, y] := by
  cases h : Arithmetic.isLess y x <;> simp [sorted, List.mergeSort, List.MergeSort.Internal.splitInTwo, h]

/-- The median of numbers of an interval is in it. -/
theorem median?_mem_Icc {middle : K} (h : ∀ x ∈ xs, x ∈ Set.Icc low high) (hmiddle : median? xs = some middle) :
    middle ∈ Set.Icc low high := by
  have hsorted : ∀ {n : Nat} {x : K}, (sorted xs)[n]? = some x → x ∈ Set.Icc low high :=
    fun hx => h _ (List.mem_mergeSort.mp (List.mem_of_getElem? hx))
  unfold median? at hmiddle
  dsimp only at hmiddle
  split at hmiddle
  · exact hsorted hmiddle
  · split at hmiddle
    · rename_i hlow hhigh
      obtain rfl := Option.some.inj hmiddle
      exact middle_mem_Icc (hsorted hlow) (hsorted hhigh)
    · cases hmiddle

theorem deviation?_nonneg {deviation : K} (h : deviation? xs = some deviation) : 0 ≤ deviation := by
  unfold deviation? at h
  split at h
  · cases h
  · obtain rfl := Option.some.inj h
    exact (Nat.cast_zero (R := K)).ge
  · obtain rfl := Option.some.inj h
    exact ExactNumbers.squareRoot_nonneg _

theorem halfWidth_nonneg (xs : List K) : 0 ≤ halfWidth xs := by
  unfold halfWidth
  split
  · rename_i critical deviation hcritical hdeviation
    have hfactor : 0 ≤ critical := by
      unfold critical? at hcritical
      split at hcritical
      · cases hcritical
      · obtain rfl := Option.some.inj hcritical
        exact ExactNumbers.critical_nonneg _
    exact div_nonneg (mul_nonneg hfactor (deviation?_nonneg hdeviation)) (ExactNumbers.squareRoot_nonneg _)
  · exact (Nat.cast_zero (R := K)).ge

end Statistics

/-! ## §3 Triples -/

variable {K : Type} [ExactNumbers K]

/-- The value of a triple, where it is a number, lies between those of its bounds that are numbers. -/
def Triple.Brackets (t : Triple (Reduced K)) : Prop :=
  ∀ x, t.value.toNumber? = some x → x ∈ Set.Icc (t.low.toNumber?.getD x) (t.high.toNumber?.getD x)

theorem Triple.brackets_flat (r : Reduced K) : (Triple.flat r).Brackets := by
  intro x hx
  have hown : r.toNumber? = some x := hx
  show x ∈ Set.Icc (r.toNumber?.getD x) (r.toNumber?.getD x)
  rw [hown]
  exact ⟨le_refl x, le_refl x⟩

theorem Triple.brackets_spread {x low high : K} (h : x ∈ Set.Icc low high) : (Triple.spread x low high).Brackets := by
  intro y hy
  obtain rfl := Option.some.inj hy
  exact h

namespace Aggregation

theorem brackets_extreme {wanted : Ordering} {values : List Value} {t : Triple (Reduced K)}
    (h : extreme wanted values = some t) : t.Brackets := by
  obtain ⟨best, _, rfl⟩ := Option.map_eq_some_iff.mp h
  split <;> exact Triple.brackets_flat _

/-- What an aggregation makes of numbers lies between its bounds. -/
theorem brackets_reduceNumbers (a : Aggregation) {xs : List K} {t : Triple (Reduced K)}
    (h : reduceNumbers a xs = some t) : t.Brackets := by
  unfold reduceNumbers at h
  split at h
  · rename_i average middle spread haverage hmiddle _
    have hmean := Statistics.mean?_mem_Icc (fun x hx => Statistics.mem_Icc_of_mem hx) haverage
    have hmedian := Statistics.median?_mem_Icc (fun x hx => Statistics.mem_Icc_of_mem hx) hmiddle
    have hhalf := Statistics.halfWidth_nonneg xs
    cases a
    case sum | range | deviation | variation | confidenceLow | confidenceHigh =>
      obtain rfl := Option.some.inj h
      exact Triple.brackets_flat _
    case mean =>
      obtain rfl := Option.some.inj h
      exact Triple.brackets_spread hmean
    case median =>
      obtain rfl := Option.some.inj h
      exact Triple.brackets_spread hmedian
    case confidence =>
      obtain rfl := Option.some.inj h
      exact Triple.brackets_spread ⟨sub_le_self average hhalf, le_add_of_nonneg_right hhalf⟩
    case halfWidth =>
      obtain rfl := Option.some.inj h
      exact Triple.brackets_spread ⟨(Nat.cast_zero (R := K)).le.trans hhalf, le_refl _⟩
    all_goals cases h
  · cases h

/-- Each triple that a bucket is reduced to has its value between its bounds. -/
theorem brackets_apply (a : Aggregation) {bucket : List Value} {t : Triple (Reduced K)} (h : t ∈ a.apply bucket) :
    t.Brackets := by
  unfold apply at h
  dsimp only at h
  split at h
  · cases h
  · cases a
    case each =>
      obtain ⟨v, _, rfl⟩ := List.mem_map.mp h
      exact Triple.brackets_flat _
    case count =>
      obtain rfl := List.mem_singleton.mp h
      exact Triple.brackets_flat _
    case max => exact brackets_extreme (Option.mem_toList.mp h)
    case min => exact brackets_extreme (Option.mem_toList.mp h)
    all_goals exact brackets_reduceNumbers _ (Option.mem_toList.mp h)

end Aggregation

end BenchPlot
