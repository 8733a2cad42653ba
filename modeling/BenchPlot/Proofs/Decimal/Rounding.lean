import BenchPlot.Proofs.Decimal.Float
import Mathlib.Tactic.Ring

/-!
# Rounding depends on the fraction only

The bits of the float nearest to a fraction are found by an estimate of its size from the binary logarithms
of its two parts, which is corrected by one where it is off. The unit that comes out is the least one in
which the quotient has at most 53 bits, and so it does not depend on how the fraction is written. The
fraction that a finite float is comes back as the bits of this float.

Main statements: `nearestBits_congr` and `nearestBits_ratio`.
-/

namespace BenchPlot.Decimal

/-! ## §1 Units -/

/-- The quotient in a unit has at most 53 bits. -/
def FitsUnit (num den : Nat) (exponent : Int) : Prop :=
  (inUnits num den exponent).1 < 2 ^ 53 * (inUnits num den exponent).2

theorem inUnits_eq (num den : Nat) (exponent : Int) :
    inUnits num den exponent = (num * 2 ^ (-exponent).toNat, den * 2 ^ exponent.toNat) := by
  simp only [inUnits, Nat.shiftLeft_eq]

theorem inUnits_den_pos {num den : Nat} (hden : 0 < den) (exponent : Int) :
    0 < (inUnits num den exponent).2 := by
  rw [inUnits_eq]
  exact Nat.mul_pos hden (Nat.two_pow_pos _)

theorem inUnits_mul (k num den : Nat) (exponent : Int) : inUnits (k * num) (k * den) exponent
    = (k * (inUnits num den exponent).1, k * (inUnits num den exponent).2) := by
  simp only [inUnits_eq, Nat.mul_assoc]

theorem fitsUnit_mul {k : Nat} (hk : 0 < k) (num den : Nat) (exponent : Int) :
    FitsUnit (k * num) (k * den) exponent ↔ FitsUnit num den exponent := by
  unfold FitsUnit
  rw [inUnits_mul, Nat.mul_left_comm]
  exact Nat.mul_lt_mul_left hk

theorem FitsUnit.mono {num den : Nat} {e e' : Int} (h : FitsUnit num den e) (hle : e ≤ e') :
    FitsUnit num den e' := by
  unfold FitsUnit at h ⊢
  rw [inUnits_eq] at h ⊢
  dsimp only at h ⊢
  -- Between the two units lies a power of two, by which one side shrinks or the other one grows.
  have hsplit : (-e).toNat + e'.toNat = (-e').toNat + e.toNat + (e' - e).toNat := by omega
  have hgrow : num * 2 ^ (-e').toNat * 2 ^ e.toNat ≤ num * 2 ^ (-e).toNat * 2 ^ e'.toNat := by
    rw [Nat.mul_assoc, Nat.mul_assoc, ← Nat.pow_add, ← Nat.pow_add]
    exact Nat.mul_le_mul_left _ (Nat.pow_le_pow_right (by decide) (by omega))
  have hscaled : num * 2 ^ (-e).toNat * 2 ^ e'.toNat < 2 ^ 53 * (den * 2 ^ e.toNat) * 2 ^ e'.toNat :=
    Nat.mul_lt_mul_of_pos_right h (Nat.two_pow_pos _)
  refine Nat.lt_of_mul_lt_mul_right (a := 2 ^ e.toNat)
    (Nat.lt_of_le_of_lt hgrow (Nat.lt_of_lt_of_eq hscaled ?_))
  ring

/-- A unit fits from 52 binary places below the difference of the logarithms on. -/
theorem fitsUnit_of_le {num den : Nat} (hden : den ≠ 0) {e : Int}
    (hle : (Nat.log2 num : Int) - Nat.log2 den - 52 ≤ e) : FitsUnit num den e := by
  unfold FitsUnit
  rw [inUnits_eq]
  dsimp only
  calc num * 2 ^ (-e).toNat < 2 ^ (num.log2 + 1) * 2 ^ (-e).toNat :=
        Nat.mul_lt_mul_of_pos_right Nat.lt_log2_self (Nat.two_pow_pos _)
    _ = 2 ^ (num.log2 + 1 + (-e).toNat) := (Nat.pow_add ..).symm
    _ ≤ 2 ^ (53 + den.log2 + e.toNat) := Nat.pow_le_pow_right (by decide) (by omega)
    _ = 2 ^ 53 * (2 ^ den.log2 * 2 ^ e.toNat) := by rw [Nat.pow_add, Nat.pow_add, Nat.mul_assoc]
    _ ≤ 2 ^ 53 * (den * 2 ^ e.toNat) :=
        Nat.mul_le_mul_left _ (Nat.mul_le_mul_right _ (Nat.log2_self_le hden))

/-- Two places below that, no unit fits. -/
theorem not_fitsUnit_of_le {num den : Nat} (hnum : num ≠ 0) {e : Int}
    (hle : e ≤ (Nat.log2 num : Int) - Nat.log2 den - 54) : ¬FitsUnit num den e := by
  unfold FitsUnit
  rw [inUnits_eq, Nat.not_lt]
  dsimp only
  calc 2 ^ 53 * (den * 2 ^ e.toNat) ≤ 2 ^ 53 * (2 ^ (den.log2 + 1) * 2 ^ e.toNat) :=
        Nat.mul_le_mul_left _ (Nat.mul_le_mul_right _ Nat.lt_log2_self.le)
    _ = 2 ^ (53 + (den.log2 + 1) + e.toNat) := by ring
    _ ≤ 2 ^ (num.log2 + (-e).toNat) := Nat.pow_le_pow_right (by decide) (by omega)
    _ = 2 ^ num.log2 * 2 ^ (-e).toNat := Nat.pow_add ..
    _ ≤ num * 2 ^ (-e).toNat := Nat.mul_le_mul_right _ (Nat.log2_self_le hnum)

/-- The least unit that fits, from the least unit of all on. -/
structure IsUnit (num den : Nat) (e : Int) : Prop where
  ge : -1074 ≤ e
  fits : FitsUnit num den e
  least : e = -1074 ∨ ¬FitsUnit num den (e - 1)

theorem IsUnit.unique {num den : Nat} {e e' : Int} (h : IsUnit num den e) (h' : IsUnit num den e') :
    e = e' := by
  have hle : ∀ {e e' : Int}, IsUnit num den e → IsUnit num den e' → e ≤ e' := by
    intro e e' h h'
    by_contra hlt
    -- A unit below one that fits does not fit, and fitting goes upwards.
    rcases h.least with hleast | hunfit
    · have := h'.ge
      omega
    · exact hunfit (h'.fits.mono (by omega))
  exact Int.le_antisymm (hle h h') (hle h' h)

theorem isUnit_unitExponent {num den : Nat} (hnum : num ≠ 0) (hden : den ≠ 0) :
    IsUnit num den (unitExponent num den) := by
  -- The estimate stands between the unit that never fits and the one that always does, so it is the unit
  -- itself or the next one above is.
  unfold unitExponent
  generalize hestimate : max ((Nat.log2 num : Int) - Nat.log2 den - 53) (-1074) = estimate
  have hfits : (inUnits num den estimate).1 / (inUnits num den estimate).2 < 2 * fractionSize
      ↔ FitsUnit num den estimate := by
    rw [Nat.div_lt_iff_lt_mul (inUnits_den_pos (Nat.pos_of_ne_zero hden) _)]
    rfl
  dsimp only
  split
  · rename_i hlt
    refine ⟨by omega, hfits.mp hlt, ?_⟩
    by_cases hleast : estimate = -1074
    · exact .inl hleast
    · exact .inr (not_fitsUnit_of_le hnum (by omega))
  · rename_i hge
    exact ⟨by omega, fitsUnit_of_le hden (by omega), .inr (by simpa [hfits] using hge)⟩

theorem IsUnit.unitExponent_eq {num den : Nat} {e : Int} (h : IsUnit num den e) (hnum : num ≠ 0)
    (hden : den ≠ 0) : unitExponent num den = e :=
  (isUnit_unitExponent hnum hden).unique h

/-! ## §2 Fractions -/

theorem roundHalfEven_mul {k : Nat} (hk : 0 < k) (num den : Nat) :
    roundHalfEven (k * num) (k * den) = roundHalfEven num den := by
  unfold roundHalfEven
  rw [Nat.mul_div_mul_left _ _ hk, Nat.mul_mod_mul_left, Nat.mul_left_comm]
  simp only [Nat.mul_lt_mul_left hk]

theorem roundHalfEven_exact {n den : Nat} (hden : 0 < den) : roundHalfEven (n * den) den = n := by
  simp [roundHalfEven, Nat.mul_div_cancel _ hden, hden]

theorem nearestBits_mul {k : Nat} (hk : 0 < k) {num den : Nat} (hden : den ≠ 0) :
    nearestBits (k * num) (k * den) = nearestBits num den := by
  unfold nearestBits
  by_cases hnum : num = 0
  · simp [hnum]
  -- Both fractions have one unit, since a unit fits the one iff it fits the other.
  have hunit : unitExponent (k * num) (k * den) = unitExponent num den := by
    have h := isUnit_unitExponent hnum hden
    refine IsUnit.unitExponent_eq ⟨h.ge, (fitsUnit_mul hk ..).mpr h.fits, h.least.imp_right ?_⟩
      (Nat.mul_ne_zero (Nat.ne_of_gt hk) hnum) (Nat.mul_ne_zero (Nat.ne_of_gt hk) hden)
    rw [fitsUnit_mul hk]
    exact id
  have hknum : k * num ≠ 0 := Nat.mul_ne_zero (Nat.ne_of_gt hk) hnum
  rw [if_neg hknum, if_neg hnum, hunit]
  dsimp only
  rw [inUnits_mul, roundHalfEven_mul hk]

/-- Equal fractions have one nearest float. -/
theorem nearestBits_congr {num den num' den' : Nat} (hden : den ≠ 0) (hden' : den' ≠ 0)
    (h : num * den' = num' * den) : nearestBits num den = nearestBits num' den' := by
  rw [← nearestBits_mul (Nat.pos_of_ne_zero hden') hden, ← nearestBits_mul (Nat.pos_of_ne_zero hden) hden',
    Nat.mul_comm den' num, h, Nat.mul_comm num' den, Nat.mul_comm den' den]

/-! ## §3 Floats as fractions -/

theorem ratio_eq (m : Magnitude) :
    m.ratio = (m.mantissa * 2 ^ m.exponent.toNat, 2 ^ (-m.exponent).toNat) := by
  simp only [Magnitude.ratio, Nat.shiftLeft_eq, Nat.one_mul]

/-- In its own unit a magnitude is its mantissa. -/
theorem inUnits_ratio (m : Magnitude) : ∃ k, 0 < k
    ∧ inUnits m.ratio.1 m.ratio.2 m.exponent = (m.mantissa * k, k) := by
  refine ⟨2 ^ (-m.exponent).toNat * 2 ^ m.exponent.toNat,
    Nat.mul_pos (Nat.two_pow_pos _) (Nat.two_pow_pos _), ?_⟩
  rw [inUnits_eq, ratio_eq]
  dsimp only
  rw [Nat.mul_assoc, Nat.mul_comm (2 ^ m.exponent.toNat)]

/-- A magnitude whose mantissa has 53 bits, or has less and stands in the least unit, stands in its own
    unit. -/
theorem isUnit_ratio {m : Magnitude} (hge : -1074 ≤ m.exponent) (hlt : m.mantissa < 2 ^ 53)
    (hleast : m.exponent = -1074 ∨ 2 ^ 52 ≤ m.mantissa) : IsUnit m.ratio.1 m.ratio.2 m.exponent := by
  obtain ⟨k, hk, hunits⟩ := inUnits_ratio m
  refine ⟨hge, ?_, hleast.imp_right fun hfull hfits => ?_⟩
  · rw [FitsUnit, hunits]
    exact Nat.mul_lt_mul_of_pos_right hlt hk
  · -- In half the unit the quotient is twice the mantissa.
    unfold FitsUnit at hfits
    rw [inUnits_eq, ratio_eq] at hfits
    refine absurd hfits (Nat.not_lt.mpr ?_)
    dsimp only
    calc 2 ^ 53 * (2 ^ (-m.exponent).toNat * 2 ^ (m.exponent - 1).toNat)
        = 2 ^ (53 + (-m.exponent).toNat + (m.exponent - 1).toNat) := by ring
      _ = 2 ^ (52 + m.exponent.toNat + (-(m.exponent - 1)).toNat) := by congr 1; omega
      _ = 2 ^ 52 * 2 ^ m.exponent.toNat * 2 ^ (-(m.exponent - 1)).toNat := by rw [Nat.pow_add, Nat.pow_add]
      _ ≤ m.mantissa * 2 ^ m.exponent.toNat * 2 ^ (-(m.exponent - 1)).toNat :=
          Nat.mul_le_mul_right _ (Nat.mul_le_mul_right _ hfull)

/-- In its own unit, the fraction of a magnitude has the mantissa and the unit as its bits. -/
theorem nearestBits_ratio_of_isUnit {m : Magnitude} (hm : m.mantissa ≠ 0)
    (h : IsUnit m.ratio.1 m.ratio.2 m.exponent) : nearestBits m.ratio.1 m.ratio.2
      = min (m.mantissa + (m.exponent + 1074).toNat * fractionSize) infinityBits := by
  have hnum : m.ratio.1 ≠ 0 := by
    rw [ratio_eq]
    exact Nat.mul_ne_zero hm (Nat.ne_of_gt (Nat.two_pow_pos _))
  have hden : m.ratio.2 ≠ 0 := by
    rw [ratio_eq]
    exact Nat.ne_of_gt (Nat.two_pow_pos _)
  obtain ⟨k, hk, hunits⟩ := inUnits_ratio m
  unfold nearestBits
  rw [if_neg hnum, h.unitExponent_eq hnum hden]
  dsimp only
  rw [hunits, roundHalfEven_exact hk]

/-- The fraction that a finite float without a sign is comes back as its bits. -/
theorem nearestBits_ratio {bits : Nat} (h : bits < infinityBits) :
    nearestBits (Magnitude.ofBits bits).ratio.1 (Magnitude.ofBits bits).ratio.2 = bits := by
  have hsplit := Nat.div_add_mod bits fractionSize
  have hmod : bits % fractionSize < fractionSize := Nat.mod_lt _ (by decide)
  unfold Magnitude.ofBits
  dsimp only
  rw [infinityBits] at h
  rw [fractionSize_eq] at hsplit hmod ⊢
  split
  · -- No exponent: the float is a zero, or it stands in the least unit.
    rename_i hzero
    rw [hzero] at hsplit
    by_cases hbits : bits = 0
    · rw [hbits, nearestBits, if_pos (by rw [ratio_eq]; rfl)]
    · have hm : bits % 2 ^ 52 ≠ 0 := by omega
      rw [nearestBits_ratio_of_isUnit hm (isUnit_ratio (Int.le_refl _) (by simp only; omega) (.inl rfl))]
      simp only [fractionSize_eq, infinityBits]
      omega
  · -- With an exponent the mantissa has the hidden bit, and so it is full.
    rename_i hbiased
    have hm : 2 ^ 52 + bits % 2 ^ 52 ≠ 0 := by omega
    rw [nearestBits_ratio_of_isUnit hm (isUnit_ratio (by simp only; omega) (by simp only; omega)
      (.inr (Nat.le_add_right ..)))]
    simp only [fractionSize_eq, infinityBits]
    omega

end BenchPlot.Decimal
