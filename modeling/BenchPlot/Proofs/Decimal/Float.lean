import BenchPlot.Value
import Mathlib.Algebra.Order.Ring.Nat

/-!
# Floats by their bits

What comparisons and tests of floats say about their bits: a float that equals zero has no bit but the
sign, and a finite float is a number. Both zeros have one text.

Main statements: `isNaN_of_isFinite`, `bits_of_beq_zero` and `numberText_of_beq_zero`.
-/

namespace BenchPlot.Decimal

open Float.Model (UnpackedFloat)
open Float.Model.UnpackedFloat (unpackMantissa unpackExponent)

/-! ## §1 Fields of a word -/

theorem signBit_eq : signBit = 2 ^ 63 := rfl

theorem fractionSize_eq : fractionSize = 2 ^ 52 := rfl

theorem toNat_unpackMantissa (b : BitVec 64) :
    (@unpackMantissa .binary64 b).toNat = b.toNat % 2 ^ 52 := by
  simp [unpackMantissa, BitVec.extractLsb_toNat]

theorem toNat_unpackExponent (b : BitVec 64) :
    (@unpackExponent .binary64 b).toNat = b.toNat / 2 ^ 52 % 2 ^ 11 := by
  simp [unpackExponent, BitVec.extractLsb_toNat, Nat.shiftRight_eq_div_pow]

/-- A mantissa with its implicit bit. -/
theorem toNat_one_append (m : BitVec 52) : (1#1 ++ m).toNat = 2 ^ 52 + m.toNat := by
  rw [BitVec.toNat_append, ← Nat.shiftLeft_add_eq_or_of_lt m.isLt]
  rfl

/-- A word that stands for a zero has no bit but the sign. -/
theorem unpack_eq_zero {b : BitVec 64} {sign : UnpackedFloat.Sign}
    (h : UnpackedFloat.unpack .binary64 b = .zero sign) : b.toNat % 2 ^ 63 = 0 := by
  rcases ite_eq_iff.mp h with ⟨_, h⟩ | ⟨_, h⟩
  · -- The greatest exponent stands for infinities and no numbers.
    rcases ite_eq_iff.mp h with ⟨_, h⟩ | ⟨_, h⟩ <;> cases h
  · rcases ite_eq_iff.mp h with ⟨hexponent, h⟩ | ⟨_, h⟩
    · rcases dite_eq_iff.mp h with ⟨hmantissa, _⟩ | ⟨_, h⟩
      · have hm := toNat_unpackMantissa b
        have he := toNat_unpackExponent b
        rw [hmantissa] at hm
        rw [hexponent] at he
        simp only [BitVec.toNat_ofNat, Nat.zero_mod] at hm he
        omega
      · cases h
    · cases h

/-- A word that stands for no number lies beyond infinity. -/
private theorem unpack_eq_notANumber {b : BitVec 64}
    (h : UnpackedFloat.unpack .binary64 b = .notANumber) : infinityBits ≤ b.toNat % signBit := by
  rcases ite_eq_iff.mp h with ⟨hexponent, _⟩ | ⟨_, h⟩
  · have he := toNat_unpackExponent b
    rw [hexponent] at he
    simp at he
    rw [infinityBits, signBit_eq]
    omega
  · rcases ite_eq_iff.mp h with ⟨_, h⟩ | ⟨_, h⟩
    · rcases dite_eq_iff.mp h with ⟨_, h⟩ | ⟨_, h⟩ <;> cases h
    · cases h

/-! ## §2 Zeros and numbers -/

/-- A finite float is a number. -/
theorem isNaN_of_isFinite {x : Float} (h : isFinite x = true) : x.isNaN = false := by
  have hnumber : x.toModel.unpack ≠ .notANumber := by
    intro hnan
    -- From infinity on, the bits have no finite parts.
    have hbits : infinityBits ≤ x.toBits.toNat % signBit := unpack_eq_notANumber hnan
    have hparts : ∀ negative m, Parts.ofFloat x ≠ .finite negative m := by
      intro negative m
      simp only [Parts.ofFloat, Parts.ofBits, if_neg (Nat.not_lt.mpr hbits)]
      split <;> simp
    unfold isFinite at h
    split at h
    · rename_i negative m hfinite
      exact hparts negative m hfinite
    · cases h
  show x.toModel.unpack.isNaN = false
  unfold UnpackedFloat.isNaN
  split
  · rename_i hnan
    exact absurd hnan hnumber
  · rfl

/-- A float that equals zero has no bit but the sign. -/
theorem bits_of_beq_zero {x : Float} (h : (x == 0.0) = true) : x.toBits.toNat % signBit = 0 := by
  have hzero : x.toModel.unpack.beq (.zero .positive) = true := h
  -- Of all unpacked floats only the zeros compare equal to a zero.
  cases hx : x.toModel.unpack with
  | zero sign => exact unpack_eq_zero hx
  | infinity sign => rw [hx] at hzero; cases sign <;> cases hzero
  | notANumber => rw [hx] at hzero; cases hzero
  | finite sign m e hm => rw [hx] at hzero; cases sign <;> cases hzero

/-- A float that equals zero is one of the two zeros. -/
theorem parts_of_beq_zero {x : Float} (h : (x == 0.0) = true) :
    ∃ negative, Parts.ofFloat x = .finite negative ⟨0, -1074⟩ := by
  refine ⟨decide (signBit ≤ x.toBits.toNat), ?_⟩
  rw [Parts.ofFloat, Parts.ofBits, bits_of_beq_zero h]
  rfl

/-- Both zeros have one text. -/
theorem numberText_of_beq_zero {x : Float} (h : (x == 0.0) = true) :
    numberText x = numberText 0.0 := by
  have htext : ∀ y : Float, (y == 0.0) = true → numberText y = "0" := by
    intro y hy
    obtain ⟨negative, hparts⟩ := parts_of_beq_zero hy
    rw [numberText, hparts]
    cases negative <;> rfl
  rw [htext x h, htext 0.0 rfl]

end BenchPlot.Decimal
