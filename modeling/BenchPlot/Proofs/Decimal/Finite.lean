import BenchPlot.Proofs.Decimal.PlainText

/-!
# Operations that keep numbers finite

A number is finite iff its bits without the sign are below those of infinity. Negation changes the sign alone, the
smaller and the greater of two numbers are one of the two, and a count in a word of 64 bits is far below the
greatest finite number.

Main statements: `isFinite_neg`, `isFinite_lesser`, `isFinite_greaterOf` and `isFinite_ofNatural`.
-/

namespace BenchPlot.Decimal

open Float.Model (UnpackedFloat)
open Float.Model.UnpackedFloat (packComponents unpackExponent)

/-! ## §1 Words -/

theorem isFinite_of_unsignedBits {x : Float} (h : unsignedBits x < infinityBits) : isFinite x = true := by
  unfold unsignedBits at h
  unfold isFinite Parts.ofFloat Parts.ofBits
  dsimp only
  rw [if_pos h]

/-- From infinity on, the exponent has all its bits. -/
theorem unpackExponent_of_not_isFinite {x : Float} (h : isFinite x = false) :
    @unpackExponent .binary64 x.toBits.toBitVec = -1#11 := by
  have hlt := x.toBits.toNat_lt
  have hlarge : infinityBits ≤ unsignedBits x := by
    by_contra hsmall
    rw [isFinite_of_unsignedBits (Nat.lt_of_not_le hsmall)] at h
    cases h
  rw [infinityBits, unsignedBits, signBit_eq] at hlarge
  have hones : (-1#11).toNat = 2047 := by decide
  apply BitVec.eq_of_toNat_eq
  rw [toNat_unpackExponent, UInt64.toNat_toBitVec, hones]
  omega

/-- A float is the float of its bits, finite or not. -/
theorem ofBits_toBits_self (x : Float) : Float.ofBits x.toBits = x := by
  cases hx : isFinite x with
  | true => exact ofBits_toBits hx
  | false =>
    have hexponent := unpackExponent_of_not_isFinite hx
    have hbits : (Float.ofBits x.toBits).toBits.toBitVec
        = UnpackedFloat.pack .binary64 (UnpackedFloat.unpack .binary64 x.toBits.toBitVec) := rfl
    refine eq_of_toBits_eq (UInt64.toBitVec_inj.mp ?_)
    rw [hbits, UnpackedFloat.unpack, if_pos hexponent, ofBitVec_unpackSign]
    split
    · rename_i hmantissa
      have hm := toNat_unpackMantissa x.toBits.toBitVec
      have he := toNat_unpackExponent x.toBits.toBitVec
      have hpacked : UnpackedFloat.pack .binary64 (.infinity (unpackedSign x))
          = packComponents .binary64 (unpackedSign x) (-1#11) 0#52 := rfl
      have hones : (-1#11).toNat = 2047 := by decide
      rw [hmantissa, UInt64.toNat_toBitVec, BitVec.toNat_ofNat, Nat.zero_mod] at hm
      rw [hexponent, UInt64.toNat_toBitVec, hones] at he
      apply BitVec.eq_of_toNat_eq
      rw [hpacked, toNat_packComponents, UInt64.toNat_toBitVec, ← toNat_toBits x, unsignedBits, signBit_eq, hones,
        BitVec.toNat_ofNat, Nat.zero_mod]
      omega
    · -- Of the words that stand for no number, only one is the bits of a float.
      rename_i hmantissa
      exact (x.toModel.valid.eq_packedNaN hexponent hmantissa).symm

/-- A word below infinity, its sign apart, is the bits of the float that it stands for. -/
theorem toBits_ofBits {w : UInt64} (h : w.toNat % signBit < infinityBits) : (Float.ofBits w).toBits = w := by
  -- No such word stands for what is not a number, so it is a float as it is.
  have hvalid : Float.Model.Format.binary64.Valid w.toBitVec := by
    refine ⟨fun hexponent _ => ?_⟩
    have he := toNat_unpackExponent w.toBitVec
    rw [hexponent, UInt64.toNat_toBitVec] at he
    rw [infinityBits, signBit_eq] at h
    simp at he
    omega
  have hfinite : isFinite (.ofModel ⟨w, hvalid⟩) = true := isFinite_of_unsignedBits h
  exact congrArg Float.toBits (ofBits_toBits hfinite)

theorem isFinite_signedFloat (negative : Bool) {bits : Nat} (h : bits < infinityBits) :
    isFinite (signedFloat negative bits) = true := by
  have hinfinity : infinityBits < signBit := by decide
  -- The sign bit stands above all bits of a finite float.
  have hword : (UInt64.ofNat (if negative then bits + signBit else bits)).toNat % signBit = bits := by
    rw [signBit_eq] at hinfinity
    rw [UInt64.toNat_ofNat', signBit_eq]
    cases negative with
    | true =>
      rw [if_pos rfl]
      omega
    | false =>
      rw [if_neg Bool.false_ne_true]
      omega
  have hbits := toBits_ofBits (hword ▸ h)
  refine isFinite_of_unsignedBits ?_
  rw [unsignedBits, signedFloat, hbits, hword]
  exact h

/-! ## §2 Operations -/

theorem isFinite_neg {x : Float} (h : isFinite x = true) : isFinite (-x) = true := by
  have hpack : (-x).toBits.toNat = (UnpackedFloat.pack .binary64 x.toModel.unpack.neg).toNat := rfl
  have hfinite := (parts_of_isFinite h).1
  have hinfinity : infinityBits < 2 ^ 63 := by decide
  refine isFinite_of_unsignedBits ?_
  show (-x).toBits.toNat % signBit < infinityBits
  rw [hpack, signBit_eq]
  rcases unpack_cases h with ⟨-, hzero⟩ | ⟨-, m, e, hm, hunpack, hbits⟩
  · have hpacked : UnpackedFloat.pack .binary64 (UnpackedFloat.neg (.zero (unpackedSign x)))
        = packComponents .binary64 (-unpackedSign x) 0#11 0#52 := rfl
    rw [hzero, hpacked, toNat_packComponents]
    simp only [BitVec.toNat_ofNat]
    omega
  · have hneg : UnpackedFloat.neg (.finite (unpackedSign x) m e hm) = .finite (-unpackedSign x) m e hm := rfl
    rw [hunpack, hneg, toNat_pack hm hbits hfinite]
    omega

theorem isFinite_lesser {x y : Float} (hx : isFinite x = true) (hy : isFinite y = true) :
    isFinite (lesser x y) = true := by
  unfold lesser
  split
  · exact hy
  · split
    · exact hy
    · exact hx

theorem isFinite_greaterOf {x y : Float} (hx : isFinite x = true) (hy : isFinite y = true) :
    isFinite (greaterOf x y) = true := by
  unfold greaterOf
  split
  · exact hy
  · split
    · exact hy
    · exact hx

/-! ## §3 Counts -/

theorem roundHalfEven_le {num den k : Nat} (h : num < k * den) : roundHalfEven num den ≤ k := by
  have hquotient : num / den < k := by
    refine (Nat.div_lt_iff_lt_mul (Nat.pos_of_ne_zero ?_)).mpr h
    rintro rfl
    exact Nat.not_lt_zero _ h
  unfold roundHalfEven
  dsimp only
  split
  · exact Nat.le_of_lt hquotient
  · split
    · exact hquotient
    · split
      · exact Nat.le_of_lt hquotient
      · exact hquotient

/-- A natural number that fits into a word is nearest to a finite number. -/
theorem nearestBits_lt_of_word {n : Nat} (h : n < 2 ^ 64) : nearestBits n 1 < infinityBits := by
  by_cases hn : n = 0
  · rw [hn]
    decide
  have hunit := isUnit_unitExponent hn Nat.one_ne_zero
  have hlog : n.log2 < 64 := (Nat.log2_lt hn).mpr h
  -- The unit of a number of at most 64 bits is at most `2 ^ 11`.
  have hsmall : unitExponent n 1 ≤ 11 := by
    rcases hunit.least with hleast | hunfit
    · omega
    · by_contra hgreat
      have hone : Nat.log2 1 = 0 := rfl
      exact hunfit (fitsUnit_of_le Nat.one_ne_zero (by omega))
  have hrounded := roundHalfEven_le hunit.fits
  unfold nearestBits
  rw [if_neg hn, infinityBits, fractionSize_eq]
  dsimp only
  omega

theorem isFinite_ofNatural {n : Nat} (h : n < 2 ^ 64) : isFinite (ofNatural n) = true :=
  isFinite_signedFloat false (nearestBits_lt_of_word h)

end BenchPlot.Decimal
