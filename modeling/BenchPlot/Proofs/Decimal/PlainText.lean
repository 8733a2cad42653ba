import BenchPlot.Proofs.Decimal.Order

/-!
# Plain texts read back

A float without an exponent is written with digits and a point only, and this text is read as the float itself,
with its sign: the reader settles a numeral by its size alone only where the nearest float is zero or infinity.

Main statements: `ofBits_toBits`, `Numeral.toFloat_eq` and `readChars?_plainText`.
-/

namespace BenchPlot.Decimal

open Float.Model (UnpackedFloat Format)
open Float.Model.UnpackedFloat (packComponents)

/-! ## §1 Floats from their bits -/

theorem toNat_packComponents (sign : UnpackedFloat.Sign) (e : BitVec 11) (m : BitVec 52) :
    (packComponents .binary64 sign e m).toNat = sign.toBitVec.toNat * 2 ^ 63 + e.toNat * 2 ^ 52 + m.toNat := by
  show (sign.toBitVec ++ e ++ m).toNat = _
  have he := e.isLt
  have hm := m.isLt
  rw [BitVec.toNat_append, BitVec.toNat_append, ← Nat.shiftLeft_add_eq_or_of_lt hm,
    ← Nat.shiftLeft_add_eq_or_of_lt he, Nat.shiftLeft_eq, Nat.shiftLeft_eq]
  ring

/-- A finite number is packed into the bits that its parts follow from. -/
theorem toNat_pack {sign : UnpackedFloat.Sign} {bits m : Nat} {e : Int} (hm : 0 < m) (h : FromBits bits m e)
    (hfinite : bits < infinityBits) :
    (UnpackedFloat.pack .binary64 (.finite sign m e hm)).toNat = sign.toBitVec.toNat * 2 ^ 63 + bits := by
  rw [infinityBits] at hfinite
  have hbias : ((Format.binary64.exponentBias : Int)
      + (Format.binary64.mantissaBitsWithoutImplicit : Nat)) = 1075 := rfl
  have hbits : Format.binary64.mantissaBits = 53 := rfl
  have hwidth : 2 ^ Format.binary64.exponentBits = 2048 := rfl
  unfold UnpackedFloat.pack
  dsimp only
  rw [Int.add_assoc, hbias, hbits, hwidth]
  rcases Nat.lt_or_ge bits (2 ^ 52) with hsmall | hlarge
  · obtain ⟨rfl, rfl⟩ := h.least hsmall
    have hlog : m.log2 < 52 := (Nat.log2_lt (by omega)).mpr hsmall
    rw [if_neg (by decide), if_neg (by omega), toNat_packComponents]
    simp only [BitVec.toNat_ofNat]
    omega
  · obtain ⟨rfl, rfl⟩ := h.later hlarge
    have hlog : (2 ^ 52 + bits % 2 ^ 52).log2 = 52 := (Nat.log2_eq_iff (by omega)).mpr ⟨by omega, by omega⟩
    rw [if_neg (by omega), if_pos (by omega), toNat_packComponents]
    simp only [BitVec.toNat_ofNat]
    omega

/-- The bits of a float are its sign and its other bits. -/
theorem toNat_toBits (x : Float) :
    (unpackedSign x).toBitVec.toNat * 2 ^ 63 + unsignedBits x = x.toBits.toNat := by
  have hlt := x.toBits.toNat_lt
  unfold unpackedSign unsignedBits
  rw [signBit_eq]
  split
  · have hone : UnpackedFloat.Sign.negative.toBitVec.toNat = 1 := rfl
    omega
  · have hnone : UnpackedFloat.Sign.positive.toBitVec.toNat = 0 := rfl
    omega

/-- A finite float is the float of its bits. -/
theorem ofBits_toBits {x : Float} (hx : isFinite x = true) : Float.ofBits x.toBits = x := by
  have hfinite := (parts_of_isFinite hx).1
  refine eq_of_toBits_eq (UInt64.toNat_inj.mp ?_)
  have hpack : (Float.ofBits x.toBits).toBits.toNat
      = (UnpackedFloat.pack .binary64 x.toModel.unpack).toNat := rfl
  rw [hpack, ← toNat_toBits]
  rcases unpack_cases hx with ⟨hzero, hunpack⟩ | ⟨hpos, m, e, hm, hunpack, hbits⟩
  · have hpacked : UnpackedFloat.pack .binary64 (.zero (unpackedSign x))
      = packComponents .binary64 (unpackedSign x) 0#11 0#52 := rfl
    rw [hunpack, hpacked, toNat_packComponents, hzero]
    simp only [BitVec.toNat_ofNat, Nat.zero_mod, Nat.zero_mul, Nat.add_zero]
  · rw [hunpack, toNat_pack hm hbits hfinite]

theorem signedFloat_unsignedBits {x : Float} (hx : isFinite x = true) :
    signedFloat (decide (signBit ≤ x.toBits.toNat)) (unsignedBits x) = x := by
  have hlt := x.toBits.toNat_lt
  have hbits : UInt64.ofNat (if decide (signBit ≤ x.toBits.toNat) = true then unsignedBits x + signBit
      else unsignedBits x) = x.toBits := by
    refine UInt64.toNat_inj.mp ?_
    rw [UInt64.toNat_ofNat', unsignedBits, signBit_eq]
    by_cases hsign : 2 ^ 63 ≤ x.toBits.toNat
    · rw [if_pos (decide_eq_true hsign)]
      omega
    · rw [if_neg (by simpa using hsign)]
      omega
  rw [signedFloat, hbits, ofBits_toBits hx]

/-! ## §2 Numerals far out of range -/

/-- A fraction that is far below the least unit is nearest to zero. -/
theorem nearestBits_of_small {num den k : Nat} (hk : 1075 ≤ k) (h : num * 2 ^ k < den) :
    nearestBits num den = 0 := by
  have hden : den ≠ 0 := Nat.ne_of_gt (Nat.zero_lt_of_lt h)
  by_cases hnum : num = 0
  · exact if_pos hnum
  obtain ⟨p, hp⟩ : ∃ p, p = (-(-1074 : Int)).toNat := ⟨_, rfl⟩
  have hunits : inUnits num den (-1074) = (num * 2 ^ p, den) := by
    rw [inUnits_eq, ← hp]
    exact congrArg _ (Nat.mul_one den)
  -- Twice the quotient in the least unit is below one.
  have hbelow : 2 * (num * 2 ^ p) < den := by
    refine Nat.lt_of_le_of_lt ?_ h
    rw [Nat.mul_left_comm, ← Nat.pow_succ']
    exact Nat.mul_le_mul_left _ (Nat.pow_le_pow_right (by decide) (by omega))
  generalize num * 2 ^ p = scaled at hunits hbelow
  have hunit : IsUnit num den (-1074) := by
    refine ⟨Int.le_refl _, ?_, .inl rfl⟩
    rw [FitsUnit, hunits]
    dsimp only
    omega
  rw [nearestBits, if_neg hnum, hunit.unitExponent_eq hnum hden]
  dsimp only
  rw [hunits, roundHalfEven, Nat.div_eq_of_lt (by dsimp only; omega), Nat.mod_eq_of_lt (by dsimp only; omega)]
  dsimp only
  rw [if_pos hbelow]
  rfl

/-- A fraction that is far above the greatest float is nearest to infinity. -/
theorem nearestBits_of_large {num den k : Nat} (hk : 1100 ≤ k) (hden : den ≠ 0) (h : den * 2 ^ k ≤ num) :
    nearestBits num den = infinityBits := by
  have hnum : num ≠ 0 :=
    Nat.ne_of_gt (Nat.lt_of_lt_of_le (Nat.mul_pos (Nat.pos_of_ne_zero hden) (Nat.two_pow_pos _)) h)
  have hunit := isUnit_unitExponent hnum hden
  have hgreat : ((k - 53 : Nat) : Int) < unitExponent num den := by
    by_contra hle
    -- In such a unit the quotient would have at most 53 bits.
    have hfits := hunit.fits.mono (Int.not_lt.mp hle)
    have hsplit : 2 ^ 53 * (den * 2 ^ (k - 53)) = den * 2 ^ k := by
      rw [Nat.mul_left_comm, ← Nat.pow_add, Nat.add_sub_cancel' (by omega)]
    rw [FitsUnit, inUnits_eq, Int.toNat_natCast, Int.toNat_neg_natCast] at hfits
    dsimp only at hfits
    rw [hsplit, Nat.pow_zero, Nat.mul_one] at hfits
    exact Nat.not_lt.mpr h hfits
  rw [nearestBits, if_neg hnum]
  dsimp only
  refine Nat.min_eq_right (Nat.le_trans ?_ (Nat.le_add_left ..))
  calc infinityBits = 2047 * fractionSize := rfl
    _ ≤ (unitExponent num den + 1074).toNat * fractionSize := Nat.mul_le_mul_right _ (by omega)

theorem two_pow_le_ten_pow (k : Nat) : 2 ^ (3 * k) ≤ 10 ^ k := by
  rw [Nat.pow_mul]
  exact Nat.pow_le_pow_left (by decide) k

theorem lt_pow_digits (n : Nat) : n < 10 ^ (digitChars n).length :=
  (Nat.length_toDigits_le_iff (by decide) Nat.length_toDigits_pos).mp (Nat.le_refl _)

theorem pow_digits_le {n : Nat} (hn : n ≠ 0) : 10 ^ ((digitChars n).length - 1) ≤ n := by
  rcases Nat.lt_or_ge 1 (digitChars n).length with hlong | hshort
  · by_contra hlt
    have hchars : (digitChars n).length ≤ (digitChars n).length - 1 :=
      (Nat.length_toDigits_le_iff (by decide) (Nat.sub_pos_of_lt hlong)).mpr (Nat.lt_of_not_le hlt)
    omega
  · rw [Nat.sub_eq_zero_of_le hshort]
    exact Nat.pos_of_ne_zero hn

/-- The float nearest to a numeral is the one with the bits of its decimal: a numeral that is settled by its
    size alone is nearest to zero, or to infinity. -/
theorem Numeral.toFloat_eq (n : Numeral) :
    n.toFloat = signedFloat n.negative (Digits.bits ⟨n.digits, n.scale⟩) := by
  obtain ⟨negative, digits, scale⟩ := n
  have hpos : 0 < (digitChars digits).length := Nat.length_toDigits_pos
  have hbelow := lt_pow_digits digits
  have habove := @pow_digits_le digits
  obtain ⟨k, hk⟩ : ∃ k, k = 400 := ⟨_, rfl⟩
  unfold toFloat
  dsimp only [Digits.bits]
  generalize (digitChars digits).length = length at hpos hbelow habove
  split
  · rename_i hsmall
    refine congrArg _ (Eq.symm ?_)
    by_cases hdigits : digits = 0
    · rw [hdigits]
      exact if_pos (Nat.zero_mul _)
    · have hscale : scale.toNat = 0 ∧ length + k ≤ (-scale).toNat := by omega
      refine nearestBits_of_small (k := 3 * k) (by omega) ?_
      calc digits * 10 ^ scale.toNat * 2 ^ (3 * k) = digits * 2 ^ (3 * k) := by
            rw [hscale.1, Nat.pow_zero, Nat.mul_one]
        _ < 10 ^ length * 2 ^ (3 * k) := Nat.mul_lt_mul_of_pos_right hbelow (Nat.two_pow_pos _)
        _ ≤ 10 ^ length * 10 ^ k := Nat.mul_le_mul_left _ (two_pow_le_ten_pow k)
        _ = 10 ^ (length + k) := (Nat.pow_add ..).symm
        _ ≤ 10 ^ (-scale).toNat := Nat.pow_le_pow_right (by decide) hscale.2
  · rename_i hfull
    obtain ⟨hdigits, -⟩ := not_or.mp hfull
    split
    · rename_i hlarge
      have hscale : (-scale).toNat + k ≤ length - 1 + scale.toNat := by omega
      refine congrArg _ (nearestBits_of_large (k := 3 * k) (by omega) (decimalRatio_den_ne_zero _ _) ?_).symm
      calc 10 ^ (-scale).toNat * 2 ^ (3 * k) ≤ 10 ^ (-scale).toNat * 10 ^ k :=
            Nat.mul_le_mul_left _ (two_pow_le_ten_pow k)
        _ = 10 ^ ((-scale).toNat + k) := (Nat.pow_add ..).symm
        _ ≤ 10 ^ (length - 1 + scale.toNat) := Nat.pow_le_pow_right (by decide) hscale
        _ = 10 ^ (length - 1) * 10 ^ scale.toNat := Nat.pow_add ..
        _ ≤ digits * 10 ^ scale.toNat := Nat.mul_le_mul_right _ (habove hdigits)
    · rfl

/-! ## §3 Characters of plain texts -/

theorem mem_withPoint {n places : Nat} {c : Char} (hc : c ∈ (withPoint n places).toList) :
    isDigit c = true ∨ c = '.' := by
  by_cases hplaces : places = 0
  · rw [hplaces] at hc
    exact .inl (isDigit_of_mem_digitChars (String.toList_ofList ▸ hc))
  · obtain ⟨whole, fraction, htext, -, -, hwhole, hfraction, -⟩ := exists_withPoint n hplaces
    rw [htext] at hc
    rcases List.mem_append.mp hc with hfront | hback
    · exact .inl (hwhole c hfront)
    · exact (List.mem_cons.mp hback).symm.imp_left (hfraction c)

theorem mem_plain {d : Digits} {c : Char} (hc : c ∈ d.plain.toList) : isDigit c = true ∨ c = '.' := by
  unfold Digits.plain at hc
  split at hc
  · exact .inl (isDigit_of_mem_digitChars (String.toList_ofList ▸ hc))
  · exact mem_withPoint hc

/-- A number without a sign is written with digits and points. -/
theorem mem_plainText {x : Float} (hx : isFinite x = true) (hsign : x.toBits.toNat < signBit) {c : Char}
    (hc : c ∈ (plainText x).toList) : isDigit c = true ∨ c = '.' := by
  obtain ⟨-, hparts⟩ := parts_of_isFinite hx
  rw [decide_eq_false (Nat.not_le.mpr hsign)] at hparts
  unfold plainText at hc
  rw [hparts] at hc
  have hbody : c ∈ (if (Magnitude.ofBits (unsignedBits x)).mantissa = 0 then "0"
      else (shortest (Magnitude.ofBits (unsignedBits x))).plain).toList := hc
  split at hbody
  · exact .inl (List.mem_singleton.mp hbody ▸ rfl)
  · exact mem_plain hbody

/-! ## §4 Reading back -/

theorem toLower_of_isDigit {c : Char} (hc : isDigit c = true) : c.toLower = c := by
  have hnine : c.val ≤ 57 := of_decide_eq_true (Bool.and_eq_true_iff.mp hc).2
  unfold Char.toLower
  refine dif_neg fun hupper => ?_
  exact absurd (UInt32.le_trans hupper.1 hnine) (by decide)

/-- A numeral behind its sign is read as the float nearest to it. -/
theorem readChars?_withSign {negative : Bool} {body : String} {n : Numeral} (h : IsNumeral negative body n) :
    readChars? (withSign negative body).toList = some n.toFloat := by
  obtain ⟨c, cs, hbody, hc⟩ := h.digit
  have hnumeral := h.numeral
  unfold readChars?
  rw [readSign_withSign h]
  rw [hbody] at hnumeral ⊢
  dsimp only
  -- A word for infinity, or for no number, begins with a letter.
  have hword : ∀ d ds, isDigit d = false → (c :: cs).map Char.toLower ≠ d :: ds := by
    intro d ds hd heq
    rw [List.map_cons, toLower_of_isDigit hc, List.cons.injEq] at heq
    rw [heq.1, hd] at hc
    cases hc
  rw [if_neg (not_or.mpr ⟨hword _ _ rfl, hword _ _ rfl⟩), if_neg (hword _ _ rfl), hnumeral, Option.map_some]

/-- The plain form of a finite float is read as the float. -/
theorem readChars?_plainText {x : Float} (hx : isFinite x = true) :
    readChars? (plainText x).toList = some x := by
  obtain ⟨body, n, htext, hn, hnegative, hbits⟩ := exists_isNumeral_plainText hx
  rw [htext, readChars?_withSign hn, n.toFloat_eq, hnegative, hbits, signedFloat_unsignedBits hx]

end BenchPlot.Decimal
