import BenchPlot.Proofs.Decimal.ZeroSigns
import BenchPlot.Proofs.Name.Canonical
import BenchPlot.Proofs.Value.Literal

/-!
# Numbers and their texts

A finite number has one of two texts: a whole number below `10 ^ 15` is turned into an integer of 64 bits, which it is
exactly, and written as this integer; every other number is written by its fewest digits. Either text is read as the
number itself, without the sign of a zero. So the two kinds of texts do not collide, and numbers with one text are the
same number.

Main statements: `Decimal.abs_lt_iff`, `Decimal.readChars?_numberText` and `Decimal.numberText_readsBack`.
-/

namespace BenchPlot

namespace Decimal

open Float.Model (UnpackedFloat)
open Float.Model.UnpackedFloat (packComponents)

/-! ## §1 Magnitudes below `10 ^ 15` -/

/-- The magnitude of a finite number. -/
def magnitude (x : Float) : Magnitude :=
  Magnitude.ofBits (unsignedBits x)

/-- The bits of `10 ^ 15`. -/
def wholeBoundBits : Nat := 0x430C6BF526340000

theorem whole_lt_iff_lt_mul (m : Magnitude) (bound : Nat) :
    m.whole < bound ↔ m.mantissa * 2 ^ m.exponent.toNat < bound * 2 ^ (-m.exponent).toNat := by
  rw [Magnitude.whole, ratio_eq]
  exact Nat.div_lt_iff_lt_mul (Nat.two_pow_pos _)

/-- With an exponent below that of `10 ^ 15` a magnitude is smaller. -/
theorem whole_lt_of_exponent {m : Magnitude} (hm : m.mantissa < 2 ^ 53) (he : m.exponent ≤ -4) :
    m.whole < wholeBound := by
  have hbound : wholeBound = 10 ^ 15 := rfl
  have hscale : 2 ^ 4 ≤ 2 ^ (-m.exponent).toNat := Nat.pow_le_pow_right (by decide) (by omega)
  have hnone : m.exponent.toNat = 0 := by omega
  rw [whole_lt_iff_lt_mul, hbound, hnone]
  omega

/-- With an exponent above that of `10 ^ 15` a magnitude is greater. -/
theorem le_whole_of_exponent {m : Magnitude} (hm : 2 ^ 52 ≤ m.mantissa) (he : -2 ≤ m.exponent) :
    wholeBound ≤ m.whole := by
  have hbound : wholeBound = 10 ^ 15 := rfl
  have hscale : 2 ^ (-m.exponent).toNat ≤ 2 ^ 2 := Nat.pow_le_pow_right (by decide) (by omega)
  have hgrow : m.mantissa * 1 ≤ m.mantissa * 2 ^ m.exponent.toNat := Nat.mul_le_mul_left _ (Nat.two_pow_pos _)
  rw [← Nat.not_lt, whole_lt_iff_lt_mul, hbound]
  omega

/-- A magnitude has a whole part below `10 ^ 15` iff its bits are below those of `10 ^ 15`. -/
theorem whole_lt_iff (bits : Nat) : (Magnitude.ofBits bits).whole < wholeBound ↔ bits < wholeBoundBits := by
  have hsplit := Nat.div_add_mod bits (2 ^ 52)
  have hmod : bits % 2 ^ 52 < 2 ^ 52 := Nat.mod_lt _ (by decide)
  unfold Magnitude.ofBits
  rw [fractionSize_eq, wholeBoundBits]
  dsimp only
  -- The exponents decide, and where they are equal, the mantissas do.
  split
  · exact iff_of_true (whole_lt_of_exponent (by dsimp only; omega) (by dsimp only; omega)) (by omega)
  · rcases Nat.lt_trichotomy (bits / 2 ^ 52) 1072 with hlt | heq | hgt
    · exact iff_of_true (whole_lt_of_exponent (by dsimp only; omega) (by dsimp only; omega)) (by omega)
    · have hbound : wholeBound = 10 ^ 15 := rfl
      rw [whole_lt_iff_lt_mul, heq, hbound]
      simp
      omega
    · exact iff_of_false (Nat.not_lt.mpr (le_whole_of_exponent (Nat.le_add_right ..) (by dsimp only; omega)))
        (by omega)

theorem unsignedBits_lt (x : Float) : unsignedBits x < signBit :=
  Nat.mod_lt _ (by decide)

section Finite

variable {x : Float} (hx : isFinite x = true)
include hx

theorem ofFloat_of_isFinite : Parts.ofFloat x = .finite (decide (signBit ≤ x.toBits.toNat)) (magnitude x) :=
  (parts_of_isFinite hx).2

/-- The absolute value has the bits without the sign. -/
theorem toNat_abs : x.abs.toBits.toNat = unsignedBits x := by
  have hfinite := (parts_of_isFinite hx).1
  have hnone : UnpackedFloat.Sign.positive.toBitVec.toNat = 0 := rfl
  show (UnpackedFloat.pack .binary64 x.toModel.unpack.abs).toNat = unsignedBits x
  rcases unpack_cases hx with ⟨hzero, hunpack⟩ | ⟨-, m, e, hm, hunpack, hbits⟩
  · have hpacked : UnpackedFloat.pack .binary64 (UnpackedFloat.abs (.zero (unpackedSign x)))
        = packComponents .binary64 .positive 0#11 0#52 := rfl
    rw [hunpack, hpacked, toNat_packComponents, hzero]
    simp [hnone]
  · have habs : UnpackedFloat.abs (.finite (unpackedSign x) m e hm) = .finite .positive m e hm := rfl
    rw [hunpack, habs, toNat_pack hm hbits hfinite, hnone, Nat.zero_mul, Nat.zero_add]

theorem unsignedBits_abs : unsignedBits x.abs = unsignedBits x := by
  rw [unsignedBits, toNat_abs hx, Nat.mod_eq_of_lt (unsignedBits_lt x)]

theorem place_abs : place x.abs = unsignedBits x := by
  have hnone : ¬signBit ≤ x.abs.toBits.toNat := by
    rw [toNat_abs hx]
    exact Nat.not_le.mpr (unsignedBits_lt x)
  rw [place, unsignedBits_abs hx, decide_eq_false hnone]
  rfl

/-- A finite number compares with `10 ^ 15` as its whole part does. -/
theorem abs_lt_iff : x.abs < 1e15 ↔ (magnitude x).whole < wholeBound := by
  have hbound : place 1e15 = wholeBoundBits := rfl
  have hfinite : isFinite x.abs = true := isFinite_of_unsignedBits (unsignedBits_abs hx ▸ (parts_of_isFinite hx).1)
  rw [lt_iff_place (isNaN_of_isFinite hfinite) rfl, place_abs hx, hbound, magnitude, whole_lt_iff, Int.ofNat_lt]

end Finite

/-! ## §2 The two kinds of texts -/

/-- Whether a number is written as an integer: it is whole, and of a magnitude below `10 ^ 15`. -/
def IsWrittenWhole (x : Float) : Prop :=
  (magnitude x).isWhole = true ∧ x.abs < 1e15

theorem unsignedZero_of_zero {x : Float} (hzero : unsignedBits x = 0) : unsignedZero x = 0.0 :=
  if_pos (beq_zero_of_unsignedBits hzero)

theorem unsignedZero_of_nonzero {x : Float} (hfull : unsignedBits x ≠ 0) : unsignedZero x = x :=
  if_neg fun hzero => hfull (bits_of_beq_zero hzero)

section Kinds

variable {x : Float} (hx : isFinite x = true)
include hx

/-- Nothing is cut off when a whole number below `10 ^ 15` is turned into an integer of 64 bits. -/
theorem toBoundedInt_of_whole (h : IsWrittenWhole x) :
    toBoundedInt int64Bounds x = signed (decide (signBit ≤ x.toBits.toNat)) (magnitude x).whole := by
  have hlt : (magnitude x).whole < 10 ^ 15 := (abs_lt_iff hx).mp h.2
  rw [toBoundedInt, ofFloat_of_isFinite hx]
  simp only [clamp, int64Bounds, signed]
  split <;> omega

theorem numberText_of_whole (h : IsWrittenWhole x) :
    numberText x = integerText (toBoundedInt int64Bounds x) := by
  have hlt := (abs_lt_iff hx).mp h.2
  rw [toBoundedInt_of_whole hx h, numberText, ofFloat_of_isFinite hx]
  simp [h.1, hlt]

theorem numberText_of_not_whole (h : ¬IsWrittenWhole x) : numberText x = plainText x := by
  rw [IsWrittenWhole, abs_lt_iff hx] at h
  rw [numberText, ofFloat_of_isFinite hx]
  simp [h]

/-- The integer of 64 bits is the number again, without the sign of a zero. -/
theorem ofInteger_of_whole (h : IsWrittenWhole x) :
    ofInteger (toBoundedInt int64Bounds x) = unsignedZero x := by
  have hbits : nearestBits (magnitude x).whole 1 = unsignedBits x :=
    (congrArg (nearestBits · 1) (Nat.mul_one _)).symm.trans
      ((nearestBits_whole h.1).trans (nearestBits_ratio (parts_of_isFinite hx).1))
  rw [toBoundedInt_of_whole hx h]
  generalize hnegative : decide (signBit ≤ x.toBits.toNat) = negative
  have habs : (signed negative (magnitude x).whole).natAbs = (magnitude x).whole := by
    cases negative <;> simp [signed]
  rw [ofInteger, habs, nearest, hbits]
  by_cases hzero : unsignedBits x = 0
  · -- The whole part of a zero is zero, and so it has no sign.
    have hwhole : (magnitude x).whole = 0 := by
      rw [magnitude, hzero]
      decide
    rw [hwhole, unsignedZero_of_zero hzero, hzero]
    cases negative <;> rfl
  · have hwhole : (magnitude x).whole ≠ 0 := by
      intro hnone
      rw [hnone] at hbits
      exact hzero hbits.symm
    have hsign : decide (signed negative (magnitude x).whole < 0) = negative := by
      cases negative with
      | false => simp [signed]
      | true => simpa [signed] using Nat.pos_of_ne_zero hwhole
    rw [hsign, unsignedZero_of_nonzero hzero, ← hnegative, signedFloat_unsignedBits hx]

/-! ## §3 Reading the texts -/

/-- The text of a finite number is read as the number, without the sign of a zero. -/
theorem readChars?_numberText : readChars? (numberText x).toList = some (unsignedZero x) := by
  by_cases hzero : unsignedBits x = 0
  · -- Both zeros are written as one digit, which has no sign.
    rw [unsignedZero_of_zero hzero, numberText_of_beq_zero (beq_zero_of_unsignedBits hzero)]
    rfl
  · obtain ⟨negative, body, n, htext, hn, hbits, hsign⟩ := exists_isNumeral_numberText hx
    rw [htext, readChars?_withSign hn, n.toFloat_eq, hbits, hsign hzero, signedFloat_unsignedBits hx,
      unsignedZero_of_nonzero hzero]

end Kinds

/-- No blank is in the text of a number. -/
theorem not_blank_of_mem_numberText {x : Float} {c : Char} (hc : c ∈ (numberText x).toList) :
    Text.isBlank c = false := by
  have hmarks : ∀ d ∈ ['-', '.', 'N', 'a', 'i', 'n', 'f'], Text.isBlank d = false := by simp [Text.isBlank]
  by_contra hblank
  refine notMem_numberText (Bool.eq_false_iff.mpr fun hdigit => hblank (isBlank_of_isDigit hdigit)) ?_ x hc
  rintro d hd rfl
  exact hblank (hmarks c hd)

/-- Numbers are read back from their texts, up to the sign of a zero, and no two numbers share a text that differ in
    more than this. A whole number below `10 ^ 15` has the text of the integer of 64 bits that it is; any other number
    has its plain text, which is read as the number with its sign. -/
theorem numberText_readsBack {x : Float} (hx : isFinite x = true) :
    readNumber? (numberText x) = some (unsignedZero x)
      ∧ (∀ y, isFinite y = true → (numberText y = numberText x ↔ SameNumber y x))
      ∧ (IsWrittenWhole x → numberText x = integerText (toBoundedInt int64Bounds x)
        ∧ ofInteger (toBoundedInt int64Bounds x) = unsignedZero x)
      ∧ (¬IsWrittenWhole x → numberText x = plainText x ∧ readChars? (plainText x).toList = some x) := by
  refine ⟨?_, fun y hy => ⟨numberText_inj hy hx, SameNumber.numberText_eq⟩, fun h => ?_, fun h => ?_⟩
  · have htrim := Text.trimChars_of_not_blank fun c => not_blank_of_mem_numberText (x := x) (c := c)
    rw [readNumber?, htrim, readChars?_numberText hx]
    exact Option.filter_some_pos (isFinite_unsignedZero hx)
  · exact ⟨numberText_of_whole hx h, ofInteger_of_whole hx h⟩
  · exact ⟨numberText_of_not_whole hx h, readChars?_plainText hx⟩

/-- Both kinds of texts: a whole number with a sign, and the least whole number that is not written as an integer. -/
theorem numberText_readsBack_sample :
    isFinite (-7.0) = true ∧ IsWrittenWhole (-7.0) ∧ readNumber? (numberText (-7.0)) = some (-7.0)
      ∧ numberText (-7.0) = integerText (-7) ∧ ofInteger (-7) = -7.0
      ∧ isFinite 1e15 = true ∧ ¬IsWrittenWhole 1e15 ∧ readNumber? (numberText 1e15) = some 1e15
      ∧ numberText 1e15 = plainText 1e15 ∧ (numberText (-7.0) = numberText 1e15 ↔ SameNumber (-7.0) 1e15) := by
  have hseven : isFinite (-7.0) = true := by decide
  have hbound : isFinite 1e15 = true := by decide
  have hwhole : IsWrittenWhole (-7.0) := ⟨by decide, by decide⟩
  have hplain : ¬IsWrittenWhole 1e15 := fun h => absurd h.2 (by decide)
  have hseven' := numberText_readsBack hseven
  have hbound' := numberText_readsBack hbound
  have hinteger : toBoundedInt int64Bounds (-7.0) = -7 := by decide
  have htext := hseven'.2.2.1 hwhole
  rw [hinteger] at htext
  exact ⟨hseven, hwhole, hseven'.1, htext.1, htext.2, hbound, hplain, hbound'.1, (hbound'.2.2.2 hplain).1,
    hbound'.2.1 _ hseven⟩

end Decimal

end BenchPlot
