import BenchPlot.Proofs.Decimal.Rounding
import BenchPlot.Proofs.Store.Kept
import Mathlib.Data.List.TakeWhile

/-!
# Texts of numbers read back

The text of a finite number is a numeral with an optional minus in front, and the float nearest to this
numeral is the number that was written, up to the sign of a zero. So numbers with one text are equal, up to
the sign of a zero.

Main statements: `shortest_bits`, `numeral_numberText` and `numberText_inj`.
-/

namespace BenchPlot.Decimal

/-! ## §1 Decimals -/

theorem decimalRatio_den_ne_zero (digits : Nat) (scale : Int) : (decimalRatio digits scale).2 ≠ 0 :=
  Nat.ne_of_gt (Nat.pow_pos (by decide))

theorem Digits.bits_congr {d d' : Digits} (h : d.digits * 10 ^ d.scale.toNat * 10 ^ (-d'.scale).toNat
    = d'.digits * 10 ^ d'.scale.toNat * 10 ^ (-d.scale).toNat) : d.bits = d'.bits :=
  nearestBits_congr (decimalRatio_den_ne_zero _ _) (decimalRatio_den_ne_zero _ _) h

/-- Zeros at the end of a decimal change nothing. -/
theorem Digits.bits_stripped (d : Digits) : d.stripped.bits = d.bits := by
  -- Along the recursion: each step takes one zero off the digits and puts it into the scale.
  induction d using Digits.stripped.induct with
  | case1 d h ih =>
    rw [Digits.stripped, dif_pos h, ih]
    refine Digits.bits_congr ?_
    dsimp only
    have hdigits : d.digits = d.digits / 10 * 10 := by omega
    have hpowers : (d.scale + 1).toNat + (-d.scale).toNat
        = 1 + d.scale.toNat + (-(d.scale + 1)).toNat := by omega
    calc d.digits / 10 * 10 ^ (d.scale + 1).toNat * 10 ^ (-d.scale).toNat
        = d.digits / 10 * 10 ^ ((d.scale + 1).toNat + (-d.scale).toNat) := by ring
      _ = d.digits / 10 * 10 * 10 ^ d.scale.toNat * 10 ^ (-(d.scale + 1)).toNat := by rw [hpowers]; ring
      _ = d.digits * 10 ^ d.scale.toNat * 10 ^ (-(d.scale + 1)).toNat := by rw [← hdigits]
  | case2 d h => rw [Digits.stripped, dif_neg h]

/-- A neighbour on the grid is taken only if it reads back. -/
theorem bits_of_gridHit? {num den bits : Nat} {scale : Int} {d : Digits}
    (h : gridHit? num den bits scale = some d) : d.bits = bits := by
  unfold gridHit? at h
  dsimp only at h
  split at h
  · rename_i hlower _
    cases h
    exact eq_of_beq hlower
  · rename_i _ hupper
    cases h
    exact eq_of_beq hupper
  · rename_i hlower hupper
    split at h <;> cases h
    · exact eq_of_beq hlower
    · exact eq_of_beq hupper
  · cases h

/-- The exact decimal value of a magnitude is its fraction. -/
theorem bits_toDigits (m : Magnitude) : m.toDigits.bits = nearestBits m.ratio.1 m.ratio.2 := by
  have hden : m.ratio.2 ≠ 0 := by
    rw [ratio_eq]
    exact Nat.ne_of_gt (Nat.two_pow_pos _)
  refine nearestBits_congr (decimalRatio_den_ne_zero _ _) hden ?_
  rw [ratio_eq]
  unfold Magnitude.toDigits
  split
  · rename_i hexponent
    have hzero : (-m.exponent).toNat = 0 := by omega
    simp [decimalRatio, hzero, Nat.shiftLeft_eq]
  · rename_i hexponent
    have hzero : m.exponent.toNat = 0 := by omega
    have hten : 10 ^ (-m.exponent).toNat = 5 ^ (-m.exponent).toNat * 2 ^ (-m.exponent).toNat := by
      rw [← Nat.mul_pow]
    simp [decimalRatio, hzero, hten, Nat.mul_assoc]

/-- The fewest digits read back to the magnitude. -/
theorem shortest_bits (m : Magnitude) : (shortest m).bits = nearestBits m.ratio.1 m.ratio.2 := by
  unfold shortest
  dsimp only
  split
  · rename_i d hd
    obtain ⟨n, _, hn⟩ := List.exists_of_findSome?_eq_some hd
    rw [Digits.bits_stripped, bits_of_gridHit? hn]
  · -- No grid had a decimal that reads back, so it is the exact one.
    rw [Digits.bits_stripped, bits_toDigits]

/-! ## §2 Numerals -/

theorem isDigit_of_mem_digitChars {n : Nat} {c : Char} (h : c ∈ digitChars n) : isDigit c = true := by
  have hdigit : c.isDigit = true := Nat.isDigit_of_mem_toDigits (by decide) (by decide) h
  simpa [isDigit, Char.isDigit, Char.le_def] using hdigit

theorem isBlank_of_isDigit {c : Char} (hc : isDigit c = true) : Text.isBlank c = false := by
  obtain ⟨hlow, hhigh⟩ := Bool.and_eq_true_iff.mp hc
  have hlow' : 48 ≤ c.toNat := UInt32.le_iff_toNat_le.mp (of_decide_eq_true hlow)
  have hhigh' : c.toNat ≤ 57 := UInt32.le_iff_toNat_le.mp (of_decide_eq_true hhigh)
  simp only [Text.isBlank, Bool.or_eq_false_iff, Bool.and_eq_false_iff, decide_eq_false_iff_not, beq_eq_false_iff_ne]
  omega

theorem digitsValue_digitChars (n : Nat) : digitsValue (digitChars n) = n :=
  Nat.ofDigitChars_ten_toDigits

theorem readNumeral?_point (negative : Bool) {whole fraction : List Char} (hfull : whole ≠ [])
    (hwhole : ∀ c ∈ whole, isDigit c = true) (hfraction : ∀ c ∈ fraction, isDigit c = true) :
    readNumeral? negative (whole ++ '.' :: fraction)
      = some ⟨negative, digitsValue (whole ++ fraction), -fraction.length⟩ := by
  have hpoint : isDigit '.' = false := by decide
  have htake : (whole ++ '.' :: fraction).takeWhile isDigit = whole := by
    rw [List.takeWhile_append_of_pos hwhole, List.takeWhile_cons_of_neg (by simp [hpoint]), List.append_nil]
  have hdrop : (whole ++ '.' :: fraction).dropWhile isDigit = '.' :: fraction := by
    rw [List.dropWhile_append_of_pos hwhole, List.dropWhile_cons_of_neg (by simp [hpoint])]
  have hrest : readFraction ('.' :: fraction) = (fraction, []) := by
    simp [readFraction, List.takeWhile_eq_self_iff.mpr hfraction, List.dropWhile_eq_nil_iff.mpr hfraction]
  unfold readNumeral?
  simp [htake, hdrop, hrest, hfull, readExponent?]

theorem readNumeral?_digits (negative : Bool) {cs : List Char} (hfull : cs ≠ [])
    (hcs : ∀ c ∈ cs, isDigit c = true) :
    readNumeral? negative cs = some ⟨negative, digitsValue cs, 0⟩ := by
  have htake : cs.takeWhile isDigit = cs := List.takeWhile_eq_self_iff.mpr hcs
  have hdrop : cs.dropWhile isDigit = [] := List.dropWhile_eq_nil_iff.mpr hcs
  unfold readNumeral?
  simp [htake, hdrop, hfull, readFraction, readExponent?]

/-- A text is a numeral with a digit in front. -/
structure IsNumeral (negative : Bool) (body : String) (n : Numeral) : Prop where
  numeral : readNumeral? negative body.toList = some n
  digit : ∃ c cs, body.toList = c :: cs ∧ isDigit c = true

theorem isNumeral_naturalText (negative : Bool) (n : Nat) :
    IsNumeral negative (naturalText n) ⟨negative, n, 0⟩ := by
  have hfull : digitChars n ≠ [] := Nat.toDigits_ne_nil
  have htext : (naturalText n).toList = digitChars n := String.toList_ofList
  refine ⟨?_, ?_⟩
  · rw [htext, readNumeral?_digits negative hfull fun c => isDigit_of_mem_digitChars, digitsValue_digitChars]
  · obtain ⟨c, cs, hcs⟩ := List.exists_cons_of_ne_nil hfull
    exact ⟨c, cs, htext.trans hcs, isDigit_of_mem_digitChars (hcs ▸ List.mem_cons_self ..)⟩

/-- With a point before some of its digits, a number has digits on both sides of the point. -/
theorem exists_withPoint (n : Nat) {places : Nat} (hplaces : places ≠ 0) :
    ∃ whole fraction, (withPoint n places).toList = whole ++ '.' :: fraction ∧ whole ≠ []
      ∧ fraction.length = places ∧ (∀ c ∈ whole, isDigit c = true) ∧ (∀ c ∈ fraction, isDigit c = true)
      ∧ digitsValue (whole ++ fraction) = n := by
  unfold withPoint
  rw [if_neg hplaces]
  dsimp only
  -- Zeros in front leave the value alone and make sure that a digit stands before the point.
  generalize hpadded : List.replicate (places + 1 - (digitChars n).length) '0' ++ digitChars n = padded
  have hlength : places + 1 ≤ padded.length := by
    rw [← hpadded, List.length_append, List.length_replicate]
    omega
  have hdigits : ∀ c ∈ padded, isDigit c = true := by
    intro c hc
    rw [← hpadded] at hc
    rcases List.mem_append.mp hc with hzero | hdigit
    · rw [List.eq_of_mem_replicate hzero]
      decide
    · exact isDigit_of_mem_digitChars hdigit
  have hvalue : digitsValue padded = n := by
    have happend : Nat.ofDigitChars 10 (List.replicate (places + 1 - (digitChars n).length) '0'
        ++ digitChars n) 0 = n := by
      rw [Nat.ofDigitChars_append, Nat.ofDigitChars_replicate_zero, Nat.mul_zero]
      exact digitsValue_digitChars n
    rw [hpadded] at happend
    exact happend
  refine ⟨padded.take (padded.length - places), padded.drop (padded.length - places), by simp,
    List.ne_nil_of_length_pos (by rw [List.length_take]; omega), by rw [List.length_drop]; omega,
    fun c hc => hdigits c (List.mem_of_mem_take hc), fun c hc => hdigits c (List.mem_of_mem_drop hc), ?_⟩
  rw [List.take_append_drop, hvalue]

theorem isNumeral_withPoint (negative : Bool) (n places : Nat) :
    IsNumeral negative (withPoint n places) ⟨negative, n, -places⟩ := by
  by_cases hplaces : places = 0
  · rw [hplaces]
    exact isNumeral_naturalText negative n
  · obtain ⟨whole, fraction, htext, hfull, hlength, hwhole, hfraction, hvalue⟩ := exists_withPoint n hplaces
    obtain ⟨c, cs, hcs⟩ := List.exists_cons_of_ne_nil hfull
    refine ⟨?_, c, cs ++ '.' :: fraction, ?_, hwhole c (hcs ▸ List.mem_cons_self ..)⟩
    · rw [htext, readNumeral?_point negative hfull hwhole hfraction, hvalue, hlength]
    · rw [htext, hcs, List.cons_append]

/-- The plain form of a decimal is a numeral with the same nearest float. -/
theorem exists_isNumeral_plain (negative : Bool) (d : Digits) : ∃ n : Numeral, IsNumeral negative d.plain n
    ∧ n.negative = negative ∧ Digits.bits ⟨n.digits, n.scale⟩ = d.bits := by
  unfold Digits.plain
  split
  · rename_i hscale
    refine ⟨_, isNumeral_naturalText negative _, rfl, Digits.bits_congr ?_⟩
    have hzero : (-d.scale).toNat = 0 := by omega
    simp [hzero]
  · rename_i hscale
    refine ⟨_, isNumeral_withPoint negative _ _, rfl, congrArg Digits.bits ?_⟩
    have hback : -((-d.scale).toNat : Int) = d.scale := by omega
    rw [hback]

/-! ## §3 Numbers -/

/-- The numeral that a text with an optional sign is. -/
def textNumeral? (s : String) : Option Numeral :=
  readNumeral? (readSign s.toList).1 (readSign s.toList).2

theorem readSign_withSign {negative : Bool} {body : String} {n : Numeral} (h : IsNumeral negative body n) :
    readSign (withSign negative body).toList = (negative, body.toList) := by
  cases negative with
  | true =>
    have htext : (withSign true body).toList = '-' :: body.toList := by simp [withSign]
    rw [htext]
    rfl
  | false =>
    obtain ⟨c, cs, hcs, hc⟩ := h.digit
    have htext : (withSign false body).toList = c :: cs := hcs
    rw [htext, hcs]
    -- A digit is no sign.
    unfold readSign
    split
    · rename_i heq
      rw [(List.cons.inj heq).1] at hc
      cases hc
    · rename_i heq
      rw [(List.cons.inj heq).1] at hc
      cases hc
    · rfl

theorem textNumeral?_withSign {negative : Bool} {body : String} {n : Numeral}
    (h : IsNumeral negative body n) : textNumeral? (withSign negative body) = some n := by
  rw [textNumeral?, readSign_withSign h]
  exact h.numeral

/-- The bits of a float without its sign. -/
def unsignedBits (x : Float) : Nat :=
  x.toBits.toNat % signBit

theorem parts_of_isFinite {x : Float} (hx : isFinite x = true) : unsignedBits x < infinityBits
    ∧ Parts.ofFloat x
      = .finite (decide (signBit ≤ x.toBits.toNat)) (Magnitude.ofBits (unsignedBits x)) := by
  unfold isFinite Parts.ofFloat Parts.ofBits at hx
  unfold Parts.ofFloat Parts.ofBits unsignedBits
  dsimp only at hx ⊢
  split at hx
  · rename_i hfinite
    split at hfinite
    · rename_i hlt
      exact ⟨hlt, if_pos hlt⟩
    · split at hfinite <;> cases hfinite
  · cases hx

theorem integerText_signed (negative : Bool) (n : Nat) :
    integerText (signed negative n) = withSign (negative && n != 0) (naturalText n) := by
  unfold integerText signed withSign
  cases negative with
  | false => simp
  | true =>
    by_cases hn : n = 0
    · simp [hn]
    · simp [hn]

/-- A whole magnitude has one nearest float with its whole part. -/
theorem nearestBits_whole {m : Magnitude} (h : m.isWhole = true) :
    Digits.bits ⟨m.whole, 0⟩ = nearestBits m.ratio.1 m.ratio.2 := by
  have hden : m.ratio.2 ≠ 0 := by
    rw [ratio_eq]
    exact Nat.ne_of_gt (Nat.two_pow_pos _)
  refine nearestBits_congr (decimalRatio_den_ne_zero _ _) hden ?_
  have hmod : m.ratio.1 % m.ratio.2 = 0 := by simpa [Magnitude.isWhole] using h
  have hwhole : m.whole * m.ratio.2 = m.ratio.1 := Nat.div_mul_cancel (Nat.dvd_of_mod_eq_zero hmod)
  simpa [decimalRatio] using hwhole

/-- The plain form of a finite number is a numeral behind its sign, if any, and its nearest float is the
    number. -/
theorem exists_isNumeral_plainText {x : Float} (hx : isFinite x = true) :
    ∃ body n, plainText x = withSign (decide (signBit ≤ x.toBits.toNat)) body
      ∧ IsNumeral (decide (signBit ≤ x.toBits.toNat)) body n
      ∧ n.negative = decide (signBit ≤ x.toBits.toNat)
      ∧ Digits.bits ⟨n.digits, n.scale⟩ = unsignedBits x := by
  obtain ⟨hlt, hparts⟩ := parts_of_isFinite hx
  generalize decide (signBit ≤ x.toBits.toNat) = negative at hparts ⊢
  have hbits : nearestBits (Magnitude.ofBits (unsignedBits x)).ratio.1
      (Magnitude.ofBits (unsignedBits x)).ratio.2 = unsignedBits x := nearestBits_ratio hlt
  generalize Magnitude.ofBits (unsignedBits x) = m at hparts hbits
  unfold plainText
  rw [hparts]
  dsimp only
  split
  · rename_i hmantissa
    have hzero : ∀ {num den : Nat}, num = 0 → nearestBits num den = 0 := fun h => if_pos h
    have hnum : m.ratio.1 = 0 := by rw [ratio_eq, hmantissa, Nat.zero_mul]
    rw [hzero hnum] at hbits
    exact ⟨_, _, rfl, isNumeral_naturalText negative 0, rfl, (hzero (Nat.zero_mul _)).trans hbits⟩
  · obtain ⟨n, hn, hnegative, hnbits⟩ := exists_isNumeral_plain negative (shortest m)
    exact ⟨_, n, rfl, hn, hnegative, hnbits.trans ((shortest_bits m).trans hbits)⟩

/-- The text of a finite number is a numeral behind a sign, if any. Its nearest float is the number, with its
    sign if it is not zero. -/
theorem exists_isNumeral_numberText {x : Float} (hx : isFinite x = true) :
    ∃ negative body n, numberText x = withSign negative body ∧ IsNumeral negative body n
      ∧ Digits.bits ⟨n.digits, n.scale⟩ = unsignedBits x
      ∧ (unsignedBits x ≠ 0 → n.negative = decide (signBit ≤ x.toBits.toNat)) := by
  obtain ⟨hlt, hparts⟩ := parts_of_isFinite hx
  unfold numberText
  rw [hparts]
  dsimp only
  -- Whole numbers are written as integers, the others by their fewest digits.
  split
  · rename_i hwhole
    generalize decide (signBit ≤ x.toBits.toNat) = negative
    have hbits := (nearestBits_whole (Bool.and_eq_true_iff.mp hwhole).1).trans (nearestBits_ratio hlt)
    generalize (Magnitude.ofBits (unsignedBits x)).whole = whole at hbits ⊢
    refine ⟨_, _, _, integerText_signed negative whole, isNumeral_naturalText _ _, hbits, fun hne => ?_⟩
    -- A number that is not zero has a whole part that is not zero, and keeps its sign.
    have hfull : whole ≠ 0 := by
      rintro rfl
      have hzero : Digits.bits ⟨0, 0⟩ = 0 := rfl
      exact hne (hbits.symm.trans hzero)
    simp [hfull]
  · obtain ⟨body, n, htext, hn, hnegative, hbits⟩ := exists_isNumeral_plainText hx
    exact ⟨_, body, n, htext, hn, hbits, fun _ => hnegative⟩

/-- The text of a finite number is a numeral whose nearest float is the number, with its sign if it is not
    zero. -/
theorem numeral_numberText {x : Float} (hx : isFinite x = true) :
    ∃ n : Numeral, textNumeral? (numberText x) = some n
      ∧ Digits.bits ⟨n.digits, n.scale⟩ = unsignedBits x
      ∧ (unsignedBits x ≠ 0 → n.negative = decide (signBit ≤ x.toBits.toNat)) := by
  obtain ⟨negative, body, n, htext, hn, hbits, hsign⟩ := exists_isNumeral_numberText hx
  exact ⟨n, by rw [htext, textNumeral?_withSign hn], hbits, hsign⟩

/-! ## §4 Numbers with one text -/

theorem eq_of_toBits_eq {x y : Float} (h : x.toBits = y.toBits) : x = y := by
  obtain ⟨⟨bits, hbits⟩⟩ := x
  obtain ⟨⟨bits', hbits'⟩⟩ := y
  obtain rfl : bits = bits' := h
  rfl

/-- A float without a bit but the sign is a zero. -/
theorem beq_zero_of_unsignedBits {x : Float} (h : unsignedBits x = 0) : (x == 0.0) = true := by
  have hlt := x.toBits.toNat_lt
  have hcases : x.toBits.toNat = 0 ∨ x.toBits.toNat = 2 ^ 63 := by
    rw [unsignedBits, signBit_eq] at h
    omega
  rcases hcases with hplus | hminus
  · have hx : x = 0.0 := eq_of_toBits_eq (UInt64.toNat_inj.mp hplus)
    rw [hx]
    rfl
  · have hx : x = -0.0 := eq_of_toBits_eq (UInt64.toNat_inj.mp hminus)
    rw [hx]
    rfl

/-- Finite numbers with one text are equal, up to the sign of a zero. -/
theorem numberText_inj {x y : Float} (hx : isFinite x = true) (hy : isFinite y = true)
    (h : numberText x = numberText y) : unsignedZero x = unsignedZero y := by
  obtain ⟨n, hn, hnx, hnsign⟩ := numeral_numberText hx
  obtain ⟨n', hn', hny, hnsign'⟩ := numeral_numberText hy
  obtain rfl : n = n' := by
    rw [h, hn'] at hn
    exact (Option.some.inj hn).symm
  have hbits : unsignedBits x = unsignedBits y := hnx.symm.trans hny
  by_cases hzero : unsignedBits x = 0
  · rw [unsignedZero, unsignedZero, if_pos (beq_zero_of_unsignedBits hzero),
      if_pos (beq_zero_of_unsignedBits (hbits ▸ hzero))]
  · -- Signs and bits without signs are all that two words can differ in.
    have hsign : decide (signBit ≤ x.toBits.toNat) = decide (signBit ≤ y.toBits.toNat) :=
      (hnsign hzero).symm.trans (hnsign' (hbits ▸ hzero))
    have hxlt := x.toBits.toNat_lt
    have hylt := y.toBits.toNat_lt
    have hword : x.toBits.toNat = y.toBits.toNat := by
      rw [decide_eq_decide, signBit_eq] at hsign
      rw [unsignedBits, unsignedBits, signBit_eq] at hbits
      omega
    rw [eq_of_toBits_eq (UInt64.toNat_inj.mp hword)]

end BenchPlot.Decimal
