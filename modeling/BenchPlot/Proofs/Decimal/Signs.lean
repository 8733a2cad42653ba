import BenchPlot.Proofs.Decimal.PlainText

/-!
# Signs of sums and quotients

A float that is not negative stays so when a float is added that is not negative either, and the sum is above zero if
one of the two is: rounding drops the least bits of a mantissa, never the whole of it. A quotient of floats above zero
may be too small for a float, so that it is zero, but it is not below zero. Infinities give what is not a number, so the
signs are those of numbers, and any float that is none passes.

Main statements: `PositiveOrNaN.add`, `NonnegativeOrNaN.add` and `PositiveOrNaN.div`.
-/

namespace BenchPlot.Decimal

open Float.Model (UnpackedFloat Format totalExponent)
open Float.Model.UnpackedFloat (Accuracy ExtendedMantissa Sign packComponents pack unpack unpackMantissa unpackExponent
  unpackSign roundWithAccuracy shiftToTargetExponent decreaseExponent)

/-- A float that is above zero, unless it is not a number. -/
def PositiveOrNaN (x : Float) : Prop :=
  0.0 < x ∨ x.isNaN = true

/-- A float that is not below zero, unless it is not a number. -/
def NonnegativeOrNaN (x : Float) : Prop :=
  0.0 ≤ x ∨ x.isNaN = true

/-! ## §1 Signs of unpacked floats -/

/-- A mantissa and an exponent that floats have. -/
def IsPart (m : Nat) (e : Int) : Prop :=
  m < 2 ^ 53 ∧ -1074 ≤ e

/-- An unpacked float above zero, or not a number. -/
inductive Above : UnpackedFloat → Prop where
  | notANumber : Above .notANumber
  | infinity : Above (.infinity .positive)
  | finite {m : Nat} {e : Int} (hm : 0 < m) (h : IsPart m e) : Above (.finite .positive m e hm)

/-- An unpacked float that is not below zero, or not a number. -/
inductive NotBelow : UnpackedFloat → Prop where
  | above {u : UnpackedFloat} (h : Above u) : NotBelow u
  | zero (sign : Sign) : NotBelow (.zero sign)

theorem above_infinity {sign : Sign} : Above (.infinity sign) ↔ sign = .positive :=
  ⟨fun h => by cases h; rfl, fun h => h ▸ .infinity⟩

theorem not_above_zero {sign : Sign} : ¬Above (.zero sign) :=
  fun h => by cases h

theorem above_finite {sign : Sign} {m : Nat} {e : Int} {hm : 0 < m} (h : IsPart m e) :
    Above (.finite sign m e hm) ↔ sign = .positive :=
  ⟨fun h => by cases h; rfl, fun hs => hs ▸ .finite hm h⟩

theorem notBelow_iff {u : UnpackedFloat} : NotBelow u ↔ Above u ∨ ∃ sign, u = .zero sign :=
  ⟨fun h => by
    cases h with
    | above h => exact .inl h
    | zero sign => exact .inr ⟨sign, rfl⟩,
  fun h => by
    obtain h | ⟨sign, rfl⟩ := h
    · exact .above h
    · exact .zero sign⟩

/-- What a word stands for; the sign is its first bit. -/
theorem unpack_forms (b : BitVec 64) :
    unpack .binary64 b = .notANumber
    ∨ unpack .binary64 b = .infinity (.ofBitVec (@unpackSign .binary64 b))
    ∨ unpack .binary64 b = .zero (.ofBitVec (@unpackSign .binary64 b))
    ∨ ∃ m e hm, IsPart m e ∧ unpack .binary64 b = .finite (.ofBitVec (@unpackSign .binary64 b)) m e hm := by
  have hbias : ((Format.binary64.exponentBias : Int)
      + (Format.binary64.mantissaBitsWithoutImplicit : Nat)) = 1075 := rfl
  have hmantissa := (@unpackMantissa .binary64 b).isLt
  have happend := toNat_one_append (@unpackMantissa .binary64 b)
  unfold unpack
  rw [hbias]
  dsimp only at hmantissa ⊢
  split
  · split
    · exact .inr (.inl rfl)
    · exact .inl rfl
  · split
    · split
      · exact .inr (.inr (.inl rfl))
      · rename_i hfull
        have hpos : 0 < (@unpackMantissa .binary64 b).toNat :=
          Nat.pos_of_ne_zero fun hzero => hfull (BitVec.eq_of_toNat_eq hzero)
        refine .inr (.inr (.inr ⟨_, _, hpos, ⟨?_, ?_⟩, rfl⟩)) <;> omega
    · rename_i hsome
      have he : (@unpackExponent .binary64 b).toNat ≠ 0 := fun hzero => hsome (BitVec.eq_of_toNat_eq hzero)
      refine .inr (.inr (.inr ⟨_, _, by omega, ⟨?_, ?_⟩, rfl⟩)) <;> omega

theorem isPart_of_unpack {b : BitVec 64} {sign : Sign} {m : Nat} {e : Int} {hm : 0 < m}
    (h : unpack .binary64 b = .finite sign m e hm) : IsPart m e := by
  obtain hb | hb | hb | ⟨m', e', hm', hpart, hb⟩ := unpack_forms b
  · cases hb.symm.trans h
  · cases hb.symm.trans h
  · cases hb.symm.trans h
  · cases hb.symm.trans h
    exact hpart

theorem positiveOrNaN_iff_not_le {x : Float} : PositiveOrNaN x ↔ ¬x ≤ 0.0 := by
  have hzero : (0.0 : Float).toModel.unpack = .zero .positive := rfl
  have hnan : x.isNaN = x.toModel.unpack.isNaN := rfl
  rw [PositiveOrNaN, lt_iff, le_iff, hzero, hnan]
  rcases x.toModel.unpack with sign | _ | sign | ⟨sign, m, e, hm⟩
  · cases sign <;> decide
  · decide
  · cases sign <;> decide
  · cases sign <;> simp [UnpackedFloat.compare, UnpackedFloat.isNaN]

theorem positiveOrNaN_iff {x : Float} : PositiveOrNaN x ↔ Above x.toModel.unpack := by
  have hzero : (0.0 : Float).toModel.unpack = .zero .positive := rfl
  have hnan : x.isNaN = x.toModel.unpack.isNaN := rfl
  rw [PositiveOrNaN, lt_iff, hzero, hnan]
  cases hx : x.toModel.unpack with
  | notANumber => simp [UnpackedFloat.isNaN, Above.notANumber]
  | infinity sign => cases sign <;> simp [UnpackedFloat.compare, UnpackedFloat.isNaN, above_infinity]
  | zero sign => simp [UnpackedFloat.compare, UnpackedFloat.isNaN, not_above_zero]
  | finite sign m e hm =>
    cases sign <;> simp [UnpackedFloat.compare, UnpackedFloat.isNaN, above_finite (isPart_of_unpack hx)]

theorem nonnegativeOrNaN_iff {x : Float} : NonnegativeOrNaN x ↔ NotBelow x.toModel.unpack := by
  have hzero : (0.0 : Float).toModel.unpack = .zero .positive := rfl
  have hnan : x.isNaN = x.toModel.unpack.isNaN := rfl
  rw [notBelow_iff, ← positiveOrNaN_iff, PositiveOrNaN, NonnegativeOrNaN, le_iff, lt_iff, hzero, hnan]
  rcases x.toModel.unpack with sign | _ | sign | ⟨sign, m, e, hm⟩
  · cases sign <;> simp [UnpackedFloat.compare]
  · simp [UnpackedFloat.isNaN]
  · simp [UnpackedFloat.compare]
  · cases sign <;> simp [UnpackedFloat.compare]

/-! ## §2 Packing -/

/-- A word without the sign bit stands for no float below zero. -/
theorem notBelow_unpack {b : BitVec 64} (h : b.toNat < 2 ^ 63) : NotBelow (unpack .binary64 b) := by
  have hsign : Sign.ofBitVec (@unpackSign .binary64 b) = .positive := by
    refine if_pos (BitVec.eq_of_toNat_eq ?_)
    rw [toNat_unpackSign, Nat.div_eq_of_lt h]
    rfl
  have hforms := unpack_forms b
  rw [hsign] at hforms
  obtain hb | hb | hb | ⟨m, e, hm, hpart, hb⟩ := hforms
  · exact hb ▸ .above .notANumber
  · exact hb ▸ .above .infinity
  · exact hb ▸ .zero _
  · exact hb ▸ .above (.finite hm hpart)

/-- Nor for a zero, if it has any other bit. -/
theorem above_unpack {b : BitVec 64} (h : b.toNat < 2 ^ 63) (hpos : 0 < b.toNat) : Above (unpack .binary64 b) := by
  have hb := notBelow_unpack h
  generalize hu : unpack .binary64 b = u at hb
  cases hb with
  | above hu => exact hu
  | zero sign =>
    have hzero := unpack_eq_zero hu
    omega

theorem toNat_packComponents_lt (e : BitVec 11) (m : BitVec 52) :
    (packComponents .binary64 .positive e m).toNat < 2 ^ 63 := by
  have he := e.isLt
  have hm := m.isLt
  have hsign : Sign.positive.toBitVec.toNat = 0 := rfl
  rw [toNat_packComponents, hsign]
  omega

theorem toNat_pack_finite_lt {m : Nat} {e : Int} {hm : 0 < m} :
    (pack .binary64 (.finite .positive m e hm)).toNat < 2 ^ 63 := by
  unfold pack
  dsimp only
  split
  · exact toNat_packComponents_lt ..
  · split
    · exact toNat_packComponents_lt ..
    · exact toNat_packComponents_lt ..

/-- The parts of a float are packed into a word that is not zero. -/
theorem toNat_pack_finite_pos {m : Nat} {e : Int} {hm : 0 < m} (h : IsPart m e) :
    0 < (pack .binary64 (.finite .positive m e hm)).toNat := by
  have hbias : ((Format.binary64.exponentBias : Int)
      + (Format.binary64.mantissaBitsWithoutImplicit : Nat)) = 1075 := rfl
  have hbits : Format.binary64.mantissaBits = 53 := rfl
  have hwidth : 2 ^ Format.binary64.exponentBits = 2048 := rfl
  obtain ⟨hlt, he⟩ := h
  have hlog : m.log2 < 53 := (Nat.log2_lt (by omega)).mpr hlt
  unfold pack
  dsimp only
  rw [Int.add_assoc, hbias, hbits, hwidth]
  split
  · decide
  · rw [apply_ite BitVec.toNat, toNat_packComponents, toNat_packComponents]
    simp only [BitVec.toNat_ofNat]
    split
    · omega
    · have hsmall : m < 2 ^ 52 := (Nat.log2_lt (by omega)).mp (by omega)
      omega

theorem Above.unpack_pack {u : UnpackedFloat} (h : Above u) : Above (unpack .binary64 (pack .binary64 u)) := by
  cases h with
  | notANumber => exact .notANumber
  | infinity => exact .infinity
  | finite hm hpart => exact above_unpack toNat_pack_finite_lt (toNat_pack_finite_pos hpart)

theorem notBelow_unpack_pack_zero (sign : Sign) : NotBelow (unpack .binary64 (pack .binary64 (.zero sign))) := by
  cases sign <;> exact .zero _

theorem notBelow_unpack_pack_finite {m : Nat} {e : Int} (hm : 0 < m) :
    NotBelow (unpack .binary64 (pack .binary64 (.finite .positive m e hm))) :=
  notBelow_unpack toNat_pack_finite_lt

/-! ## §3 Rounding -/

theorem mantissa_shiftRight (em : ExtendedMantissa) (n : Nat) : (em >>> n).mantissa = em.mantissa / 2 ^ n := by
  show (n.repeat ExtendedMantissa.shiftRightOne em).mantissa = _
  induction n with
  | zero => exact (Nat.div_one _).symm
  | succ n ih =>
    show (n.repeat ExtendedMantissa.shiftRightOne em).mantissa / 2 = _
    rw [ih, Nat.div_div_eq_div_mul, Nat.pow_succ]

theorem le_roundedMantissa (em : ExtendedMantissa) : em.mantissa ≤ em.roundedMantissa := by
  unfold ExtendedMantissa.roundedMantissa Accuracy.roundToNearestEven
  split <;> omega

theorem targetExponent_eq (m : Nat) (e : Int) :
    Format.binary64.targetExponent (totalExponent m e) = max ((m.log2 : Int) + 1 + e - 53) (-1074) :=
  rfl

/-- Shifting a mantissa to the exponent that a float has leaves some of it, and at most 53 bits. -/
theorem shiftToTargetExponent_bounds {m : Nat} {e : Int} (hm : 0 < m) (he : -1074 ≤ e) :
    0 < (shiftToTargetExponent .binary64 m e .exact).1.mantissa
    ∧ IsPart (shiftToTargetExponent .binary64 m e .exact).1.mantissa (shiftToTargetExponent .binary64 m e .exact).2 := by
  have hlow := Nat.log2_self_le (Nat.ne_of_gt hm)
  have hhigh := @Nat.lt_log2_self m
  unfold shiftToTargetExponent UnpackedFloat.shiftToExponent
  rw [targetExponent_eq]
  dsimp only
  rw [mantissa_shiftRight]
  show 0 < m / _ ∧ IsPart (m / _) _
  generalize hn : (max ((m.log2 : Int) + 1 + e - 53) (-1074) - e).toNat = n
  -- Of the bits that the logarithm counts, those above the first 53 go; more go only below the least exponent.
  refine ⟨Nat.div_pos ?_ (Nat.two_pow_pos _), (Nat.div_lt_iff_lt_mul (Nat.two_pow_pos _)).mpr ?_, by omega⟩
  · calc 2 ^ n ≤ 2 ^ m.log2 := Nat.pow_le_pow_right (by decide) (by omega)
      _ ≤ m := hlow
  · calc m < 2 ^ (m.log2 + 1) := hhigh
      _ ≤ 2 ^ (53 + n) := Nat.pow_le_pow_right (by decide) (by omega)
      _ = 2 ^ 53 * 2 ^ n := Nat.pow_add ..

/-- Rounding a mantissa gives a float above zero. -/
theorem above_round {m : Nat} {e : Int} (hm : 0 < m) (he : -1074 ≤ e) :
    Above (UnpackedFloat.round .binary64 .positive m e) := by
  unfold UnpackedFloat.round decreaseExponent roundWithAccuracy
  rw [targetExponent_eq]
  dsimp only
  generalize hn : (e - max ((m.log2 : Int) + 1 + e - 53) (-1074)).toNat = n
  have hm' : 0 < m <<< n := Nat.shiftLeft_pos_iff.mpr hm
  have he' : -1074 ≤ e - n := by omega
  -- The second shift is there for a mantissa that rounding has given one bit more.
  obtain ⟨hpos, _, hexponent⟩ := shiftToTargetExponent_bounds hm' he'
  obtain ⟨hpos', hpart⟩ :=
    shiftToTargetExponent_bounds (Nat.lt_of_lt_of_le hpos (le_roundedMantissa _)) hexponent
  rw [dif_neg (Nat.ne_of_gt hpos')]
  exact .finite hpos' hpart

/-- A quotient may be rounded to zero, but it keeps its sign. -/
theorem notBelow_unpack_pack_roundWithAccuracy (m : Nat) (e : Int) (accuracy : Accuracy) :
    NotBelow (unpack .binary64 (pack .binary64 (roundWithAccuracy .binary64 .positive m e accuracy))) := by
  unfold roundWithAccuracy
  dsimp only
  split
  · exact notBelow_unpack_pack_zero _
  · exact notBelow_unpack_pack_finite _

/-! ## §4 Sums and quotients -/

theorem above_normalize {m : Int} {e : Int} {sign : Sign} (hm : 0 < m) (he : -1074 ≤ e) :
    Above (UnpackedFloat.normalize .binary64 m e sign) := by
  unfold UnpackedFloat.normalize
  rw [Int.compare_eq_gt.mpr hm]
  exact above_round (by omega) he

theorem Above.add {u v : UnpackedFloat} (hu : Above u) (hv : NotBelow v) : Above (u.add .binary64 v) := by
  cases hu with
  | notANumber => exact .notANumber
  | infinity =>
    cases hv with
    | zero sign => exact .infinity
    | above hv =>
      cases hv with
      | notANumber => exact .notANumber
      | infinity => exact .infinity
      | finite => exact .infinity
  | @finite m e hm hpart =>
    cases hv with
    | zero sign => exact .finite hm hpart
    | above hv =>
      cases hv with
      | notANumber => exact .notANumber
      | infinity => exact .infinity
      | @finite m' e' hm' hpart' =>
        obtain ⟨_, he⟩ := hpart
        obtain ⟨_, he'⟩ := hpart'
        unfold UnpackedFloat.add decreaseExponent
        dsimp only
        have hpos : ∀ n, (0 : Int) < (m <<< n : Nat) := fun n => Int.natCast_pos.mpr (Nat.shiftLeft_pos_iff.mpr hm)
        exact above_normalize (Int.add_pos_of_pos_of_nonneg (hpos _) (Int.natCast_nonneg _)) (by omega)

theorem NotBelow.add {u v : UnpackedFloat} (hu : NotBelow u) (hv : NotBelow v) : NotBelow (u.add .binary64 v) := by
  cases hu with
  | above hu => exact .above (hu.add hv)
  | zero sign =>
    cases hv with
    | zero sign' => cases sign <;> cases sign' <;> exact .zero _
    | above hv =>
      cases hv with
      | notANumber => exact .above .notANumber
      | infinity => exact .above .infinity
      | finite hm hpart => exact .above (.finite hm hpart)

theorem NotBelow.unpack_pack {u : UnpackedFloat} (h : NotBelow u) :
    NotBelow (unpack .binary64 (pack .binary64 u)) := by
  cases h with
  | above h => exact .above h.unpack_pack
  | zero sign => exact notBelow_unpack_pack_zero sign

theorem Above.div {u v : UnpackedFloat} (hu : Above u) (hv : Above v) :
    NotBelow (unpack .binary64 (pack .binary64 (u.div .binary64 v))) := by
  cases hu with
  | notANumber => exact .above Above.notANumber.unpack_pack
  | infinity =>
    cases hv with
    | notANumber => exact .above Above.notANumber.unpack_pack
    | infinity => exact .above Above.notANumber.unpack_pack
    | finite => exact .above Above.infinity.unpack_pack
  | finite =>
    cases hv with
    | notANumber => exact .above Above.notANumber.unpack_pack
    | infinity => exact notBelow_unpack_pack_zero .positive
    | finite => exact notBelow_unpack_pack_roundWithAccuracy ..

theorem PositiveOrNaN.add {x y : Float} (hx : PositiveOrNaN x) (hy : NonnegativeOrNaN y) : PositiveOrNaN (x + y) := by
  rw [positiveOrNaN_iff] at hx ⊢
  exact (hx.add (nonnegativeOrNaN_iff.mp hy)).unpack_pack

theorem NonnegativeOrNaN.add {x y : Float} (hx : NonnegativeOrNaN x) (hy : NonnegativeOrNaN y) :
    NonnegativeOrNaN (x + y) := by
  rw [nonnegativeOrNaN_iff] at hx hy ⊢
  exact (hx.add hy).unpack_pack

theorem PositiveOrNaN.div {x y : Float} (hx : PositiveOrNaN x) (hy : PositiveOrNaN y) : NonnegativeOrNaN (x / y) := by
  rw [positiveOrNaN_iff] at hx hy
  exact nonnegativeOrNaN_iff.mpr (hx.div hy)

theorem PositiveOrNaN.nonnegative {x : Float} (h : PositiveOrNaN x) : NonnegativeOrNaN x :=
  nonnegativeOrNaN_iff.mpr (.above (positiveOrNaN_iff.mp h))

end BenchPlot.Decimal
