import BenchPlot.Proofs.Decimal.ReadBack
import Mathlib

/-!
# The order of finite numbers

Finite numbers compare as their bits do: the bits without the sign count, as a negative integer if the sign
is set. So the comparison is a total order, and no two numbers but the zeros are equal.

Main statements: `compare?_eq` and `eq_of_place_eq`.
-/

namespace BenchPlot.Decimal

open Float.Model (UnpackedFloat)
open Float.Model.UnpackedFloat (unpackMantissa unpackExponent unpackSign)

/-- The place of a finite number in the order of numbers. -/
def place (x : Float) : Int :=
  signed (decide (signBit ≤ x.toBits.toNat)) (unsignedBits x)

/-! ## §1 Unpacked numbers -/

/-- The sign of an unpacked float. -/
def unpackedSign (x : Float) : UnpackedFloat.Sign :=
  if signBit ≤ x.toBits.toNat then .negative else .positive

theorem toNat_unpackSign (b : BitVec 64) : (@unpackSign .binary64 b).toNat = b.toNat / 2 ^ 63 % 2 := by
  simp [unpackSign, BitVec.extractLsb_toNat, Nat.shiftRight_eq_div_pow]

theorem ofBitVec_unpackSign (x : Float) :
    UnpackedFloat.Sign.ofBitVec (@unpackSign .binary64 x.toBits.toBitVec) = unpackedSign x := by
  have hlt := x.toBits.toNat_lt
  have hsign := toNat_unpackSign x.toBits.toBitVec
  rw [UInt64.toNat_toBitVec] at hsign
  unfold UnpackedFloat.Sign.ofBitVec unpackedSign
  have hiff : @unpackSign .binary64 x.toBits.toBitVec = 0#1 ↔ ¬signBit ≤ x.toBits.toNat := by
    rw [← BitVec.toNat_inj, hsign, signBit_eq]
    simp only [BitVec.toNat_ofNat]
    omega
  by_cases h : signBit ≤ x.toBits.toNat
  · rw [if_pos h, if_neg (by rw [hiff]; simpa using h)]
  · rw [if_neg h, if_pos (hiff.mpr h)]

/-- The mantissa and the exponent of an unpacked float follow from its bits without the sign: the exponent
    is above the mantissa, but the least one stands for two. -/
structure FromBits (bits mantissa : Nat) (exponent : Int) : Prop where
  least : bits < 2 ^ 52 → mantissa = bits ∧ exponent = -1074
  later : 2 ^ 52 ≤ bits → mantissa = 2 ^ 52 + bits % 2 ^ 52 ∧ exponent = bits / 2 ^ 52 - 1075

/-- A finite float without bits but the sign is unpacked to a zero, any other one to its parts. -/
theorem unpack_cases {x : Float} (hx : isFinite x = true) :
    (unsignedBits x = 0 ∧ x.toModel.unpack = .zero (unpackedSign x)) ∨
    (0 < unsignedBits x ∧ ∃ mantissa exponent hpos,
      x.toModel.unpack = .finite (unpackedSign x) mantissa exponent hpos
        ∧ FromBits (unsignedBits x) mantissa exponent) := by
  have hfinite := (parts_of_isFinite hx).1
  have hm := toNat_unpackMantissa x.toBits.toBitVec
  have he := toNat_unpackExponent x.toBits.toBitVec
  have hlt := x.toBits.toNat_lt
  have hunsigned : unsignedBits x = x.toBits.toNat % 2 ^ 63 := by rw [unsignedBits, signBit_eq]
  rw [UInt64.toNat_toBitVec] at hm he
  rw [infinityBits] at hfinite
  have hunpack : x.toModel.unpack = UnpackedFloat.unpack .binary64 x.toBits.toBitVec := rfl
  have hbias : ((Float.Model.Format.binary64.exponentBias : Int)
      + (Float.Model.Format.binary64.mantissaBitsWithoutImplicit : Nat)) = 1075 := rfl
  rw [hunpack, UnpackedFloat.unpack, ofBitVec_unpackSign, hbias]
  have hmzero : @unpackMantissa .binary64 x.toBits.toBitVec = 0#_
      ↔ (@unpackMantissa .binary64 x.toBits.toBitVec).toNat = 0 := by
    rw [← BitVec.toNat_inj]
    rfl
  have hezero : @unpackExponent .binary64 x.toBits.toBitVec = 0#_
      ↔ (@unpackExponent .binary64 x.toBits.toBitVec).toNat = 0 := by
    rw [← BitVec.toNat_inj]
    rfl
  have hefull : @unpackExponent .binary64 x.toBits.toBitVec = -1#_
      ↔ (@unpackExponent .binary64 x.toBits.toBitVec).toNat = 2047 := by
    rw [← BitVec.toNat_inj]
    rfl
  dsimp only
  rw [if_neg (by rw [hefull]; omega)]
  split
  · rename_i hnone
    rw [hezero] at hnone
    split
    · rename_i hzero
      rw [hmzero] at hzero
      exact .inl ⟨by omega, rfl⟩
    · rename_i hfull
      rw [hmzero] at hfull
      exact .inr ⟨by omega, _, _, Nat.pos_of_ne_zero hfull, rfl, fun _ => by omega, fun _ => by omega⟩
  · rename_i hsome
    rw [hezero] at hsome
    have happend := toNat_one_append (@unpackMantissa .binary64 x.toBits.toBitVec)
    refine .inr ⟨by omega, _, _, by rw [happend]; omega, rfl, fun _ => by omega, fun _ => ⟨?_, by omega⟩⟩
    rw [happend]
    omega

/-! ## §2 Comparisons -/

theorem lt_iff (x y : Float) : x < y ↔ x.toModel.unpack.compare y.toModel.unpack = some .lt := by
  show decide (x.toModel < y.toModel) = true ↔ _
  rw [decide_eq_true_iff]
  show (x.toModel.unpack.compare y.toModel.unpack == some .lt) = true ↔ _
  rw [beq_iff_eq]

theorem le_iff (x y : Float) : x ≤ y ↔ (x.toModel.unpack.compare y.toModel.unpack).any (·.isLE) = true := by
  show decide (x.toModel ≤ y.toModel) = true ↔ _
  rw [decide_eq_true_iff]
  rfl

theorem beq_iff (x y : Float) : (x == y) = true ↔ x.toModel.unpack.compare y.toModel.unpack = some .eq := by
  show (x.toModel.unpack.compare y.toModel.unpack == some .eq) = true ↔ _
  rw [beq_iff_eq]

/-- Exponents and then mantissas compare as the bits do that they come from. -/
theorem FromBits.compare {b b' m m' : Nat} {e e' : Int} (h : FromBits b m e) (h' : FromBits b' m' e') :
    (Ord.compare e e').then (Ord.compare m m') = Ord.compare b b' := by
  have hcases : (b < 2 ^ 52 ∧ m = b ∧ e = -1074) ∨
      (2 ^ 52 ≤ b ∧ m = 2 ^ 52 + b % 2 ^ 52 ∧ e = b / 2 ^ 52 - 1075) := by
    have := h.least
    have := h.later
    omega
  have hcases' : (b' < 2 ^ 52 ∧ m' = b' ∧ e' = -1074) ∨
      (2 ^ 52 ≤ b' ∧ m' = 2 ^ 52 + b' % 2 ^ 52 ∧ e' = b' / 2 ^ 52 - 1075) := by
    have := h'.least
    have := h'.later
    omega
  rcases Nat.lt_trichotomy b b' with hlt | rfl | hgt
  · rw [Nat.compare_eq_lt.mpr hlt]
    by_cases he : e = e'
    · rw [he, Std.ReflOrd.compare_self, Nat.compare_eq_lt.mpr (by omega)]
      rfl
    · rw [Int.compare_eq_lt.mpr (by omega)]
      rfl
  · have he : e = e' := by omega
    have hm : m = m' := by omega
    rw [he, hm, Std.ReflOrd.compare_self, Std.ReflOrd.compare_self, Std.ReflOrd.compare_self]
    rfl
  · rw [Nat.compare_eq_gt.mpr hgt]
    by_cases he : e = e'
    · rw [he, Std.ReflOrd.compare_self, Nat.compare_eq_gt.mpr (by omega)]
      rfl
    · rw [Int.compare_eq_gt.mpr (by omega)]
      rfl

theorem compare_natCast (m n : Nat) : Ord.compare (m : Int) n = Ord.compare m n := by
  rcases Nat.lt_trichotomy m n with hlt | rfl | hgt
  · rw [Nat.compare_eq_lt.mpr hlt, Int.compare_eq_lt.mpr (by omega)]
  · simp only [Std.ReflOrd.compare_self]
  · rw [Nat.compare_eq_gt.mpr hgt, Int.compare_eq_gt.mpr (by omega)]

theorem compare_neg_natCast (m n : Nat) : Ord.compare (-(m : Int)) (-n) = (Ord.compare m n).swap := by
  rcases Nat.lt_trichotomy m n with hlt | rfl | hgt
  · rw [Nat.compare_eq_lt.mpr hlt, Int.compare_eq_gt.mpr (by omega)]
    rfl
  · simp only [Std.ReflOrd.compare_self]
    rfl
  · rw [Nat.compare_eq_gt.mpr hgt, Int.compare_eq_lt.mpr (by omega)]
    rfl

/-- Finite numbers compare as their places do. -/
theorem unpack_compare {x y : Float} (hx : isFinite x = true) (hy : isFinite y = true) :
    x.toModel.unpack.compare y.toModel.unpack = some (compare (place x) (place y)) := by
  have hplace : ∀ z : Float, (unpackedSign z = .negative ∧ place z = -(unsignedBits z : Int)) ∨
      (unpackedSign z = .positive ∧ place z = unsignedBits z) := by
    intro z
    unfold place signed unpackedSign
    by_cases h : signBit ≤ z.toBits.toNat <;> simp [h]
  rcases unpack_cases hx with ⟨hux, hunx⟩ | ⟨hux, m, e, hpos, hunx, hbits⟩
  · rcases unpack_cases hy with ⟨huy, huny⟩ | ⟨huy, m', e', hpos', huny, hbits'⟩
    · rw [hunx, huny]
      have hpx : place x = 0 := by rcases hplace x with ⟨_, hp⟩ | ⟨_, hp⟩ <;> omega
      have hpy : place y = 0 := by rcases hplace y with ⟨_, hp⟩ | ⟨_, hp⟩ <;> omega
      rw [hpx, hpy]
      rfl
    · have hpx : place x = 0 := by rcases hplace x with ⟨_, hp⟩ | ⟨_, hp⟩ <;> omega
      rw [hunx, huny, hpx]
      rcases hplace y with ⟨hs, hp⟩ | ⟨hs, hp⟩
      · rw [hs, Int.compare_eq_gt.mpr (by omega)]
        rfl
      · rw [hs, Int.compare_eq_lt.mpr (by omega)]
        rfl
  · rcases unpack_cases hy with ⟨huy, huny⟩ | ⟨huy, m', e', hpos', huny, hbits'⟩
    · have hpy : place y = 0 := by rcases hplace y with ⟨_, hp⟩ | ⟨_, hp⟩ <;> omega
      rw [hunx, huny, hpy]
      rcases hplace x with ⟨hs, hp⟩ | ⟨hs, hp⟩
      · rw [hs, Int.compare_eq_lt.mpr (by omega)]
        rfl
      · rw [hs, Int.compare_eq_gt.mpr (by omega)]
        rfl
    · -- Two numbers of one sign compare by their bits, in reverse if the sign is set.
      have hparts := hbits.compare hbits'
      rw [hunx, huny]
      rcases hplace x with ⟨hsx, hpx⟩ | ⟨hsx, hpx⟩ <;> rcases hplace y with ⟨hsy, hpy⟩ | ⟨hsy, hpy⟩
      · rw [hsx, hsy, hpx, hpy]
        show some (((compare e e').then (compare m m')).swap) = _
        rw [hparts, compare_neg_natCast]
      · rw [hsx, hsy, Int.compare_eq_lt.mpr (by omega)]
        rfl
      · rw [hsx, hsy, Int.compare_eq_gt.mpr (by omega)]
        rfl
      · rw [hsx, hsy, hpx, hpy]
        show some ((compare e e').then (compare m m')) = _
        rw [hparts, compare_natCast]

/-- Finite numbers compare as their places do. -/
theorem compare?_eq {x y : Float} (hx : isFinite x = true) (hy : isFinite y = true) :
    compare? x y = some (compare (place x) (place y)) := by
  have hxy := unpack_compare hx hy
  have hyx := unpack_compare hy hx
  simp only [compare?, lt_iff, beq_iff, hxy, hyx]
  rcases Int.lt_trichotomy (place x) (place y) with hlt | heq | hgt
  · rw [if_pos (by rw [Int.compare_eq_lt.mpr hlt]), Int.compare_eq_lt.mpr hlt]
  · simp [heq, Std.ReflOrd.compare_self]
  · simp [Int.compare_eq_gt.mpr hgt, Int.compare_eq_lt.mpr hgt]

/-- Numbers without a sign on zero that have one place are one number. -/
theorem eq_of_place_eq {x y : Float} (hx : (x == 0.0) = true → x = 0.0) (hy : (y == 0.0) = true → y = 0.0)
    (h : place x = place y) : x = y := by
  have hxlt := x.toBits.toNat_lt
  have hylt := y.toBits.toNat_lt
  have hu : unsignedBits x = unsignedBits y := by
    unfold place signed at h
    split at h <;> split at h <;> omega
  by_cases hzero : unsignedBits x = 0
  · rw [hx (beq_zero_of_unsignedBits hzero), hy (beq_zero_of_unsignedBits (hu ▸ hzero))]
  · -- Signs and bits without signs are all that two words can differ in.
    refine eq_of_toBits_eq (UInt64.toNat_inj.mp ?_)
    simp only [place, signed, decide_eq_true_eq] at h
    simp only [unsignedBits, signBit_eq] at hu hzero h
    omega

end BenchPlot.Decimal
