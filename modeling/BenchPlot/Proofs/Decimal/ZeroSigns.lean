import BenchPlot.Proofs.Decimal.Finite

/-!
# Numbers up to the sign of a zero

The two zeros are one number. What is computed from the same numbers by adding, subtracting and dividing is the same
number whatever the signs of the zeros among them, and the text of a number does not show the sign of a zero. Numbers,
the infinities among them, compare as their places do; so two numbers of one place are the same number.

Main statements: `SameNumber.add`, `SameNumber.sub`, `SameNumber.div`, `SameNumber.numberText_eq` and `compare?_places`.
-/

namespace BenchPlot.Decimal

open Float.Model (UnpackedFloat)
open Float.Model.UnpackedFloat (unpackMantissa unpackExponent)

/-- Two floats are the same number: they are equal, or zeros of any sign. -/
def SameNumber (x y : Float) : Prop :=
  unsignedZero x = unsignedZero y

/-! ## §1 Operations -/

/-- An unpacked float without the sign of a zero. -/
def unsigned : UnpackedFloat → UnpackedFloat
  | .zero _ => .zero .positive
  | u => u

theorem unsigned_add (format : Float.Model.Format) (u v : UnpackedFloat) :
    unsigned ((unsigned u).add format (unsigned v)) = unsigned (u.add format v) := by
  cases u with
  | zero s =>
    cases v with
    | zero t => cases s <;> cases t <;> rfl
    | _ => rfl
  | _ => cases v <;> rfl

theorem unsigned_sub (format : Float.Model.Format) (u v : UnpackedFloat) :
    unsigned ((unsigned u).sub format (unsigned v)) = unsigned (u.sub format v) := by
  cases u with
  | zero s =>
    cases v with
    | zero t => cases s <;> cases t <;> rfl
    | _ => rfl
  | _ => cases v <;> rfl

/-- The sign of a zero divisor is that of the infinity that comes out, so the divisor keeps its sign. -/
theorem unsigned_div (format : Float.Model.Format) (u v : UnpackedFloat) :
    unsigned ((unsigned u).div format v) = unsigned (u.div format v) := by
  cases u <;> cases v <;> rfl

theorem exists_zero_of_beq {x : Float} (h : (x == 0.0) = true) : ∃ sign, x.toModel.unpack = .zero sign := by
  have hzero : x.toModel.unpack.beq (.zero .positive) = true := h
  cases hx : x.toModel.unpack with
  | zero sign => exact ⟨sign, rfl⟩
  | infinity sign => rw [hx] at hzero; cases sign <;> cases hzero
  | notANumber => rw [hx] at hzero; cases hzero
  | finite sign m e hm => rw [hx] at hzero; cases sign <;> cases hzero

namespace SameNumber

/-- The same number is unpacked to the same parts. -/
theorem unsigned_unpack {x y : Float} (h : SameNumber x y) :
    unsigned x.toModel.unpack = unsigned y.toModel.unpack := by
  have hunsigned : ∀ z : Float, unsigned (unsignedZero z).toModel.unpack = unsigned z.toModel.unpack := by
    intro z
    unfold unsignedZero
    split
    · rename_i hz
      obtain ⟨sign, hsign⟩ := exists_zero_of_beq hz
      rw [hsign]
      rfl
    · rfl
  rw [← hunsigned x, ← hunsigned y, h]

/-- The same parts are packed to the same number. -/
theorem of_unsigned {u v : UnpackedFloat} (h : unsigned u = unsigned v) :
    SameNumber (.ofModel (.pack u)) (.ofModel (.pack v)) := by
  have hpack : ∀ w, SameNumber (.ofModel (.pack (unsigned w))) (.ofModel (.pack w)) := by
    intro w
    cases w with
    | zero sign => cases sign <;> rfl
    | _ => rfl
  exact (hpack u).symm.trans ((congrArg (fun w => unsignedZero (.ofModel (.pack w))) h).trans (hpack v))

variable {x x' y y' : Float}

theorem add (hx : SameNumber x x') (hy : SameNumber y y') : SameNumber (x + y) (x' + y') := by
  refine of_unsigned ?_
  rw [← unsigned_add, hx.unsigned_unpack, hy.unsigned_unpack, unsigned_add]

theorem sub (hx : SameNumber x x') (hy : SameNumber y y') : SameNumber (x - y) (x' - y') := by
  refine of_unsigned ?_
  rw [← unsigned_sub, hx.unsigned_unpack, hy.unsigned_unpack, unsigned_sub]

theorem div (hx : SameNumber x x') (y : Float) : SameNumber (x / y) (x' / y) := by
  refine of_unsigned ?_
  rw [← unsigned_div, hx.unsigned_unpack, unsigned_div]

end SameNumber

theorem numberText_unsignedZero (x : Float) : numberText (unsignedZero x) = numberText x := by
  unfold unsignedZero
  split
  · rename_i hzero
    exact (numberText_of_beq_zero hzero).symm
  · rfl

/-- The same number has one text. -/
theorem SameNumber.numberText_eq {x y : Float} (h : SameNumber x y) : numberText x = numberText y := by
  rw [← numberText_unsignedZero x, ← numberText_unsignedZero y, h]

/-! ## §2 Places of numbers -/

/-- A number that is not finite is an infinity. -/
theorem unpack_of_not_isFinite {x : Float} (hx : x.isNaN = false) (hinfinite : isFinite x = false) :
    x.toModel.unpack = .infinity (unpackedSign x) ∧ unsignedBits x = infinityBits := by
  have hge : infinityBits ≤ unsignedBits x := by
    by_contra hlt
    rw [isFinite_of_unsignedBits (by omega)] at hinfinite
    cases hinfinite
  have hm := toNat_unpackMantissa x.toBits.toBitVec
  have he := toNat_unpackExponent x.toBits.toBitVec
  have hlt := x.toBits.toNat_lt
  rw [UInt64.toNat_toBitVec] at hm he
  rw [unsignedBits, signBit_eq, infinityBits] at hge
  have hexponent : @unpackExponent .binary64 x.toBits.toBitVec = -1#_ := by
    rw [← BitVec.toNat_inj, he]
    show x.toBits.toNat / 2 ^ 52 % 2 ^ 11 = 2047
    omega
  have hnumber : x.toModel.unpack.isNaN = false := hx
  have hunpack : x.toModel.unpack = UnpackedFloat.unpack .binary64 x.toBits.toBitVec := rfl
  rw [hunpack, UnpackedFloat.unpack, if_pos hexponent, ofBitVec_unpackSign] at hnumber ⊢
  dsimp only at hnumber ⊢
  split at hnumber
  · rename_i hmantissa
    rw [if_pos hmantissa]
    rw [hmantissa] at hm
    refine ⟨rfl, ?_⟩
    rw [unsignedBits, signBit_eq, infinityBits]
    simp only [BitVec.toNat_ofNat, Nat.zero_mod] at hm
    omega
  · cases hnumber

theorem place_cases (x : Float) : (unpackedSign x = .negative ∧ place x = -(unsignedBits x : Int)) ∨
    (unpackedSign x = .positive ∧ place x = unsignedBits x) := by
  unfold place signed unpackedSign
  by_cases h : signBit ≤ x.toBits.toNat <;> simp [h]

/-- The place of an infinity. -/
theorem place_of_infinite {x : Float} (hx : x.isNaN = false) (hinfinite : isFinite x = false) :
    (x.toModel.unpack = .infinity .negative ∧ place x = -(infinityBits : Int)) ∨
    (x.toModel.unpack = .infinity .positive ∧ place x = infinityBits) := by
  obtain ⟨hunpack, hbits⟩ := unpack_of_not_isFinite hx hinfinite
  rw [hunpack, ← hbits]
  rcases place_cases x with ⟨hsign, hplace⟩ | ⟨hsign, hplace⟩
  · exact .inl ⟨by rw [hsign], hplace⟩
  · exact .inr ⟨by rw [hsign], hplace⟩

/-- Finite numbers stand between the infinities. -/
theorem place_of_isFinite {x : Float} (hx : isFinite x = true) :
    -(infinityBits : Int) < place x ∧ place x < infinityBits := by
  have hbits := (parts_of_isFinite hx).1
  rcases place_cases x with ⟨-, hplace⟩ | ⟨-, hplace⟩ <;> omega

/-- All numbers stand from the one infinity to the other. -/
theorem place_mem_Icc {x : Float} (hx : x.isNaN = false) :
    place x ∈ Set.Icc (-(infinityBits : Int)) infinityBits := by
  rw [Set.mem_Icc]
  cases hfinite : isFinite x with
  | true =>
    have := place_of_isFinite hfinite
    omega
  | false => rcases place_of_infinite hx hfinite with ⟨-, hplace⟩ | ⟨-, hplace⟩ <;> omega

/-- Each infinity is beyond all finite numbers. -/
theorem compare_infinity {x : Float} (hx : isFinite x = true) :
    x.toModel.unpack.compare (.infinity .negative) = some .gt
      ∧ x.toModel.unpack.compare (.infinity .positive) = some .lt
      ∧ UnpackedFloat.compare (.infinity .negative) x.toModel.unpack = some .lt
      ∧ UnpackedFloat.compare (.infinity .positive) x.toModel.unpack = some .gt := by
  rcases unpack_cases hx with ⟨-, hunpack⟩ | ⟨-, m, e, hm, hunpack, -⟩ <;> rw [hunpack] <;> exact ⟨rfl, rfl, rfl, rfl⟩

/-- Numbers compare as their places do. -/
theorem unpack_compare_places {x y : Float} (hx : x.isNaN = false) (hy : y.isNaN = false) :
    x.toModel.unpack.compare y.toModel.unpack = some (compare (place x) (place y)) := by
  cases hfx : isFinite x with
  | true =>
    cases hfy : isFinite y with
    | true => exact unpack_compare hfx hfy
    | false =>
      obtain ⟨hbelow, habove, -, -⟩ := compare_infinity hfx
      have hplace := place_of_isFinite hfx
      rcases place_of_infinite hy hfy with ⟨hunpack, hy⟩ | ⟨hunpack, hy⟩
      · rw [hunpack, hbelow, Int.compare_eq_gt.mpr (by omega)]
      · rw [hunpack, habove, Int.compare_eq_lt.mpr (by omega)]
  | false =>
    cases hfy : isFinite y with
    | true =>
      obtain ⟨-, -, hbelow, habove⟩ := compare_infinity hfy
      have hplace := place_of_isFinite hfy
      rcases place_of_infinite hx hfx with ⟨hunpack, hx⟩ | ⟨hunpack, hx⟩
      · rw [hunpack, hbelow, Int.compare_eq_lt.mpr (by omega)]
      · rw [hunpack, habove, Int.compare_eq_gt.mpr (by omega)]
    | false =>
      rcases place_of_infinite hx hfx with ⟨hux, hx⟩ | ⟨hux, hx⟩ <;>
        rcases place_of_infinite hy hfy with ⟨huy, hy⟩ | ⟨huy, hy⟩ <;> rw [hux, huy, hx, hy] <;> rfl

theorem lt_iff_place {x y : Float} (hx : x.isNaN = false) (hy : y.isNaN = false) : x < y ↔ place x < place y := by
  rw [lt_iff, unpack_compare_places hx hy, Option.some_inj, Int.compare_eq_lt]

theorem compare?_places {x y : Float} (hx : x.isNaN = false) (hy : y.isNaN = false) :
    compare? x y = some (compare (place x) (place y)) := by
  have hequal : (x == y) = true ↔ place x = place y := by
    rw [beq_iff, unpack_compare_places hx hy, Option.some_inj, Int.compare_eq_eq]
  simp only [compare?, lt_iff_place hx hy, lt_iff_place hy hx, hequal]
  rcases Int.lt_trichotomy (place x) (place y) with hlt | heq | hgt
  · rw [if_pos hlt, Int.compare_eq_lt.mpr hlt]
  · rw [if_neg (by omega), if_neg (by omega), if_pos heq, Int.compare_eq_eq.mpr heq]
  · rw [if_neg (by omega), if_pos hgt, Int.compare_eq_gt.mpr hgt]

/-- Numbers of one place are the same number. -/
theorem sameNumber_of_place {x y : Float} (h : place x = place y) : SameNumber x y := by
  have hplace : ∀ z : Float, place (unsignedZero z) = place z := by
    intro z
    unfold unsignedZero
    split
    · rename_i hz
      have hbits : unsignedBits z = 0 := bits_of_beq_zero hz
      have hzero : place 0.0 = 0 := rfl
      rcases place_cases z with ⟨-, hp⟩ | ⟨-, hp⟩ <;> omega
    · rfl
  have hunsigned : ∀ z : Float, (unsignedZero z == 0.0) = true → unsignedZero z = 0.0 := by
    intro z hz
    unfold unsignedZero at hz ⊢
    split
    · rfl
    · rename_i hne
      rw [if_neg hne] at hz
      exact absurd hz hne
  exact eq_of_place_eq (hunsigned x) (hunsigned y) (by rw [hplace, hplace, h])

/-- In the total order a negative number stands one below its place. -/
theorem place_eq_orderKey (x : Float) : place x = if 0 ≤ orderKey x then orderKey x else orderKey x + 1 := by
  have hlt := x.toBits.toNat_lt
  unfold place signed unsignedBits orderKey
  rw [signBit_eq]
  dsimp only
  by_cases hsign : 2 ^ 63 ≤ x.toBits.toNat
  · rw [if_pos (decide_eq_true hsign), if_neg (Nat.not_lt.mpr hsign), if_neg (by omega)]
    omega
  · rw [if_neg (by simpa using hsign), if_pos (by omega), if_pos (by omega)]
    omega

/-- The total order refines the order of places. -/
theorem place_mono {x y : Float} (h : orderKey x ≤ orderKey y) : place x ≤ place y := by
  rw [place_eq_orderKey, place_eq_orderKey]
  split <;> split <;> omega

end BenchPlot.Decimal
