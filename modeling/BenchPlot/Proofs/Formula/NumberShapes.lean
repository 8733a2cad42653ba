import BenchPlot.Formula.Template
import BenchPlot.Proofs.Decimal.ZeroSigns

/-!
# Shapes of numbers in templates

A directive for a number writes a sign, if there is one, and an unsigned numeral. It fills them up to its width with
spaces in front of them or behind them, or with zeros behind the sign. The plus flag looks at the number and the rest
at the digits, so the two of them differ where the digits do not show the sign of the number: a zero with a sign bit
has a plus sign in front of its minus sign, and a number that is cut down to zero has no sign at all.

Main statement: `Directive.exists_shape`.
-/

namespace BenchPlot

open Decimal (isDigit naturalText withPoint withSign isFinite signBit unsignedBits digitChars integerText fixedText)

/-! ## §1 Unsigned numerals -/

/-- Nothing, or a point with digits behind it. -/
inductive IsFraction : List Char → Prop
  | none : IsFraction []
  | point {ds : List Char} (hfull : ds ≠ []) (hdigits : ∀ c ∈ ds, isDigit c = true) : IsFraction ('.' :: ds)

/-- Nothing, or the mark of an exponent with a sign and digits behind it. -/
inductive IsExponent : List Char → Prop
  | none : IsExponent []
  | marked {mark sign : Char} {ds : List Char} (hmark : mark = 'e' ∨ mark = 'E') (hsign : sign = '+' ∨ sign = '-')
    (hfull : ds ≠ []) (hdigits : ∀ c ∈ ds, isDigit c = true) : IsExponent (mark :: sign :: ds)

/-- Digits, and a fraction or none. -/
inductive IsMantissa : List Char → Prop
  | parts {whole fraction : List Char} (hfull : whole ≠ []) (hwhole : ∀ c ∈ whole, isDigit c = true)
    (hfraction : IsFraction fraction) : IsMantissa (whole ++ fraction)

/-- Digits, a fraction or none, and an exponent or none. -/
inductive IsUnsignedNumeral : List Char → Prop
  | parts {mantissa exponent : List Char} (hmantissa : IsMantissa mantissa) (hexponent : IsExponent exponent) :
    IsUnsignedNumeral (mantissa ++ exponent)

theorem IsMantissa.isUnsignedNumeral {cs : List Char} (h : IsMantissa cs) : IsUnsignedNumeral cs :=
  List.append_nil cs ▸ .parts h .none

/-- An unsigned numeral begins with a digit. -/
theorem IsUnsignedNumeral.exists_digit {cs : List Char} (h : IsUnsignedNumeral cs) :
    ∃ c rest, cs = c :: rest ∧ isDigit c = true := by
  obtain ⟨⟨hfull, hwhole, -⟩, -⟩ := h
  obtain ⟨c, rest, rfl⟩ := List.exists_cons_of_ne_nil hfull
  exact ⟨c, _, rfl, hwhole c (List.mem_cons_self ..)⟩

theorem toList_naturalText (n : Nat) : (naturalText n).toList = digitChars n :=
  String.toList_ofList

theorem isDigit_of_mem_naturalText {n : Nat} {c : Char} (hc : c ∈ (naturalText n).toList) : isDigit c = true :=
  Decimal.isDigit_of_mem_digitChars (toList_naturalText n ▸ hc)

theorem naturalText_ne_nil (n : Nat) : (naturalText n).toList ≠ [] :=
  toList_naturalText n ▸ Nat.toDigits_ne_nil

theorem isMantissa_naturalText (n : Nat) : IsMantissa (naturalText n).toList :=
  List.append_nil (naturalText n).toList ▸
    .parts (naturalText_ne_nil n) (fun _ => isDigit_of_mem_naturalText) .none

theorem isMantissa_withPoint (n places : Nat) : IsMantissa (withPoint n places).toList := by
  by_cases hplaces : places = 0
  · rw [hplaces]
    exact isMantissa_naturalText n
  · obtain ⟨whole, fraction, htext, hfull, hlength, hwhole, hfraction, -⟩ := Decimal.exists_withPoint n hplaces
    rw [htext]
    refine .parts hfull hwhole (.point ?_ hfraction)
    rintro rfl
    exact hplaces hlength.symm

theorem isExponent_exponentText (e : Int) : IsExponent (exponentText e).toList := by
  obtain ⟨sign, hsign, htext⟩ : ∃ sign, (sign = '+' ∨ sign = '-')
      ∧ (if e < 0 then "-" else "+") = String.singleton sign := by
    split
    · exact ⟨'-', .inr rfl, rfl⟩
    · exact ⟨'+', .inl rfl, rfl⟩
  obtain ⟨ds, hfull, hdigits, hexponent⟩ : ∃ ds : List Char, ds ≠ [] ∧ (∀ c ∈ ds, isDigit c = true)
      ∧ (exponentText e).toList = 'e' :: sign :: ds := by
    unfold exponentText
    rw [htext]
    dsimp only
    split
    · refine ⟨'0' :: (naturalText e.natAbs).toList, List.cons_ne_nil _ _, ?_, by simp⟩
      exact List.forall_mem_cons.mpr ⟨rfl, fun _ => isDigit_of_mem_naturalText⟩
    · exact ⟨(naturalText e.natAbs).toList, naturalText_ne_nil _, fun _ => isDigit_of_mem_naturalText, by simp⟩
  rw [hexponent]
  exact .marked (.inl rfl) hsign hfull hdigits

/-! ## §2 Signed numerals -/

/-- A minus sign or none. -/
def minusSign (minus : Bool) : List Char :=
  if minus then ['-'] else []

theorem toList_withSign (minus : Bool) (body : String) :
    (withSign minus body).toList = minusSign minus ++ body.toList := by
  cases minus with
  | false => rfl
  | true => exact String.toList_append ..

/-- An unsigned numeral behind a minus sign or none. -/
def IsSignedNumeral (minus : Bool) (s : String) : Prop :=
  ∃ cs, s.toList = minusSign minus ++ cs ∧ IsUnsignedNumeral cs

theorem isSignedNumeral_withSign (minus : Bool) {body : String} (h : IsUnsignedNumeral body.toList) :
    IsSignedNumeral minus (withSign minus body) :=
  ⟨_, toList_withSign minus body, h⟩

theorem isSignedNumeral_integerText (i : Int) : IsSignedNumeral (decide (i < 0)) (integerText i) := by
  have hbody := (isMantissa_naturalText i.natAbs).isUnsignedNumeral
  unfold integerText
  split
  · rename_i hi
    rw [decide_eq_true hi]
    exact isSignedNumeral_withSign true hbody
  · rename_i hi
    rw [decide_eq_false hi]
    exact isSignedNumeral_withSign false hbody

/-- Whether a float has its sign bit. -/
def hasSignBit (x : Float) : Bool :=
  decide (signBit ≤ x.toBits.toNat)

variable {x : Float}

theorem exists_fixedText (hx : isFinite x = true) (places : Nat) :
    ∃ n, fixedText x places = withSign (hasSignBit x) (withPoint n places) := by
  unfold fixedText
  rw [(Decimal.parts_of_isFinite hx).2]
  exact ⟨_, rfl⟩

theorem exists_exponentParts (hx : isFinite x = true) (places : Nat) :
    ∃ n e, exponentParts x places = (withSign (hasSignBit x) (withPoint n places), some e) := by
  unfold exponentParts
  rw [(Decimal.parts_of_isFinite hx).2]
  exact ⟨_, _, rfl⟩

theorem isSignedNumeral_fixedText (hx : isFinite x = true) (places : Nat) :
    IsSignedNumeral (hasSignBit x) (fixedText x places) := by
  obtain ⟨n, htext⟩ := exists_fixedText hx places
  rw [htext]
  exact isSignedNumeral_withSign _ (isMantissa_withPoint ..).isUnsignedNumeral

theorem isSignedNumeral_exponentForm (hx : isFinite x = true) (places : Nat) :
    IsSignedNumeral (hasSignBit x) (exponentForm x places) := by
  obtain ⟨n, e, hparts⟩ := exists_exponentParts hx places
  unfold exponentForm
  rw [hparts]
  refine ⟨(withPoint n places).toList ++ (exponentText e).toList, ?_,
    .parts (isMantissa_withPoint ..) (isExponent_exponentText e)⟩
  dsimp only
  rw [String.toList_append, toList_withSign, List.append_assoc]
  rfl

/-! ## §3 Upper case -/

/-- Characters in front of the small letters are their own capitals. -/
theorem upperChar_of_lt {c : Char} (hc : c.toNat < 0x61) : Text.upperChar c = [c] := by
  have hruns : ∀ run ∈ Text.upperRuns, 0x61 ≤ run.first := by decide +kernel
  have hlong : ∀ entry ∈ Text.upperLong, 0x61 ≤ entry.1 := by decide +kernel
  have hnorun : Text.upperRuns.findSome? (fun run => run.form? c.toNat) = none := by
    rw [Array.findSome?_eq_none_iff]
    intro run hrun
    have := hruns run hrun
    unfold Text.CaseRun.form?
    rw [if_neg]
    simp only [Bool.and_eq_true, decide_eq_true_eq]
    omega
  have hnolong : Text.upperLong.find? (fun entry => entry.1 == c.toNat) = none := by
    rw [Array.find?_eq_none]
    intro entry hentry
    have := hlong entry hentry
    simp only [beq_iff_eq]
    omega
  unfold Text.upperChar Text.caseForm
  dsimp only
  rw [hnorun, hnolong]

theorem flatMap_upperChar_of_lt {cs : List Char} (h : ∀ c ∈ cs, c.toNat < 0x61) : cs.flatMap Text.upperChar = cs := by
  induction cs with
  | nil => rfl
  | cons c cs ih =>
    obtain ⟨hc, hcs⟩ := List.forall_mem_cons.mp h
    rw [List.flatMap_cons, upperChar_of_lt hc, ih hcs, List.singleton_append]

theorem toNat_lt_of_isDigit {c : Char} (hc : isDigit c = true) : c.toNat < 0x61 := by
  have hnine : c.val ≤ 57 := of_decide_eq_true (Bool.and_eq_true_iff.mp hc).2
  have : c.val.toNat ≤ 57 := hnine
  show c.val.toNat < _
  omega

theorem IsMantissa.toNat_lt {cs : List Char} (h : IsMantissa cs) : ∀ c ∈ cs, c.toNat < 0x61 := by
  obtain ⟨-, hwhole, hfraction⟩ := h
  intro c hc
  rcases List.mem_append.mp hc with hc | hc
  · exact toNat_lt_of_isDigit (hwhole c hc)
  · cases hfraction with
    | none => cases hc
    | point _ hdigits =>
      rcases List.mem_cons.mp hc with rfl | hc
      · decide
      · exact toNat_lt_of_isDigit (hdigits c hc)

theorem IsExponent.upper {cs : List Char} (h : IsExponent cs) : IsExponent (cs.flatMap Text.upperChar) := by
  cases h with
  | none => exact .none
  | @marked mark sign ds hmark hsign hfull hdigits =>
    have hmark' : Text.upperChar mark = ['E'] := by
      rcases hmark with rfl | rfl
      · decide +kernel
      · exact upperChar_of_lt (by decide)
    have hsign' : Text.upperChar sign = [sign] := by
      rcases hsign with rfl | rfl
      · exact upperChar_of_lt (by decide)
      · exact upperChar_of_lt (by decide)
    have hds : ds.flatMap Text.upperChar = ds :=
      flatMap_upperChar_of_lt fun c hc => toNat_lt_of_isDigit (hdigits c hc)
    rw [List.flatMap_cons, List.flatMap_cons, hmark', hsign', hds]
    exact .marked (.inr rfl) hsign hfull hdigits

theorem IsSignedNumeral.upper {minus : Bool} {s : String} (h : IsSignedNumeral minus s) :
    IsSignedNumeral minus (Text.upper s) := by
  obtain ⟨_, htext, hmantissa, hexponent⟩ := h
  have hminus : (minusSign minus).flatMap Text.upperChar = minusSign minus := by
    refine flatMap_upperChar_of_lt fun c hc => ?_
    cases minus with
    | false => cases hc
    | true =>
      rw [List.mem_singleton.mp hc]
      decide
  refine ⟨_, ?_, .parts hmantissa hexponent.upper⟩
  rw [Text.upper, String.toList_ofList, htext, List.flatMap_append, List.flatMap_append, hminus,
    flatMap_upperChar_of_lt hmantissa.toNat_lt]

/-! ## §4 Trimmed fractions -/

/-- Trimming takes zeros from the end of a fraction, or all of the fraction. -/
theorem exists_trimFraction {front fraction : List Char} (hpoint : '.' ∉ front) (h : IsFraction fraction) :
    ∃ trimmed, (trimFraction (String.ofList (front ++ fraction))).toList = front ++ trimmed ∧ IsFraction trimmed := by
  unfold trimFraction
  rw [String.toList_ofList]
  cases h with
  | none =>
    rw [List.append_nil, if_neg (by simpa using hpoint), String.toList_ofList]
    exact ⟨[], (List.append_nil front).symm, .none⟩
  | @point ds hfull hdigits =>
    have hreverse : (front ++ '.' :: ds).reverse = ds.reverse ++ '.' :: front.reverse := by simp
    rw [if_pos (by simp), hreverse, String.toList_ofList, List.dropWhile_append]
    cases hkept : ds.reverse.dropWhile (· == '0') with
    | nil =>
      -- All of the fraction is zeros, so the point goes too, and no point stands in front of it.
      have hfront : front.reverse.dropWhile (· == '.') = front.reverse := by
        rw [List.dropWhile_eq_self_iff]
        intro hpos hhead
        exact hpoint (List.mem_reverse.mp (beq_iff_eq.mp hhead ▸ List.getElem_mem hpos))
      have hall : ('.' :: front.reverse).dropWhile (· == '0') = '.' :: front.reverse := rfl
      rw [List.isEmpty_nil, if_pos rfl, hall, List.dropWhile_cons_of_pos rfl, hfront, List.reverse_reverse]
      exact ⟨[], (List.append_nil front).symm, .none⟩
    | cons c rest =>
      have hmem : ∀ d ∈ c :: rest, isDigit d = true := by
        intro d hd
        rw [← hkept] at hd
        exact hdigits d (List.mem_reverse.mp ((List.dropWhile_sublist _).mem hd))
      have hc : ¬(c == '.') = true := by
        rw [beq_iff_eq]
        rintro rfl
        cases hmem _ (List.mem_cons_self ..)
      rw [if_neg (by simp), List.cons_append, List.dropWhile_cons, if_neg hc]
      refine ⟨'.' :: (c :: rest).reverse, by simp, .point (by simp) fun d hd => hmem d (List.mem_reverse.mp hd)⟩

/-- A signed mantissa stays one when its fraction is trimmed. -/
theorem exists_trimFraction_withSign (minus : Bool) {body : String} (h : IsMantissa body.toList) :
    ∃ cs, (trimFraction (withSign minus body)).toList = minusSign minus ++ cs ∧ IsMantissa cs := by
  have htext : String.ofList (withSign minus body).toList = withSign minus body := String.ofList_toList
  rw [toList_withSign] at htext
  generalize body.toList = cs at h htext
  obtain ⟨hfull, hwhole, hfraction⟩ := h
  rename_i whole fraction
  have hpoint : '.' ∉ minusSign minus ++ whole := by
    intro hmem
    rcases List.mem_append.mp hmem with hmem | hmem
    · cases minus with
      | false => cases hmem
      | true => exact absurd (List.mem_singleton.mp hmem) (by decide)
    · cases hwhole _ hmem
  obtain ⟨trimmed, htrimmed, hmantissa⟩ := exists_trimFraction hpoint hfraction
  rw [List.append_assoc, htext, List.append_assoc] at htrimmed
  exact ⟨_, htrimmed, .parts hfull hwhole hmantissa⟩

/-- In the general form a zero has no sign, and every other number has its own. -/
theorem isSignedNumeral_generalForm (hx : isFinite x = true) (precision : Nat) :
    IsSignedNumeral (hasSignBit x && !(x == 0.0)) (generalForm x precision) := by
  unfold generalForm
  dsimp only
  split
  · rename_i hzero
    rw [hzero, Bool.not_true, Bool.and_false]
    exact isSignedNumeral_withSign false (isMantissa_naturalText 0).isUnsignedNumeral
  · rename_i hzero
    rw [Bool.eq_false_iff.mpr hzero, Bool.not_false, Bool.and_true]
    split
    · obtain ⟨n, e, hparts⟩ := exists_exponentParts hx (max precision 1 - 1)
      obtain ⟨cs, htext, hcs⟩ := exists_trimFraction_withSign (hasSignBit x) (isMantissa_withPoint n _)
      rw [hparts]
      refine ⟨cs ++ (exponentText e).toList, ?_, .parts hcs (isExponent_exponentText e)⟩
      rw [String.toList_append, htext, List.append_assoc]
    · obtain ⟨n, hfixed⟩ := exists_fixedText hx (max precision 1 - 1 - decimalExponent x).toNat
      obtain ⟨cs, htext, hcs⟩ := exists_trimFraction_withSign (hasSignBit x) (isMantissa_withPoint n _)
      rw [hfixed]
      exact ⟨cs, htext, hcs.isUnsignedNumeral⟩

/-! ## §5 Signs of numbers -/

theorem zero_le_iff (hx : isFinite x = true) : 0.0 ≤ x ↔ ¬x < 0.0 := by
  have hzero : isFinite 0.0 = true := rfl
  rw [Decimal.lt_iff_place (Decimal.isNaN_of_isFinite hx) rfl, Decimal.le_iff, Decimal.unpack_compare hzero hx,
    Option.any_some, Int.isLE_compare, not_lt]

theorem beq_zero_iff : (x == 0.0) = true ↔ unsignedBits x = 0 :=
  ⟨Decimal.bits_of_beq_zero, Decimal.beq_zero_of_unsignedBits⟩

/-- The numbers below zero are those with a sign bit and with another bit. -/
theorem lt_zero_iff (hx : isFinite x = true) : x < 0.0 ↔ hasSignBit x = true ∧ ¬(x == 0.0) = true := by
  have hplace : Decimal.place x = Decimal.signed (hasSignBit x) (unsignedBits x) := rfl
  have hzero : Decimal.place 0.0 = 0 := rfl
  rw [Decimal.lt_iff_place (Decimal.isNaN_of_isFinite hx) rfl, beq_zero_iff, hplace, hzero]
  cases hasSignBit x with
  | false => simp [Decimal.signed]
  | true =>
    simp only [Decimal.signed, if_true, true_and]
    omega

/-- The zero with a sign bit has no other bit. -/
theorem eq_negZero_iff : x = -0.0 ↔ hasSignBit x = true ∧ (x == 0.0) = true := by
  constructor
  · rintro rfl
    exact ⟨rfl, rfl⟩
  · rintro ⟨hsign, hzero⟩
    have hlt := x.toBits.toNat_lt
    have hbits := beq_zero_iff.mp hzero
    rw [hasSignBit, decide_eq_true_iff, Decimal.signBit_eq] at hsign
    rw [unsignedBits, Decimal.signBit_eq] at hbits
    have hnat : x.toBits.toNat = (-0.0 : Float).toBits.toNat := by
      show _ = 2 ^ 63
      omega
    exact Decimal.eq_of_toBits_eq (UInt64.toNat_inj.mp hnat)

/-- A finite number cut down to an integer has the sign of the number, unless nothing is left of it. -/
theorem exists_toBoundedInt (hx : isFinite x = true) : ∃ whole : Nat,
    Decimal.toBoundedInt Decimal.int64Bounds x
      = Decimal.clamp (-0x8000000000000000) 0x7FFFFFFFFFFFFFFF (Decimal.signed (hasSignBit x) whole)
    ∧ ((x == 0.0) = true → whole = 0) := by
  unfold Decimal.toBoundedInt
  rw [(Decimal.parts_of_isFinite hx).2]
  refine ⟨_, rfl, fun hzero => ?_⟩
  rw [beq_zero_iff.mp hzero]
  exact (congrArg (· / _) (Nat.zero_shiftLeft _)).trans (Nat.zero_div _)

theorem lt_zero_of_toBoundedInt (hx : isFinite x = true) (h : Decimal.toBoundedInt Decimal.int64Bounds x < 0) :
    x < 0.0 := by
  obtain ⟨whole, hint, hzero⟩ := exists_toBoundedInt hx
  rw [hint, Decimal.clamp] at h
  rw [lt_zero_iff hx]
  cases hsign : hasSignBit x with
  | false =>
    rw [hsign, Decimal.signed, if_neg Bool.false_ne_true] at h
    omega
  | true =>
    refine ⟨rfl, fun hx => ?_⟩
    rw [hsign, hzero hx, Decimal.signed, if_pos rfl] at h
    omega

theorem toBoundedInt_nonpos (hx : isFinite x = true) (h : x < 0.0) :
    Decimal.toBoundedInt Decimal.int64Bounds x ≤ 0 := by
  obtain ⟨whole, hint, -⟩ := exists_toBoundedInt hx
  rw [hint, ((lt_zero_iff hx).mp h).1, Decimal.clamp, Decimal.signed, if_pos rfl]
  omega

/-! ## §6 Padding -/

/-- The parts of a number that a directive has written. -/
structure PaddedNumber where
  leading : Nat
  sign : Option Char
  zeros : Nat
  /-- Whether a minus sign stands behind the first sign and the zeros. -/
  second : Bool
  body : List Char
  trailing : Nat

namespace PaddedNumber

variable (p : PaddedNumber)

/-- The number before it is filled up. -/
def unpadded : String :=
  String.ofList (p.sign.toList ++ (minusSign p.second ++ p.body))

/-- The text of the number. -/
def text : String :=
  String.ofList (List.replicate p.leading ' '
    ++ (p.sign.toList ++ (List.replicate p.zeros '0' ++ (minusSign p.second ++ p.body)))
    ++ List.replicate p.trailing ' ')

end PaddedNumber

/-- What the flags and the width of a directive demand of a number. -/
structure Directive.Shapes (d : Directive) (p : PaddedNumber) : Prop where
  numeral : IsUnsignedNumeral p.body
  sign : ∀ c ∈ p.sign, c = '+' ∨ c = '-'
  left : d.left = true → p.leading = 0 ∧ p.zeros = 0
  zero : d.zero = true → d.left = false → p.leading = 0 ∧ p.trailing = 0
  length : p.text.length = max d.width p.unpadded.length

theorem Directive.exists_pad (d : Directive) {sign : Option Char} {rest : List Char}
    (hsign : ∀ c ∈ sign, c = '+' ∨ c = '-') (hrest : sign = none → ∀ c ∈ rest.head?, c ≠ '+' ∧ c ≠ '-') :
    ∃ leading zeros trailing, d.pad (String.ofList (sign.toList ++ rest))
        = String.ofList (List.replicate leading ' ' ++ (sign.toList ++ (List.replicate zeros '0' ++ rest))
          ++ List.replicate trailing ' ')
      ∧ leading + zeros + trailing = d.width - (sign.toList ++ rest).length
      ∧ (d.left = true → leading = 0 ∧ zeros = 0)
      ∧ (d.zero = true → d.left = false → leading = 0 ∧ trailing = 0) := by
  unfold Directive.pad
  rw [String.toList_ofList]
  dsimp only
  generalize hfill : d.width - (sign.toList ++ rest).length = fill
  split
  · rename_i hnone
    exact ⟨0, 0, 0, by simp, hnone.symm, fun _ => ⟨rfl, rfl⟩, fun _ _ => ⟨rfl, rfl⟩⟩
  · split
    · rename_i hleft
      exact ⟨0, 0, fill, by simp, by simp, fun _ => ⟨rfl, rfl⟩, fun _ hright => absurd hleft (by simp [hright])⟩
    · rename_i hleft
      split
      · refine ⟨0, fill, 0, ?_, by simp, fun h => absurd h hleft, fun _ _ => ⟨rfl, rfl⟩⟩
        cases sign with
        | some c => rcases hsign c rfl with rfl | rfl <;> simp
        | none =>
          rw [Option.toList_none, List.nil_append]
          split
          · exact absurd rfl (hrest rfl '-' rfl).2
          · exact absurd rfl (hrest rfl '+' rfl).1
          · simp
      · rename_i hzero
        exact ⟨fill, 0, 0, by simp, by simp, fun h => absurd h hleft, fun h => absurd h hzero⟩

/-! ## §7 Directives -/

variable {v : Value}

theorem Directive.convert_whole {d : Directive} (hv : v.toNumber? = some x)
    (hd : d.conversion = 'd' ∨ d.conversion = 'i') :
    d.convert v = .ok (d.signed x (integerText (Decimal.toBoundedInt Decimal.int64Bounds x))) := by
  unfold Directive.convert Directive.number
  rw [hv]
  rcases hd with hd | hd <;> rw [hd] <;> rfl

theorem Directive.convert_general {d : Directive} (hv : v.toNumber? = some x)
    (hd : d.conversion = 'g' ∨ d.conversion = 'G') :
    d.convert v = .ok (d.signed x (generalForm x d.places)) := by
  unfold Directive.convert Directive.number
  rw [hv]
  rcases hd with hd | hd <;> rw [hd] <;> rfl

theorem Directive.exists_convert_places {d : Directive} (hv : v.toNumber? = some x) (hx : isFinite x = true)
    (hd : d.conversion ∈ ['f', 'F', 'e', 'E']) :
    ∃ s, d.convert v = .ok (d.signed x s) ∧ IsSignedNumeral (hasSignBit x) s := by
  unfold Directive.convert Directive.number
  rw [hv]
  simp only [List.mem_cons, List.not_mem_nil, or_false] at hd
  rcases hd with hd | hd | hd | hd <;> rw [hd]
  · exact ⟨_, rfl, isSignedNumeral_fixedText hx _⟩
  · exact ⟨_, rfl, isSignedNumeral_fixedText hx _⟩
  · exact ⟨_, rfl, isSignedNumeral_exponentForm hx _⟩
  · exact ⟨_, rfl, (isSignedNumeral_exponentForm hx _).upper⟩

/-- The digits of a number show its sign, unless the number is cut down to zero; and the zero with a sign bit is the
    only one that has a minus sign in front of its digits without being below zero. -/
theorem Directive.exists_convert {d : Directive} (hv : v.toNumber? = some x) (hx : isFinite x = true)
    (hd : d.conversion ∈ ['d', 'i', 'f', 'F', 'e', 'E', 'g', 'G']) :
    ∃ minus s, d.convert v = .ok (d.signed x s) ∧ IsSignedNumeral minus s
      ∧ (minus = true ∧ ¬x < 0.0 ↔ x = -0.0 ∧ d.conversion ∈ ['f', 'F', 'e', 'E'])
      ∧ (minus = false ∧ x < 0.0 ↔ x < 0.0 ∧ Decimal.toBoundedInt Decimal.int64Bounds x = 0
        ∧ d.conversion ∈ ['d', 'i']) := by
  have hcases : (d.conversion = 'd' ∨ d.conversion = 'i') ∨ d.conversion ∈ ['f', 'F', 'e', 'E'] ∨
      (d.conversion = 'g' ∨ d.conversion = 'G') := by
    simp only [List.mem_cons, List.not_mem_nil, or_false] at hd ⊢
    tauto
  have hbelow := lt_zero_iff hx
  rcases hcases with hwhole | hplaces | hgeneral
  · have hmem : d.conversion ∈ ['d', 'i'] := by simpa using hwhole
    have hnot : d.conversion ∉ ['f', 'F', 'e', 'E'] := by
      rcases hwhole with hwhole | hwhole <;> rw [hwhole] <;> decide
    refine ⟨_, _, Directive.convert_whole hv hwhole, isSignedNumeral_integerText _, ?_, ?_⟩
    · refine iff_of_false (fun ⟨hint, hx'⟩ => ?_) (fun h => hnot h.2)
      exact hx' (lt_zero_of_toBoundedInt hx (of_decide_eq_true hint))
    · rw [decide_eq_false_iff_not]
      constructor
      · rintro ⟨hint, hx'⟩
        have hnonpos := toBoundedInt_nonpos hx hx'
        exact ⟨hx', by omega, hmem⟩
      · rintro ⟨hx', hint, -⟩
        exact ⟨not_lt.mpr hint.ge, hx'⟩
  · have hnot : d.conversion ∉ ['d', 'i'] := by
      simp only [List.mem_cons, List.not_mem_nil, or_false] at hplaces
      rcases hplaces with hd | hd | hd | hd <;> rw [hd] <;> decide
    obtain ⟨s, hs, hnumeral⟩ := Directive.exists_convert_places hv hx hplaces
    refine ⟨_, s, hs, hnumeral, ?_, ?_⟩
    · rw [hbelow, eq_negZero_iff]
      tauto
    · exact iff_of_false (fun ⟨hsign, hx'⟩ => ne_true_of_eq_false hsign (hbelow.mp hx').1) (fun h => hnot h.2.2)
  · have hnot : d.conversion ∉ ['f', 'F', 'e', 'E'] ∧ d.conversion ∉ ['d', 'i'] := by
      rcases hgeneral with hgeneral | hgeneral <;> rw [hgeneral] <;> decide
    have hminus : (hasSignBit x && !(x == 0.0)) = true ↔ x < 0.0 := by
      rw [hbelow, Bool.and_eq_true, Bool.not_eq_true', Bool.not_eq_true]
    refine ⟨_, _, Directive.convert_general hv hgeneral, isSignedNumeral_generalForm hx _, ?_, ?_⟩
    · exact iff_of_false (fun ⟨hsign, hx'⟩ => hx' (hminus.mp hsign)) (fun h => hnot.1 h.2)
    · exact iff_of_false (fun ⟨hsign, hx'⟩ => ne_true_of_eq_false hsign (hminus.mpr hx')) (fun h => hnot.2 h.2.2)

/-- A number gets its sign from the flag, or else from its digits; if it gets it from the flag and its digits have a
    minus sign as well, there are two of them. -/
theorem Directive.exists_signed (d : Directive) (hx : isFinite x = true) {minus : Bool} {s : String}
    (h : IsSignedNumeral minus s) :
    ∃ sign second body, (d.signed x s).toList = sign.toList ++ (minusSign second ++ body) ∧ IsUnsignedNumeral body
      ∧ (∀ c ∈ sign, c = '+' ∨ c = '-') ∧ (sign = none → second = false)
      ∧ (second = true ↔ d.plus = true ∧ minus = true ∧ ¬x < 0.0)
      ∧ (d.plus = true → (sign = none ↔ minus = false ∧ x < 0.0)) := by
  obtain ⟨body, htext, hbody⟩ := h
  have hflag : (d.plus && decide (0.0 ≤ x)) = true ↔ d.plus = true ∧ ¬x < 0.0 := by
    rw [Bool.and_eq_true, decide_eq_true_iff, zero_le_iff hx]
  unfold Directive.signed
  split
  · rename_i hplus
    obtain ⟨hplus, hx'⟩ := hflag.mp hplus
    refine ⟨some '+', minus, body, ?_, hbody, fun c hc => .inl (Option.some.inj hc).symm, nofun,
      ⟨fun h => ⟨hplus, h, hx'⟩, fun h => h.2.1⟩, fun _ => iff_of_false nofun fun h => hx' h.2⟩
    rw [String.toList_append, htext]
    rfl
  · rename_i hplus
    rw [hflag] at hplus
    have hsecond : false = true ↔ d.plus = true ∧ minus = true ∧ ¬x < 0.0 :=
      iff_of_false nofun fun h => hplus ⟨h.1, h.2.2⟩
    cases minus with
    | true =>
      exact ⟨some '-', false, body, htext, hbody, fun c hc => .inr (Option.some.inj hc).symm, nofun, hsecond,
        fun _ => iff_of_false nofun nofun⟩
    | false =>
      exact ⟨none, false, body, htext, hbody, nofun, fun _ => rfl, hsecond,
        fun hd => iff_of_true rfl ⟨rfl, not_not.mp fun hx' => hplus ⟨hd, hx'⟩⟩⟩

/-- A directive for numbers fills every finite number up to its width: with spaces on one side or with zeros behind the
    sign, and the digits form an unsigned numeral. A plus flag gives every number one sign at least, and one at most,
    apart from the two forms in which digits do not show the sign of the number: a number below zero that is cut down
    to zero has none, and the zero with a sign bit has a minus sign behind the plus sign. -/
theorem Directive.exists_shape (d : Directive) (hv : v.toNumber? = some x) (hx : isFinite x = true)
    (hd : d.conversion ∈ ['d', 'i', 'f', 'F', 'e', 'E', 'g', 'G']) :
    ∃ p : PaddedNumber, d.convert v = .ok p.unpadded ∧ d.fill v = .ok p.text ∧ d.Shapes p
      ∧ (p.second = true ↔ d.plus = true ∧ x = -0.0 ∧ d.conversion ∈ ['f', 'F', 'e', 'E'])
      ∧ (d.plus = true → (p.sign = none ↔ x < 0.0 ∧ Decimal.toBoundedInt Decimal.int64Bounds x = 0
        ∧ d.conversion ∈ ['d', 'i'])) := by
  obtain ⟨minus, s, hconvert, hnumeral, hdouble, hnone⟩ := Directive.exists_convert hv hx hd
  obtain ⟨sign, second, body, htext, hbody, hsign, hnosign, hsecond, hmissing⟩ := d.exists_signed hx hnumeral
  have hhead : sign = none → ∀ c ∈ (minusSign second ++ body).head?, c ≠ '+' ∧ c ≠ '-' := by
    intro hnosigns c hc
    obtain ⟨digit, rest, rfl, hdigit⟩ := hbody.exists_digit
    rw [hnosign hnosigns] at hc
    obtain rfl : digit = c := Option.some.inj hc
    constructor <;> rintro rfl <;> cases hdigit
  obtain ⟨leading, zeros, trailing, hpad, hlength, hleft, hzero⟩ := d.exists_pad hsign hhead
  rw [← htext, String.ofList_toList] at hpad
  refine ⟨⟨leading, sign, zeros, second, body, trailing⟩, ?_, ?_, ⟨hbody, hsign, hleft, hzero, ?_⟩, ?_, ?_⟩
  · rw [hconvert, PaddedNumber.unpadded, ← htext, String.ofList_toList]
  · rw [Directive.fill, hconvert]
    exact congrArg Except.ok hpad
  · rw [PaddedNumber.text, PaddedNumber.unpadded, String.length_ofList, String.length_ofList]
    simp only [List.length_append, List.length_replicate] at hlength ⊢
    omega
  · rw [hsecond, ← hdouble]
  · intro hplus
    rw [hmissing hplus, hnone]

theorem shape_sample :
    (Value.number 2.5).toNumber? = some 2.5 ∧ isFinite 2.5 = true ∧ 'f' ∈ ['d', 'i', 'f', 'F', 'e', 'E', 'g', 'G'] ∧
      ∃ p : PaddedNumber, Directive.fill ⟨false, true, true, 8, some 2, 'f'⟩ (.number 2.5) = .ok p.text
        ∧ p.text.length = 8 ∧ p.leading = 0 ∧ p.trailing = 0 ∧ p.sign ≠ none ∧ IsUnsignedNumeral p.body := by
  have hbody : Directive.convert ⟨false, true, true, 8, some 2, 'f'⟩ (.number 2.5) = .ok "+2.50" := by rfl
  refine ⟨rfl, rfl, by decide, ?_⟩
  obtain ⟨p, hconvert, hfill, hshapes, hsecond, hsign⟩ :=
    Directive.exists_shape ⟨false, true, true, 8, some 2, 'f'⟩ (v := .number 2.5) rfl rfl (by decide)
  obtain ⟨hleading, htrailing⟩ := hshapes.zero rfl rfl
  refine ⟨p, hfill, ?_, hleading, htrailing, fun hnone => ?_, hshapes.numeral⟩
  · rw [hshapes.length, ← Except.ok.inj (hbody.symm.trans hconvert)]
    rfl
  · exact absurd ((hsign rfl).mp hnone).2.2 (by decide)

/-- With the plus flag the zero with a sign bit has two signs, and a number below zero that is cut down to zero has
    none. -/
theorem signs_sample :
    isFinite (-0.0) = true
      ∧ Directive.fill ⟨false, false, true, 0, none, 'f'⟩ (.number (-0.0)) = .ok "+-0.000000"
      ∧ (¬∃ p : PaddedNumber, p.second = false ∧ IsUnsignedNumeral p.body ∧ p.text = "+-0.000000")
      ∧ isFinite (-0.5) = true
      ∧ Directive.fill ⟨false, false, true, 0, none, 'd'⟩ (.number (-0.5)) = .ok "0" := by
  refine ⟨rfl, rfl, ?_, rfl, rfl⟩
  rintro ⟨⟨leading, sign, zeros, second, body, trailing⟩, rfl, hbody, htext⟩
  obtain ⟨c, rest, rfl, hc⟩ := hbody.exists_digit
  have hsigns : "+-0.000000".toList = '+' :: '-' :: "0.000000".toList := by decide
  have hlist := congrArg String.toList htext
  rw [PaddedNumber.text, String.toList_ofList, hsigns] at hlist
  -- Neither of the two signs is a space, a zero or the first digit, and one sign is too few for them.
  cases leading with
  | succ n => simp [List.replicate_succ] at hlist
  | zero =>
    cases sign with
    | none =>
      cases zeros with
      | succ n => simp [List.replicate_succ] at hlist
      | zero =>
        obtain rfl : c = '+' := (List.cons.inj hlist).1
        cases hc
    | some a =>
      cases zeros with
      | succ n => simp [List.replicate_succ] at hlist
      | zero =>
        obtain rfl : c = '-' := (List.cons.inj (List.cons.inj hlist).2).1
        cases hc

end BenchPlot
