import BenchPlot.Proofs.Decimal.ReadBack
import BenchPlot.Proofs.Formula.QuotedRegions

/-!
# Literals of values

A finite number is written with a sign, if it has one, and digits, with one point among them at most. A text that is
no number is written between quotes, with the quotes in it doubled. So the literal of a value leaves no quoted region
open, and has none but a whole one.

Main statements: `exists_isPlainNumeral_numberText`, `toLiteral_text` and `behind_toLiteral`.
-/

namespace BenchPlot

open Decimal (isDigit digitChars naturalText withPoint withSign isFinite)
open QuoteState

/-! ## §1 Numbers -/

/-- Digits, or digits on both sides of a point. -/
inductive IsPlainNumeral : List Char → Prop
  | digits {whole : List Char} (hfull : whole ≠ []) (hwhole : ∀ c ∈ whole, isDigit c = true) : IsPlainNumeral whole
  | point {whole fraction : List Char} (hfull : whole ≠ []) (hwhole : ∀ c ∈ whole, isDigit c = true)
    (hfraction : ∀ c ∈ fraction, isDigit c = true) : IsPlainNumeral (whole ++ '.' :: fraction)

theorem isPlainNumeral_naturalText (n : Nat) : IsPlainNumeral (naturalText n).toList := by
  have htext : (naturalText n).toList = digitChars n := String.toList_ofList
  rw [htext]
  exact .digits Nat.toDigits_ne_nil fun c => Decimal.isDigit_of_mem_digitChars

theorem isPlainNumeral_withPoint (n places : Nat) : IsPlainNumeral (withPoint n places).toList := by
  by_cases hplaces : places = 0
  · rw [hplaces]
    exact isPlainNumeral_naturalText n
  · obtain ⟨whole, fraction, htext, hfull, -, hwhole, hfraction, -⟩ := Decimal.exists_withPoint n hplaces
    rw [htext]
    exact .point hfull hwhole hfraction

theorem isPlainNumeral_plain (d : Decimal.Digits) : IsPlainNumeral d.plain.toList := by
  unfold Decimal.Digits.plain
  split
  · exact isPlainNumeral_naturalText _
  · exact isPlainNumeral_withPoint ..

/-- The text of a finite number is a sign, if any, and digits with one point at most. -/
theorem exists_isPlainNumeral_numberText {x : Float} (hx : isFinite x = true) :
    ∃ negative body, numberText x = withSign negative body ∧ IsPlainNumeral body.toList := by
  obtain ⟨-, hparts⟩ := Decimal.parts_of_isFinite hx
  unfold numberText Decimal.plainText
  rw [hparts]
  dsimp only
  split
  · exact ⟨_, _, Decimal.integerText_signed .., isPlainNumeral_naturalText _⟩
  · refine ⟨_, _, rfl, ?_⟩
    split
    · exact isPlainNumeral_naturalText 0
    · exact isPlainNumeral_plain _

theorem IsPlainNumeral.notMem {cs : List Char} (h : IsPlainNumeral cs) {c : Char} (hc : isDigit c = false)
    (hpoint : c ≠ '.') : c ∉ cs := by
  have hdigits : ∀ {l : List Char}, (∀ c ∈ l, isDigit c = true) → c ∉ l := by
    intro l hl hmem
    cases (hl _ hmem).symm.trans hc
  cases h with
  | digits _ hwhole => exact hdigits hwhole
  | point _ hwhole hfraction =>
    intro hmem
    rcases List.mem_append.mp hmem with hfront | hback
    · exact hdigits hwhole hfront
    · rcases List.mem_cons.mp hback with rfl | hbehind
      · exact hpoint rfl
      · exact hdigits hfraction hbehind

/-- The text of a number, finite or not, has no other characters than digits, a sign, a point and certain letters. -/
theorem notMem_numberText {c : Char} (hc : isDigit c = false) (hother : ∀ d ∈ ['-', '.', 'N', 'a', 'i', 'n', 'f'], c ≠ d)
    (x : Float) : c ∉ (numberText x).toList := by
  simp only [List.forall_mem_cons, List.not_mem_nil, false_implies, implies_true, and_true] at hother
  have hsign : ∀ {negative : Bool} {body : String}, c ∉ body.toList → c ∉ (withSign negative body).toList := by
    intro negative body hbody
    cases negative with
    | false => exact hbody
    | true => simp [withSign, hbody, hother]
  by_cases hx : isFinite x = true
  · obtain ⟨negative, body, htext, hbody⟩ := exists_isPlainNumeral_numberText hx
    rw [htext]
    exact hsign (hbody.notMem hc hother.2.1)
  · unfold numberText Decimal.plainText
    unfold isFinite at hx
    cases hparts : Decimal.Parts.ofFloat x with
    | nan => simp [hother]
    | infinite negative => exact hsign (by simp [hother])
    | finite negative m =>
      rw [hparts] at hx
      exact absurd rfl hx

/-! ## §2 Texts -/

/-- A text that is no number is quoted in its literal. -/
theorem toLiteral_text {t : String} (h : readNumber? t = none) : (Value.text t).toLiteral = Value.quoted t := by
  rw [Value.toLiteral, h]

/-- No literal leaves a quoted region open. -/
theorem behind_toLiteral (v : Value) : outside.behind v.toLiteral.toList ≠ .inside := by
  have hnumber : ∀ x, outside.behind (numberText x).toList ≠ .inside := by
    intro x
    rw [(outside_of_notMem (notMem_numberText rfl (by simp) x)).1]
    decide
  cases v with
  | null => decide
  | number x => exact hnumber x
  | bool b => cases b <;> decide
  | text t =>
    rw [Value.toLiteral]
    split
    · exact hnumber _
    · rw [(quoted t).1]
      decide

end BenchPlot
