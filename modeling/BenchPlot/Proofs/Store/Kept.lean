import BenchPlot.Proofs.Decimal.Float
import BenchPlot.Store.Import

/-!
# Values that fields hold

A text becomes the value of a field, and the field's column keeps it: numbers lose the sign of a zero,
and all else stays. What a column has kept once it keeps unchanged ever after, and neither the text of a
value nor whether there is one changes.

Main statements: `keep_of_admits` and `typedValue?_admits`.
-/

namespace BenchPlot

/-! ## §1 Admitted values -/

/-- The values that a field may hold: nothing, a finite number without a sign on zero if the field is
    numeric, and a text with neither blanks around it nor none in it otherwise. -/
def Field.Admits (f : Field) : Value → Prop
  | .null => True
  | .number x => f.numeric = true ∧ Decimal.isFinite x = true ∧ ((x == 0.0) = true → x = 0.0)
  | .text t => f.numeric = false ∧ Text.trim t = t ∧ t.isEmpty = false
  | .bool _ => False

/-- A number without a sign on zero. -/
def unsignedZero (x : Float) : Float :=
  if x == 0.0 then 0.0 else x

/-! ## §2 What columns keep -/

@[simp] theorem WideColumn.keep_null (c : WideColumn) : c.keep .null = .null := by
  unfold WideColumn.keep
  split <;> rfl

theorem WideColumn.keep_number {c : WideColumn} {x : Float} (hc : c.numeric = true)
    (hx : Decimal.isFinite x = true) : c.keep (.number x) = .number (unsignedZero x) := by
  have hreal : Sql.Datum.ofFloat x = .real x := by
    rw [Sql.Datum.ofFloat, Decimal.isNaN_of_isFinite hx]
    rfl
  simp [WideColumn.keep, hc, Sql.Datum.ofValue, hreal, Sql.Affinity.store, Sql.Datum.preferNumber,
    Sql.Datum.preferReal, Sql.Datum.toValue, unsignedZero]

theorem WideColumn.keep_text {c : WideColumn} (hc : c.numeric = false) (t : String) :
    c.keep (.text t) = .text t := by
  simp [WideColumn.keep, hc, Sql.Datum.ofValue, Sql.Affinity.store, Sql.Datum.preferText,
    Sql.Datum.toValue]

/-- A column keeps what a field of its kind admits as it is. -/
theorem keep_of_admits {f : Field} {v : Value} (h : f.Admits v) {c : WideColumn}
    (hc : c.numeric = f.numeric) : c.keep v = v := by
  cases v with
  | null => exact WideColumn.keep_null c
  | number x =>
    obtain ⟨hnumeric, hfinite, hzero⟩ := h
    rw [WideColumn.keep_number (hc.trans hnumeric) hfinite, unsignedZero]
    split
    · rename_i heq
      rw [hzero heq]
    · rfl
  | text t => exact WideColumn.keep_text (hc.trans h.1) t
  | bool b => exact h.elim

/-! ## §3 Values of texts -/

theorem isFinite_of_readNumber? {s : String} {x : Float} (h : readNumber? s = some x) :
    Decimal.isFinite x = true := by
  unfold readNumber? at h
  exact (Option.filter_eq_some_iff.mp h).2

theorem isFinite_unsignedZero {x : Float} (h : Decimal.isFinite x = true) :
    Decimal.isFinite (unsignedZero x) = true := by
  unfold unsignedZero
  split
  · rfl
  · exact h

/-- The value of a text in a field is nothing, a finite number if the field is numeric, or the trimmed
    text if not. -/
theorem typedValue?_cases {numeric : Bool} {text : String} {v : Value}
    (h : typedValue? numeric text = some v) :
    (v = .null ∧ (Text.trim text).isEmpty = true) ∨
    (∃ x, v = .number x ∧ numeric = true ∧ Decimal.isFinite x = true) ∨
    (v = .text (Text.trim text) ∧ numeric = false ∧ (Text.trim text).isEmpty = false) := by
  unfold typedValue? at h
  dsimp only at h
  split at h
  · rename_i hempty
    cases h
    exact .inl ⟨rfl, hempty⟩
  · rename_i hfull
    split at h
    · rename_i hnumeric
      obtain ⟨x, hx, rfl⟩ := Option.map_eq_some_iff.mp h
      exact .inr (.inl ⟨x, rfl, hnumeric, isFinite_of_readNumber? hx⟩)
    · rename_i hnumeric
      cases h
      exact .inr (.inr ⟨rfl, by simpa using hnumeric, by simpa using hfull⟩)

/-- What a column keeps of the value of a text is admitted by a field of its kind. -/
theorem typedValue?_admits {f : Field} {text : String} {v : Value} {c : WideColumn}
    (h : typedValue? f.numeric text = some v) (hc : c.numeric = f.numeric) :
    f.Admits (c.keep v) := by
  rcases typedValue?_cases h with ⟨rfl, _⟩ | ⟨x, rfl, hnumeric, hfinite⟩ | ⟨rfl, htext, hfull⟩
  · rw [WideColumn.keep_null]
    trivial
  · rw [WideColumn.keep_number (hc.trans hnumeric) hfinite]
    refine ⟨hnumeric, isFinite_unsignedZero hfinite, fun hzero => ?_⟩
    by_cases hx : (x == 0.0) = true
    · simp [unsignedZero, hx]
    · -- A number that equals no zero is kept as it is.
      simp only [unsignedZero, hx, Bool.false_eq_true, if_false] at hzero
  · rw [WideColumn.keep_text (hc.trans htext)]
    exact ⟨htext, Text.trim_trim text, hfull⟩

/-- A column keeps the text of a value, and nothing as nothing only. -/
theorem typedValue?_keep {f : Field} {text : String} {v : Value} {c : WideColumn}
    (h : typedValue? f.numeric text = some v) (hc : c.numeric = f.numeric) :
    (c.keep v).display = v.display ∧ (c.keep v).isNull = v.isNull := by
  rcases typedValue?_cases h with ⟨rfl, _⟩ | ⟨x, rfl, hnumeric, hfinite⟩ | ⟨rfl, htext, _⟩
  · rw [WideColumn.keep_null]
    exact ⟨rfl, rfl⟩
  · rw [WideColumn.keep_number (hc.trans hnumeric) hfinite]
    refine ⟨?_, rfl⟩
    -- The column drops the sign of a zero, which the text does not show.
    show numberText (unsignedZero x) = numberText x
    unfold unsignedZero
    split
    · rename_i hzero
      exact (Decimal.numberText_of_beq_zero hzero).symm
    · rfl
  · rw [WideColumn.keep_text (hc.trans htext)]
    exact ⟨rfl, rfl⟩

end BenchPlot
