import BenchPlot.Name

/-!
# Canonical names are fixed points

Folding a canonical name gives the same name: it holds upper-case letters, digits and underscores only,
so there is nothing to trim and nothing to fold. The names that are derived from canonical names, of
tables and of columns, tell the names apart that they come from.

Main statements: `canonicalName_canonicalName`, `tableName_inj` and `columnName_inj`.
-/

namespace BenchPlot

/-! ## §1 Folded characters -/

/-- A name is canonical iff it is its own canonical form. -/
def IsCanonical (name : String) : Prop :=
  canonicalName name = .ok name

/-- The folding of one character, for the characters of ASCII: a second folding changes nothing, and no
    blank comes out of it. -/
private theorem foldChar_ascii : ∀ n < 128,
    foldChar (foldChar (Char.ofNat n)) = foldChar (Char.ofNat n)
      ∧ Text.isBlank (foldChar (Char.ofNat n)) = false := by
  decide

theorem toNat_lt_of_isAlphanum {c : Char} (h : c.isAlphanum = true) : c.toNat < 128 := by
  have hbound : ∀ n : UInt32, c.val ≤ n → n.toNat < 128 → c.toNat < 128 := fun n hle hn =>
    Nat.lt_of_le_of_lt (UInt32.le_iff_toNat_le.mp hle) hn
  rcases Bool.or_eq_true_iff.mp h with halpha | hdigit
  · rcases Bool.or_eq_true_iff.mp halpha with hupper | hlower
    · exact hbound 90 (of_decide_eq_true hupper).2 (by decide)
    · exact hbound 122 (of_decide_eq_true (Bool.and_eq_true_iff.mp hlower).2) (by decide)
  · exact hbound 57 (of_decide_eq_true (Bool.and_eq_true_iff.mp hdigit).2) (by decide)

/-- A folded character comes from a character of ASCII. -/
theorem foldChar_eq_ascii (c : Char) : ∃ n < 128, foldChar c = foldChar (Char.ofNat n) := by
  by_cases h : (c.isAlphanum || c == '_') = true
  · refine ⟨c.toNat, ?_, by rw [Char.ofNat_toNat]⟩
    rcases Bool.or_eq_true_iff.mp h with halnum | hline
    · exact toNat_lt_of_isAlphanum halnum
    · rw [eq_of_beq hline]
      decide
  · -- Every other character is folded to an underscore.
    refine ⟨'_'.toNat, by decide, ?_⟩
    simp only [foldChar, h, Bool.false_eq_true, if_false]
    decide

theorem foldChar_foldChar (c : Char) : foldChar (foldChar c) = foldChar c := by
  obtain ⟨n, hn, hc⟩ := foldChar_eq_ascii c
  rw [hc]
  exact (foldChar_ascii n hn).1

theorem isBlank_foldChar (c : Char) : Text.isBlank (foldChar c) = false := by
  obtain ⟨n, hn, hc⟩ := foldChar_eq_ascii c
  rw [hc]
  exact (foldChar_ascii n hn).2

/-! ## §2 Folded names -/

theorem Text.trimChars_of_not_blank {cs : List Char} (h : ∀ c ∈ cs, Text.isBlank c = false) :
    Text.trimChars cs = cs := by
  have hdrop : ∀ l : List Char, (∀ c ∈ l, Text.isBlank c = false) → l.dropWhile Text.isBlank = l := by
    intro l hl
    cases l with
    | nil => rfl
    | cons c rest => simp [hl c (List.mem_cons_self ..)]
  -- The end is trimmed as the start of the reverse.
  have hrev : ∀ c ∈ cs.reverse, Text.isBlank c = false := fun c hc => h c (List.mem_reverse.mp hc)
  rw [Text.trimChars, Text.trimStartChars, hdrop cs h, Text.trimEndChars, hdrop _ hrev,
    List.reverse_reverse]

theorem foldName_foldName (raw : String) :
    foldName (String.ofList (foldName raw)) = foldName raw := by
  have hclean : ∀ c ∈ foldName raw, Text.isBlank c = false := by
    intro c hc
    obtain ⟨d, _, rfl⟩ := List.mem_map.mp hc
    exact isBlank_foldChar d
  rw [foldName, String.toList_ofList, Text.trimChars_of_not_blank hclean, foldName, List.map_map]
  exact List.map_congr_left fun c _ => foldChar_foldChar c

theorem eq_of_canonicalName {raw name : String} (h : canonicalName raw = .ok name) :
    name = String.ofList (foldName raw) := by
  unfold canonicalName at h
  split at h
  · cases h
  · rename_i c cs hfold
    rw [hfold]
    dsimp only at h
    split at h
    · cases h
    · split at h <;> cases h
      rfl

/-- A canonical form is its own canonical form. -/
theorem canonicalName_canonicalName {raw name : String} (h : canonicalName raw = .ok name) :
    IsCanonical name := by
  have hname := eq_of_canonicalName h
  have hfold : foldName name = foldName raw := by rw [hname, foldName_foldName]
  rw [IsCanonical, canonicalName, hfold]
  exact h

/-! ## §3 Derived names -/

/-- Two benchmarks with one table have one name. -/
theorem tableName_inj {a b : String} : tableName a = tableName b ↔ a = b := by
  constructor
  · intro h
    have hchars := congrArg String.toList h
    simp only [tableName, String.toList_append] at hchars
    exact String.toList_inj.mp (List.append_cancel_right hchars)
  · rintro rfl
    rfl

/-- Two fields with one column have one name. -/
theorem columnName_inj {a b : String} : columnName a = columnName b ↔ a = b := by
  constructor
  · intro h
    have hchars := congrArg String.toList h
    simp only [columnName, String.toList_append] at hchars
    exact String.toList_inj.mp (List.append_cancel_left hchars)
  · rintro rfl
    rfl

end BenchPlot
