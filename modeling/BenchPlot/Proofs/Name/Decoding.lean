import BenchPlot.Proofs.Name.Identity
import Mathlib.Data.List.Forall2

/-!
# Identities read back

An identity is cut at its separators, and in each piece the escapes are undone. A piece with a lone escape character
is no escaped value. So identities are exactly the texts that can be read back, and what is read back is the list
of key values that the identity was made of.

Main statement: `identity_readable`.
-/

namespace BenchPlot

/-! ## §1 Single values -/

/-- The value that an escaped text stands for. Behind an escape character only two characters may follow, and the
    separator is always escaped. -/
def unescapeKey? : List Char → Option (List Char)
  | [] => some []
  | '\\' :: '\\' :: rest => (unescapeKey? rest).map ('\\' :: ·)
  | '\\' :: 'p' :: rest => (unescapeKey? rest).map ('|' :: ·)
  | c :: rest => if c = '\\' ∨ c = '|' then none else (unescapeKey? rest).map (c :: ·)

theorem escapeKeyChar_of_ne {c : Char} (hescape : c ≠ '\\') (hbar : c ≠ '|') : escapeKeyChar c = [c] := by
  simp [escapeKeyChar, hescape, hbar]

/-- What is written for a character in front of an escaped value. -/
theorem unescapeKey?_escapeKeyChar (c : Char) (rest : List Char) :
    unescapeKey? (escapeKeyChar c ++ rest) = (unescapeKey? rest).map (c :: ·) := by
  by_cases hescape : c = '\\'
  · subst hescape
    rfl
  by_cases hbar : c = '|'
  · subst hbar
    rfl
  rw [escapeKeyChar_of_ne hescape hbar, List.singleton_append, unescapeKey?.eq_4 c rest]
  · exact if_neg (not_or.mpr ⟨hescape, hbar⟩)
  · exact fun _ heq => absurd heq hescape
  · exact fun _ heq => absurd heq hescape

/-- Escaped values are exactly the texts in which the escapes can be undone. -/
theorem unescapeKey?_eq_some_iff {text value : List Char} :
    unescapeKey? text = some value ↔ text = value.flatMap escapeKeyChar := by
  constructor
  · intro h
    fun_induction unescapeKey? text generalizing value with
    | case1 =>
      cases h
      rfl
    | case2 rest ih =>
      obtain ⟨front, hfront, rfl⟩ := Option.map_eq_some_iff.mp h
      rw [ih hfront]
      rfl
    | case3 rest ih =>
      obtain ⟨front, hfront, rfl⟩ := Option.map_eq_some_iff.mp h
      rw [ih hfront]
      rfl
    | case4 c rest hdouble hp hspecial => cases h
    | case5 c rest hdouble hp hplain ih =>
      obtain ⟨front, hfront, rfl⟩ := Option.map_eq_some_iff.mp h
      obtain ⟨hescape, hbar⟩ := not_or.mp hplain
      rw [ih hfront, List.flatMap_cons, escapeKeyChar_of_ne hescape hbar]
      rfl
  · rintro rfl
    induction value with
    | nil => rfl
    | cons c rest ih => rw [List.flatMap_cons, unescapeKey?_escapeKeyChar, ih, Option.map_some]

/-! ## §2 Lists of values -/

/-- The key values that an identity is made of. -/
def keyValues? (text : String) : Option (List String) :=
  (text.toList.splitOn '|').mapM fun piece => (unescapeKey? piece).map String.ofList

/-- A pass over a list that may fail gives a result for each element. -/
theorem mapM_eq_some_iff {α β : Type} {f : α → Option β} {l : List α} {r : List β} :
    l.mapM f = some r ↔ List.Forall₂ (fun a b => f a = some b) l r := by
  induction l generalizing r with
  | nil => cases r <;> simp
  | cons a rest ih =>
    rw [List.mapM_cons, List.forall₂_cons_left_iff]
    simp only [Option.bind_eq_bind, Option.pure_def, Option.bind_eq_some_iff, Option.some.injEq, ih]
    constructor
    · rintro ⟨b, hb, bs, hbs, rfl⟩
      exact ⟨b, bs, hb, hbs, rfl⟩
    · rintro ⟨b, bs, hb, hbs, rfl⟩
      exact ⟨b, hb, bs, hbs, rfl⟩

/-- The texts that can be read back are the identities, and the values in them are those that were put together. -/
theorem keyValues?_eq_some_iff {text : String} {values : List String} :
    keyValues? text = some values ↔ values ≠ [] ∧ identity values = text := by
  have hpiece : ∀ (piece : List Char) (value : String), (unescapeKey? piece).map String.ofList = some value ↔
      piece = value.toList.flatMap escapeKeyChar := by
    intro piece value
    rw [← unescapeKey?_eq_some_iff, Option.map_eq_some_iff]
    constructor
    · rintro ⟨cs, hcs, rfl⟩
      rwa [String.toList_ofList]
    · exact fun h => ⟨value.toList, h, String.ofList_toList⟩
  unfold keyValues?
  rw [mapM_eq_some_iff]
  simp only [hpiece]
  constructor
  · intro h
    -- Each piece is an escaped value, and the pieces joined by separators are the text.
    have hpieces : text.toList.splitOn '|' = values.map fun v => v.toList.flatMap escapeKeyChar := by
      rw [← List.forall₂_eq_eq_eq, List.forall₂_map_right_iff]
      exact h
    refine ⟨?_, String.toList_inj.mp ?_⟩
    · rintro rfl
      exact List.splitOn_ne_nil '|' text.toList hpieces
    · rw [toList_identity, ← hpieces, List.intercalate_splitOn]
  · rintro ⟨hfull, rfl⟩
    have hbars : ∀ cs ∈ values.map (fun v => v.toList.flatMap escapeKeyChar), '|' ∉ cs := by
      intro cs hcs
      obtain ⟨v, _, rfl⟩ := List.mem_map.mp hcs
      exact bar_not_mem_escape v.toList
    rw [toList_identity, List.splitOn_intercalate '|' hbars (by simpa using hfull), List.forall₂_map_left_iff,
      List.forall₂_same]
    exact fun v _ => rfl

/-- Each identity is that of one list of values, which it can be read back to; no other text can be read back. -/
theorem identity_readable {xs ys : List String} (hxs : xs ≠ []) (hys : ys ≠ []) :
    (identity xs = identity ys → xs = ys) ∧ keyValues? (identity xs) = some xs
      ∧ ∀ text values, keyValues? text = some values ↔ values ≠ [] ∧ identity values = text :=
  ⟨identity_injective hxs hys, keyValues?_eq_some_iff.mpr ⟨hxs, rfl⟩, fun _ _ => keyValues?_eq_some_iff⟩

/-- Separators, escape characters and letters behind them, and values without characters, at the ends as well. -/
theorem identity_readable_sample : identity ["a|b", "\\p", "", "\\"] = "a\\pb|\\\\p||\\\\"
    ∧ keyValues? "a\\pb|\\\\p||\\\\" = some ["a|b", "\\p", "", "\\"]
    ∧ identity ["a|b", "\\p", "", "\\"] ≠ identity ["a", "b", "\\p", "", "\\"] := by
  have hidentity : identity ["a|b", "\\p", "", "\\"] = "a\\pb|\\\\p||\\\\" := by decide +kernel
  obtain ⟨hinj, hread, _⟩ :=
    @identity_readable ["a|b", "\\p", "", "\\"] ["a", "b", "\\p", "", "\\"] (by decide) (by decide)
  exact ⟨hidentity, hidentity ▸ hread, fun h => absurd (hinj h) (by decide)⟩

end BenchPlot
