/-!
# Blank characters

The characters that count as white space in every text format of the program, and trimming by them.
Blanks are the characters with the white-space property of the character standard: the ASCII controls
from tab to carriage return, the space, and the spaces and separators beyond ASCII. The zero-width
space and the byte-order mark are not blank.

Main statements: `trimmed_append` splits a text into its blank ends and its trimmed middle,
`trimChars_trimChars` says that a second trim changes nothing, and `trim_asciiLower` that lower case
may be taken before or behind a trim.
-/

namespace BenchPlot.Text

/-! ## §1 The property -/

/-- A character is blank iff it has the white-space property. -/
def isBlank (c : Char) : Bool :=
  let n := c.toNat
  (9 ≤ n && n ≤ 13) || n == 0x20 || n == 0x85 || n == 0xA0 || n == 0x1680 ||
    (0x2000 ≤ n && n ≤ 0x200A) || n == 0x2028 || n == 0x2029 || n == 0x202F || n == 0x205F || n == 0x3000

/-! ## §2 Trimming -/

/-- The text without the blanks at its start. -/
def trimStartChars (cs : List Char) : List Char :=
  cs.dropWhile isBlank

/-- The text without the blanks at its end. -/
def trimEndChars (cs : List Char) : List Char :=
  (cs.reverse.dropWhile isBlank).reverse

/-- The text without the blanks at either end. -/
def trimChars (cs : List Char) : List Char :=
  trimEndChars (trimStartChars cs)

/-- The string without the blanks at either end. -/
def trim (s : String) : String :=
  String.ofList (trimChars s.toList)

/-- The string without the blanks at its end. -/
def trimEnd (s : String) : String :=
  String.ofList (trimEndChars s.toList)

/-- A string is blank iff it holds blanks only. -/
def isBlankText (s : String) : Bool :=
  s.toList.all isBlank

/-- The letters `A` to `Z` in lower case; every other character stays. -/
def asciiLower (s : String) : String :=
  s.map Char.toLower

/-- The letters `a` to `z` in upper case; every other character stays. -/
def asciiUpper (s : String) : String :=
  s.map Char.toUpper

/-! ## §3 Laws -/

/-- A text is its blank start, its middle, and its blank end. -/
theorem trimmed_append (cs : List Char) :
    cs.takeWhile isBlank ++ trimChars cs
      ++ ((trimStartChars cs).reverse.takeWhile isBlank).reverse = cs := by
  have hEnd : trimChars cs ++ ((trimStartChars cs).reverse.takeWhile isBlank).reverse
      = trimStartChars cs := by
    simp only [trimChars, trimEndChars]
    rw [← List.reverse_append, List.takeWhile_append_dropWhile, List.reverse_reverse]
  rw [List.append_assoc, hEnd, trimStartChars, List.takeWhile_append_dropWhile]

/-- What `dropWhile` leaves is left alone by a second `dropWhile`. -/
theorem dropWhile_dropWhile {α : Type} (p : α → Bool) (l : List α) :
    (l.dropWhile p).dropWhile p = l.dropWhile p := by
  induction l with
  | nil => rfl
  | cons a l ih =>
    cases h : p a with
    | false => simp [h]
    | true => simpa [h] using ih

/-- Trimming the end of a text that starts with a kept character keeps that start. -/
private theorem trimEnd_dropWhile (l : List Char) :
    (trimEndChars (l.dropWhile isBlank)).dropWhile isBlank = trimEndChars (l.dropWhile isBlank) := by
  cases hl : l.dropWhile isBlank with
  | nil => rfl
  | cons a r =>
    have ha : isBlank a = false := by
      have := List.head?_dropWhile_not isBlank l
      rw [hl] at this
      simpa using this
    have hcons : ∃ r', trimEndChars (a :: r) = a :: r' := by
      simp only [trimEndChars, List.reverse_cons]
      refine ⟨((r.reverse.dropWhile isBlank)).reverse, ?_⟩
      rw [List.dropWhile_append]
      split
      · rename_i h
        have hnil : r.reverse.dropWhile isBlank = [] := by simpa using h
        simp [ha, hnil]
      · simp
    obtain ⟨r', hr'⟩ := hcons
    rw [hr']
    simp [ha]

/-- Trimming a trimmed text changes nothing. -/
theorem trimChars_trimChars (cs : List Char) : trimChars (trimChars cs) = trimChars cs := by
  have hStart : trimStartChars (trimChars cs) = trimChars cs := trimEnd_dropWhile cs
  rw [trimChars, hStart]
  simp only [trimChars, trimEndChars, List.reverse_reverse, dropWhile_dropWhile]

@[simp]
theorem toList_trim (s : String) : (trim s).toList = trimChars s.toList :=
  String.toList_ofList

theorem trim_trim (s : String) : trim (trim s) = trim s := by
  rw [trim, toList_trim, trimChars_trimChars, trim]

/-! ## §4 Lower case -/

/-- Lower case for the characters of ASCII: a second time it changes nothing, and it makes and removes no
    blanks. -/
private theorem toLower_ascii : ∀ n < 128,
    (Char.ofNat n).toLower.toLower = (Char.ofNat n).toLower
      ∧ isBlank (Char.ofNat n).toLower = isBlank (Char.ofNat n) := by
  decide

/-- A character is one of ASCII or its own lower case. -/
private theorem toLower_cases (c : Char) : (∃ n < 128, c = Char.ofNat n) ∨ c.toLower = c := by
  by_cases h : c.toNat < 128
  · exact .inl ⟨c.toNat, h, c.ofNat_toNat.symm⟩
  · right
    refine dif_neg fun hupper => h ?_
    exact Nat.lt_of_le_of_lt (UInt32.le_iff_toNat_le.mp hupper.2) (by decide)

theorem toLower_toLower (c : Char) : c.toLower.toLower = c.toLower := by
  obtain ⟨n, hn, rfl⟩ | hsame := toLower_cases c
  · exact (toLower_ascii n hn).1
  · rw [hsame, hsame]

theorem isBlank_toLower (c : Char) : isBlank c.toLower = isBlank c := by
  obtain ⟨n, hn, rfl⟩ | hsame := toLower_cases c
  · exact (toLower_ascii n hn).2
  · rw [hsame]

@[simp]
theorem toList_asciiLower (s : String) : (asciiLower s).toList = s.toList.map Char.toLower :=
  String.toList_map

theorem asciiLower_asciiLower (s : String) : asciiLower (asciiLower s) = asciiLower s := by
  rw [← String.toList_inj, toList_asciiLower, toList_asciiLower, List.map_map]
  exact List.map_congr_left fun c _ => toLower_toLower c

/-- Trimming and lower case may be taken in either order. -/
theorem trim_asciiLower (s : String) : trim (asciiLower s) = asciiLower (trim s) := by
  have hblank : isBlank ∘ Char.toLower = isBlank := funext isBlank_toLower
  rw [← String.toList_inj, toList_trim, toList_asciiLower, toList_asciiLower, toList_trim]
  rw [trimChars, trimStartChars, trimEndChars, List.dropWhile_map, ← List.map_reverse, List.dropWhile_map, hblank,
    ← List.map_reverse]
  rfl

end BenchPlot.Text
