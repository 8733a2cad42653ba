import BenchPlot.Formula.Reference
import BenchPlot.Proofs.Formula.References
import BenchPlot.Proofs.Name.Canonical
import Mathlib

/-!
# Segments of free text

Free text is cut into literals and references. The cut is a decoding: a text is read as its segments, and the segments
that a text can be read as are those that can be written, each literal with a backslash in front of every sigil in it,
each reference with its name between braces. A literal may hold backslashes, which stand for themselves except in
front of a sigil; so a literal that ends in one can have no reference behind it.

Main definitions: `IsSegmentation` and `writeSegments`. Main statements: `isSegmentation_scanChars`,
`scanChars_written` and `scanReferences_lossless`.
-/

namespace BenchPlot

variable {skipQuoted : Bool} {c d : Char} {cs rest : List Char} {segments : List Segment}

/-! ## §1 Steps of the scanner -/

theorem Sigil.ofChar?_char (sigil : Sigil) : Sigil.ofChar? sigil.char = some sigil := by
  cases sigil <;> rfl

theorem Sigil.char_of_ofChar? {sigil : Sigil} (h : Sigil.ofChar? c = some sigil) : c = sigil.char := by
  unfold Sigil.ofChar? at h
  split at h
  · rename_i hc
    cases h
    exact eq_of_beq hc
  · split at h
    · rename_i hc
      cases h
      exact eq_of_beq hc
    · split at h
      · rename_i hc
        cases h
        exact eq_of_beq hc
      · split at h
        · rename_i hc
          cases h
          exact eq_of_beq hc
        · cases h

theorem scanChars_nil (skipQuoted : Bool) : scanChars skipQuoted [] = [] := by
  rw [scanChars]

/-- A sigil behind a backslash stands for itself. -/
theorem scanChars_escaped (hd : (Sigil.ofChar? d).isSome = true) (rest : List Char) :
    scanChars skipQuoted ('\\' :: d :: rest) = Segment.withLiteral [d] (scanChars skipQuoted rest) := by
  have hescaped : takeEscaped? '\\' (d :: rest) = some (d, rest) := by
    rw [takeEscaped?, hd]
    rfl
  have hquote : ('\\' == '\'') = false := rfl
  rw [scanChars, hquote, Bool.and_false, if_neg Bool.false_ne_true]
  split
  · rename_i hsome
    rw [hescaped] at hsome
    cases hsome
    rfl
  · rename_i hnone
    rw [hescaped] at hnone
    cases hnone

/-- An escaped character is a sigil. -/
theorem isSome_of_takeEscaped? {d : Char} {after : List Char} (h : takeEscaped? c rest = some (d, after)) :
    (Sigil.ofChar? d).isSome = true := by
  unfold takeEscaped? at h
  split at h
  · split at h
    · rename_i hboth
      cases h
      exact (Bool.and_eq_true_iff.mp hboth).2
    · cases h
  · cases h

theorem takeEscaped?_of_ne (hc : c ≠ '\\') (rest : List Char) : takeEscaped? c rest = none := by
  unfold takeEscaped?
  split
  · rw [beq_eq_false_iff_ne.mpr hc, Bool.false_and, if_neg Bool.false_ne_true]
  · rfl

/-- What begins with a sigil and is no literal is a reference. -/
theorem exists_of_takeSigil? {segment : Segment} {after : List Char} (h : takeSigil? c rest = some (segment, after)) :
    ∃ sigil name, c = sigil.char ∧ takeReference? rest = some (name, after) ∧ segment = .reference sigil name := by
  unfold takeSigil? at h
  split at h
  · cases h
  · rename_i sigil hsigil
    obtain ⟨⟨name, _⟩, hname, hpair⟩ := Option.map_eq_some_iff.mp h
    cases hpair
    exact ⟨sigil, name, Sigil.char_of_ofChar? hsigil, hname, rfl⟩

/-- A character that starts no literal and takes no meaning away starts a reference, or stands for itself. -/
theorem scanChars_unquoted (hquote : (skipQuoted && c == '\'') = false) (hescaped : takeEscaped? c rest = none) :
    scanChars skipQuoted (c :: rest) = match takeSigil? c rest with
      | some (segment, after) => segment :: scanChars skipQuoted after
      | none => Segment.withLiteral [c] (scanChars skipQuoted rest) := by
  rw [scanChars, hquote, if_neg Bool.false_ne_true]
  split
  · rename_i hsome
    rw [hescaped] at hsome
    cases hsome
  · split <;> rename_i htaken <;> simp only [htaken]

/-- A reference is a segment of its own. -/
theorem scanChars_reference {sigil : Sigil} {name : String} (h : takeReference? cs = some (name, rest)) :
    scanChars skipQuoted (sigil.char :: cs) = .reference sigil name :: scanChars skipQuoted rest := by
  have hplain : sigil.char ≠ '\'' ∧ sigil.char ≠ '\\' := by cases sigil <;> decide
  have hsigil : takeSigil? sigil.char cs = some (.reference sigil name, rest) := by
    rw [takeSigil?, sigil.ofChar?_char]
    dsimp only
    rw [h]
    rfl
  rw [scanChars_unquoted (by rw [beq_eq_false_iff_ne.mpr hplain.1, Bool.and_false])
    (takeEscaped?_of_ne hplain.2 cs), hsigil]

/-- Any other character stands for itself. -/
theorem scanChars_plain (hquote : (skipQuoted && c == '\'') = false) (hescaped : takeEscaped? c rest = none)
    (hsigil : Sigil.ofChar? c = none) :
    scanChars skipQuoted (c :: rest) = Segment.withLiteral [c] (scanChars skipQuoted rest) := by
  rw [scanChars_unquoted hquote hescaped, takeSigil?, hsigil]

/-! ## §2 Segmentations -/

/-- Whether a segment can stand by itself: a literal that is not empty, or a reference whose name is not empty, has no
    blanks around it and no closing brace in it. -/
def Segment.IsFull : Segment → Prop
  | .literal text => text ≠ ""
  | .reference _ name => name ≠ "" ∧ Text.trim name = name ∧ '\x7d' ∉ name.toList

/-- Whether a segment can stand right in front of another: literals are not adjacent, and a literal in front of a
    reference does not end in a backslash. -/
def Segment.MayPrecede : Segment → Segment → Prop
  | .literal _, .literal _ => False
  | .literal text, .reference _ _ => text.toList.getLast? ≠ some '\\'
  | .reference _ _, _ => True

instance (segment : Segment) : Decidable segment.IsFull :=
  match segment with
  | .literal text => inferInstanceAs (Decidable (text ≠ ""))
  | .reference _ name =>
    inferInstanceAs (Decidable (name ≠ "" ∧ Text.trim name = name ∧ '\x7d' ∉ name.toList))

instance (segment next : Segment) : Decidable (segment.MayPrecede next) :=
  match segment, next with
  | .literal _, .literal _ => .isFalse id
  | .literal text, .reference _ _ => inferInstanceAs (Decidable (text.toList.getLast? ≠ some '\\'))
  | .reference _ _, _ => .isTrue trivial

/-- Segments that a text can be read as. -/
structure IsSegmentation (segments : List Segment) : Prop where
  full : ∀ segment ∈ segments, segment.IsFull
  neighbours : segments.IsChain Segment.MayPrecede

theorem isSegmentation_nil : IsSegmentation [] :=
  ⟨List.forall_mem_nil _, .nil⟩

theorem isSegmentation_cons {segment : Segment} : IsSegmentation (segment :: segments)
    ↔ segment.IsFull ∧ (∀ next ∈ segments.head?, segment.MayPrecede next) ∧ IsSegmentation segments := by
  constructor
  · rintro ⟨hfull, hneighbours⟩
    obtain ⟨hfirst, hrest⟩ := List.forall_mem_cons.mp hfull
    obtain ⟨hnext, hlater⟩ := List.isChain_cons.mp hneighbours
    exact ⟨hfirst, hnext, hrest, hlater⟩
  · rintro ⟨hfirst, hnext, hrest, hlater⟩
    exact ⟨List.forall_mem_cons.mpr ⟨hfirst, hrest⟩, List.isChain_cons.mpr ⟨hnext, hlater⟩⟩

namespace Segment

theorem withLiteral_nil (cs : List Char) : withLiteral cs [] = [.literal (String.ofList cs)] := rfl

theorem withLiteral_reference (cs : List Char) (sigil : Sigil) (name : String) (rest : List Segment) :
    withLiteral cs (.reference sigil name :: rest) = .literal (String.ofList cs) :: .reference sigil name :: rest :=
  rfl

theorem withLiteral_withLiteral (cs ds : List Char) (segments : List Segment) :
    withLiteral cs (withLiteral ds segments) = withLiteral (cs ++ ds) segments := by
  cases segments with
  | nil => simp [withLiteral]
  | cons segment rest => cases segment <;> simp [withLiteral, String.append_assoc]

theorem withLiteral_ne_reference {sigil : Sigil} {name : String} {more : List Segment} :
    withLiteral cs segments ≠ .reference sigil name :: more := by
  cases segments with
  | nil => simp [withLiteral]
  | cons segment rest => cases segment <;> simp [withLiteral]

end Segment

/-- Characters in front of a segmentation are a literal of it, or go into the literal there. -/
theorem IsSegmentation.withLiteral (h : IsSegmentation segments) (hcs : cs ≠ [])
    (hlast : ∀ sigil name more, segments = .reference sigil name :: more → cs.getLast? ≠ some '\\') :
    IsSegmentation (Segment.withLiteral cs segments) := by
  have hfull : (Segment.literal (String.ofList cs)).IsFull := by simpa [Segment.IsFull] using hcs
  match segments, h with
  | [], h => exact isSegmentation_cons.mpr ⟨hfull, by simp, h⟩
  | .reference sigil name :: rest, h =>
    refine isSegmentation_cons.mpr ⟨hfull, ?_, h⟩
    rintro next ⟨⟩
    rw [Segment.MayPrecede, String.toList_ofList]
    exact hlast sigil name rest rfl
  | .literal text :: rest, h =>
    obtain ⟨htext, hnext, hrest⟩ := isSegmentation_cons.mp h
    have hchars : text.toList ≠ [] := String.toList_eq_nil_iff.not.mpr htext
    refine isSegmentation_cons.mpr ⟨?_, fun next hmem => ?_, hrest⟩
    · simp [Segment.IsFull, hcs]
    -- The joined literal ends as the one that was there.
    · cases next with
      | literal => exact hnext _ hmem
      | reference sigil name =>
        have hplain : text.toList.getLast? ≠ some '\\' := hnext _ hmem
        rw [Segment.MayPrecede, String.toList_append, List.getLast?_append_of_ne_nil _ hchars]
        exact hplain

/-! ## §3 Texts are read as segmentations -/

/-- A text that is read as a reference at first begins with its sigil. -/
theorem head?_of_scanChars {sigil : Sigil} {name : String} {more : List Segment}
    (h : scanChars skipQuoted cs = .reference sigil name :: more) : cs.head? = some sigil.char := by
  cases cs with
  | nil =>
    rw [scanChars_nil] at h
    cases h
  | cons c rest =>
    rw [scanChars] at h
    split at h
    · exact absurd h Segment.withLiteral_ne_reference
    · split at h
      · exact absurd h Segment.withLiteral_ne_reference
      · split at h
        · rename_i segment after htaken
          obtain ⟨found, _, rfl, -, rfl⟩ := exists_of_takeSigil? htaken
          cases h
          rw [List.head?_cons]
        · exact absurd h Segment.withLiteral_ne_reference

/-- A quoted literal that something follows ends in its quote. -/
theorem getLast?_takeQuoted (h : (takeQuoted cs).2 ≠ []) : (takeQuoted cs).1.getLast? = some '\'' := by
  fun_induction takeQuoted cs with
  | case1 => exact absurd rfl h
  | case2 rest inside after htaken ih =>
    rw [htaken] at ih
    rw [List.getLast?_cons_cons, List.getLast?_cons, ih h]
    rfl
  | case3 c rest hpair hc =>
    rw [eq_of_beq hc]
    rfl
  | case4 c rest hpair hc inside after htaken ih =>
    rw [htaken] at ih
    rw [List.getLast?_cons, ih h]
    rfl

theorem mem_of_mem_trimChars (h : c ∈ Text.trimChars cs) : c ∈ cs := by
  rw [← Text.trimmed_append cs]
  exact List.mem_append_left _ (List.mem_append_right _ h)

theorem isNameChar_of_isNameStart (h : isNameStart c = true) : isNameChar c = true := by
  unfold isNameStart at h
  unfold isNameChar Char.isAlphanum
  rcases Bool.or_eq_true_iff.mp h with halpha | hline
  · rw [halpha, Bool.true_or, Bool.true_or]
  · rw [hline, Bool.or_true]

/-- The characters of bare names are neither blanks nor braces. -/
theorem plain_of_isNameChar (h : isNameChar c = true) : Text.isBlank c = false ∧ c ≠ '\x7d' := by
  have hascii : ∀ n < 128, isNameChar (Char.ofNat n) = true →
      Text.isBlank (Char.ofNat n) = false ∧ Char.ofNat n ≠ '\x7d' := by decide
  have hsmall : c.toNat < 128 := by
    rcases Bool.or_eq_true_iff.mp h with halnum | hline
    · exact toNat_lt_of_isAlphanum halnum
    · rw [eq_of_beq hline]
      decide
  have hc := hascii c.toNat hsmall
  rw [Char.ofNat_toNat] at hc
  exact hc h

/-- A name that is read behind a sigil can be written between braces. -/
theorem isFull_of_takeReference? {name : String} (sigil : Sigil) (h : takeReference? cs = some (name, rest)) :
    (Segment.reference sigil name).IsFull := by
  cases cs with
  | nil => cases h
  | cons c tail =>
    rw [takeReference?] at h
    split at h
    · split at h
      · cases h
      · dsimp only at h
        split at h
        · cases h
        · rename_i hfull
          cases h
          refine ⟨?_, ?_, fun hbrace => ?_⟩
          · simpa using hfull
          · rw [Text.trim, String.toList_ofList, Text.trimChars_trimChars]
          · rw [String.toList_ofList] at hbrace
            have hinside := List.mem_takeWhile_imp (mem_of_mem_trimChars hbrace)
            cases hinside
    · split at h
      · rename_i hstart
        cases h
        have hplain : ∀ d ∈ c :: tail.takeWhile isNameChar, Text.isBlank d = false ∧ d ≠ '\x7d' := by
          intro d hd
          rcases List.mem_cons.mp hd with rfl | hlater
          · exact plain_of_isNameChar (isNameChar_of_isNameStart hstart)
          · exact plain_of_isNameChar (List.mem_takeWhile_imp hlater)
        refine ⟨by simp, ?_, fun hbrace => ?_⟩
        · rw [Text.trim, String.toList_ofList, Text.trimChars_of_not_blank fun d hd => (hplain d hd).1]
        · rw [String.toList_ofList] at hbrace
          exact (hplain _ hbrace).2 rfl
      · cases h

/-- Every text is read as a segmentation. -/
theorem isSegmentation_scanChars (skipQuoted : Bool) (cs : List Char) : IsSegmentation (scanChars skipQuoted cs) := by
  fun_induction scanChars skipQuoted cs with
  | case1 => exact isSegmentation_nil
  | case2 c rest hquote hshorter ih =>
    refine ih.withLiteral (List.cons_ne_nil _ _) fun sigil name more hreference => ?_
    -- A reference stands behind the literal, so the literal is closed.
    have hafter : (takeQuoted rest).2 ≠ [] := by
      intro hnil
      rw [hnil, scanChars_nil] at hreference
      cases hreference
    rw [List.getLast?_cons, getLast?_takeQuoted hafter, Option.getD_some]
    decide
  | case3 c rest hquote d after hescaped hshorter ih =>
    refine ih.withLiteral (List.cons_ne_nil _ _) fun sigil name more hreference hslash => ?_
    have hd := isSome_of_takeEscaped? hescaped
    rw [List.getLast?_singleton, Option.some.injEq] at hslash
    rw [hslash] at hd
    cases hd
  | case4 c rest hquote hescaped segment after htaken hshorter ih =>
    obtain ⟨sigil, _, -, hname, rfl⟩ := exists_of_takeSigil? htaken
    exact isSegmentation_cons.mpr ⟨isFull_of_takeReference? sigil hname, fun _ _ => trivial, ih⟩
  | case5 c rest hquote hescaped htaken ih =>
    refine ih.withLiteral (List.cons_ne_nil _ _) fun sigil name more hreference hslash => ?_
    -- A backslash right in front of a sigil would have taken its meaning away.
    rw [List.getLast?_singleton, Option.some.injEq] at hslash
    obtain ⟨after, rfl⟩ := List.head?_eq_some_iff.mp (head?_of_scanChars hreference)
    rw [hslash, takeEscaped?, sigil.ofChar?_char] at hescaped
    cases hescaped

/-! ## §4 Segmentations are read back -/

/-- Characters with a backslash in front of each sigil. -/
def escapeSigils (cs : List Char) : List Char :=
  cs.flatMap fun c => if (Sigil.ofChar? c).isSome then ['\\', c] else [c]

/-- How a segment is written: a literal with its sigils escaped, a reference with its name between braces. -/
def Segment.written : Segment → List Char
  | .literal text => escapeSigils text.toList
  | .reference sigil name => sigil.char :: '\x7b' :: (name.toList ++ ['\x7d'])

/-- The text that segments are written as. -/
def writeSegments (segments : List Segment) : String :=
  String.ofList (segments.flatMap Segment.written)

theorem escapeSigils_cons (c : Char) (cs : List Char) :
    escapeSigils (c :: cs) = (if (Sigil.ofChar? c).isSome then ['\\', c] else [c]) ++ escapeSigils cs :=
  List.flatMap_cons

/-- No sigil comes first in a text whose sigils are escaped. -/
theorem ofChar?_head?_escapeSigils (c : Char) (cs more : List Char) :
    ∀ d ∈ (escapeSigils (c :: cs) ++ more).head?, Sigil.ofChar? d = none := by
  rw [escapeSigils_cons]
  split
  · rintro d ⟨⟩
    rfl
  · rename_i hc
    rintro d ⟨⟩
    simpa using hc

/-- An escaped character is read as the character, unless it is a backslash and a sigil follows. -/
theorem scanChars_escaped_append (h : c = '\\' → ∀ d ∈ rest.head?, Sigil.ofChar? d = none) :
    scanChars false ((if (Sigil.ofChar? c).isSome then ['\\', c] else [c]) ++ rest)
      = Segment.withLiteral [c] (scanChars false rest) := by
  split
  · rename_i hc
    exact scanChars_escaped hc rest
  · rename_i hc
    have hsigil : Sigil.ofChar? c = none := by simpa using hc
    have hescaped : takeEscaped? c rest = none := by
      by_cases hslash : c = '\\'
      · cases rest with
        | nil => rfl
        | cons d rest =>
          rw [takeEscaped?, h hslash d rfl]
          exact if_neg (by simp)
      · exact takeEscaped?_of_ne hslash rest
    exact scanChars_plain rfl hescaped hsigil

/-- An escaped literal is read as the literal, unless it ends in a backslash and a sigil follows. -/
theorem scanChars_escapeSigils {more : List Char} (hcs : cs ≠ [])
    (hmore : cs.getLast? = some '\\' → ∀ d ∈ more.head?, Sigil.ofChar? d = none) :
    scanChars false (escapeSigils cs ++ more) = Segment.withLiteral cs (scanChars false more) := by
  induction cs with
  | nil => exact absurd rfl hcs
  | cons c cs ih =>
    rw [escapeSigils_cons, List.append_assoc]
    cases cs with
    | nil =>
      refine scanChars_escaped_append fun hc => ?_
      rw [List.getLast?_singleton, hc] at hmore
      exact hmore rfl
    | cons e cs =>
      -- What follows the first character begins with no sigil, whatever the character is.
      rw [scanChars_escaped_append fun _ => ofChar?_head?_escapeSigils e cs more, ih (List.cons_ne_nil _ _) hmore,
        Segment.withLiteral_withLiteral]
      rfl

/-- A segmentation that is written is read back. -/
theorem scanChars_written (h : IsSegmentation segments) :
    scanChars false (segments.flatMap Segment.written) = segments := by
  induction segments with
  | nil => exact scanChars_nil false
  | cons segment rest ih =>
    obtain ⟨hfull, hnext, hrest⟩ := isSegmentation_cons.mp h
    rw [List.flatMap_cons]
    cases segment with
    | literal text =>
      have hchars : text.toList ≠ [] := String.toList_eq_nil_iff.not.mpr hfull
      rw [Segment.written, scanChars_escapeSigils hchars, ih hrest]
      · -- A reference or nothing stands behind the literal.
        match rest with
        | [] => rw [Segment.withLiteral_nil, String.ofList_toList]
        | .literal _ :: _ => exact (hnext _ rfl).elim
        | .reference _ _ :: _ => rw [Segment.withLiteral_reference, String.ofList_toList]
      · intro hslash d hd
        match rest with
        | [] => cases hd
        | .literal _ :: _ => exact (hnext _ rfl).elim
        | .reference _ _ :: _ => exact absurd hslash (hnext _ rfl)
    | reference sigil name =>
      obtain ⟨hname, htrim, hopen⟩ := hfull
      have htrimmed : Text.trimChars name.toList = name.toList := by
        rw [← Text.toList_trim, htrim]
      have htaken : takeReference? ('\x7b' :: (name.toList ++ '\x7d' :: rest.flatMap Segment.written))
          = some (name, rest.flatMap Segment.written) := by
        rw [takeReference?_braced hopen (by simpa [htrimmed] using hname), htrimmed, String.ofList_toList]
      have hwritten : (Segment.reference sigil name).written ++ rest.flatMap Segment.written
          = sigil.char :: '\x7b' :: (name.toList ++ '\x7d' :: rest.flatMap Segment.written) := by
        simp [Segment.written]
      rw [hwritten, scanChars_reference htaken, ih hrest]

/-! ## §5 Scanning is lossless -/

/-- A text whose sigils are escaped stands for the text, in every scope. -/
theorem Scope.substitute_escapeSigils (s : Scope) (text : String) :
    s.substitute (String.ofList (escapeSigils text.toList)) = .ok text := by
  rw [substitute, scanReferences, String.toList_ofList]
  by_cases hempty : text = ""
  · rw [hempty]
    exact congrArg (fun l => (l.mapM s.segmentText).map String.join) (scanChars_nil false)
  · have hscanned : scanChars false (escapeSigils text.toList ++ []) = Segment.withLiteral text.toList _ :=
      scanChars_escapeSigils (String.toList_eq_nil_iff.not.mpr hempty) nofun
    rw [List.append_nil, scanChars_nil, Segment.withLiteral_nil, String.ofList_toList] at hscanned
    rw [hscanned]
    simp [segmentText, Except.map, bind, Except.bind, pure, Except.pure, String.join]

/-- Texts are read as segmentations, every segmentation that is written is read back, and a text whose sigils are
    escaped stands for itself in every scope. -/
theorem scanReferences_lossless : (∀ text, IsSegmentation (scanReferences text))
    ∧ (∀ segments, IsSegmentation segments → scanReferences (writeSegments segments) = segments)
    ∧ ∀ (s : Scope) (text : String), s.substitute (String.ofList (escapeSigils text.toList)) = .ok text := by
  refine ⟨fun text => isSegmentation_scanChars false text.toList, fun segments h => ?_, Scope.substitute_escapeSigils⟩
  rw [scanReferences, writeSegments, String.toList_ofList, scanChars_written h]

/-- A literal that begins with a backslash and a sigil, two references, and a literal that ends in a backslash. -/
theorem lossless_sample : IsSegmentation
      [.literal "\\%a", .reference .environment "x y", .reference .calculated "n", .literal "b\\"]
    ∧ scanReferences "\\\\%a%\x7bx y\x7d@\x7bn\x7db\\"
      = [.literal "\\%a", .reference .environment "x y", .reference .calculated "n", .literal "b\\"] := by
  have hsegments : IsSegmentation
      [.literal "\\%a", .reference .environment "x y", .reference .calculated "n", .literal "b\\"] :=
    ⟨by decide, by decide⟩
  exact ⟨hsegments, scanReferences_lossless.2.1 _ hsegments⟩

end BenchPlot
