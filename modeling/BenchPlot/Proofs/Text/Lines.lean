import BenchPlot.Text.Pieces

/-!
# Lines as pieces of a text

The lines of a text are its pieces between line feeds, without the carriage returns before these. So the lines of a
text whose lines are all ended are not changed by what stands behind it, and trimmed lines are the same whether the
last one is ended or not. What ends no line goes to the line behind it.

Main statements: `Text.lineChars_eq`, `Text.lineChars_append_of_notMem` and `Text.map_trimChars_lineChars_closed`.
-/

namespace BenchPlot

namespace Text

/-! ## §1 Pieces -/

/-- A line without the carriage return at its end. -/
def withoutReturn (line : List Char) : List Char :=
  if line.getLast? = some '\r' then line.dropLast else line

/-- The lines that the pieces between line feeds are. The last piece has no line end, and is no line if it is
    empty. -/
def linesOfPieces : List (List Char) → List (List Char)
  | [] => []
  | [last] => if last.isEmpty then [] else [last]
  | piece :: next :: rest => withoutReturn piece :: linesOfPieces (next :: rest)

theorem withoutReturn_cons {c : Char} {line : List Char} (h : c = '\r' → line ≠ []) :
    withoutReturn (c :: line) = c :: withoutReturn line := by
  cases line with
  | nil =>
    have hc : c ≠ '\r' := fun heq => h heq rfl
    simp [withoutReturn, hc]
  | cons d rest =>
    unfold withoutReturn
    rw [List.getLast?_cons_cons]
    split
    · rfl
    · rfl

theorem trimChars_withoutReturn (line : List Char) : trimChars (withoutReturn line) = trimChars line := by
  unfold withoutReturn
  split
  · rename_i h
    obtain ⟨front, rfl⟩ := List.getLast?_eq_some_iff.mp h
    rw [List.dropLast_concat, trimChars, trimChars, trimStartChars, trimStartChars, List.dropWhile_append]
    split
    · rename_i hblank
      rw [List.isEmpty_iff.mp hblank]
      decide
    · simp [trimEndChars, show isBlank '\r' = true from by decide]
  · rfl

/-- The pieces of a text with a further character that is no separator: the first piece has it in front. -/
theorem piecesBy_cons {p : Char → Bool} {c : Char} (hc : p c = false) (cs : List Char) :
    ∃ piece pieces, piecesBy p cs = piece :: pieces ∧ piecesBy p (c :: cs) = (c :: piece) :: pieces := by
  cases h : piecesBy p cs with
  | nil => exact absurd h (piecesBy_ne_nil p cs)
  | cons piece pieces => exact ⟨piece, pieces, rfl, by rw [piecesBy, if_neg (ne_true_of_eq_false hc), h]⟩

theorem piecesBy_append {p : Char → Bool} {c : Char} (hc : p c = true) (cs rest : List Char) :
    piecesBy p (cs ++ c :: rest) = piecesBy p cs ++ piecesBy p rest := by
  induction cs with
  | nil => simp [piecesBy, hc]
  | cons d cs ih =>
    cases hd : p d with
    | true => rw [List.cons_append, piecesBy, if_pos hd, ih, piecesBy, if_pos hd, List.cons_append]
    | false =>
      obtain ⟨piece, pieces, hpieces, hmore⟩ := piecesBy_cons hd cs
      rw [List.cons_append, piecesBy, if_neg (ne_true_of_eq_false hd), ih, hpieces, hmore]
      rfl

theorem linesOfPieces_cons (piece : List Char) {more : List (List Char)} (hmore : more ≠ []) :
    linesOfPieces (piece :: more) = withoutReturn piece :: linesOfPieces more := by
  obtain ⟨next, rest, rfl⟩ := List.exists_cons_of_ne_nil hmore
  rfl

theorem linesOfPieces_append (pieces : List (List Char)) {more : List (List Char)} (hmore : more ≠ []) :
    linesOfPieces (pieces ++ more) = pieces.map withoutReturn ++ linesOfPieces more := by
  induction pieces with
  | nil => rfl
  | cons piece rest ih =>
    rw [List.cons_append, linesOfPieces_cons piece (List.append_ne_nil_of_right_ne_nil rest hmore), ih]
    rfl

/-- A text starts with a separator if its first piece is empty and not the only one. -/
theorem exists_cons_of_piecesBy {p : Char → Bool} {cs next : List Char} {rest : List (List Char)}
    (h : piecesBy p cs = [] :: next :: rest) : ∃ c cs', cs = c :: cs' ∧ p c = true := by
  cases cs with
  | nil => cases h
  | cons c cs =>
    cases hc : p c with
    | true => exact ⟨c, cs, rfl, hc⟩
    | false =>
      obtain ⟨piece, pieces, _, hmore⟩ := piecesBy_cons hc cs
      rw [hmore] at h
      cases h

/-- The last piece of a text ends with its last character, if that is no separator. -/
theorem exists_piecesBy_concat {p : Char → Bool} {c : Char} (hc : p c = false) (front : List Char) :
    ∃ pieces last, piecesBy p (front ++ [c]) = pieces ++ [last ++ [c]] := by
  induction front with
  | nil => exact ⟨[], [], by simp [piecesBy, hc]⟩
  | cons d front ih =>
    obtain ⟨pieces, last, h⟩ := ih
    cases hd : p d with
    | true => exact ⟨[] :: pieces, last, by rw [List.cons_append, piecesBy, if_pos hd, h, List.cons_append]⟩
    | false =>
      obtain ⟨piece, others, hpieces, hmore⟩ := piecesBy_cons hd (front ++ [c])
      rw [h] at hpieces
      rw [List.cons_append, hmore]
      cases pieces with
      | nil =>
        cases hpieces
        exact ⟨[], d :: last, rfl⟩
      | cons first pieces =>
        cases hpieces
        exact ⟨(d :: piece) :: pieces, last, rfl⟩

/-- No piece has the separator. -/
theorem notMem_of_mem_piecesAt {sep : Char} {cs piece : List Char} (h : piece ∈ piecesAt sep cs) : sep ∉ piece := by
  induction cs generalizing piece with
  | nil =>
    rw [List.mem_singleton.mp h]
    exact List.not_mem_nil
  | cons c cs ih =>
    by_cases hc : c = sep
    · rw [piecesAt, piecesBy, if_pos (beq_iff_eq.mpr hc)] at h
      rcases List.mem_cons.mp h with rfl | h
      · exact List.not_mem_nil
      · exact ih h
    · obtain ⟨first, pieces, hpieces, hmore⟩ := piecesBy_cons (p := (· == sep)) (beq_eq_false_iff_ne.mpr hc) cs
      rw [piecesAt, hmore] at h
      rw [piecesAt, hpieces] at ih
      rcases List.mem_cons.mp h with rfl | h
      · have hfirst := ih (List.mem_cons_self ..)
        rintro (_ | ⟨_, hmem⟩)
        · exact hc rfl
        · exact hfirst hmem
      · exact ih (List.mem_cons_of_mem _ h)

theorem piecesAt_of_notMem {sep : Char} {cs : List Char} (h : sep ∉ cs) : piecesAt sep cs = [cs] := by
  induction cs with
  | nil => rfl
  | cons c cs ih =>
    obtain ⟨hc, hcs⟩ : sep ≠ c ∧ sep ∉ cs := by simpa using h
    obtain ⟨piece, pieces, hpieces, hmore⟩ := piecesBy_cons (p := (· == sep)) (beq_eq_false_iff_ne.mpr hc.symm) cs
    rw [piecesAt, hmore]
    have hsame : piece :: pieces = [cs] := hpieces.symm.trans (ih hcs)
    cases hsame
    rfl

/-- A text is cut at the first separator. -/
theorem piecesAt_cut {sep : Char} {cs : List Char} (h : sep ∉ cs) (rest : List Char) :
    piecesAt sep (cs ++ sep :: rest) = cs :: piecesAt sep rest := by
  have hcut : piecesAt sep (cs ++ sep :: rest) = piecesAt sep cs ++ piecesAt sep rest :=
    piecesBy_append (p := (· == sep)) (beq_self_eq_true sep) cs rest
  rw [hcut, piecesAt_of_notMem h, List.singleton_append]

/-- What stands in joined texts stands in one of them, or between two of them. -/
theorem mem_intercalate {α : Type} {a : α} {separator : List α} {texts : List (List α)} :
    a ∈ separator.intercalate texts ↔ (∃ t ∈ texts, a ∈ t) ∨ a ∈ separator ∧ 2 ≤ texts.length := by
  induction texts with
  | nil => simp
  | cons first rest ih =>
    cases rest with
    | nil => simp
    | cons second rest =>
      rw [List.intercalate_cons_cons, List.mem_append, List.mem_append, ih]
      simp only [List.mem_cons, List.length_cons, exists_eq_or_imp]
      constructor
      · rintro ((h | h) | (h | ⟨h, -⟩))
        · exact .inl (.inl h)
        · exact .inr ⟨h, by omega⟩
        · exact .inl (.inr h)
        · exact .inr ⟨h, by omega⟩
      · rintro ((h | h) | ⟨h, -⟩)
        · exact .inl (.inl h)
        · exact .inr (.inl h)
        · exact .inl (.inr h)

/-- Pieces that are joined by a separator, which none of them has, come back. -/
theorem piecesAt_intercalate {sep : Char} {pieces : List (List Char)} (hfull : pieces ≠ [])
    (h : ∀ piece ∈ pieces, sep ∉ piece) : piecesAt sep (List.intercalate [sep] pieces) = pieces := by
  induction pieces with
  | nil => exact absurd rfl hfull
  | cons piece rest ih =>
    obtain ⟨hpiece, hrest⟩ := List.forall_mem_cons.mp h
    cases rest with
    | nil =>
      rw [List.intercalate_singleton]
      exact piecesAt_of_notMem hpiece
    | cons next rest =>
      rw [List.intercalate_cons_cons, List.append_assoc, List.singleton_append, piecesAt_cut hpiece,
        ih (List.cons_ne_nil _ _) hrest]

/-! ## §2 Lines -/

/-- The lines of a text are its pieces between line feeds, without the carriage returns before these. -/
theorem lineChars_eq (cs : List Char) : lineChars cs = linesOfPieces (piecesAt '\n' cs) := by
  have hpieces : ∀ cs, piecesAt '\n' cs ≠ [] := piecesBy_ne_nil _
  -- A line end closes an empty line; any other character goes to the line that the rest starts with.
  fun_induction lineChars cs with
  | case1 => rfl
  | case2 cs ih => exact (congrArg ([] :: ·) ih).trans (linesOfPieces_cons ['\r'] (hpieces cs)).symm
  | case3 cs ih => exact (congrArg ([] :: ·) ih).trans (linesOfPieces_cons [] (hpieces cs)).symm
  | case4 c cs hreturn hfeed hnone ih =>
    obtain ⟨piece, pieces, hcs, hmore⟩ := piecesBy_cons (p := (· == '\n')) (beq_eq_false_iff_ne.mpr hfeed) cs
    rw [hnone, piecesAt, hcs] at ih
    rw [piecesAt, hmore]
    cases pieces with
    | nil =>
      cases piece with
      | nil => rfl
      | cons d piece => cases ih
    | cons next rest => cases ih
  | case5 c cs hreturn hfeed line lines hlines ih =>
    obtain ⟨piece, pieces, hcs, hmore⟩ := piecesBy_cons (p := (· == '\n')) (beq_eq_false_iff_ne.mpr hfeed) cs
    rw [hlines, piecesAt, hcs] at ih
    rw [piecesAt, hmore]
    cases pieces with
    | nil =>
      cases piece with
      | nil => cases ih
      | cons d piece => cases ih; rfl
    | cons next rest =>
      have hkept : c = '\r' → piece ≠ [] := by
        rintro hc rfl
        obtain ⟨d, cs', hd, hsep⟩ := exists_cons_of_piecesBy hcs
        exact hreturn cs' hc (eq_of_beq hsep ▸ hd)
      rw [linesOfPieces, withoutReturn_cons hkept]
      cases ih
      rfl

theorem lineChars_append (cs rest : List Char) :
    lineChars (cs ++ '\n' :: rest) = (piecesAt '\n' cs).map withoutReturn ++ lineChars rest := by
  have hpieces : piecesAt '\n' (cs ++ '\n' :: rest) = piecesAt '\n' cs ++ piecesAt '\n' rest := piecesBy_append rfl ..
  have hrest : piecesAt '\n' rest ≠ [] := piecesBy_ne_nil _ rest
  rw [lineChars_eq, lineChars_eq, hpieces, linesOfPieces_append _ hrest]

theorem withoutReturn_of_notMem {line : List Char} (h : '\r' ∉ line) : withoutReturn line = line :=
  if_neg fun hlast => h (List.mem_of_getLast? hlast)

/-- Lines that are written with their ends come back, if no line end is in them. -/
theorem lineChars_flatMap {lines : List (List Char)} (h : ∀ line ∈ lines, '\n' ∉ line ∧ '\r' ∉ line) :
    lineChars (lines.flatMap fun line => line ++ ['\n']) = lines := by
  induction lines with
  | nil => rfl
  | cons line rest ih =>
    obtain ⟨⟨hfeed, hreturn⟩, hrest⟩ := List.forall_mem_cons.mp h
    rw [List.flatMap_cons, List.append_assoc, List.singleton_append, lineChars_append, piecesAt_of_notMem hfeed,
      ih hrest, List.map_singleton, withoutReturn_of_notMem hreturn, List.singleton_append]

/-- What ends no line stands in front of the first line of what follows. -/
theorem lineChars_append_of_notMem {left cs : List Char} (hleft : '\n' ∉ left) (hcs : cs.head? ≠ some '\n')
    {first : List Char} {lines : List (List Char)} (h : lineChars cs = first :: lines) :
    lineChars (left ++ cs) = (left ++ first) :: lines := by
  induction left with
  | nil => exact h
  | cons c left ih =>
    obtain ⟨hc, hleft⟩ : '\n' ≠ c ∧ '\n' ∉ left := by simpa using hleft
    have hhead : (left ++ cs).head? ≠ some '\n' := by
      cases left with
      | nil => exact hcs
      | cons d left =>
        intro hd
        obtain rfl := Option.some.inj hd
        exact hleft (List.mem_cons_self ..)
    rw [List.cons_append, lineChars, ih hleft]
    · rfl
    · rintro rest - heq
      rw [heq] at hhead
      exact hhead rfl
    · exact Ne.symm hc

/-- A text that does not start with the end of a line starts its first line. -/
theorem exists_lineChars {c : Char} (hfeed : c ≠ '\n') (hreturn : c ≠ '\r') (cs : List Char) :
    ∃ line lines, lineChars (c :: cs) = (c :: line) :: lines := by
  rw [lineChars]
  · cases lineChars cs with
    | nil => exact ⟨[], [], rfl⟩
    | cons line lines => exact ⟨line, lines, rfl⟩
  · exact fun rest hc => absurd hc hreturn
  · exact hfeed

/-- A text whose lines are all ended: with a line feed at its end, unless there is one or the text is empty. -/
def closed (cs : List Char) : List Char :=
  if cs.getLast?.all (· == '\n') then cs else cs ++ ['\n']

/-- The trimmed lines of a text and of what stands behind it. -/
theorem map_trimChars_lineChars_closed (cs rest : List Char) : (lineChars (closed cs ++ rest)).map trimChars
    = (lineChars cs).map trimChars ++ (lineChars rest).map trimChars := by
  have htrim : trimChars ∘ withoutReturn = trimChars := funext trimChars_withoutReturn
  unfold closed
  cases hlast : cs.getLast? with
  | none =>
    rw [List.getLast?_eq_none_iff.mp hlast]
    rfl
  | some c =>
    obtain ⟨front, rfl⟩ := List.getLast?_eq_some_iff.mp hlast
    cases hc : c == '\n' with
    | true =>
      obtain rfl := eq_of_beq hc
      rw [Option.all_some, hc, if_pos rfl, List.append_assoc, List.singleton_append, lineChars_append,
        lineChars_append, lineChars, List.append_nil, List.map_append]
    | false =>
      obtain ⟨pieces, last, hpieces⟩ := exists_piecesBy_concat (p := (· == '\n')) hc front
      have hlines : lineChars (front ++ [c]) = pieces.map withoutReturn ++ [last ++ [c]] := by
        rw [lineChars_eq, piecesAt, hpieces, linesOfPieces_append pieces (List.cons_ne_nil _ _)]
        simp [linesOfPieces]
      rw [Option.all_some, hc, if_neg Bool.false_ne_true, List.append_assoc, List.singleton_append, lineChars_append,
        hlines, piecesAt, hpieces, List.map_append, List.map_map, htrim, List.map_append, List.map_append,
        List.map_map, htrim, List.map_singleton]

/-! ## §3 Trimmed pieces -/

theorem trimStartChars_append {left : List Char} (h : ∃ c ∈ left, isBlank c = false) (more : List Char) :
    trimStartChars (left ++ more) = trimStartChars left ++ more := by
  obtain ⟨c, hc, hblank⟩ := h
  unfold trimStartChars
  induction left with
  | nil => cases hc
  | cons d left ih =>
    cases hd : isBlank d with
    | false =>
      rw [List.cons_append, List.dropWhile_cons_of_neg (ne_true_of_eq_false hd),
        List.dropWhile_cons_of_neg (ne_true_of_eq_false hd), List.cons_append]
    | true =>
      rw [List.cons_append, List.dropWhile_cons_of_pos hd, List.dropWhile_cons_of_pos hd]
      refine ih ((List.mem_cons.mp hc).resolve_left ?_)
      rintro rfl
      exact ne_true_of_eq_false hblank hd

/-- The end is trimmed as the start is when the text is reversed. -/
theorem trimEndChars_eq (cs : List Char) : trimEndChars cs = (trimStartChars cs.reverse).reverse :=
  rfl

theorem trimEndChars_append (front : List Char) {right : List Char} (h : ∃ c ∈ right, isBlank c = false) :
    trimEndChars (front ++ right) = front ++ trimEndChars right := by
  have hright : ∃ c ∈ right.reverse, isBlank c = false := by simpa using h
  rw [trimEndChars_eq, List.reverse_append, trimStartChars_append hright, List.reverse_append, List.reverse_reverse,
    ← trimEndChars_eq]

theorem trimStartChars_of_head {cs : List Char} (h : ∃ c ∈ cs.head?, isBlank c = false) : trimStartChars cs = cs := by
  obtain ⟨c, hc, hblank⟩ := h
  cases cs with
  | nil => cases hc
  | cons d rest =>
    obtain rfl : d = c := Option.some.inj hc
    exact List.dropWhile_cons_of_neg (ne_true_of_eq_false hblank)

theorem trimEndChars_of_last {cs : List Char} (h : ∃ c ∈ cs.getLast?, isBlank c = false) : trimEndChars cs = cs := by
  rw [← List.head?_reverse] at h
  rw [trimEndChars_eq, trimStartChars_of_head h, List.reverse_reverse]

theorem trimStartChars_concat {c : Char} (hc : isBlank c = false) (cs : List Char) :
    trimStartChars (cs ++ [c]) = trimStartChars cs ++ [c] := by
  unfold trimStartChars
  rw [List.dropWhile_append]
  split
  · rename_i hnil
    rw [List.isEmpty_iff.mp hnil, List.dropWhile_cons_of_neg (ne_true_of_eq_false hc), List.nil_append]
  · rfl

theorem trimEndChars_cons {c : Char} (hc : isBlank c = false) (cs : List Char) :
    trimEndChars (c :: cs) = c :: trimEndChars cs := by
  rw [trimEndChars_eq, List.reverse_cons, trimStartChars_concat hc, List.reverse_append]
  rfl

theorem trimStartChars_of_blanks {blanks : List Char} (h : ∀ c ∈ blanks, isBlank c = true) (more : List Char) :
    trimStartChars (blanks ++ more) = trimStartChars more :=
  List.dropWhile_append_of_pos h

theorem trimEndChars_of_blanks (front : List Char) {blanks : List Char} (h : ∀ c ∈ blanks, isBlank c = true) :
    trimEndChars (front ++ blanks) = trimEndChars front := by
  rw [trimEndChars_eq, List.reverse_append, trimStartChars_of_blanks fun c hc => h c (List.mem_reverse.mp hc),
    ← trimEndChars_eq]

theorem trimEndChars_ne_nil {cs : List Char} (h : ∃ c ∈ cs, isBlank c = false) : trimEndChars cs ≠ [] := by
  obtain ⟨c, hc, hblank⟩ := h
  obtain ⟨front, back, rfl⟩ := List.append_of_mem hc
  rw [trimEndChars_append front ⟨c, List.mem_cons_self .., hblank⟩, trimEndChars_cons hblank]
  exact List.append_ne_nil_of_right_ne_nil _ (List.cons_ne_nil _ _)

/-- A line that goes on behind its first piece, without the blanks at its ends. -/
theorem trimChars_append {left right : List Char} (hleft : ∃ c ∈ left, isBlank c = false)
    (hright : ∃ c ∈ right, isBlank c = false) :
    trimChars (left ++ right) = trimStartChars left ++ trimEndChars right := by
  rw [trimChars, trimStartChars_append hleft, trimEndChars_append _ hright]

end Text

end BenchPlot
