import BenchPlot.Sql.Grammar
import Mathlib.Data.List.TakeWhile

/-!
# Scanning put-together texts

Query texts are put together from parts. What a part gives, read alone, it also gives in front of a closing
parenthesis, unless a comment is open at its end: no token goes on with a parenthesis. So the tokens of a
text are those of its parts, one after the other.

Main definitions: `lexemes?`, the tokens of a text by what they stand for, and `IsExpression`, the texts
that are terms. Main statements: `Lexes.closed` and `lexemes?_closeParen`.
-/

namespace BenchPlot.Sql

/-! ## §1 Rows of lexemes -/

/-- What the tokens of a text stand for, if the text consists of tokens. -/
def lexemes? (cs : List Char) : Option (List Lexeme) :=
  (scanChars? (takeBlank cs).2).map fun ts => ts.map Token.lexeme

/-- A text consists of lexemes: behind its blanks it ends, or stands a token and then the others. -/
inductive Lexes : List Char → List Lexeme → Prop
  | done {cs : List Char} (hblank : (takeBlank cs).2 = []) : Lexes cs []
  | token {cs rest after : List Char} {c : Char} {l : Lexeme} {ls : List Lexeme}
      (hblank : (takeBlank cs).2 = c :: rest) (htaken : takeLexeme? c rest = some (l, after))
      (hlater : Lexes after ls) : Lexes cs (l :: ls)

variable {cs ds rest after : List Char} {c : Char} {l : Lexeme} {ls : List Lexeme}

theorem lexemes?_done (hblank : (takeBlank cs).2 = []) : lexemes? cs = some [] := by
  rw [lexemes?, hblank, scanChars?]
  rfl

theorem lexemes?_token (hblank : (takeBlank cs).2 = c :: rest)
    (htaken : takeLexeme? c rest = some (l, after)) :
    lexemes? cs = (lexemes? after).map (l :: ·) := by
  rw [lexemes?, hblank, scanChars?]
  split
  · rename_i hnone
    rw [htaken] at hnone
    cases hnone
  · rename_i l' after' hsome
    rw [htaken] at hsome
    cases hsome
    simp [lexemes?, Function.comp_def]

theorem lexemes?_fault (hblank : (takeBlank cs).2 = c :: rest) (hfault : takeLexeme? c rest = none) :
    lexemes? cs = none := by
  rw [lexemes?, hblank, scanChars?]
  split
  · rfl
  · rename_i hsome
    rw [hfault] at hsome
    cases hsome

theorem lexemes?_eq_some_iff : lexemes? cs = some ls ↔ Lexes cs ls := by
  constructor
  · -- On the length of the text: every token takes a character.
    intro h
    induction hn : cs.length using Nat.strong_induction_on generalizing cs ls with
    | _ n ih =>
      cases hblank : (takeBlank cs).2 with
      | nil =>
        rw [lexemes?_done hblank] at h
        cases h
        exact .done hblank
      | cons c rest =>
        cases htaken : takeLexeme? c rest with
        | none =>
          rw [lexemes?_fault hblank htaken] at h
          cases h
        | some taken =>
          obtain ⟨l, after⟩ := taken
          rw [lexemes?_token hblank htaken] at h
          obtain ⟨ls', hlater, rfl⟩ := Option.map_eq_some_iff.mp h
          have hlength := takeLexeme?_length c rest _ htaken
          have hshort := takeBlank_length cs
          rw [hblank, List.length_cons] at hshort
          exact .token hblank htaken (ih after.length (by simp only at hlength; omega) hlater rfl)
  · intro h
    induction h with
    | done hblank => exact lexemes?_done hblank
    | token hblank htaken _ ih => rw [lexemes?_token hblank htaken, ih, Option.map_some]

/-! ## §2 Blanks in front of a parenthesis -/

theorem takeBlank_line (cs : List Char) :
    (takeBlank ('-' :: '-' :: cs)).2 = (takeBlank (cs.dropWhile (· != '\n'))).2 := by
  rw [takeBlank]

theorem takeBlank_block (c : Char) (cs : List Char) :
    (takeBlank ('/' :: '*' :: c :: cs)).2 = (takeBlank (takeComment (c :: cs)).2).2 := by
  rw [takeBlank]

theorem takeBlank_separator (hc : isSeparator c = true) (cs : List Char) :
    (takeBlank (c :: cs)).2 = (takeBlank cs).2 := by
  rw [takeBlank.eq_def]
  split
  · rename_i heq
    cases heq
    cases hc
  · rename_i heq
    cases heq
    cases hc
  · rename_i heq
    cases heq
    simp [hc]
  · rename_i heq
    cases heq

/-- A character that is no separator is no blank, unless a comment starts with it. -/
theorem takeBlank_start (hc : isSeparator c = false) (hline : c = '-' → cs.head? ≠ some '-')
    (hblock : c = '/' → cs.head? = some '*' → cs.tail = []) : (takeBlank (c :: cs)).2 = c :: cs := by
  rw [takeBlank.eq_def]
  split
  · rename_i heq
    cases heq
    exact absurd rfl (hline rfl)
  · rename_i heq
    cases heq
    cases hblock rfl rfl
  · rename_i heq
    cases heq
    simp [hc]
  · rename_i heq
    cases heq

/-- A comment that a parenthesis follows has the same end, unless it is open and takes the parenthesis. -/
theorem takeComment_append (cs : List Char) : (takeComment (cs ++ [')'])).2 = [] ∨
    ∀ more, (takeComment (cs ++ ')' :: more)).2 = (takeComment cs).2 ++ ')' :: more := by
  fun_induction takeComment cs with
  | case1 => exact .inl rfl
  | case2 rest => exact .inr fun more => rfl
  | case3 c rest hopen ih =>
    -- The parenthesis closes no comment, so the first character goes on being inside.
    have hinside : ∀ more, (takeComment (c :: (rest ++ ')' :: more))).2
        = (takeComment (rest ++ ')' :: more)).2 := by
      intro more
      rw [takeComment.eq_def]
      split
      · rename_i heq
        cases heq
      · rename_i rest' heq
        obtain ⟨rfl, hrest⟩ := List.cons.inj heq
        cases rest with
        | nil => cases hrest
        | cons d rest =>
          obtain ⟨rfl, -⟩ := List.cons.inj hrest
          exact (hopen rest rfl rfl).elim
      · rename_i heq
        cases heq
        rfl
    exact ih.imp (fun h => (hinside []).trans h) fun h more => (hinside more).trans (h more)

/-- Blanks that a parenthesis follows have the same end, unless a comment is open and takes the
    parenthesis. -/
theorem takeBlank_append (cs : List Char) : (takeBlank (cs ++ [')'])).2 = [] ∨
    ∀ more, (takeBlank (cs ++ ')' :: more)).2 = (takeBlank cs).2 ++ ')' :: more := by
  have hparen : ∀ more, (takeBlank (')' :: more)).2 = ')' :: more := fun more =>
    takeBlank_start (by decide) (fun h => by cases h) (fun h => by cases h)
  fun_induction takeBlank cs with
  | case1 rest _ blank after hafter ih =>
    rw [hafter] at ih
    simp only [List.cons_append, takeBlank_line, List.dropWhile_append]
    split
    · exact .inl (by rw [List.dropWhile_cons_of_pos (by decide), List.dropWhile_nil, takeBlank])
    · exact ih
  | case2 c rest _ blank after hafter ih =>
    rw [hafter] at ih
    simp only [List.cons_append, takeBlank_block]
    rcases takeComment_append (c :: rest) with hopen | hclosed
    · rw [List.cons_append] at hopen
      exact .inl (by rw [hopen, takeBlank])
    · simp only [List.cons_append] at hclosed
      simp only [hclosed]
      exact ih
  | case3 c rest _ _ hc ih =>
    simp only [List.cons_append, takeBlank_separator hc]
    exact ih
  | case4 c rest hline hblock hc =>
    have hline' : c = '-' → rest.head? ≠ some '-' := by
      rintro rfl hhead
      obtain ⟨rest', rfl⟩ := List.head?_eq_some_iff.mp hhead
      exact hline rest' rfl rfl
    by_cases hedge : c = '/' ∧ rest = ['*']
    · -- With the parenthesis the two characters start a comment.
      obtain ⟨rfl, rfl⟩ := hedge
      refine .inl ?_
      rw [List.cons_append, List.cons_append, List.nil_append, takeBlank_block]
      simp [takeComment, takeBlank]
    · refine .inr fun more => takeBlank_start (by simpa using hc) (fun h hhead => ?_) fun h hhead => ?_
      · cases rest with
        | nil => cases hhead
        | cons d rest => exact hline' h hhead
      · cases rest with
        | nil => cases hhead
        | cons d rest =>
          obtain rfl : d = '*' := by simpa using hhead
          cases rest with
          | nil => exact (hedge ⟨h, rfl⟩).elim
          | cons e rest => exact (hblock e rest h rfl).elim
  | case5 => exact .inr hparen

/-! ## §3 Tokens in front of a parenthesis -/

theorem takeWhile_paren {p : Char → Bool} (hp : p ')' = false) (cs more : List Char) :
    (cs ++ ')' :: more).takeWhile p = cs.takeWhile p := by
  rw [List.takeWhile_append, List.takeWhile_cons_of_neg (by simp [hp]), List.append_nil]
  split
  · rename_i hall
    exact (List.takeWhile_prefix p).eq_of_length hall |>.symm
  · rfl

theorem dropWhile_paren {p : Char → Bool} (hp : p ')' = false) (cs more : List Char) :
    (cs ++ ')' :: more).dropWhile p = cs.dropWhile p ++ ')' :: more := by
  rw [List.dropWhile_append, List.dropWhile_cons_of_neg (by simp [hp])]
  split
  · rename_i hnil
    rw [List.isEmpty_iff.mp hnil, List.nil_append]
  · rfl

theorem takeQuoted?_append {quote : Char} (hquote : quote ≠ ')') {inside : List Char}
    (h : takeQuoted? quote cs = some (inside, after)) (more : List Char) :
    takeQuoted? quote (cs ++ ')' :: more) = some (inside, after ++ ')' :: more) := by
  fun_induction takeQuoted? quote cs generalizing inside after with
  | case1 => cases h
  | case2 c hc =>
    cases h
    simp [takeQuoted?, hc, Ne.symm hquote]
  | case3 c hc => cases h
  | case4 c d rest hc hd ih =>
    obtain ⟨⟨inside', after'⟩, hrest, heq⟩ := Option.map_eq_some_iff.mp h
    cases heq
    simp [takeQuoted?, hc, hd, ih hrest]
  | case5 c d rest hc hd =>
    cases h
    simp [takeQuoted?, hc, hd]
  | case6 c d rest hc ih =>
    obtain ⟨⟨inside', after'⟩, hrest, heq⟩ := Option.map_eq_some_iff.mp h
    cases heq
    have hlater := ih hrest
    rw [List.cons_append] at hlater
    simp [takeQuoted?, hc, hlater]

theorem readFraction_append (cs more : List Char) : Decimal.readFraction (cs ++ ')' :: more)
    = ((Decimal.readFraction cs).1, (Decimal.readFraction cs).2 ++ ')' :: more) := by
  have hdigit : Decimal.isDigit ')' = false := by decide
  unfold Decimal.readFraction
  split
  · rename_i rest heq
    cases cs with
    | nil => cases heq
    | cons c cs =>
      obtain ⟨rfl, hrest⟩ := List.cons.inj heq
      subst hrest
      exact Prod.ext (takeWhile_paren hdigit cs more) (dropWhile_paren hdigit cs more)
  · rename_i hpoint
    split
    · exact (hpoint _ rfl).elim
    · rfl

theorem readSign_append (hcs : cs ≠ []) (more : List Char) : Decimal.readSign (cs ++ more)
    = ((Decimal.readSign cs).1, (Decimal.readSign cs).2 ++ more) := by
  obtain ⟨c, rest, rfl⟩ := List.exists_cons_of_ne_nil hcs
  rw [List.cons_append]
  unfold Decimal.readSign
  split
  · rename_i heq
    cases heq
    rfl
  · rename_i heq
    cases heq
    rfl
  · rename_i hminus hplus
    split
    · rename_i heq
      cases heq
      exact (hminus _ rfl).elim
    · rename_i heq
      cases heq
      exact (hplus _ rfl).elim
    · rfl

theorem takeExponent_append (cs more : List Char) : takeExponent (cs ++ ')' :: more)
    = ((takeExponent cs).1, (takeExponent cs).2 ++ ')' :: more) := by
  have hdigit : Decimal.isDigit ')' = false := by decide
  cases cs with
  | nil => rfl
  | cons mark rest =>
    rw [List.cons_append, takeExponent, takeExponent]
    cases rest with
    | nil => simp [Decimal.readSign, hdigit]
    | cons d rest =>
      rw [readSign_append (List.cons_ne_nil d rest)]
      dsimp only
      rw [takeWhile_paren hdigit, dropWhile_paren hdigit]
      have hhead : (((Decimal.readSign (d :: rest)).2 ++ ')' :: more).head?.map Decimal.isDigit).getD false
          = ((Decimal.readSign (d :: rest)).2.head?.map Decimal.isDigit).getD false := by
        cases (Decimal.readSign (d :: rest)).2 with
        | nil => simp [hdigit]
        | cons e es => rfl
      rw [hhead]
      split <;> rfl

theorem takeNumber?_append {d : Datum} (h : takeNumber? cs = some (d, after)) (more : List Char) :
    takeNumber? (cs ++ ')' :: more) = some (d, after ++ ')' :: more) := by
  have hdigit : Decimal.isDigit ')' = false := by decide
  have hcs : cs ≠ [] := by
    rintro rfl
    cases h
  unfold takeNumber? at h ⊢
  rw [readSign_append hcs]
  generalize Decimal.readSign cs = signed at h ⊢
  obtain ⟨negative, body⟩ := signed
  dsimp only at h ⊢
  rw [takeWhile_paren hdigit, dropWhile_paren hdigit, readFraction_append]
  generalize hbehind : body.dropWhile Decimal.isDigit = behind at h ⊢
  generalize Decimal.readFraction behind = read at h ⊢
  obtain ⟨fraction, later⟩ := read
  dsimp only at h ⊢
  split at h
  · cases h
  · rename_i hfull
    rw [if_neg hfull, takeExponent_append]
    have hpoint : ((behind ++ ')' :: more).head? != some '.') = (behind.head? != some '.') := by
      cases behind <;> rfl
    rw [hpoint]
    generalize takeExponent later = taken at h ⊢
    obtain ⟨exponent, last⟩ := taken
    dsimp only at h ⊢
    cases h
    rfl

theorem head?_paren {p : Char → Bool} (hp : p ')' = false) (cs more : List Char) :
    ((cs ++ ')' :: more).head?.map p).getD false = (cs.head?.map p).getD false := by
  cases cs <;> simp [hp]

theorem takeNumeral?_append (h : takeNumeral? c rest = some (l, after)) (more : List Char) :
    takeNumeral? c (rest ++ ')' :: more) = some (l, after ++ ')' :: more) := by
  unfold takeNumeral? at h ⊢
  split at h
  · rename_i d after' htaken
    split at h
    · cases h
    · rename_i hfree
      cases h
      have happend := takeNumber?_append htaken more
      rw [List.cons_append] at happend
      rw [happend]
      dsimp only
      have hlength : (decide ((rest ++ ')' :: more).length < (after ++ ')' :: more).length))
          = decide (rest.length < after.length) := by
        simp only [List.length_append]
        exact decide_eq_decide.mpr (by omega)
      rw [head?_paren (by decide), hlength, if_neg hfree]
  · cases h

theorem takeHexadecimal?_append (h : takeHexadecimal? cs = some (l, after)) (more : List Char) :
    takeHexadecimal? (cs ++ ')' :: more) = some (l, after ++ ')' :: more) := by
  have hhex : (hexValue? ')').isSome = false := by decide
  unfold takeHexadecimal? at h ⊢
  dsimp only at h ⊢
  rw [dropWhile_paren (p := fun c => (hexValue? c).isSome) hhex,
    takeWhile_paren (p := fun c => (hexValue? c).isSome) hhex, head?_paren (by decide)]
  split at h
  · cases h
  · rename_i hfree
    rw [if_neg hfree]
    obtain ⟨i, hi, heq⟩ := Option.map_eq_some_iff.mp h
    cases heq
    rw [hi, Option.map_some]

theorem takeSymbol?_append (h : takeSymbol? c rest = some (l, after)) (more : List Char) :
    takeSymbol? c (rest ++ ')' :: more) = some (l, after ++ ')' :: more) := by
  unfold takeSymbol? at h
  split at h
  · rename_i d rest
    split at h
    · rename_i s hpair
      cases h
      simp [takeSymbol?, hpair]
    · rename_i hpair
      obtain ⟨s, hs, heq⟩ := Option.map_eq_some_iff.mp h
      cases heq
      simp [takeSymbol?, hpair, hs]
  · obtain ⟨s, hs, heq⟩ := Option.map_eq_some_iff.mp h
    cases heq
    -- No symbol of two characters ends in the parenthesis.
    have hpair : pairSymbol? c ')' = none := by
      unfold pairSymbol?
      split <;> first | rfl | (rename_i heq; cases heq)
    simp [takeSymbol?, hpair, hs]

theorem startsHexadecimal_append (c : Char) (rest more : List Char) :
    startsHexadecimal c (rest ++ ')' :: more) = startsHexadecimal c rest := by
  have hhex : (hexValue? ')').isSome = false := by decide
  match rest with
  | [] =>
    cases more with
    | nil => rfl
    | cons d more => simp [startsHexadecimal]
  | [mark] => simp [startsHexadecimal, hhex]
  | mark :: digit :: rest => rfl

/-- A token goes on with no parenthesis. -/
theorem takeLexeme?_append (h : takeLexeme? c rest = some (l, after)) (more : List Char) :
    takeLexeme? c (rest ++ ')' :: more) = some (l, after ++ ')' :: more) := by
  unfold takeLexeme? at h ⊢
  -- A text, and a name between quotes.
  split at h
  · rename_i hquote
    obtain ⟨⟨inside, after'⟩, hq, heq⟩ := Option.map_eq_some_iff.mp h
    cases heq
    rw [if_pos hquote, takeQuoted?_append (by rintro rfl; cases hquote) hq, Option.map_some]
  rename_i hquote
  rw [if_neg hquote]
  split at h
  · rename_i hname
    obtain ⟨⟨inside, after'⟩, hq, heq⟩ := Option.map_eq_some_iff.mp h
    cases heq
    rw [if_pos hname, takeQuoted?_append (by rintro rfl; cases hname) hq, Option.map_some]
  rename_i hname
  rw [if_neg hname]
  -- A name between brackets.
  split at h
  · rename_i hbracket
    rw [if_pos hbracket]
    split at h
    · cases h
    · rename_i hdrop
      cases h
      obtain ⟨htake, hlater⟩ := Text.span_append hdrop (')' :: more)
      rw [htake, hlater]
  rename_i hbracket
  rw [if_neg hbracket]
  -- Bytes in hexadecimal digits.
  have hhead : ((rest ++ ')' :: more).head? == some '\'') = (rest.head? == some '\'') := by
    cases rest <;> rfl
  rw [hhead]
  split at h
  · rename_i hblob
    rw [if_pos hblob]
    cases rest with
    | nil =>
      simp at hblob
    | cons d rest =>
      rw [List.cons_append]
      simp only [List.tail_cons] at h ⊢
      split at h
      · cases h
      · rename_i hdrop
        obtain ⟨bytes, hbytes, heq⟩ := Option.map_eq_some_iff.mp h
        cases heq
        obtain ⟨htake, hlater⟩ := Text.span_append hdrop (')' :: more)
        rw [htake, hlater, hbytes]
        rfl
  rename_i hblob
  rw [if_neg hblob]
  -- A word.
  split at h
  · rename_i hword
    cases h
    rw [if_pos hword, takeWhile_paren (by decide), dropWhile_paren (by decide)]
  rename_i hword
  rw [if_neg hword, startsHexadecimal_append]
  -- Numbers, and what is left are symbols.
  split at h
  · rename_i hhex
    rw [if_pos hhex]
    cases rest with
    | nil => cases hhex
    | cons mark rest => exact takeHexadecimal?_append h more
  rename_i hhex
  have hstart : startsNumber c (rest ++ ')' :: more) = startsNumber c rest := by
    rw [startsNumber, startsNumber, head?_paren (by decide)]
  rw [if_neg hhex, hstart]
  split at h
  · rename_i hnumber
    rw [if_pos hnumber]
    exact takeNumeral?_append h more
  · rename_i hnumber
    rw [if_neg hnumber]
    exact takeSymbol?_append h more

/-! ## §4 Put-together texts -/

/-- Where a symbol stands, the token is a symbol. -/
theorem takeLexeme?_symbol {s : Symbol} (hc : charSymbol? c = some s) (cs : List Char) :
    takeLexeme? c cs = takeSymbol? c cs := by
  have hhex : c ≠ '0' → startsHexadecimal c cs = false := by
    intro hzero
    unfold startsHexadecimal
    split
    · simp [hzero]
    · rfl
  unfold charSymbol? at hc
  split at hc
  case h_13 => cases hc
  all_goals simp [takeLexeme?, isWordStart, hhex, startsNumber, Decimal.isDigit]

theorem takeLexeme?_openParen (cs : List Char) :
    takeLexeme? '(' cs = some (.symbol .openParen, cs) := by
  rw [takeLexeme?_symbol rfl]
  cases cs <;> simp [takeSymbol?, pairSymbol?, charSymbol?]

theorem takeLexeme?_closeParen (cs : List Char) :
    takeLexeme? ')' cs = some (.symbol .closeParen, cs) := by
  rw [takeLexeme?_symbol rfl]
  cases cs <;> simp [takeSymbol?, pairSymbol?, charSymbol?]

/-- A text that has its tokens in front of a parenthesis as well, and the parenthesis behind them, has them
    in front of any text that starts with a parenthesis. -/
theorem Lexes.closed (h : Lexes cs ls)
    (hclosed : lexemes? (cs ++ [')']) = some (ls ++ [.symbol .closeParen])) (more : List Char) :
    lexemes? (cs ++ ')' :: more) = (lexemes? more).map (ls ++ .symbol .closeParen :: ·) := by
  -- Along the tokens: at each place a blank that a comment leaves open would take the parenthesis.
  induction h with
  | @done cs hblank =>
    rcases takeBlank_append cs with hopen | hend
    · rw [lexemes?_done hopen] at hclosed
      cases hclosed
    · have hparen := hend more
      rw [hblank, List.nil_append] at hparen
      exact lexemes?_token hparen (takeLexeme?_closeParen more)
  | @token cs rest after c l ls hblank htaken hlater ih =>
    rcases takeBlank_append cs with hopen | hend
    · rw [lexemes?_done hopen] at hclosed
      cases hclosed
    · have hstep : ∀ more, lexemes? (cs ++ ')' :: more) = (lexemes? (after ++ ')' :: more)).map (l :: ·) := by
        intro more
        have hblank' := hend more
        rw [hblank, List.cons_append] at hblank'
        exact lexemes?_token hblank' (takeLexeme?_append htaken more)
      have hrest : lexemes? (after ++ [')']) = some (ls ++ [.symbol .closeParen]) := by
        rw [hstep []] at hclosed
        obtain ⟨ls', hls', heq⟩ := Option.map_eq_some_iff.mp hclosed
        obtain ⟨-, rfl⟩ := List.cons.inj heq
        exact hls'
      rw [hstep more, ih hrest, Option.map_map]
      rfl

theorem lexemes?_space (cs : List Char) : lexemes? (' ' :: cs) = lexemes? cs := by
  rw [lexemes?, lexemes?, takeBlank_separator rfl]

theorem lexemes?_openParen (cs : List Char) :
    lexemes? ('(' :: cs) = (lexemes? cs).map (.symbol .openParen :: ·) :=
  lexemes?_token (takeBlank_start rfl (fun h => by cases h) fun h => by cases h) (takeLexeme?_openParen cs)

/-- A word of letters, digits and underscores that no such character follows is one token. -/
theorem lexemes?_word {word : List Char} (hstart : (c.isAlpha || c == '_') = true) (hhex : c ≠ 'x' ∧ c ≠ 'X')
    (hword : ∀ d ∈ word, isWordChar d = true) (hrest : (rest.head?.map isWordChar).getD false = false) :
    lexemes? (c :: (word ++ rest)) = (lexemes? rest).map (.word (String.ofList (c :: word)) :: ·) := by
  obtain ⟨htake, hdrop⟩ := Text.span_before hword hrest
  -- No character that a token of another kind or a blank starts with starts a word as well.
  have hother : ∀ d : Char, (d.isAlpha || d == '_') = false → c ≠ d := by
    rintro d hd rfl
    rw [hstart] at hd
    cases hd
  have hseparator : isSeparator c = false := by
    simp [isSeparator, hother ' ' rfl, hother '\t' rfl, hother '\n' rfl, hother '\x0c' rfl, hother '\r' rfl,
      hother '\uFEFF' rfl]
  have hbegin : isWordStart c = true := by rw [isWordStart, hstart, Bool.true_or]
  have hblank : (takeBlank (c :: (word ++ rest))).2 = c :: (word ++ rest) :=
    takeBlank_start hseparator (fun h => (hother '-' rfl h).elim) fun h => (hother '/' rfl h).elim
  have htaken : takeLexeme? c (word ++ rest) = some (.word (String.ofList (c :: word)), rest) := by
    simp [takeLexeme?, hother '\'' rfl, hother '"' rfl, hother '\x60' rfl, hother '[' rfl, hhex.1, hhex.2, hbegin,
      htake, hdrop]
  exact lexemes?_token hblank htaken

private theorem isWordStart_ascii : ∀ n < 58, Decimal.isDigit (Char.ofNat n) = true →
    isWordStart (Char.ofNat n) = false := by
  decide

theorem isWordStart_of_isDigit (h : Decimal.isDigit c = true) : isWordStart c = false := by
  have hnine : c ≤ '9' := of_decide_eq_true (Bool.and_eq_true_iff.mp h).2
  have hlt : c.toNat < 58 := Nat.lt_succ_of_le (UInt32.le_iff_toNat_le.mp hnine)
  have hascii := isWordStart_ascii c.toNat hlt
  rw [Char.ofNat_toNat] at hascii
  exact hascii h

/-- A number that starts with a digit is one token, if no word touches it. -/
theorem lexemes?_number {d : Datum} (hdigit : Decimal.isDigit c = true)
    (hnumber : takeNumber? (c :: cs) = some (d, rest)) (hrest : (rest.head?.map isWordChar).getD false = false)
    (hlength : rest.length ≤ cs.length) (hmark : cs.head? ≠ some 'x' ∧ cs.head? ≠ some 'X') :
    lexemes? (c :: cs) = (lexemes? rest).map (.number d :: ·) := by
  have hhex : startsHexadecimal c cs = false := by
    unfold startsHexadecimal
    split
    · simp only [List.head?_cons, ne_eq, Option.some.injEq] at hmark
      simp [hmark]
    · rfl
  -- No character that a token of another kind or a blank starts with is a digit as well.
  have hother : ∀ e : Char, Decimal.isDigit e = false → c ≠ e := by
    rintro e he rfl
    rw [hdigit] at he
    cases he
  have hseparator : isSeparator c = false := by
    simp [isSeparator, hother ' ' rfl, hother '\t' rfl, hother '\n' rfl, hother '\x0c' rfl, hother '\r' rfl,
      hother '\uFEFF' rfl]
  have hbegin : isWordStart c = false := isWordStart_of_isDigit hdigit
  have htaken : takeNumeral? c cs = some (.number d, rest) := by
    simp [takeNumeral?, hnumber, hrest, hlength]
  refine lexemes?_token (takeBlank_start hseparator (fun h => (hother '-' rfl h).elim)
    fun h => (hother '/' rfl h).elim) ?_
  simp [takeLexeme?, hother '\'' rfl, hother '"' rfl, hother '\x60' rfl, hother '[' rfl, hother 'x' rfl,
    hother 'X' rfl, hbegin, hhex, startsNumber, hdigit, htaken]

/-! ## §5 Texts without comments -/

/-- In front of a parenthesis the blank of a text is the same if it has no comments, and no comment starts
    right at its end. -/
theorem takeBlank_closeParen (hblank : (takeBlank cs).1.all isSeparator = true)
    (hopen : (takeBlank cs).2 ≠ ['/', '*']) : (takeBlank (cs ++ [')'])).2 = (takeBlank cs).2 ++ [')'] := by
  fun_induction takeBlank cs with
  | case1 => simp [isSeparator] at hblank
  | case2 => simp [isSeparator] at hblank
  | case3 c rest _ _ hc ih =>
    rw [List.all_cons, Bool.and_eq_true] at hblank
    rw [List.cons_append, takeBlank_separator hc]
    exact ih hblank.2 hopen
  | case4 c rest hline hblock hc =>
    refine takeBlank_start (Bool.not_eq_true _ ▸ hc) ?_ ?_
    · rintro rfl hhead
      cases rest with
      | nil => cases hhead
      | cons d rest =>
        cases hhead
        exact hline rest rfl rfl
    · rintro rfl hhead
      cases rest with
      | nil => cases hhead
      | cons d rest =>
        cases hhead
        cases rest with
        | nil => exact (hopen rfl).elim
        | cons e rest => exact (hblock e rest rfl rfl).elim
  | case5 => exact takeBlank_start rfl (fun h => by cases h) fun h => by cases h

/-- A text without comments has its tokens in front of a parenthesis as well. A star at its end could start a
    comment. -/
theorem lexemes?_closeParen {ts : List Token} (hscan : scanChars? (takeBlank cs).2 = some ts)
    (hblank : (takeBlank cs).1.all isSeparator = true) (hblanks : ∀ t ∈ ts, t.blank.all isSeparator = true)
    (hstar : ∀ front, ts.map Token.lexeme ≠ front ++ [.symbol .star]) :
    lexemes? (cs ++ [')']) = some (ts.map Token.lexeme ++ [.symbol .closeParen]) := by
  induction ts generalizing cs with
  | nil =>
    have hnil : (takeBlank cs).2 = [] := by
      cases hrest : (takeBlank cs).2 with
      | nil => rfl
      | cons c rest =>
        rw [hrest, scanChars?] at hscan
        split at hscan
        · cases hscan
        · obtain ⟨_, _, heq⟩ := Option.map_eq_some_iff.mp hscan
          cases heq
    have hparen := takeBlank_closeParen hblank (by simp [hnil])
    rw [hnil, List.nil_append] at hparen
    rw [lexemes?_token hparen (takeLexeme?_closeParen []), lexemes?_done (by rw [takeBlank])]
    rfl
  | cons tok ts ih =>
    cases hrest : (takeBlank cs).2 with
    | nil =>
      rw [hrest, scanChars?] at hscan
      cases hscan
    | cons c rest =>
      rw [hrest, scanChars?] at hscan
      split at hscan
      · cases hscan
      · rename_i lexeme after htaken
        obtain ⟨ts', hlater, heq⟩ := Option.map_eq_some_iff.mp hscan
        obtain ⟨rfl, rfl⟩ := List.cons.inj heq
        have hnext := ih hlater (hblanks _ (List.mem_cons_self ..))
          (fun t ht => hblanks t (List.mem_cons_of_mem _ ht))
          fun front hfront => hstar (lexeme :: front) (by rw [List.map_cons, hfront]; rfl)
        have hopen : (takeBlank cs).2 ≠ ['/', '*'] := by
          intro hcomment
          rw [hrest] at hcomment
          cases hcomment
          have hslash : takeLexeme? '/' ['*'] = some (.symbol .slash, ['*']) := takeLexeme?_symbol rfl _
          rw [hslash] at htaken
          cases htaken
          have hstand : takeLexeme? '*' [] = some (.symbol .star, []) := takeLexeme?_symbol rfl _
          have hlast : lexemes? ['*'] = some [.symbol .star] := by
            rw [lexemes?_token (takeBlank_start rfl (fun h => by cases h) fun h => by cases h) hstand,
              lexemes?_done (by rw [takeBlank])]
            rfl
          rw [lexemes?, hlater] at hlast
          exact hstar [.symbol .slash] (congrArg (_ :: ·) (Option.some.inj hlast))
        have hparen := takeBlank_closeParen hblank hopen
        rw [hrest, List.cons_append] at hparen
        rw [lexemes?_token hparen (takeLexeme?_append htaken []), hnext]
        rfl

/-! ## §6 Expressions -/

/-- A text is an expression that stands for a term: it has no null character, its tokens are the term, and
    nothing is open at its end, so that a parenthesis behind it is a token of its own. -/
structure IsExpression (cs : List Char) (t : WrittenTerm) : Prop where
  plain : '\x00' ∉ cs
  reads : ∃ ls, lexemes? cs = some ls ∧ lexemes? (cs ++ [')']) = some (ls ++ [.symbol .closeParen])
    ∧ Term.ofLexemes? ls = some t

/-- The term that a text is, read alone. -/
def expression? (cs : List Char) : Option WrittenTerm :=
  (lexemes? cs).bind Term.ofLexemes?

theorem IsExpression.expression? {t : WrittenTerm} (h : IsExpression cs t) : Sql.expression? cs = some t := by
  obtain ⟨ls, hlexes, _, hterm⟩ := h.reads
  rw [Sql.expression?, hlexes, Option.bind_some, hterm]

end BenchPlot.Sql
