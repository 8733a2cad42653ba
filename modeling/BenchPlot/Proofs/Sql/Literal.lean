import BenchPlot.Proofs.Decimal.ReadBack
import BenchPlot.Proofs.Sql.Reading

/-!
# Literals in queries

A text between quotes, with each quote in it written twice, is one token that stands for the text. The text of
a finite number is one token, or a minus and a token. So a column and an equals sign in front of either is an
expression, and so is a column that is asked to be nothing.

Main statements: `IsOperand.quoted`, `exists_isOperand_number`, `valueOf?_whole`, `IsOperand.isExpression_equals`
and `isExpression_isNull`.
-/

namespace BenchPlot.Sql

open Decimal (IsNumeral isDigit isBlank_of_isDigit)
open TermReader (run)

variable {cs rest : List Char} {ls : List Lexeme} {t : WrittenTerm} {c : Char}

/-! ## §1 Operands -/

/-- What may stand behind an operand: nothing, or a closing parenthesis. -/
def IsEnd (rest : List Char) : Prop :=
  rest = [] ∨ rest = [')']

/-- A text is an operand that stands for a term: its tokens are read as the term wherever one is expected, as far
    as operators that bind no tighter than equality can tell. -/
structure IsOperand (cs : List Char) (t : WrittenTerm) : Prop where
  plain : '\x00' ∉ cs
  reads : ∃ ls, (∀ rest, IsEnd rest → lexemes? (cs ++ rest) = (lexemes? rest).map (ls ++ ·))
    ∧ ∀ frames, ∃ u opened, run ⟨.operand, frames⟩ ls = some ⟨.operator u, opened ++ frames⟩
      ∧ ∀ level, level ≤ equalityLevel →
        closeFrames level u (opened ++ frames) = closeFrames level t frames

theorem lexemes?_nil : lexemes? [] = some [] :=
  lexemes?_done (by rw [takeBlank])

theorem lexemes?_end : lexemes? [')'] = some [.symbol .closeParen] := by
  rw [lexemes?_token (takeBlank_start rfl (fun h => by cases h) fun h => by cases h) (takeLexeme?_closeParen []),
    lexemes?_nil]
  rfl

/-- What is scanned in front of each end and read as a term is an expression. -/
theorem isExpression_of_ends (ls : List Lexeme) (hplain : '\x00' ∉ cs)
    (hscan : ∀ rest, IsEnd rest → lexemes? (cs ++ rest) = (lexemes? rest).map (ls ++ ·))
    (hterm : Term.ofLexemes? ls = some t) : IsExpression cs t := by
  refine ⟨hplain, ls, ?_, ?_, hterm⟩
  · have hnil := hscan [] (.inl rfl)
    rw [List.append_nil, lexemes?_nil, Option.map_some, List.append_nil] at hnil
    exact hnil
  · rw [hscan _ (.inr rfl), lexemes?_end]
    rfl

theorem IsOperand.isExpression (h : IsOperand cs t) : IsExpression cs t := by
  obtain ⟨ls, hscan, hreads⟩ := h.reads
  obtain ⟨u, opened, hrun, hclose⟩ := hreads []
  rw [List.append_nil] at hrun hclose
  refine isExpression_of_ends ls h.plain hscan (Option.bind_eq_some_iff.mpr ⟨_, hrun, ?_⟩)
  have hclosed : closeFrames 0 u opened = (t, []) := hclose 0 (Nat.zero_le _)
  simp [TermReader.finish?, hclosed]

/-! ## §2 Texts -/

theorem takeQuoted?_cons {quote : Char} (hc : c ≠ quote) (hcs : cs ≠ []) :
    takeQuoted? quote (c :: cs) = (takeQuoted? quote cs).map fun r => (c :: r.1, r.2) := by
  obtain ⟨d, rest, rfl⟩ := List.exists_cons_of_ne_nil hcs
  rw [takeQuoted?, if_neg (by simpa using hc)]

/-- The characters of a text between quotes: each quote is written twice. -/
def doubled (inside : List Char) : List Char :=
  inside.flatMap fun c => if c == '\'' then ['\'', '\''] else [c]

theorem doubled_quote (inside : List Char) : doubled ('\'' :: inside) = '\'' :: '\'' :: doubled inside := rfl

theorem doubled_cons (hc : c ≠ '\'') (inside : List Char) : doubled (c :: inside) = c :: doubled inside := by
  rw [doubled, List.flatMap_cons, if_neg (by simpa using hc)]
  rfl

/-- Characters with each quote written twice are read up to the closing quote. -/
theorem takeQuoted?_doubled (inside : List Char) (hrest : rest.head? ≠ some '\'') :
    takeQuoted? '\'' (doubled inside ++ '\'' :: rest) = some (inside, rest) := by
  induction inside with
  | nil =>
    cases rest with
    | nil => rfl
    | cons d rest =>
      have hd : (d == '\'') = false := by simpa using hrest
      simp [doubled, takeQuoted?, hd]
  | cons c inside ih =>
    by_cases hc : c = '\''
    · subst hc
      rw [doubled_quote, List.cons_append, List.cons_append, takeQuoted?, ih]
      rfl
    · rw [doubled_cons hc, List.cons_append, takeQuoted?_cons hc (by simp), ih]
      rfl

theorem toList_quoted (s : String) : (Value.quoted s).toList = '\'' :: (doubled s.toList ++ ['\'']) := by
  simp [Value.quoted, Text.replaceChar, doubled]

theorem lexemes?_quoted (s : String) (hrest : rest.head? ≠ some '\'') :
    lexemes? ((Value.quoted s).toList ++ rest) = (lexemes? rest).map (.text s :: ·) := by
  have htaken : takeLexeme? '\'' (doubled s.toList ++ '\'' :: rest) = some (.text s, rest) := by
    rw [takeLexeme?, if_pos (beq_self_eq_true '\''), takeQuoted?_doubled _ hrest, Option.map_some,
      String.ofList_toList]
  rw [toList_quoted, List.cons_append, List.append_assoc, List.singleton_append]
  exact lexemes?_token (takeBlank_start rfl (fun h => by cases h) fun h => by cases h) htaken

/-- Without a closing quote there is no text. -/
theorem takeQuoted?_open (inside : List Char) : takeQuoted? '\'' (doubled inside) = none := by
  induction inside with
  | nil => rfl
  | cons c inside ih =>
    by_cases hc : c = '\''
    · subst hc
      rw [doubled_quote, takeQuoted?, ih]
      rfl
    · rw [doubled_cons hc]
      cases hinside : doubled inside with
      | nil => exact if_neg (by simpa using hc)
      | cons d rest => rw [takeQuoted?_cons hc (by simp), ← hinside, ih, Option.map_none]

theorem lexemes?_openText (inside : List Char) : lexemes? ('\'' :: doubled inside) = none := by
  refine lexemes?_fault (takeBlank_start rfl (fun h => by cases h) fun h => by cases h) ?_
  rw [takeLexeme?, if_pos (beq_self_eq_true '\''), takeQuoted?_open, Option.map_none]

theorem IsEnd.head?_ne (h : IsEnd rest) (hc : c ≠ ')') : rest.head? ≠ some c := by
  rcases h with rfl | rfl
  · simp
  · simpa using hc.symm

theorem IsEnd.isWordChar (h : IsEnd rest) : (rest.head?.map isWordChar).getD false = false := by
  rcases h with rfl | rfl <;> rfl

theorem notMem_doubled {inside : List Char} (h : '\x00' ∉ inside) : '\x00' ∉ doubled inside := by
  rw [doubled, List.mem_flatMap]
  rintro ⟨c, hc, hmem⟩
  split at hmem
  · simp at hmem
  · rw [List.mem_singleton] at hmem
    exact h (hmem ▸ hc)

/-- A text between quotes stands for the text. -/
theorem IsOperand.quoted {s : String} (h : '\x00' ∉ s.toList) :
    IsOperand (Value.quoted s).toList (.literal (.text s)) := by
  refine ⟨?_, [.text s], fun rest hrest => lexemes?_quoted s (hrest.head?_ne (by decide)),
    fun frames => ⟨_, [], rfl, fun _ _ => rfl⟩⟩
  rw [toList_quoted]
  simp [notMem_doubled h]

/-! ## §3 Numbers -/

/-- A numeral without a sign is taken as a number to its end. -/
theorem takeNumber?_of_readNumeral? {negative : Bool} {n : Decimal.Numeral}
    (hsign : Decimal.readSign cs = (false, cs)) (h : Decimal.readNumeral? negative cs = some n) :
    ∃ d, takeNumber? cs = some (d, []) := by
  unfold Decimal.readNumeral? at h
  unfold takeNumber?
  rw [hsign]
  dsimp only at h ⊢
  split at h
  · cases h
  · rename_i hfull
    rw [if_neg hfull]
    generalize (Decimal.readFraction (cs.dropWhile isDigit)).2 = rest at h ⊢
    obtain ⟨e, hexponent, -⟩ := Option.map_eq_some_iff.mp h
    -- What is an exponent to the end is taken as one.
    have hend : (takeExponent rest).2 = [] := by
      cases rest with
      | nil => rfl
      | cons mark rest =>
        unfold Decimal.readExponent? at hexponent
        unfold takeExponent
        dsimp only at hexponent ⊢
        split at hexponent
        · rename_i hmark
          split at hexponent
          · cases hexponent
          · rename_i hdigits
            simp only [Bool.or_eq_true, Bool.not_eq_true', not_or, Bool.not_eq_true, Bool.not_eq_false] at hdigits
            obtain ⟨d, ds, hds⟩ := List.exists_cons_of_ne_nil (fun hnil => by simp [hnil] at hdigits :
              (Decimal.readSign rest).2 ≠ [])
            have hall := List.all_eq_true.mp hdigits.2
            have hfirst : isDigit d = true := hall d (hds ▸ List.mem_cons_self ..)
            rw [if_pos (by simp [hmark, hds, hfirst])]
            exact List.dropWhile_eq_nil_iff.mpr hall
        · cases hexponent
    exact ⟨_, by rw [hend]⟩

theorem readSign_digit (hc : isDigit c = true) (cs : List Char) :
    Decimal.readSign (c :: cs) = (false, c :: cs) := by
  unfold Decimal.readSign
  split
  · rename_i heq
    rw [(List.cons.inj heq).1] at hc
    cases hc
  · rename_i heq
    rw [(List.cons.inj heq).1] at hc
    cases hc
  · rfl

/-- No word touches a number that is taken to its end. -/
theorem head?_of_takeNumber? {d : Datum} (hc : isDigit c = true) (h : takeNumber? (c :: cs) = some (d, [])) :
    cs.head? ≠ some 'x' ∧ cs.head? ≠ some 'X' := by
  have hmark : ∀ mark, isDigit mark = false → mark ≠ '.' → mark ≠ 'e' → mark ≠ 'E' → cs.head? ≠ some mark := by
    rintro mark hdigit hpoint he hE hhead
    obtain ⟨rest, rfl⟩ := List.head?_eq_some_iff.mp hhead
    have hfraction : Decimal.readFraction (mark :: rest) = ([], mark :: rest) := by
      unfold Decimal.readFraction
      split
      · rename_i heq
        exact (hpoint (List.cons.inj heq).1).elim
      · rfl
    have hexponent : takeExponent (mark :: rest) = (none, mark :: rest) := by
      simp [takeExponent, he, hE]
    unfold takeNumber? at h
    rw [readSign_digit hc] at h
    simp [hc, hdigit, hfraction, hexponent] at h
  exact ⟨hmark 'x' rfl (by decide) (by decide) (by decide), hmark 'X' rfl (by decide) (by decide) (by decide)⟩

theorem lexemes?_numeral {negative : Bool} {body : String} {n : Decimal.Numeral} (h : IsNumeral negative body n)
    {d : Datum} (hd : takeNumber? body.toList = some (d, [])) (hrest : IsEnd rest) :
    lexemes? (body.toList ++ rest) = (lexemes? rest).map (.number d :: ·) := by
  obtain ⟨c, cs, hbody, hc⟩ := h.digit
  rw [hbody] at hd
  have htaken : takeNumber? (c :: (cs ++ rest)) = some (d, rest) := by
    rcases hrest with rfl | rfl
    · rw [List.append_nil, hd]
    · exact takeNumber?_append hd []
  rw [hbody, List.cons_append]
  refine lexemes?_number hc htaken hrest.isWordChar (by simp) ?_
  cases cs with
  | nil => exact ⟨hrest.head?_ne (by decide), hrest.head?_ne (by decide)⟩
  | cons e cs => simpa using head?_of_takeNumber? hc hd

/-- A numeral consists of digits, a point, a mark and signs. -/
theorem mem_of_readNumeral? {negative : Bool} {n : Decimal.Numeral} (h : Decimal.readNumeral? negative cs = some n)
    (hc : c ∈ cs) : isDigit c = true ∨ c ∈ ['.', 'e', 'E', '-', '+'] := by
  unfold Decimal.readNumeral? at h
  dsimp only at h
  split at h
  · cases h
  obtain ⟨e, hexponent, -⟩ := Option.map_eq_some_iff.mp h
  rw [← List.takeWhile_append_dropWhile (p := isDigit) (l := cs)] at hc
  rcases List.mem_append.mp hc with hwhole | hbehind
  · exact .inl (List.all_eq_true.mp (List.all_takeWhile ..) c hwhole)
  · revert hexponent hbehind
    generalize cs.dropWhile isDigit = behind
    intro hexponent hbehind
    -- Behind the whole part stand a fraction, if any, and an exponent, if any.
    have hrest : isDigit c = true ∨ c = '.' ∨ c ∈ (Decimal.readFraction behind).2 := by
      unfold Decimal.readFraction
      split
      · rename_i fraction
        rcases List.mem_cons.mp hbehind with hpoint | hfraction
        · exact .inr (.inl hpoint)
        · rw [← List.takeWhile_append_dropWhile (p := isDigit) (l := fraction)] at hfraction
          rcases List.mem_append.mp hfraction with hdigits | hrest
          · exact .inl (List.all_eq_true.mp (List.all_takeWhile ..) c hdigits)
          · exact .inr (.inr hrest)
      · exact .inr (.inr hbehind)
    rcases hrest with hdigit | rfl | hrest
    · exact .inl hdigit
    · exact .inr (by decide)
    revert hexponent hrest
    generalize (Decimal.readFraction behind).2 = rest
    intro hexponent hrest
    cases rest with
    | nil => cases hrest
    | cons mark rest =>
      unfold Decimal.readExponent? at hexponent
      dsimp only at hexponent
      split at hexponent
      · rename_i hmark
        split at hexponent
        · cases hexponent
        · rename_i hall
          simp only [Bool.or_eq_true, Bool.not_eq_true', not_or, Bool.not_eq_true, Bool.not_eq_false] at hall
          rcases List.mem_cons.mp hrest with rfl | hlater
          · simp only [Bool.or_eq_true, beq_iff_eq] at hmark
            rcases hmark with rfl | rfl <;> exact .inr (by decide)
          · revert hall
            unfold Decimal.readSign
            split
            · rename_i digits
              intro hall
              rcases List.mem_cons.mp hlater with rfl | hdigits
              · exact .inr (by decide)
              · exact .inl (List.all_eq_true.mp hall.2 c hdigits)
            · rename_i digits
              intro hall
              rcases List.mem_cons.mp hlater with rfl | hdigits
              · exact .inr (by decide)
              · exact .inl (List.all_eq_true.mp hall.2 c hdigits)
            · intro hall
              exact .inl (List.all_eq_true.mp hall.2 c hlater)
      · cases hexponent

/-- A number behind a sign, if any. -/
def signedLiteral (negative : Bool) (d : Datum) : WrittenTerm :=
  if negative then .unary .neg (.literal d) else .literal d

/-- A numeral behind a sign is an operand: a number, or the negation of one. -/
theorem isOperand_signed {negative : Bool} {body : String} {n : Decimal.Numeral} (h : IsNumeral negative body n)
    {d : Datum} (hd : takeNumber? body.toList = some (d, [])) :
    IsOperand (Decimal.withSign negative body).toList (signedLiteral negative d) := by
  have hplain : '\x00' ∉ body.toList := fun hmem => by
    rcases mem_of_readNumeral? h.numeral hmem with hdigit | hother
    · cases hdigit
    · exact absurd hother (by decide)
  cases negative with
  | false => exact ⟨hplain, [.number d], fun rest hrest => lexemes?_numeral h hd hrest,
      fun frames => ⟨_, [], rfl, fun _ _ => rfl⟩⟩
  | true =>
    have htext : (Decimal.withSign true body).toList = '-' :: body.toList := by simp [Decimal.withSign]
    obtain ⟨c, cs, hbody, hc⟩ := h.digit
    refine ⟨?_, [.symbol .minus, .number d], fun rest hrest => ?_,
      fun frames => ⟨.literal d, [.unary .neg], rfl, fun level hlevel => ?_⟩⟩
    · rw [htext]
      simpa using hplain
    · have hminus : takeLexeme? '-' (body.toList ++ rest) = some (.symbol .minus, body.toList ++ rest) := by
        rw [takeLexeme?_symbol rfl, hbody]
        rfl
      have hblank : (takeBlank ('-' :: (body.toList ++ rest))).2 = '-' :: (body.toList ++ rest) := by
        refine takeBlank_start rfl (fun _ => ?_) fun h => by cases h
        rw [hbody]
        rintro hhead
        rw [Option.some.inj hhead] at hc
        cases hc
      rw [htext, List.cons_append, lexemes?_token hblank hminus, lexemes?_numeral h hd hrest, Option.map_map]
      rfl
    · have hclose : Frame.close? level (.literal d) (.unary .neg) = some (.unary .neg (.literal d)) :=
        if_pos (Nat.lt_of_le_of_lt hlevel (by decide))
      rw [List.singleton_append, closeFrames, hclose]
      rfl

/-- The text of a finite number is an operand. -/
theorem exists_isOperand_number {x : Float} (hx : Decimal.isFinite x = true) :
    ∃ negative d, IsOperand (numberText x).toList (signedLiteral negative d) := by
  obtain ⟨negative, body, n, htext, hn, -, -⟩ := Decimal.exists_isNumeral_numberText hx
  obtain ⟨c, cs, hbody, hc⟩ := hn.digit
  have hread := hn.numeral
  rw [hbody] at hread
  obtain ⟨d, hd⟩ := takeNumber?_of_readNumeral? (readSign_digit hc cs) hread
  exact ⟨negative, d, htext ▸ isOperand_signed hn (hbody ▸ hd)⟩

/-! ## §4 Values of numbers -/

/-- The value of an expression without names, if a text is one. -/
def valueOf? (text : String) : Option Datum :=
  ((expression? text.toList).bind (Term.resolve? fun _ => none)).map fun t : Term Column => t.evaluate []

/-- A term has one value at every row and for every table, and prefers no kind of data. -/
def IsConstant (u : WrittenTerm) (d : Datum) : Prop :=
  ∀ find? : Name → Option (Term Column), ∃ t, u.resolve? find? = some t ∧ t.affinity = .none
    ∧ ∀ cells, t.evaluate cells = d

theorem isConstant_literal (d : Datum) : IsConstant (.literal d) d :=
  fun _ => ⟨.literal d, rfl, rfl, fun _ => rfl⟩

theorem isConstant_signed (negative : Bool) (d : Datum) :
    IsConstant (signedLiteral negative d) (if negative then UnaryOp.neg.apply d else d) := by
  cases negative with
  | false => exact isConstant_literal d
  | true => exact fun _ => ⟨.unary .neg (.literal d), rfl, rfl, fun _ => rfl⟩

theorem IsOperand.valueOf?_eq {text : String} {u : WrittenTerm} {d : Datum} (h : IsOperand text.toList u)
    (hu : IsConstant u d) : valueOf? text = some d := by
  obtain ⟨t, ht, -, hvalue⟩ := hu fun _ => none
  rw [valueOf?, h.isExpression.expression?, Option.bind_some, ht, Option.map_some, hvalue]

theorem takeNumber?_naturalText (n : Nat) :
    takeNumber? (Decimal.naturalText n).toList = some (.ofNumeral ⟨false, n, 0⟩ true, []) := by
  have hn := Decimal.isNumeral_naturalText false n
  obtain ⟨c, cs, hbody, hc⟩ := hn.digit
  have htext : c :: cs = Decimal.digitChars n := hbody.symm.trans String.toList_ofList
  have hall : ∀ d ∈ c :: cs, isDigit d = true := fun d hd => Decimal.isDigit_of_mem_digitChars (htext ▸ hd)
  have htake : (c :: cs).takeWhile isDigit = c :: cs := List.takeWhile_eq_self_iff.mpr hall
  have hdrop : (c :: cs).dropWhile isDigit = [] := List.dropWhile_eq_nil_iff.mpr hall
  have hvalue : Decimal.digitsValue (c :: cs) = n := htext ▸ Decimal.digitsValue_digitChars n
  rw [hbody, takeNumber?, readSign_digit hc]
  simp [htake, hdrop, Decimal.readFraction, takeExponent, hvalue, bne]

open Decimal in
/-- Whole numbers below `10 ^ 15` are written as the integers that they are. -/
theorem valueOf?_whole {x : Float} {negative : Bool} {m : Magnitude} (hparts : Parts.ofFloat x = .finite negative m)
    (hwhole : m.isWhole = true) (hlt : m.whole < wholeBound) :
    valueOf? (numberText x) = some (.integer (signed negative m.whole)) := by
  have htext : numberText x = withSign (negative && m.whole != 0) (naturalText m.whole) := by
    rw [numberText, hparts, ← integerText_signed]
    simp [hwhole, hlt]
  have hrange : ∀ i : Int, i.natAbs < wholeBound → isInt64 i = true := by
    intro i hi
    have hbound : wholeBound = 1000000000000000 := by decide
    rw [isInt64, int64Bounds, decide_eq_true_iff]
    omega
  have hdatum : Datum.ofNumeral ⟨false, m.whole, 0⟩ true = .integer m.whole := by
    have hin := hrange m.whole (by simpa using hlt)
    rw [Datum.ofNumeral, signed, if_neg Bool.false_ne_true, hin]
    rfl
  have hoperand := isOperand_signed (isNumeral_naturalText (negative && m.whole != 0) m.whole)
    (takeNumber?_naturalText m.whole)
  rw [htext, hoperand.valueOf?_eq (isConstant_signed _ _), hdatum]
  cases negative with
  | false => rfl
  | true =>
    by_cases hzero : m.whole = 0
    · simp [hzero, signed]
    · have hin := hrange (0 - m.whole) (by simpa using hlt)
      have hnegated : UnaryOp.neg.apply (.integer m.whole) = .integer (0 - m.whole) := by
        simp only [UnaryOp.apply, Datum.toNumber, Arithmetic.onIntegers, hin, if_true]
      simp [hzero, hnegated, signed]

/-- The text of a finite number ends in no blank. -/
theorem exists_last_numberText {x : Float} (hx : Decimal.isFinite x = true) :
    ∃ front d, (numberText x).toList = front ++ [d] ∧ Text.isBlank d = false := by
  obtain ⟨negative, body, n, htext, hn, -, -⟩ := Decimal.exists_isNumeral_numberText hx
  obtain ⟨c, cs, hbody, -⟩ := hn.digit
  have hfull : body.toList ≠ [] := by simp [hbody]
  have hlast : Text.isBlank (body.toList.getLast hfull) = false := by
    rcases mem_of_readNumeral? hn.numeral (List.getLast_mem hfull) with hdigit | hother
    · exact isBlank_of_isDigit hdigit
    · have hmarks : ∀ d ∈ ['.', 'e', 'E', '-', '+'], Text.isBlank d = false := by simp [Text.isBlank]
      exact hmarks _ hother
  refine ⟨(Decimal.withSign negative "").toList ++ body.toList.dropLast, _, ?_, hlast⟩
  have hsplit := List.dropLast_append_getLast hfull
  rw [List.append_assoc, hsplit, htext]
  cases negative <;> simp [Decimal.withSign]

/-! ## §5 Comparisons of columns -/

theorem IsColumnWord.plain {column : String} (h : IsColumnWord column) : '\x00' ∉ column.toList := by
  obtain ⟨c, cs, hword, hstart, -, -, hcs⟩ := h.chars
  rw [hword]
  intro hmem
  rcases List.mem_cons.mp hmem with rfl | hlater
  · cases hstart
  · cases hcs _ hlater

theorem IsColumnWord.step? {column : String} (h : IsColumnWord column) :
    TermReader.step? .start (.word column) = some ⟨.operator (.name ⟨.bare, column⟩), []⟩ := by
  show TermReader.stepOperand? (.word column) [] = _
  rw [TermReader.stepOperand?, h.keyword]

theorem IsColumnWord.lexemes?_equals {column : String} (h : IsColumnWord column) (more : List Char) :
    Sql.lexemes? (column.toList ++ " = ".toList ++ more)
      = (Sql.lexemes? more).map ([.word column, .symbol .equal] ++ ·) := by
  have htext : column.toList ++ " = ".toList ++ more = column.toList ++ ' ' :: '=' :: ' ' :: more := by simp
  have hequal : Sql.lexemes? ('=' :: ' ' :: more) = (Sql.lexemes? more).map (.symbol .equal :: ·) := by
    rw [lexemes?_token (takeBlank_start rfl (fun h => by cases h) fun h => by cases h)
      ((takeLexeme?_symbol rfl _).trans rfl), lexemes?_space]
  rw [htext, h.lexemes? rfl, lexemes?_space, hequal, Option.map_map]
  rfl

/-- A column that is compared with an operand is an expression. -/
theorem IsOperand.isExpression_equals (h : IsOperand cs t) {column : String} (hcolumn : IsColumnWord column) :
    IsExpression (column.toList ++ " = ".toList ++ cs) (.binary (.compare .eq) (.name ⟨.bare, column⟩) t) := by
  obtain ⟨ls, hscan, hreads⟩ := h.reads
  refine isExpression_of_ends (.word column :: .symbol .equal :: ls) ?_ (fun rest hrest => ?_) ?_
  · simp [hcolumn.plain, h.plain]
  · rw [List.append_assoc, hcolumn.lexemes?_equals, hscan rest hrest, Option.map_map]
    rfl
  · obtain ⟨u, opened, hrun, hclose⟩ := hreads [.infixOp (.compare .eq) false (.name ⟨.bare, column⟩)]
    have hall : run .start (.word column :: .symbol .equal :: ls)
        = some ⟨.operator u, opened ++ [.infixOp (.compare .eq) false (.name ⟨.bare, column⟩)]⟩ := by
      rw [TermReader.run_cons hcolumn.step?]
      exact hrun
    have hclosed : closeFrames 0 u (opened ++ [.infixOp (.compare .eq) false (.name ⟨.bare, column⟩)])
        = (.binary (.compare .eq) (.name ⟨.bare, column⟩) t, []) := (hclose 0 (Nat.zero_le _)).trans rfl
    exact Option.bind_eq_some_iff.mpr ⟨_, hall, by simp [TermReader.finish?, hclosed]⟩

/-- A column that is asked to be nothing is an expression. -/
theorem isExpression_isNull {column : String} (hcolumn : IsColumnWord column) :
    IsExpression (column.toList ++ " IS NULL".toList) (.binary .is (.name ⟨.bare, column⟩) (.literal .null)) := by
  refine isExpression_of_ends [.word column, .word "IS", .word "NULL"] ?_ (fun rest hrest => ?_) ?_
  · simp [hcolumn.plain]
  · have htext : column.toList ++ " IS NULL".toList ++ rest
        = column.toList ++ ' ' :: 'I' :: (['S'] ++ ' ' :: 'N' :: (['U', 'L', 'L'] ++ rest)) := by
      simp
    rw [htext, hcolumn.lexemes? rfl, lexemes?_space,
      lexemes?_word (by decide) (by decide) (List.all_eq_true.mp rfl) rfl, lexemes?_space,
      lexemes?_word (by decide) (by decide) (List.all_eq_true.mp rfl) hrest.isWordChar, Option.map_map,
      Option.map_map]
    rfl
  · have his : TermReader.step? ⟨.operator (.name ⟨.bare, column⟩), []⟩ (.word "IS")
        = some ⟨.identity (.name ⟨.bare, column⟩), []⟩ := by
      have hkeyword : Keyword.ofWord? "IS" = some .is := by cbv
      show TermReader.stepOperator? (.word "IS") _ [] = _
      rw [TermReader.stepOperator?, hkeyword]
      rfl
    have hnull : TermReader.step? ⟨.identity (.name ⟨.bare, column⟩), []⟩ (.word "NULL")
        = some ⟨.operator (.literal .null), [.infixOp .is false (.name ⟨.bare, column⟩)]⟩ := by
      have hkeyword : Keyword.ofWord? "NULL" = some .null := by cbv
      simp [TermReader.step?, TermReader.keyword?, TermReader.stepOperand?, hkeyword]
    have hall : run .start [.word column, .word "IS", .word "NULL"]
        = some ⟨.operator (.literal .null), [.infixOp .is false (.name ⟨.bare, column⟩)]⟩ := by
      rw [TermReader.run_cons hcolumn.step?, TermReader.run_cons his, TermReader.run_cons hnull]
      rfl
    exact Option.bind_eq_some_iff.mpr ⟨_, hall, rfl⟩

end BenchPlot.Sql
