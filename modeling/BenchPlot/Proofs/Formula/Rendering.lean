import BenchPlot.Proofs.Decimal.PlainText
import BenchPlot.Proofs.Formula.References

/-!
# Tokens written back

Every token has a spelling, and a text or a symbol may have two. Spellings with a space between any two of them
are read as the tokens that they spell: behind a token the end of the text or a space follows, and no token goes
on with a space.

Main definitions: `Token.render`, a spelling of a token, and `LexRun`, the steps of the lexer. Main statement:
`lex_undoes_render`.
-/

namespace BenchPlot

/-! ## §1 Spellings -/

/-- The quotes that a text may stand between. -/
inductive Quote where
  | single
  | double
  deriving DecidableEq, Repr

/-- The character of a quote. -/
def Quote.char : Quote → Char
  | .single => '\''
  | .double => '"'

/-- How a token is spelled that has two spellings: the quote of a text, and whether a symbol has its second
    spelling. -/
structure Spelling where
  quote : Quote
  second : Bool
  deriving DecidableEq, Repr

/-- The spellings of a symbol. Equality and inequality have two. -/
def Symbol.spelling (second : Bool) : Symbol → List Char
  | .openParen => ['(']
  | .closeParen => [')']
  | .comma => [',']
  | .plus => ['+']
  | .minus => ['-']
  | .star => ['*']
  | .slash => ['/']
  | .power => ['*', '*']
  | .not => ['!']
  | .equal => if second then ['=', '='] else ['=']
  | .unequal => if second then ['<', '>'] else ['!', '=']
  | .less => ['<']
  | .lessEqual => ['<', '=']
  | .greater => ['>']
  | .greaterEqual => ['>', '=']
  | .and => ['&', '&']
  | .or => ['|', '|']

/-- A text with a backslash in front of every backslash and of every quote. -/
def escaped (quote : Char) (cs : List Char) : List Char :=
  cs.flatMap fun c => if c == '\\' || c == quote then ['\\', c] else [c]

namespace Token

/-- The characters of a token. The name of a reference stands between braces. -/
def chars (w : Spelling) : Token → List Char
  | .number x => (Decimal.plainText x).toList
  | .text s => w.quote.char :: (escaped w.quote.char s.toList ++ [w.quote.char])
  | .word name => name.toList
  | .reference sigil name => sigil.char :: ("\x7b" ++ name ++ "\x7d").toList
  | .symbol s => s.spelling w.second

/-- A token as it is spelled in a formula. -/
def render (w : Spelling) (t : Token) : String :=
  String.ofList (t.chars w)

/-- Whether a token has a spelling: numbers are finite and without a sign, words are names, and the name of a
    reference fits between braces. -/
def Renderable : Token → Prop
  | .number x => Decimal.isFinite x = true ∧ x.toBits.toNat < Decimal.signBit
  | .text _ => True
  | .word name => IsBareName name
  | .reference _ name => name ≠ "" ∧ Text.trim name = name ∧ '\x7d' ∉ name.toList
  | .symbol _ => True

end Token

/-! ## §2 Single tokens -/

/-- A text is at its end, or goes on with a space. -/
def StopsHere (rest : List Char) : Prop :=
  ∀ c ∈ rest.head?, c = ' '

theorem StopsHere.head {rest : List Char} (h : StopsHere rest) {p : Char → Bool} (hp : p ' ' = false) :
    (rest.head?.map p).getD false = false := by
  cases rest with
  | nil => rfl
  | cons c rest =>
    obtain rfl : c = ' ' := h c rfl
    exact hp

/-- A row of characters is read as a token, whatever follows behind its end. -/
structure ReadsAs (t : Token) (c : Char) (cs : List Char) : Prop where
  start : isSpace c = false
  token : ∀ (offset : Nat) (rest : List Char), StopsHere rest → lexToken offset c (cs ++ rest) = .ok (t, rest)

variable {c : Char} {cs rest : List Char}

/-- A character of a kind that no blank is of is no blank. -/
theorem isSpace_eq_false {p : Char → Bool} (hc : p c = true)
    (hp : p ' ' = false ∧ p '\t' = false ∧ p '\r' = false ∧ p '\n' = false) : isSpace c = false := by
  obtain ⟨hspace, htab, hreturn, hfeed⟩ := hp
  refine Bool.eq_false_iff.mpr fun hblank => ?_
  simp only [isSpace, Bool.or_eq_true, beq_iff_eq] at hblank
  rcases hblank with ((rfl | rfl) | rfl) | rfl
  · exact Bool.false_ne_true (hspace.symm.trans hc)
  · exact Bool.false_ne_true (htab.symm.trans hc)
  · exact Bool.false_ne_true (hreturn.symm.trans hc)
  · exact Bool.false_ne_true (hfeed.symm.trans hc)

theorem readsAs_symbol (second : Bool) (s : Symbol) :
    ∃ c cs, s.spelling second = c :: cs ∧ ReadsAs (.symbol s) c cs := by
  have hstop : ∀ {offset : Nat} {c : Char} {cs : List Char},
      lexToken offset c cs = .ok (.symbol s, []) →
      (∀ rest, lexToken offset c (cs ++ ' ' :: rest) = .ok (.symbol s, ' ' :: rest)) →
      ∀ rest, StopsHere rest → lexToken offset c (cs ++ rest) = .ok (.symbol s, rest) := by
    intro offset c cs hend hspace rest hrest
    cases rest with
    | nil => rwa [List.append_nil]
    | cons d rest =>
      obtain rfl : d = ' ' := hrest d rfl
      exact hspace rest
  cases s <;> cases second <;> exact ⟨_, _, rfl, rfl, fun _ => hstop rfl fun _ => rfl⟩

theorem takeExponent_stop (h : StopsHere rest) : takeExponent rest = ([], rest) := by
  cases rest with
  | nil => rfl
  | cons c rest =>
    obtain rfl : c = ' ' := h c rfl
    rfl

theorem takeNumber_stop (hcs : ∀ d ∈ cs, Decimal.isDigit d = true ∨ d = '.') (h : StopsHere rest) :
    takeNumber (cs ++ rest) = (cs, rest) := by
  have hparts : ∀ d ∈ cs, (Decimal.isDigit d || d == '.') = true := fun d hd => by
    simpa using hcs d hd
  obtain ⟨htake, hdrop⟩ := Text.span_before hparts (h.head rfl)
  rw [takeNumber]
  dsimp only
  rw [hdrop, htake, takeExponent_stop h, List.append_nil]

theorem readsAs_number {x : Float} (hx : Decimal.isFinite x = true) (hsign : x.toBits.toNat < Decimal.signBit) :
    ∃ c cs, (Decimal.plainText x).toList = c :: cs ∧ ReadsAs (.number x) c cs := by
  obtain ⟨body, n, htext, hn, -, -⟩ := Decimal.exists_isNumeral_plainText hx
  rw [decide_eq_false (Nat.not_le.mpr hsign)] at htext hn
  obtain ⟨c, cs, hbody, hc⟩ := hn.digit
  have hchars : (Decimal.plainText x).toList = c :: cs := by
    rw [htext]
    exact hbody
  refine ⟨c, cs, hchars, isSpace_eq_false hc ⟨rfl, rfl, rfl, rfl⟩, fun offset rest hrest => ?_⟩
  have hparts : ∀ d ∈ c :: cs, Decimal.isDigit d = true ∨ d = '.' := fun d hd =>
    Decimal.mem_plainText hx hsign (hchars ▸ hd)
  rw [lexToken, if_pos (by rw [hc, Bool.true_or]), numberToken, ← List.cons_append, takeNumber_stop hparts hrest]
  dsimp only
  rw [← hchars, Decimal.readChars?_plainText hx]

theorem takeText?_escaped (q : Quote) (cs rest : List Char) :
    takeText? q.char (escaped q.char cs ++ q.char :: rest) = some (cs, rest) := by
  have hquote : unescape q.char = q.char := by cases q <;> rfl
  have hslash : q.char ≠ '\\' := by cases q <;> decide
  induction cs with
  | nil =>
    have hescaped : escaped q.char [] = [] := rfl
    rw [hescaped, List.nil_append, takeText?.eq_3 _ _ _ (fun d ds h => absurd h hslash), if_pos (beq_self_eq_true _)]
  | cons c cs ih =>
    have hescaped : escaped q.char (c :: cs)
        = (if c == '\\' || c == q.char then ['\\', c] else [c]) ++ escaped q.char cs := rfl
    rw [hescaped]
    by_cases hc : (c == '\\' || c == q.char) = true
    · -- The backslash in front stands for the character itself.
      have hself : unescape c = c := by
        rcases Bool.or_eq_true_iff.mp hc with hslash | hquoted
        · rw [eq_of_beq hslash]
          rfl
        · rw [eq_of_beq hquoted, hquote]
      rw [if_pos hc, List.append_assoc, List.cons_append, List.cons_append, List.nil_append, takeText?, ih,
        Option.map_some, hself]
    · obtain ⟨hplain, hother⟩ := Bool.or_eq_false_iff.mp (Bool.eq_false_iff.mpr hc)
      rw [if_neg hc, List.append_assoc, List.cons_append, List.nil_append,
        takeText?.eq_3 _ _ _ (fun d ds h => absurd h (ne_of_beq_false hplain)), hother, if_neg Bool.false_ne_true, ih,
        Option.map_some]

theorem readsAs_text (q : Quote) (s : String) :
    ReadsAs (.text s) q.char (escaped q.char s.toList ++ [q.char]) := by
  have hquote : (q.char == '"' || q.char == '\'') = true := by cases q <;> rfl
  have hnumber : ∀ rest : List Char,
      (Decimal.isDigit q.char || (q.char == '.' && rest.head?.any Decimal.isDigit)) = false := by
    intro rest
    cases q <;> rfl
  refine ⟨by cases q <;> rfl, fun offset rest _ => ?_⟩
  rw [List.append_assoc, List.cons_append, List.nil_append, lexToken, hnumber, if_neg Bool.false_ne_true, if_pos hquote,
    takeText?_escaped]
  dsimp only
  rw [String.ofList_toList]

/-- A sigil with a brace behind it is no symbol, so a name is read there. -/
theorem lexToken_sigil (sigil : Sigil) {name : String} {cs after : List Char}
    (h : takeReference? ('\x7b' :: cs) = some (name, after)) (offset : Nat) :
    lexToken offset sigil.char ('\x7b' :: cs) = .ok (.reference sigil name, after) := by
  have hnumber : (Decimal.isDigit sigil.char
      || (sigil.char == '.' && ('\x7b' :: cs).head?.any Decimal.isDigit)) = false := by
    cases sigil <;> rfl
  have hquote : (sigil.char == '"' || sigil.char == '\'') = false := by cases sigil <;> rfl
  have hsymbol : takeSymbol? sigil.char ('\x7b' :: cs) = none := by cases sigil <;> rfl
  have hsigil : Sigil.ofChar? sigil.char = some sigil := by cases sigil <;> rfl
  rw [lexToken, hnumber, hquote, hsymbol, hsigil]
  dsimp only
  rw [h]
  rfl

theorem readsAs_reference {name : String} (sigil : Sigil) (hfull : name ≠ "") (htrim : Text.trim name = name)
    (hclose : '\x7d' ∉ name.toList) :
    ReadsAs (.reference sigil name) sigil.char ("\x7b" ++ name ++ "\x7d").toList := by
  have hname : (Text.trimChars name.toList).isEmpty = false := by
    have hchars : Text.trimChars name.toList = name.toList := by
      rw [← String.toList_ofList (l := Text.trimChars name.toList)]
      exact congrArg String.toList htrim
    rw [hchars, List.isEmpty_eq_false_iff]
    exact fun hempty => hfull (String.toList_eq_nil_iff.mp hempty)
  refine ⟨by cases sigil <;> rfl, fun offset rest hrest => ?_⟩
  have htaken := takeReference?_written (.braced hclose hname) (hrest.head (p := isNameChar) rfl)
  have hopen : ("\x7b" ++ name ++ "\x7d").toList ++ rest = '\x7b' :: (name.toList ++ '\x7d' :: rest) := by simp
  rw [htrim, hopen] at htaken
  rw [hopen, lexToken_sigil sigil htaken]

theorem isDigit_of_isNameStart (h : isNameStart c = true) : Decimal.isDigit c = false := by
  refine Bool.eq_false_iff.mpr fun hdigit => ?_
  have hnine : c.val ≤ 57 := of_decide_eq_true (Bool.and_eq_true_iff.mp hdigit).2
  simp only [isNameStart, Char.isAlpha, Char.isUpper, Char.isLower, Bool.or_eq_true, Bool.and_eq_true,
    decide_eq_true_eq, beq_iff_eq] at h
  rcases h with (⟨hlow, -⟩ | ⟨hlow, -⟩) | rfl
  · exact absurd (UInt32.le_trans hlow hnine) (by decide)
  · exact absurd (UInt32.le_trans hlow hnine) (by decide)
  · exact absurd hnine (by decide)

/-- The first character of a name starts no token of another kind. -/
theorem lexToken_nameStart (hc : isNameStart c = true) (offset : Nat) (rest : List Char) :
    lexToken offset c rest
      = .ok (.word (String.ofList (c :: rest.takeWhile isNameChar)), rest.dropWhile isNameChar) := by
  have hother : ∀ d : Char, isNameStart d = false → (c == d) = false := by
    intro d hd
    refine beq_eq_false_iff_ne.mpr ?_
    rintro rfl
    rw [hc] at hd
    cases hd
  have hpair : ∀ d, pairSymbol? c d = none := by
    intro d
    unfold pairSymbol?
    split <;> first | rfl | cases hc
  have hsymbol : takeSymbol? c rest = none := by
    have hchar : charSymbol? c = none := by
      unfold charSymbol?
      split <;> first | rfl | cases hc
    rw [takeSymbol?, Option.bind_eq_none_iff.mpr fun d _ => hpair d, hchar]
    rfl
  have hsigil : Sigil.ofChar? c = none := by
    rw [Sigil.ofChar?, hother '$' rfl, hother '%' rfl, hother '@' rfl, hother '&' rfl]
    rfl
  rw [lexToken, isDigit_of_isNameStart hc, hother '.' rfl, hother '"' rfl, hother '\'' rfl, hsymbol, hsigil]
  exact if_pos hc
theorem readsAs_word {name : String} (h : IsBareName name) :
    ∃ c cs, name.toList = c :: cs ∧ ReadsAs (.word name) c cs := by
  obtain ⟨c, cs, hname, hc, hcs⟩ := h
  refine ⟨c, cs, hname, isSpace_eq_false hc ⟨rfl, rfl, rfl, rfl⟩, fun offset rest hrest => ?_⟩
  obtain ⟨htake, hdrop⟩ := Text.span_before hcs (hrest.head rfl)
  rw [lexToken_nameStart hc, htake, hdrop, ← hname, String.ofList_toList]

/-- A token is read back from its spelling. -/
theorem Token.Renderable.readsAs {t : Token} (h : t.Renderable) (w : Spelling) :
    ∃ c cs, t.chars w = c :: cs ∧ ReadsAs t c cs := by
  cases t with
  | number x => exact readsAs_number h.1 h.2
  | text s => exact ⟨_, _, rfl, readsAs_text w.quote s⟩
  | word name => exact readsAs_word h
  | reference sigil name => exact ⟨_, _, rfl, readsAs_reference sigil h.1 h.2.1 h.2.2⟩
  | symbol s => exact readsAs_symbol w.second s

/-! ## §3 Steps and runs -/

/-- The steps of the lexer over the last characters of a text of `total` characters, their number, and what they
    give. -/
inductive LexRun (total : Nat) : List Char → Nat → Except FormulaError (List Token) → Prop
  | done : LexRun total [] 0 (.ok [])
  | fail {c : Char} {rest : List Char} {e : FormulaError} (hstep : lexStep (total - (rest.length + 1)) c rest = .error e) :
    LexRun total (c :: rest) 1 (.error e)
  | step {c : Char} {rest after : List Char} {token : Option Token} {n : Nat} {r : Except FormulaError (List Token)}
    (hstep : lexStep (total - (rest.length + 1)) c rest = .ok (token, after)) (hlater : LexRun total after n r) :
    LexRun total (c :: rest) (n + 1) (r.map (token.toList ++ ·))

theorem lexChars_nil (total : Nat) : lexChars total [] = .ok [] := by
  rw [lexChars]

theorem lexChars_error {total : Nat} {e : FormulaError}
    (h : lexStep (total - (rest.length + 1)) c rest = .error e) : lexChars total (c :: rest) = .error e := by
  rw [lexChars]
  split
  · rename_i heq
    rw [h] at heq
    cases heq
    rfl
  · rename_i heq
    rw [h] at heq
    cases heq

theorem lexChars_ok {total : Nat} {token : Option Token} {after : List Char}
    (h : lexStep (total - (rest.length + 1)) c rest = .ok (token, after)) :
    lexChars total (c :: rest) = (lexChars total after).map (token.toList ++ ·) := by
  rw [lexChars]
  split
  · rename_i heq
    rw [h] at heq
    cases heq
  · rename_i heq
    rw [h] at heq
    cases heq
    cases lexChars total after <;> rfl

/-- The lexer takes no more steps than the text has characters. -/
theorem exists_lexRun (total : Nat) (cs : List Char) : ∃ n ≤ cs.length, LexRun total cs n (lexChars total cs) := by
  induction hlength : cs.length using Nat.strong_induction_on generalizing cs with
  | _ length ih =>
    subst hlength
    cases cs with
    | nil => exact ⟨0, Nat.le_refl _, lexChars_nil total ▸ .done⟩
    | cons c rest =>
      cases hstep : lexStep (total - (rest.length + 1)) c rest with
      | error e => exact ⟨1, Nat.le_add_left .., lexChars_error hstep ▸ .fail hstep⟩
      | ok r =>
        obtain ⟨token, after⟩ := r
        have hafter : after.length ≤ rest.length := lexStep_length hstep
        obtain ⟨n, hn, hrun⟩ := ih after.length (Nat.lt_succ_of_le hafter) after rfl
        exact ⟨n + 1, Nat.succ_le_succ (Nat.le_trans hn hafter), lexChars_ok hstep ▸ .step hstep hrun⟩

/-! ## §4 Rows of tokens -/

theorem ReadsAs.lexChars {t : Token} (h : ReadsAs t c cs) (hrest : StopsHere rest) (total : Nat) :
    lexChars total (c :: (cs ++ rest)) = (lexChars total rest).map (t :: ·) := by
  have hstep : lexStep (total - ((cs ++ rest).length + 1)) c (cs ++ rest) = .ok (some t, rest) := by
    rw [lexStep, h.start, if_neg Bool.false_ne_true, h.token _ _ hrest]
    rfl
  exact lexChars_ok hstep

theorem lexChars_space (total : Nat) (rest : List Char) : lexChars total (' ' :: rest) = lexChars total rest := by
  have hstep : lexStep (total - (rest.length + 1)) ' ' rest = .ok (none, rest) := rfl
  rw [lexChars_ok hstep]
  cases lexChars total rest <;> rfl

/-- Spellings with spaces between them are read as the tokens. -/
theorem lexChars_rendered (total : Nat) (ts : List (Token × Spelling)) (h : ∀ p ∈ ts, p.1.Renderable) :
    lexChars total (List.intercalate [' '] (ts.map fun p => p.1.chars p.2)) = .ok (ts.map Prod.fst) := by
  induction ts with
  | nil => exact lexChars_nil total
  | cons p ts ih =>
    -- Behind the first token the text ends, or a space and the other tokens follow.
    obtain ⟨c, cs, hchars, hread⟩ := (h p (List.mem_cons_self ..)).readsAs p.2
    have hlater := ih fun q hq => h q (List.mem_cons_of_mem _ hq)
    cases ts with
    | nil =>
      have hsingle : List.intercalate [' '] ([p].map fun p => p.1.chars p.2) = c :: (cs ++ []) := by
        simp [hchars]
      rw [hsingle, hread.lexChars (fun d hd => by cases hd), lexChars_nil]
      rfl
    | cons q ts =>
      have hjoined : List.intercalate [' '] ((p :: q :: ts).map fun p => p.1.chars p.2)
          = c :: (cs ++ ' ' :: List.intercalate [' '] ((q :: ts).map fun p => p.1.chars p.2)) := by
        simp [hchars]
      rw [hjoined, hread.lexChars (fun d hd => by cases hd; rfl), lexChars_space, hlater]
      rfl

/-- The lexer undoes the spelling of tokens, each of its steps takes a character or more, and over any text it
    ends after no more steps than the text has characters. -/
theorem lex_undoes_render :
    (∀ ts : List (Token × Spelling), (∀ p ∈ ts, p.1.Renderable) →
      lex (" ".intercalate (ts.map fun p => p.1.render p.2)) = .ok (ts.map Prod.fst))
    ∧ (∀ offset c rest token after, lexStep offset c rest = .ok (token, after) →
      ∃ taken, taken ≠ [] ∧ c :: rest = taken ++ after)
    ∧ ∀ source : String, ∃ n ≤ source.toList.length,
      LexRun source.toList.length source.toList n (lex source) := by
  refine ⟨fun ts h => ?_, fun offset c rest token after h => ?_, fun source => exists_lexRun _ _⟩
  · have hchars : (" ".intercalate (ts.map fun p => p.1.render p.2)).toList
        = List.intercalate [' '] (ts.map fun p => p.1.chars p.2) := by
      simp [String.toList_intercalate, Token.render, Function.comp_def]
    rw [lex, hchars, lexChars_rendered _ _ h]
  · obtain ⟨taken, htaken⟩ := lexStep_suffix h
    exact ⟨c :: taken, List.cons_ne_nil _ _, by rw [List.cons_append, htaken]⟩

/-- Tokens whose spellings hold braces, quotes and sigils, or begin alike. The number is one tenth. -/
def mixedTokens : List (Token × Spelling) :=
  [(.number (.ofBits 0x3FB999999999999A), ⟨.single, false⟩), (.word "e5", ⟨.single, false⟩),
    (.text "say \"$x\\n\"", ⟨.double, false⟩), (.text "it's", ⟨.single, false⟩),
    (.reference .function "a & \"b\x7b", ⟨.single, false⟩), (.symbol .and, ⟨.single, false⟩),
    (.reference .function "c", ⟨.single, false⟩), (.symbol .star, ⟨.single, false⟩),
    (.symbol .power, ⟨.single, false⟩), (.symbol .less, ⟨.single, false⟩), (.symbol .unequal, ⟨.single, true⟩)]

theorem lex_mixedTokens :
    lex "0.1 e5 \"say \\\"$x\\\\n\\\"\" 'it\\'s' &\x7ba & \"b\x7b\x7d && &\x7bc\x7d * ** < <>"
      = .ok (mixedTokens.map Prod.fst) := by
  have hrenderable : ∀ p ∈ mixedTokens, p.1.Renderable := by
    simp only [mixedTokens, List.forall_mem_cons, List.not_mem_nil, false_implies, implies_true, Token.Renderable,
      and_true, true_and]
    exact ⟨⟨rfl, by decide⟩, ⟨'e', ['5'], rfl, rfl, List.forall_mem_singleton.mpr rfl⟩, by decide +kernel,
      by decide +kernel⟩
  have htext : " ".intercalate (mixedTokens.map fun p => p.1.render p.2)
      = "0.1 e5 \"say \\\"$x\\\\n\\\"\" 'it\\'s' &\x7ba & \"b\x7b\x7d && &\x7bc\x7d * ** < <>" := by
    decide +kernel
  rw [← htext, lex_undoes_render.1 mixedTokens hrenderable]

end BenchPlot
