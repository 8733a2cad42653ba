import BenchPlot.Formula.Error

/-!
# Reading tokens

The text of a formula as its row of tokens. Blanks between tokens are spaces, tabs, carriage returns
and line feeds only. A number takes as many digits and points as follow and an exponent that has
digits; a text ends at the quote it began with, and a backslash in it stands for the character behind
it; a reference is a sigil followed by a name or by a name between braces.

Main statements: `lexStep_suffix`, every step of the lexer consumes a character, and so `lex` ends on
every text.
-/

namespace BenchPlot

/-! ## §1 Classes of characters -/

/-- The first character of an identifier: a letter of ASCII or an underscore. -/
def isNameStart (c : Char) : Bool :=
  c.isAlpha || c == '_'

/-- The further characters of an identifier. -/
def isNameChar (c : Char) : Bool :=
  c.isAlphanum || c == '_'

/-- The characters that separate tokens and stand for nothing. -/
def isSpace (c : Char) : Bool :=
  c == ' ' || c == '\t' || c == '\r' || c == '\n'

/-! ## §2 Long tokens -/

/-- The exponent at the start of a text: its characters and the rest. A mark without digits behind it
    is no exponent. -/
def takeExponent : List Char → List Char × List Char
  | [] => ([], [])
  | mark :: rest =>
    if mark == 'e' || mark == 'E' then
      let sign := rest.take (if rest.head?.any (fun c => c == '+' || c == '-') then 1 else 0)
      let digits := (rest.drop sign.length).takeWhile Decimal.isDigit
      if digits.isEmpty then ([], mark :: rest)
      else (mark :: sign ++ digits, (rest.drop sign.length).dropWhile Decimal.isDigit)
    else ([], mark :: rest)

/-- The characters of the number at the start of a text, and the rest. -/
def takeNumber (cs : List Char) : List Char × List Char :=
  let isPart := fun c => Decimal.isDigit c || c == '.'
  let (exponent, rest) := takeExponent (cs.dropWhile isPart)
  (cs.takeWhile isPart ++ exponent, rest)

/-- The character that a backslash and the character `c` stand for. -/
def unescape (c : Char) : Char :=
  if c == 'n' then '\n' else if c == 't' then '\t' else c

/-- The text up to the closing quote and what follows the quote. -/
def takeText? (quote : Char) : List Char → Option (List Char × List Char)
  | [] => none
  | '\\' :: c :: rest => (takeText? quote rest).map fun r => (unescape c :: r.1, r.2)
  | c :: rest =>
    if c == quote then some ([], rest)
    else (takeText? quote rest).map fun r => (c :: r.1, r.2)

/-- The name that follows a sigil, bare or between braces, and what follows the name. A name between
    braces may hold any character but the closing brace; blanks around it do not belong to it. -/
def takeReference? : List Char → Option (String × List Char)
  | [] => none
  | c :: rest =>
    if c == '\x7b' then
      match rest.dropWhile (· != '\x7d') with
      | [] => none
      | _ :: after =>
        let name := Text.trimChars (rest.takeWhile (· != '\x7d'))
        if name.isEmpty then none else some (String.ofList name, after)
    else if isNameStart c then
      some (String.ofList (c :: rest.takeWhile isNameChar), rest.dropWhile isNameChar)
    else none

/-! ## §3 Symbols -/

/-- The symbols of two characters. -/
def pairSymbol? (c d : Char) : Option Symbol :=
  match c, d with
  | '&', '&' => some .and
  | '|', '|' => some .or
  | '*', '*' => some .power
  | '=', '=' => some .equal
  | '!', '=' => some .unequal
  | '<', '=' => some .lessEqual
  | '<', '>' => some .unequal
  | '>', '=' => some .greaterEqual
  | _, _ => none

/-- The symbols of one character. -/
def charSymbol? (c : Char) : Option Symbol :=
  match c with
  | '(' => some .openParen
  | ')' => some .closeParen
  | ',' => some .comma
  | '+' => some .plus
  | '-' => some .minus
  | '*' => some .star
  | '/' => some .slash
  | '=' => some .equal
  | '!' => some .not
  | '<' => some .less
  | '>' => some .greater
  | _ => none

/-- The symbol at the start of the text `c :: rest`, if any, and what follows it. -/
def takeSymbol? (c : Char) (rest : List Char) : Option (Symbol × List Char) :=
  match rest.head?.bind (pairSymbol? c) with
  | some s => some (s, rest.tail)
  | none => (charSymbol? c).map (·, rest)

/-! ## §4 Steps -/

/-- The number at the start of a text, as a token. -/
def numberToken (cs : List Char) : Except FormulaError (Token × List Char) :=
  let (body, rest) := takeNumber cs
  match Decimal.readChars? body with
  | some x => .ok (.number x, rest)
  | none => .error (.malformed (.badNumber (String.ofList body)))

/-- The token at the start of the text `c :: rest`, which begins with no blank, and the rest. -/
def lexToken (offset : Nat) (c : Char) (rest : List Char) : Except FormulaError (Token × List Char) :=
  -- A point begins a number only if a digit follows it.
  if Decimal.isDigit c || (c == '.' && rest.head?.any Decimal.isDigit) then numberToken (c :: rest)
  else if c == '"' || c == '\'' then
    match takeText? c rest with
    | some (body, after) => .ok (.text (String.ofList body), after)
    | none => .error .unterminatedText
  else
    -- Symbols come first: `&&` is an operator, and `&` with a name behind it a reference.
    match takeSymbol? c rest with
    | some (s, after) => .ok (.symbol s, after)
    | none =>
      match Sigil.ofChar? c with
      | some sigil =>
        match takeReference? rest with
        | some (name, after) => .ok (.reference sigil name, after)
        | none => .error (.unexpectedChar c offset)
      | none =>
        if isNameStart c then
          .ok (.word (String.ofList (c :: rest.takeWhile isNameChar)), rest.dropWhile isNameChar)
        else .error (.unexpectedChar c offset)

/-- One step over the text `c :: rest`: a blank gives no token. -/
def lexStep (offset : Nat) (c : Char) (rest : List Char) :
    Except FormulaError (Option Token × List Char) :=
  if isSpace c then .ok (none, rest)
  else (lexToken offset c rest).map fun r => (some r.1, r.2)

/-! ## §5 Every step consumes a character -/

private theorem takeExponent_suffix (cs : List Char) : (takeExponent cs).2 <:+ cs := by
  unfold takeExponent
  split
  · exact List.suffix_refl _
  · rename_i mark rest
    split
    · simp only []
      -- Whether or not a sign is there, what is left is a tail of what stands behind the mark.
      generalize (if rest.head?.any (fun c => c == '+' || c == '-') then 1 else 0) = k
      split
      · exact List.suffix_refl _
      · exact ((List.dropWhile_suffix _).trans (List.drop_suffix _ _)).trans (List.suffix_cons _ _)
    · exact List.suffix_refl _

private theorem takeNumber_suffix {c : Char} (h : Decimal.isDigit c = true ∨ c = '.') (rest : List Char) :
    (takeNumber (c :: rest)).2 <:+ rest := by
  have hp : (Decimal.isDigit c || c == '.') = true := by
    rcases h with h | h <;> simp [h]
  unfold takeNumber
  simp only [List.dropWhile_cons, hp, if_true]
  exact (takeExponent_suffix _).trans (List.dropWhile_suffix _)

private theorem takeText?_suffix (quote : Char) (cs : List Char) (r : List Char × List Char)
    (h : takeText? quote cs = some r) : r.2 <:+ cs := by
  fun_induction takeText? quote cs generalizing r with
  | case1 => simp at h
  | case2 c rest ih =>
    obtain ⟨u, hu, rfl⟩ := Option.map_eq_some_iff.1 h
    exact ((ih u hu).trans (List.suffix_cons _ _)).trans (List.suffix_cons _ _)
  | case3 c rest _ hq =>
    simp only [Option.some.injEq] at h
    subst h
    exact List.suffix_cons _ _
  | case4 c rest _ hq ih =>
    obtain ⟨u, hu, rfl⟩ := Option.map_eq_some_iff.1 h
    exact (ih u hu).trans (List.suffix_cons _ _)

/-- What follows a name is a tail of what follows its first character. -/
private theorem takeReference?_suffix {c : Char} {rest : List Char} {r : String × List Char}
    (h : takeReference? (c :: rest) = some r) : r.2 <:+ rest := by
  rw [takeReference?] at h
  split at h
  · split at h
    · simp at h
    · rename_i d after hd
      simp only [] at h
      split at h
      · simp at h
      · simp only [Option.some.injEq] at h
        subst h
        exact (List.suffix_cons d after).trans (hd ▸ List.dropWhile_suffix _)
  · split at h
    · simp only [Option.some.injEq] at h
      subst h
      exact List.dropWhile_suffix _
    · simp at h

theorem takeReference?_length (cs : List Char) (r : String × List Char)
    (h : takeReference? cs = some r) : r.2.length < cs.length := by
  cases cs with
  | nil => simp [takeReference?] at h
  | cons c rest => exact Nat.lt_succ_of_le (takeReference?_suffix h).length_le

private theorem takeSymbol?_suffix (c : Char) (rest : List Char) (r : Symbol × List Char)
    (h : takeSymbol? c rest = some r) : r.2 <:+ rest := by
  unfold takeSymbol? at h
  split at h
  · simp only [Option.some.injEq] at h
    subst h
    exact List.tail_suffix _
  · obtain ⟨u, _, rfl⟩ := Option.map_eq_some_iff.1 h
    exact List.suffix_refl _

private theorem lexToken_suffix {offset : Nat} {c : Char} {rest : List Char} {r : Token × List Char}
    (h : lexToken offset c rest = .ok r) : r.2 <:+ rest := by
  unfold lexToken at h
  split at h
  · -- A number takes its first character, which is a digit or a point.
    rename_i hc
    unfold numberToken at h
    simp only [] at h
    split at h
    · simp only [Except.ok.injEq] at h
      subst h
      refine takeNumber_suffix ?_ rest
      simp only [Bool.or_eq_true, Bool.and_eq_true, beq_iff_eq] at hc
      exact hc.imp id And.left
    · simp at h
  · split at h
    · -- A text ends behind its closing quote.
      split at h
      · rename_i body after hb
        simp only [Except.ok.injEq] at h
        subst h
        exact takeText?_suffix c rest (body, after) hb
      · simp at h
    · -- A symbol, a reference or a word.
      split at h
      · rename_i s after hs
        simp only [Except.ok.injEq] at h
        subst h
        exact takeSymbol?_suffix c rest (s, after) hs
      · split at h
        · split at h
          · rename_i name after hn
            simp only [Except.ok.injEq] at h
            subst h
            cases rest with
            | nil => simp [takeReference?] at hn
            | cons d rest => exact (takeReference?_suffix hn).trans (List.suffix_cons _ _)
          · simp at h
        · split at h
          · simp only [Except.ok.injEq] at h
            subst h
            exact List.dropWhile_suffix _
          · simp at h

/-- A step leaves a tail of what follows its first character. -/
theorem lexStep_suffix {offset : Nat} {c : Char} {rest : List Char} {r : Option Token × List Char}
    (h : lexStep offset c rest = .ok r) : r.2 <:+ rest := by
  unfold lexStep at h
  split at h
  · simp only [Except.ok.injEq] at h
    subst h
    exact List.suffix_refl _
  · cases ht : lexToken offset c rest with
    | error e => simp [ht, Except.map] at h
    | ok t =>
      simp only [ht, Except.map, Except.ok.injEq] at h
      subst h
      exact lexToken_suffix ht

theorem lexStep_length {offset : Nat} {c : Char} {rest : List Char} {r : Option Token × List Char}
    (h : lexStep offset c rest = .ok r) : r.2.length ≤ rest.length :=
  (lexStep_suffix h).length_le

/-! ## §6 Texts -/

/-- The tokens of the last characters of a text of `total` characters. -/
def lexChars (total : Nat) (cs : List Char) : Except FormulaError (List Token) :=
  match cs with
  | [] => .ok []
  | c :: rest =>
    -- The offset of a character is the number of characters before it.
    match h : lexStep (total - (rest.length + 1)) c rest with
    | .error e => .error e
    | .ok (token, after) =>
      have : after.length ≤ rest.length := lexStep_length h
      match lexChars total after with
      | .error e => .error e
      | .ok tokens => .ok (token.toList ++ tokens)
termination_by cs.length
decreasing_by simp only [List.length_cons]; omega

/-- The tokens of a text. -/
def lex (source : String) : Except FormulaError (List Token) :=
  lexChars source.toList.length source.toList

end BenchPlot
