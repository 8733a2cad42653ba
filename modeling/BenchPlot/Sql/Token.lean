import BenchPlot.Sql.Datum

/-!
# Tokens of queries

The text of a query as its row of tokens. A word is a keyword or a name; a name may also stand between
double quotes, back quotes or brackets; a text stands between single quotes, in which two quotes are
one; a number has no sign. Blanks and comments separate tokens: a comment goes from two hyphens to the
end of the line, or from a slash with a star to the next star with a slash. A null character ends the
text.

Each token keeps its spelling and what stands behind it, so that the part of the text that is a row of
tokens can be shown.

Main statement: `takeLexeme?_length`, every token takes a character, and so `Token.scan?` ends on every
text.
-/

namespace BenchPlot.Sql

/-- The delimiters and operators of queries. -/
inductive Symbol where
  | openParen
  | closeParen
  | comma
  | semicolon
  | plus
  | minus
  | star
  | slash
  | percent
  | concat
  | equal
  | unequal
  | less
  | lessEqual
  | greater
  | greaterEqual
  deriving DecidableEq, Repr

/-- What a token stands for. Only a name between double quotes may stand for a text as well. -/
inductive Lexeme where
  | word (name : String)
  | quotedName (name : String) (mayBeText : Bool)
  | text (s : String)
  | blob (bytes : List UInt8)
  | number (d : Datum)
  | symbol (s : Symbol)

/-- A token with its spelling and the blanks and comments behind it. -/
structure Token where
  spelling : List Char
  blank : List Char
  lexeme : Lexeme

/-! ## §1 Classes of characters -/

/-- The blanks between tokens. -/
def isSeparator (c : Char) : Bool :=
  c == ' ' || c == '\t' || c == '\n' || c == '\x0c' || c == '\r' || c == '\uFEFF'

/-- The first character of a word: a letter, an underscore, or any character beyond ASCII. -/
def isWordStart (c : Char) : Bool :=
  c.isAlpha || c == '_' || 128 ≤ c.toNat

/-- The further characters of a word. -/
def isWordChar (c : Char) : Bool :=
  c.isAlphanum || c == '_' || c == '$' || 128 ≤ c.toNat

/-- The value of a hexadecimal digit. -/
def hexValue? (c : Char) : Option Nat :=
  if Decimal.isDigit c then some (c.toNat - '0'.toNat)
  else if 'a' ≤ c ∧ c ≤ 'f' then some (c.toNat - 'a'.toNat + 10)
  else if 'A' ≤ c ∧ c ≤ 'F' then some (c.toNat - 'A'.toNat + 10)
  else none

/-! ## §2 Blanks and comments -/

/-- A comment up to its closing star and slash, and the rest. It may go to the end of the text. -/
def takeComment : List Char → List Char × List Char
  | [] => ([], [])
  | '*' :: '/' :: rest => (['*', '/'], rest)
  | c :: rest => (c :: (takeComment rest).1, (takeComment rest).2)

/-- A comment takes nothing away from beyond the text. -/
theorem takeComment_length (cs : List Char) : (takeComment cs).2.length ≤ cs.length := by
  fun_induction takeComment cs with
  | case1 => simp
  | case2 rest => simp only [List.length_cons]; omega
  | case3 c rest h ih => simp only [List.length_cons]; omega

/-- The blanks and comments at the start of a text, and the rest. -/
def takeBlank (cs : List Char) : List Char × List Char :=
  match cs with
  | '-' :: '-' :: rest =>
    have : (rest.dropWhile (· != '\n')).length ≤ rest.length := (List.dropWhile_sublist _).length_le
    let (blank, after) := takeBlank (rest.dropWhile (· != '\n'))
    ('-' :: '-' :: rest.takeWhile (· != '\n') ++ blank, after)
  | '/' :: '*' :: c :: rest =>
    have := takeComment_length (c :: rest)
    let (blank, after) := takeBlank (takeComment (c :: rest)).2
    ('/' :: '*' :: (takeComment (c :: rest)).1 ++ blank, after)
  | c :: rest =>
    if isSeparator c then (c :: (takeBlank rest).1, (takeBlank rest).2) else ([], c :: rest)
  | [] => ([], [])
termination_by cs.length
decreasing_by all_goals simp only [List.length_cons] at *; omega

/-! ## §3 Tokens -/

/-- What stands before the closing quote, two quotes being one, and what follows it. -/
def takeQuoted? (quote : Char) : List Char → Option (List Char × List Char)
  | [] => none
  | [c] => if c == quote then some ([], []) else none
  | c :: d :: rest =>
    if c == quote then
      if d == quote then (takeQuoted? quote rest).map fun r => (quote :: r.1, r.2)
      else some ([], d :: rest)
    else (takeQuoted? quote (d :: rest)).map fun r => (c :: r.1, r.2)

/-- The bytes that a row of hexadecimal digits stands for. -/
def hexBytes? : List Char → Option (List UInt8)
  | [] => some []
  | [_] => none
  | a :: b :: rest =>
    match hexValue? a, hexValue? b, hexBytes? rest with
    | some m, some n, some bytes => some (UInt8.ofNat (16 * m + n) :: bytes)
    | _, _, _ => none

/-- The symbols of two characters. -/
def pairSymbol? (c d : Char) : Option Symbol :=
  match c, d with
  | '=', '=' => some .equal
  | '!', '=' => some .unequal
  | '<', '>' => some .unequal
  | '<', '=' => some .lessEqual
  | '>', '=' => some .greaterEqual
  | '|', '|' => some .concat
  | _, _ => none

/-- The symbols of one character. -/
def charSymbol? (c : Char) : Option Symbol :=
  match c with
  | '(' => some .openParen
  | ')' => some .closeParen
  | ',' => some .comma
  | ';' => some .semicolon
  | '+' => some .plus
  | '-' => some .minus
  | '*' => some .star
  | '/' => some .slash
  | '%' => some .percent
  | '=' => some .equal
  | '<' => some .less
  | '>' => some .greater
  | _ => none

/-- The symbol at the start of the text `c :: rest`, and what follows it. -/
def takeSymbol? (c : Char) (rest : List Char) : Option (Lexeme × List Char) :=
  match rest with
  | d :: after =>
    match pairSymbol? c d with
    | some s => some (.symbol s, after)
    | none => (charSymbol? c).map fun s => (.symbol s, rest)
  | [] => (charSymbol? c).map fun s => (.symbol s, [])

/-- The number at the start of the text `c :: rest`. No word may touch it. -/
def takeNumeral? (c : Char) (rest : List Char) : Option (Lexeme × List Char) :=
  match takeNumber? (c :: rest) with
  | some (d, after) =>
    if (after.head?.map isWordChar).getD false || rest.length < after.length then none
    else some (.number d, after)
  | none => none

/-- The integer that a row of hexadecimal digits stands for: 64 bits, the highest of which counts
    negative. -/
def hexInteger? (digits : List Char) : Option Int :=
  let n := digits.foldl (fun n c => 16 * n + (hexValue? c).getD 0) 0
  if n < UInt64.size then some (Int.bmod n UInt64.size) else none

/-- Whether a hexadecimal number starts with the character `c` before `rest`. -/
def startsHexadecimal (c : Char) (rest : List Char) : Bool :=
  match rest with
  | mark :: digit :: _ => c == '0' && (mark == 'x' || mark == 'X') && (hexValue? digit).isSome
  | _ => false

/-- The hexadecimal number whose digits stand at the start of a text. No word may touch it. -/
def takeHexadecimal? (cs : List Char) : Option (Lexeme × List Char) :=
  let after := cs.dropWhile fun c => (hexValue? c).isSome
  if (after.head?.map isWordChar).getD false then none
  else (hexInteger? (cs.takeWhile fun c => (hexValue? c).isSome)).map fun i => (.number (.integer i), after)

/-- Whether a number starts with the character `c` before `rest`. -/
def startsNumber (c : Char) (rest : List Char) : Bool :=
  Decimal.isDigit c || (c == '.' && (rest.head?.map Decimal.isDigit).getD false)

/-- The token at the start of the text `c :: rest`, and what follows it. -/
def takeLexeme? (c : Char) (rest : List Char) : Option (Lexeme × List Char) :=
  if c == '\'' then (takeQuoted? c rest).map fun r => (.text (String.ofList r.1), r.2)
  else if c == '"' || c == '\x60' then
    (takeQuoted? c rest).map fun r => (.quotedName (String.ofList r.1) (c == '"'), r.2)
  else if c == '[' then
    match rest.dropWhile (· != ']') with
    | [] => none
    | _ :: after => some (.quotedName (String.ofList (rest.takeWhile (· != ']'))) false, after)
  -- Before words, since `x` alone is one.
  else if (c == 'x' || c == 'X') && rest.head? == some '\'' then
    match rest.tail.dropWhile (· != '\'') with
    | [] => none
    | _ :: after => (hexBytes? (rest.tail.takeWhile (· != '\''))).map fun b => (.blob b, after)
  else if isWordStart c then
    some (.word (String.ofList (c :: rest.takeWhile isWordChar)), rest.dropWhile isWordChar)
  else if startsHexadecimal c rest then takeHexadecimal? rest.tail
  else if startsNumber c rest then takeNumeral? c rest
  else takeSymbol? c rest

/-! ## §4 Lengths -/

/-- A quoted part ends within the text. -/
theorem takeQuoted?_length (quote : Char) (cs : List Char) (r : List Char × List Char)
    (h : takeQuoted? quote cs = some r) : r.2.length < cs.length := by
  fun_induction takeQuoted? quote cs generalizing r with
  | case1 => simp at h
  | case2 c hc => simp at h; simp [← h]
  | case3 c hc => simp at h
  | case4 c d rest hc hd ih =>
    obtain ⟨r', hr', rfl⟩ := Option.map_eq_some_iff.1 h
    have := ih r' hr'
    simp only [List.length_cons]
    omega
  | case5 c d rest hc hd => simp at h; simp [← h]
  | case6 c d rest hc ih =>
    obtain ⟨r', hr', rfl⟩ := Option.map_eq_some_iff.1 h
    have := ih r' hr'
    simp only [List.length_cons] at this ⊢
    omega

/-- A symbol takes its character. -/
theorem takeSymbol?_length (c : Char) (rest : List Char) (r : Lexeme × List Char)
    (h : takeSymbol? c rest = some r) : r.2.length ≤ rest.length := by
  unfold takeSymbol? at h
  split at h
  · split at h
    · simp at h; simp [← h]
    · obtain ⟨s, _, rfl⟩ := Option.map_eq_some_iff.1 h
      simp
  · obtain ⟨s, _, rfl⟩ := Option.map_eq_some_iff.1 h
    simp

/-- A number takes its first character. -/
theorem takeNumeral?_length (c : Char) (rest : List Char) (r : Lexeme × List Char)
    (h : takeNumeral? c rest = some r) : r.2.length ≤ rest.length := by
  unfold takeNumeral? at h
  split at h
  · split at h
    · simp at h
    · rename_i hr
      simp at h hr
      simp [← h, hr.2]
  · simp at h

/-- A hexadecimal number takes nothing away from beyond the text. -/
theorem takeHexadecimal?_length (cs : List Char) (r : Lexeme × List Char)
    (h : takeHexadecimal? cs = some r) : r.2.length ≤ cs.length := by
  simp only [takeHexadecimal?] at h
  split at h
  · simp at h
  · obtain ⟨i, _, rfl⟩ := Option.map_eq_some_iff.1 h
    exact (List.dropWhile_sublist _).length_le

/-- Every token takes its first character. -/
theorem takeLexeme?_length (c : Char) (rest : List Char) (r : Lexeme × List Char)
    (h : takeLexeme? c rest = some r) : r.2.length ≤ rest.length := by
  unfold takeLexeme? at h
  -- A text, and a name between quotes.
  split at h
  · obtain ⟨q, hq, rfl⟩ := Option.map_eq_some_iff.1 h
    exact Nat.le_of_lt (takeQuoted?_length _ _ _ hq)
  split at h
  · obtain ⟨q, hq, rfl⟩ := Option.map_eq_some_iff.1 h
    exact Nat.le_of_lt (takeQuoted?_length _ _ _ hq)
  -- A name between brackets.
  split at h
  · have hl : (rest.dropWhile (· != ']')).length ≤ rest.length := (List.dropWhile_sublist _).length_le
    split at h
    · simp at h
    · rename_i hd
      rw [hd, List.length_cons] at hl
      simp at h
      simp only [← h]
      omega
  -- Bytes in hexadecimal digits.
  split at h
  · have hl : (rest.tail.dropWhile (· != '\'')).length ≤ rest.tail.length :=
      (List.dropWhile_sublist _).length_le
    split at h
    · simp at h
    · rename_i hd
      rw [hd, List.length_cons, List.length_tail] at hl
      obtain ⟨b, _, rfl⟩ := Option.map_eq_some_iff.1 h
      simp only
      omega
  -- A word.
  split at h
  · simp at h
    simp only [← h]
    exact (List.dropWhile_sublist _).length_le
  -- Numbers, and what is left are symbols.
  split at h
  · have := takeHexadecimal?_length rest.tail r h
    rw [List.length_tail] at this
    omega
  split at h
  · exact takeNumeral?_length c rest r h
  · exact takeSymbol?_length c rest r h

/-- Blanks take nothing away from beyond the text. -/
theorem takeBlank_length (cs : List Char) : (takeBlank cs).2.length ≤ cs.length := by
  fun_induction takeBlank cs with
  | case1 rest hl blank after h ih =>
    rw [h] at ih
    simp only [List.length_cons] at *
    omega
  | case2 c rest hl blank after h ih =>
    rw [h] at ih
    simp only [List.length_cons] at *
    omega
  | case3 c rest h1 h2 hc ih => simp only [List.length_cons]; omega
  | case4 c rest h1 h2 hc => simp
  | case5 => simp

/-! ## §5 Rows of tokens -/

/-- The tokens of a text that does not start with a blank, if it consists of tokens. -/
def scanChars? (cs : List Char) : Option (List Token) :=
  match cs with
  | [] => some []
  | c :: rest =>
    match hl : takeLexeme? c rest with
    | none => none
    | some (lexeme, after) =>
      have : (takeBlank after).2.length < rest.length + 1 := by
        have h1 := takeLexeme?_length c rest _ hl
        have h2 := takeBlank_length after
        simp only at h1
        omega
      -- The spelling is what the rest lacks of the text.
      let spelling := (c :: rest).take (rest.length + 1 - after.length)
      (scanChars? (takeBlank after).2).map (⟨spelling, (takeBlank after).1, lexeme⟩ :: ·)
termination_by cs.length

/-- The tokens of a query text, if it consists of tokens. -/
def Token.scan? (text : String) : Option (List Token) :=
  scanChars? (takeBlank (text.toList.takeWhile (· != '\x00'))).2

/-- The part of a text that is a row of tokens, blanks around it apart. -/
def Token.spanText (ts : List Token) : String :=
  String.ofList (Text.trimChars (ts.flatMap fun t => t.spelling ++ t.blank))

/-- Whether a token is a certain word, in any letter case. -/
def Token.isWord (word : String) (t : Token) : Bool :=
  match t.lexeme with
  | .word w => Text.asciiUpper w == word
  | _ => false

/-- Whether a token is a certain symbol. -/
def Token.isSymbol (s : Symbol) (t : Token) : Bool :=
  match t.lexeme with
  | .symbol r => r == s
  | _ => false

end BenchPlot.Sql
