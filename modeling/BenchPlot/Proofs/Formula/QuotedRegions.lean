import BenchPlot.Proofs.Formula.Segments
import BenchPlot.Proofs.Sql.Literal

/-!
# Quoted regions of query text

Query text is cut at its single quotes: a region begins at a quote and ends behind the quote that closes it, two quotes
in it being one quote of the text that is quoted. A reader that goes through the characters one by one needs three
states for this, since a quote inside a region closes it or not as the next character tells.

The scanner goes over the same regions. So a literal segment that a reference follows closes every region that it
opens, and a text between quotes, with the quotes in it doubled, is one region.

Main definitions: `outsideQuotes` and `QuoteState`. Main statements: `outsideQuotes_eq`, `closes_scanChars`,
`takeQuoted_doubled` and `undoubled_doubled`.
-/

namespace BenchPlot

open Sql (doubled doubled_quote doubled_cons)

variable {c : Char} {cs rest : List Char}

/-! ## §1 Regions -/

/-- What stands outside the quoted regions of a text. A region is left as one quote. -/
def outsideQuotes (cs : List Char) : List Char :=
  match cs with
  | [] => []
  | c :: rest =>
    if c == '\'' then
      have := takeQuoted_length rest
      '\'' :: outsideQuotes (takeQuoted rest).2
    else c :: outsideQuotes rest
termination_by cs.length
decreasing_by all_goals simp only [List.length_cons]; omega

/-- Where a reader of query text stands: outside all regions, inside of one, or right behind a quote in one. -/
inductive QuoteState where
  | outside
  | inside
  | closing
  deriving DecidableEq, Repr

namespace QuoteState

/-- The state behind a character. A quote right behind a quote goes on with the region. -/
def next : QuoteState → Char → QuoteState
  | .inside, c => if c == '\'' then .closing else .inside
  | _, c => if c == '\'' then .inside else .outside

/-- What is left of a character. The quote that begins a region stands for all of it. -/
def shown : QuoteState → Char → List Char
  | .outside, c => [c]
  | .inside, _ => []
  | .closing, c => if c == '\'' then [] else [c]

/-- The state behind some characters. -/
def behind (q : QuoteState) (cs : List Char) : QuoteState :=
  cs.foldl next q

/-- What is left of some characters. -/
def kept (q : QuoteState) : List Char → List Char
  | [] => []
  | c :: rest => q.shown c ++ (q.next c).kept rest

theorem behind_append (q : QuoteState) (cs ds : List Char) : q.behind (cs ++ ds) = (q.behind cs).behind ds :=
  List.foldl_append

theorem kept_append (q : QuoteState) (cs ds : List Char) : q.kept (cs ++ ds) = q.kept cs ++ (q.behind cs).kept ds := by
  induction cs generalizing q with
  | nil => rfl
  | cons c rest ih =>
    rw [List.cons_append, kept, kept, ih, List.append_assoc]
    rfl

/-- Right behind a quote in a region any other character is outside. -/
theorem closing_of_ne (hc : c ≠ '\'') : closing.next c = outside.next c ∧ closing.shown c = outside.shown c :=
  ⟨rfl, if_neg (by simpa using hc)⟩

/-- Only a quote leads right behind a quote. -/
theorem eq_of_next {q : QuoteState} (h : q.next c = .closing) : c = '\'' := by
  unfold next at h
  split at h
  · split at h
    · rename_i hc
      exact eq_of_beq hc
    · cases h
  · split at h <;> cases h

theorem kept_closing (h : cs.head? ≠ some '\'') : closing.kept cs = outside.kept cs := by
  cases cs with
  | nil => rfl
  | cons c rest =>
    obtain ⟨hnext, hshown⟩ := closing_of_ne (by simpa using h)
    rw [kept, kept, hnext, hshown]

theorem behind_closing (h : cs.head? ≠ some '\'') : closing.behind cs = outside.behind cs ∨ cs = [] := by
  cases cs with
  | nil => exact .inr rfl
  | cons c rest =>
    obtain ⟨hnext, -⟩ := closing_of_ne (by simpa using h)
    exact .inl (congrArg (fun q => q.behind rest) hnext)

/-- A reader that stands right behind a quote has read one last. -/
theorem getLast?_of_behind (h : outside.behind cs = .closing) : cs.getLast? = some '\'' := by
  obtain rfl | ⟨front, c, rfl⟩ := List.eq_nil_or_concat cs
  · cases h
  · rw [List.concat_eq_append, behind_append] at h
    rw [List.concat_eq_append, List.getLast?_concat, eq_of_next h]

/-- Characters without quotes are all kept. -/
theorem outside_of_notMem (h : '\'' ∉ cs) : outside.behind cs = .outside ∧ outside.kept cs = cs := by
  induction cs with
  | nil => exact ⟨rfl, rfl⟩
  | cons c rest ih =>
    obtain ⟨hc, hrest⟩ := not_or.mp (List.mem_cons.not.mp h)
    obtain ⟨hbehind, hkept⟩ := ih hrest
    have hnext : outside.next c = .outside := if_neg (by simpa using Ne.symm hc)
    refine ⟨?_, ?_⟩
    · rw [behind, List.foldl_cons, hnext]
      exact hbehind
    · rw [kept, hnext, hkept]
      rfl

end QuoteState

open QuoteState

/-! ## §2 Regions by states -/

/-- No quote follows a quoted literal. -/
theorem head?_takeQuoted (cs : List Char) : (takeQuoted cs).2.head? ≠ some '\'' := by
  fun_induction takeQuoted cs with
  | case1 => simp
  | case2 rest inside after htaken ih =>
    rw [htaken] at ih
    exact ih
  | case3 c rest hpair hc =>
    intro hrest
    obtain ⟨more, rfl⟩ := List.head?_eq_some_iff.mp hrest
    exact hpair more (eq_of_beq hc) rfl
  | case4 c rest hpair hc inside after htaken ih =>
    rw [htaken] at ih
    exact ih

/-- Nothing is kept of a quoted literal. -/
theorem QuoteState.kept_inside (cs : List Char) : inside.kept cs = outside.kept (takeQuoted cs).2 := by
  have hclosing : inside.kept cs = closing.kept (takeQuoted cs).2 := by
    fun_induction takeQuoted cs with
    | case1 => rfl
    | case2 rest inside after htaken ih =>
      rw [htaken] at ih
      exact ih
    | case3 c rest hpair hc =>
      rw [kept, eq_of_beq hc]
      rfl
    | case4 c rest hpair hc inside after htaken ih =>
      rw [htaken] at ih
      rw [kept, next, if_neg hc]
      exact ih
  rw [hclosing, kept_closing (head?_takeQuoted cs)]

/-- A quoted literal that something follows is closed. -/
theorem QuoteState.behind_takeQuoted (h : (takeQuoted cs).2 ≠ []) : inside.behind (takeQuoted cs).1 = .closing := by
  fun_induction takeQuoted cs with
  | case1 => exact absurd rfl h
  | case2 rest inside after htaken ih =>
    rw [htaken] at ih
    exact ih h
  | case3 c rest hpair hc =>
    rw [eq_of_beq hc]
    rfl
  | case4 c rest hpair hc inside after htaken ih =>
    rw [htaken] at ih
    rw [behind, List.foldl_cons, next, if_neg hc]
    exact ih h

/-- The reader keeps what stands outside the regions. -/
theorem outsideQuotes_eq (cs : List Char) : outsideQuotes cs = outside.kept cs := by
  fun_induction outsideQuotes cs with
  | case1 => rfl
  | case2 c rest hc hshorter ih =>
    rw [kept, next, if_pos hc, kept_inside, ih, eq_of_beq hc]
    · rfl
    · simp
  | case3 c rest hc ih =>
    rw [kept, next, if_neg hc, ih]
    · rfl
    · simp

/-! ## §3 Regions of segments -/

/-- Whether a segment, if it is a literal in front of a reference, closes the regions that it opens. -/
def Segment.ClosesBefore : Segment → Segment → Prop
  | .literal text, .reference _ _ => outside.behind text.toList ≠ .inside
  | _, _ => True

theorem Segment.head?_of_withLiteral {segments more : List Segment} {text : String}
    (h : withLiteral (c :: cs) segments = .literal text :: more) : text.toList.head? = some c := by
  match segments, h with
  | [], h | .reference _ _ :: _, h =>
    cases h
    rw [String.toList_ofList, List.head?_cons]
  | .literal _ :: _, h =>
    cases h
    rw [String.toList_append, String.toList_ofList, List.cons_append, List.head?_cons]

/-- A literal begins with a quote only if the text does. -/
theorem head?_literal_of_scanChars {text : String} {more : List Segment}
    (h : scanChars true cs = .literal text :: more) (hquote : text.toList.head? = some '\'') :
    cs.head? = some '\'' := by
  cases cs with
  | nil =>
    rw [scanChars_nil] at h
    cases h
  | cons c rest =>
    rw [List.head?_cons]
    rw [scanChars] at h
    split at h
    · rw [← hquote, Segment.head?_of_withLiteral h]
    · split at h
      · rename_i d after hescaped
        -- An escaped character is a sigil and no quote.
        rw [Segment.head?_of_withLiteral h, Option.some.injEq] at hquote
        rw [hquote] at hescaped
        have hd := isSome_of_takeEscaped? hescaped
        cases hd
      · split at h
        · rename_i segment after htaken
          obtain ⟨_, _, -, -, rfl⟩ := exists_of_takeSigil? htaken
          cases h
        · rw [← hquote, Segment.head?_of_withLiteral h]

/-- Characters in front of segments close what they open if they do so in front of what is there. -/
theorem Segment.closes_withLiteral {segments : List Segment} (h : segments.IsChain Segment.ClosesBefore)
    (hreference : ∀ sigil name more, segments = .reference sigil name :: more → outside.behind cs ≠ .inside)
    (hliteral : ∀ text more, segments = .literal text :: more →
      outside.behind text.toList ≠ .inside → outside.behind (cs ++ text.toList) ≠ .inside) :
    (Segment.withLiteral cs segments).IsChain Segment.ClosesBefore := by
  match segments, h with
  | [], _ => exact .singleton _
  | .reference sigil name :: rest, h =>
    refine List.isChain_cons.mpr ⟨?_, h⟩
    rintro next ⟨⟩
    rw [ClosesBefore, String.toList_ofList]
    exact hreference sigil name rest rfl
  | .literal text :: rest, h =>
    obtain ⟨hnext, hrest⟩ := List.isChain_cons.mp h
    refine List.isChain_cons.mpr ⟨fun next hmem => ?_, hrest⟩
    cases next with
    | literal => trivial
    | reference sigil name =>
      rw [ClosesBefore, String.toList_append, String.toList_ofList]
      exact hliteral text rest rfl (hnext _ hmem)

/-- A literal that a reference follows closes the regions that it opens. -/
theorem closes_scanChars (cs : List Char) : (scanChars true cs).IsChain Segment.ClosesBefore := by
  have hplain : ∀ {c : Char} (text : List Char), c ≠ '\'' →
      outside.behind [c] = .outside ∧ outside.behind (c :: text) = outside.behind text := by
    intro c text hc
    have hnext : outside.next c = .outside := if_neg (by simpa using hc)
    exact ⟨hnext, congrArg (fun q => q.behind text) hnext⟩
  have hother : ∀ {c : Char} {segments : List Segment}, c ≠ '\'' → segments.IsChain Segment.ClosesBefore →
      (Segment.withLiteral [c] segments).IsChain Segment.ClosesBefore := by
    intro c segments hc h
    refine Segment.closes_withLiteral h (fun _ _ _ _ => ?_) fun text _ _ htext => ?_
    · rw [(hplain [] hc).1]
      decide
    · rw [List.singleton_append, (hplain text.toList hc).2]
      exact htext
  generalize hskip : true = skipQuoted
  fun_induction scanChars skipQuoted cs with
  | case1 => exact .nil
  | case2 c rest hquote hshorter ih =>
    subst hskip
    obtain rfl : c = '\'' := by simpa using hquote
    -- Where a segment follows, the literal is closed.
    have hclosed : ∀ {next more}, scanChars true (takeQuoted rest).2 = next :: more →
        outside.behind ('\'' :: (takeQuoted rest).1) = .closing := by
      intro next more hnext
      refine behind_takeQuoted fun hnil => ?_
      rw [hnil, scanChars_nil] at hnext
      cases hnext
    refine Segment.closes_withLiteral ih (fun sigil name more hreference => ?_)
      fun text more hliteral htext => ?_
    · rw [hclosed hreference]
      decide
    · have hhead : text.toList.head? ≠ some '\'' := fun hfirst =>
        head?_takeQuoted rest (head?_literal_of_scanChars hliteral hfirst)
      rw [behind_append, hclosed hliteral]
      rcases behind_closing hhead with hsame | hempty
      · rw [hsame]
        exact htext
      · rw [hempty]
        decide
  | case3 c rest hquote d after hescaped hshorter ih =>
    refine hother ?_ ih
    rintro rfl
    have hd := isSome_of_takeEscaped? hescaped
    cases hd
  | case4 c rest hquote hescaped segment after htaken hshorter ih =>
    obtain ⟨_, _, -, -, rfl⟩ := exists_of_takeSigil? htaken
    exact List.isChain_cons.mpr ⟨fun _ _ => trivial, ih⟩
  | case5 c rest hquote hescaped htaken ih =>
    refine hother ?_ ih
    rintro rfl
    rw [← hskip] at hquote
    exact hquote rfl

/-! ## §4 Texts between quotes -/

/-- A text with the quotes in it doubled, up to a quote that none follows, is a quoted literal. -/
theorem takeQuoted_doubled (inside : List Char) (h : rest.head? ≠ some '\'') :
    takeQuoted (doubled inside ++ '\'' :: rest) = (doubled inside ++ ['\''], rest) := by
  induction inside with
  | nil =>
    cases rest with
    | nil => rfl
    | cons d rest =>
      have hd : ¬d = '\'' := by simpa using h
      rw [doubled, List.flatMap_nil, List.nil_append, takeQuoted]
      · rfl
      · rintro _ - hrest
        exact hd (List.cons.inj hrest).1
  | cons c inside ih =>
    by_cases hc : c = '\''
    · rw [hc, doubled_quote, List.cons_append, List.cons_append, takeQuoted, ih]
      rfl
    · rw [doubled_cons hc, List.cons_append, takeQuoted, if_neg (by simpa using hc), ih]
      · rfl
      · intro _ hquote
        exact absurd hquote hc

/-- A text in which two quotes are one. -/
def undoubled : List Char → List Char
  | '\'' :: '\'' :: rest => '\'' :: undoubled rest
  | c :: rest => c :: undoubled rest
  | [] => []

theorem undoubled_doubled (inside : List Char) : undoubled (doubled inside) = inside := by
  induction inside with
  | nil => rfl
  | cons c inside ih =>
    by_cases hc : c = '\''
    · rw [hc, doubled_quote, undoubled, ih]
    · rw [doubled_cons hc, undoubled, ih]
      intro rest hquote
      exact absurd hquote hc

theorem QuoteState.behind_doubled (s : List Char) : inside.behind (doubled s) = .inside := by
  induction s with
  | nil => rfl
  | cons c s ih =>
    by_cases hc : c = '\''
    · rw [hc, doubled_quote]
      exact ih
    · have hnext : inside.next c = .inside := if_neg (by simpa using hc)
      rw [doubled_cons hc, behind, List.foldl_cons, hnext]
      exact ih

/-- A text between quotes is one region. -/
theorem QuoteState.quoted (s : String) : outside.behind (Value.quoted s).toList = .closing
    ∧ outside.kept (Value.quoted s).toList = ['\''] := by
  have htaken : takeQuoted (doubled s.toList ++ ['\'']) = (doubled s.toList ++ ['\''], []) :=
    takeQuoted_doubled s.toList (by simp)
  rw [Sql.toList_quoted]
  constructor
  · show inside.behind (doubled s.toList ++ ['\'']) = .closing
    rw [behind_append, behind_doubled]
    rfl
  · show '\'' :: inside.kept (doubled s.toList ++ ['\'']) = ['\'']
    rw [kept_inside, htaken]
    rfl

end BenchPlot
