import BenchPlot.Output.Xml
import BenchPlot.Proofs.Text.Lines
import Mathlib.Data.List.TakeWhile
import Mathlib.Tactic.SplitIfs

/-!
# Tags in a text

The values of attributes are written without angle brackets and quotes. So a tag goes to the next closing bracket and
a value to the next quote, whatever the value is: the tags of a text are found by cutting it at closing brackets, and
the values of a tag by cutting it at quotes. Line feeds and spaces in front of a tag are layout, which reading passes
over; without it a text is the row of its tags.

Main statements: `XmlTag.unescape_escape`, `XmlTag.ofBody?_body`, `XmlTag.Spaced.ofPieces?_piecesAt` and
`XmlTag.Spaced.withoutLayout_eq`.
-/

namespace BenchPlot

namespace XmlTag

/-! ## §1 Values of attributes -/

/-- What a written value stands for. -/
def unescape : List Char → List Char
  | '&' :: 'l' :: 't' :: ';' :: cs => '<' :: unescape cs
  | '&' :: 'g' :: 't' :: ';' :: cs => '>' :: unescape cs
  | '&' :: 'a' :: 'm' :: 'p' :: ';' :: cs => '&' :: unescape cs
  | '&' :: 'a' :: 'p' :: 'o' :: 's' :: ';' :: cs => '\'' :: unescape cs
  | '&' :: 'q' :: 'u' :: 'o' :: 't' :: ';' :: cs => '"' :: unescape cs
  | c :: cs => c :: unescape cs
  | [] => []

theorem unescape_cons {c : Char} (hc : c ≠ '&') (cs : List Char) : unescape (c :: cs) = c :: unescape cs := by
  rw [unescape] <;> exact fun _ h => absurd h hc

/-- The characters that are not written as themselves, with what is written. -/
def escapes : List (Char × List Char) :=
  [('<', "&lt;".toList), ('>', "&gt;".toList), ('&', "&amp;".toList), ('\'', "&apos;".toList), ('"', "&quot;".toList)]

theorem escapedChar_cases (c : Char) :
    (c, escapedChar c) ∈ escapes ∨ (∀ p ∈ escapes, c ≠ p.1) ∧ escapedChar c = [c] := by
  unfold escapedChar
  split_ifs with hless hgreater hand hsingle hdouble
  · rw [eq_of_beq hless]
    exact .inl (by decide)
  · rw [eq_of_beq hgreater]
    exact .inl (by decide)
  · rw [eq_of_beq hand]
    exact .inl (by decide)
  · rw [eq_of_beq hsingle]
    exact .inl (by decide)
  · rw [eq_of_beq hdouble]
    exact .inl (by decide)
  · refine .inr ⟨?_, rfl⟩
    simp only [beq_iff_eq] at hless hgreater hand hsingle hdouble
    simp only [escapes, List.forall_mem_cons, List.not_mem_nil, false_implies, implies_true, and_true]
    exact ⟨hless, hgreater, hand, hsingle, hdouble⟩

theorem unescape_escapes {p : Char × List Char} (hp : p ∈ escapes) (cs : List Char) :
    unescape (p.2 ++ cs) = p.1 :: unescape cs := by
  revert p
  simp only [escapes, List.forall_mem_cons, List.not_mem_nil, false_implies, implies_true, and_true]
  exact ⟨rfl, rfl, rfl, rfl, rfl⟩

/-- Behind a written character the rest is read by itself. -/
theorem unescape_escapedChar (c : Char) (cs : List Char) : unescape (escapedChar c ++ cs) = c :: unescape cs := by
  rcases escapedChar_cases c with h | ⟨hother, h⟩
  · exact unescape_escapes h cs
  · rw [h]
    exact unescape_cons (hother ('&', "&amp;".toList) (by decide)) cs

/-- A written value stands for the text that was written. -/
theorem unescape_escape (s : String) : unescape (escape s).toList = s.toList := by
  rw [escape, String.toList_ofList]
  induction s.toList with
  | nil => rfl
  | cons c cs ih => rw [List.flatMap_cons, unescape_escapedChar, ih]

/-- A written value has no brackets and no quotes. -/
theorem notMem_escape {c : Char} (hc : c = '<' ∨ c = '>' ∨ c = '"') (s : String) : c ∉ (escape s).toList := by
  rw [escape, String.toList_ofList]
  intro h
  obtain ⟨d, _, hd⟩ := List.mem_flatMap.mp h
  have hwritten : (∀ p ∈ escapes, c ∉ p.2) ∧ ∃ p ∈ escapes, c = p.1 := by
    rcases hc with rfl | rfl | rfl <;> decide
  obtain ⟨hfree, p, hp, hcp⟩ := hwritten
  rcases escapedChar_cases d with h | ⟨hother, h⟩
  · exact hfree _ h hd
  · rw [h, List.mem_singleton] at hd
    exact hother p hp (hd.symm.trans hcp)

/-! ## §2 Reading a tag -/

/-- The name in front of the value of an attribute. -/
def attributeName? : List Char → Option String
  | ' ' :: cs => if cs.getLast? = some '=' then some (String.ofList cs.dropLast) else none
  | _ => none

/-- The attributes of a text that was cut at quotes: a name, a value, and so on, and nothing behind the last quote. -/
def attributes? : List (List Char) → Option (List (String × String))
  | [] => none
  | [rest] => if rest.isEmpty then some [] else none
  | name :: value :: rest =>
    match attributeName? name, attributes? rest with
    | some name, some attributes => some ((name, String.ofList (unescape value)) :: attributes)
    | _, _ => none

/-- A name and the attributes behind it. -/
def head? (cs : List Char) : Option (String × List (String × String)) :=
  (attributes? (Text.piecesAt '"' (cs.dropWhile (· != ' ')))).map fun attributes =>
    (String.ofList (cs.takeWhile (· != ' ')), attributes)

/-- The declaration, without its brackets. -/
def declarationBody : List Char :=
  "?xml version=\"1.0\" encoding=\"UTF-8\"?".toList

/-- The tag whose text without brackets is given. -/
def ofBody? (body : List Char) : Option XmlTag :=
  if body.head? = some '?' then
    if body = declarationBody then some .declaration else none
  else if body.head? = some '/' then some (.closing (String.ofList body.tail))
  else if body.getLast? = some '/' then (head? body.dropLast).map fun h => .single h.1 h.2
  else (head? body).map fun h => .opening h.1 h.2

/-- The text of a tag without its brackets. -/
def body : XmlTag → List Char
  | .declaration => declarationBody
  | .opening name attributes => (head name attributes).toList
  | .closing name => '/' :: name.toList
  | .single name attributes => (head name attributes).toList ++ ['/']

theorem toList_text (t : XmlTag) : t.text.toList = '<' :: t.body ++ ['>'] := by
  cases t with
  | declaration => rfl
  | opening name attributes => simp [text, body]
  | closing name => simp [text, body]
  | single name attributes => simp [text, body]

/-- A name is a row of small letters. -/
def isName (name : String) : Bool :=
  !name.toList.isEmpty && name.toList.all Char.isLower

/-- The name of an element and the names of its attributes are names. -/
def AreNames (name : String) (attributes : List (String × String)) : Prop :=
  isName name = true ∧ ∀ a ∈ attributes, isName a.1 = true

/-- A tag with such names. -/
def IsNamed : XmlTag → Prop
  | .declaration => True
  | .opening name attributes => AreNames name attributes
  | .closing name => isName name = true
  | .single name attributes => AreNames name attributes

theorem isName_iff {name : String} : isName name = true ↔ name.toList ≠ [] ∧ ∀ c ∈ name.toList, c.isLower = true := by
  rw [isName, Bool.and_eq_true, Bool.not_eq_true', List.isEmpty_eq_false_iff, List.all_eq_true]

theorem notMem_of_isName {name : String} (h : isName name = true) {c : Char} (hc : c.isLower = false) :
    c ∉ name.toList := by
  intro hmem
  cases ((isName_iff.mp h).2 c hmem).symm.trans hc

/-- What is written behind a name. -/
def written (attributes : List (String × String)) : List Char :=
  attributes.flatMap fun a => ' ' :: a.1.toList ++ '=' :: '"' :: (escape a.2).toList ++ ['"']

theorem toList_head (name : String) (attributes : List (String × String)) :
    (head name attributes).toList = name.toList ++ written attributes := by
  unfold head written
  rw [String.toList_append, String.toList_join, List.flatMap_map]
  simp

theorem written_cons (a : String × String) (attributes : List (String × String)) : written (a :: attributes)
    = (' ' :: a.1.toList ++ ['=']) ++ '"' :: ((escape a.2).toList ++ '"' :: written attributes) := by
  simp [written]

theorem attributeName?_written (name : String) : attributeName? (' ' :: name.toList ++ ['=']) = some name := by
  rw [List.cons_append, attributeName?, List.getLast?_concat, if_pos rfl, List.dropLast_concat, String.ofList_toList]

/-- Cut at quotes, written attributes are read back. -/
theorem attributes?_written {attributes : List (String × String)} (h : ∀ a ∈ attributes, isName a.1 = true) :
    attributes? (Text.piecesAt '"' (written attributes)) = some attributes := by
  induction attributes with
  | nil => rfl
  | cons a rest ih =>
    obtain ⟨ha, hrest⟩ := List.forall_mem_cons.mp h
    -- Neither the name nor the value has a quote, so the first two pieces are theirs.
    have hname : '"' ∉ ' ' :: a.1.toList ++ ['='] := by simpa using notMem_of_isName ha rfl
    have hvalue : '"' ∉ (escape a.2).toList := notMem_escape (by decide) a.2
    rw [written_cons, Text.piecesAt_cut hname, Text.piecesAt_cut hvalue, attributes?, attributeName?_written, ih hrest,
      unescape_escape, String.ofList_toList]

theorem head?_head {name : String} {attributes : List (String × String)} (h : AreNames name attributes) :
    head? (head name attributes).toList = some (name, attributes) := by
  have hname : ∀ c ∈ name.toList, (c != ' ') = true := fun c hc => bne_iff_ne.mpr fun heq => notMem_of_isName h.1 rfl (heq ▸ hc)
  have hstop : ((written attributes).head?.map (· != ' ')).getD false = false := by
    cases attributes with
    | nil => rfl
    | cons a rest => rfl
  obtain ⟨htake, hdrop⟩ := Text.span_before hname hstop
  rw [head?, toList_head, htake, hdrop, attributes?_written h.2, Option.map_some, String.ofList_toList]

/-- A name with attributes begins with a small letter, whatever stands behind it. -/
theorem head?_head_ne {name : String} {attributes : List (String × String)} (h : AreNames name attributes) {c : Char}
    (hc : c.isLower = false) (more : List Char) : ((head name attributes).toList ++ more).head? ≠ some c := by
  obtain ⟨hfull, hlower⟩ := isName_iff.mp h.1
  obtain ⟨first, rest, hname⟩ := List.exists_cons_of_ne_nil hfull
  rw [toList_head, hname]
  intro heq
  obtain rfl : first = c := Option.some.inj heq
  have hfirst := hlower first (hname ▸ List.mem_cons_self ..)
  cases hfirst.symm.trans hc

/-- It does not end with a slash. -/
theorem getLast?_head {name : String} {attributes : List (String × String)} (h : AreNames name attributes) :
    (head name attributes).toList.getLast? ≠ some '/' := by
  rw [toList_head]
  rcases List.eq_nil_or_concat attributes with rfl | ⟨front, a, rfl⟩
  · rw [written, List.flatMap_nil, List.append_nil]
    exact fun hlast => notMem_of_isName h.1 rfl (List.mem_of_getLast? hlast)
  · rw [List.concat_eq_append, written, List.flatMap_append, List.flatMap_singleton, ← List.append_assoc,
      ← List.append_assoc, List.getLast?_concat]
    decide

/-- Every tag is read back from its text without brackets. -/
theorem ofBody?_body {t : XmlTag} (h : t.IsNamed) : ofBody? t.body = some t := by
  cases t with
  | declaration => rfl
  | closing name =>
    unfold ofBody? body
    simp
  | opening name attributes =>
    -- The first letter rules out the declaration and the closing tags, the last character the single ones.
    have hquestion := head?_head_ne (c := '?') h rfl []
    have hslash := head?_head_ne (c := '/') h rfl []
    rw [List.append_nil] at hquestion hslash
    rw [body, ofBody?, if_neg hquestion, if_neg hslash, if_neg (getLast?_head h), head?_head h, Option.map_some]
  | single name attributes =>
    rw [body, ofBody?, if_neg (head?_head_ne h rfl _), if_neg (head?_head_ne h rfl _), if_pos List.getLast?_concat,
      List.dropLast_concat, head?_head h, Option.map_some]

/-- A closing bracket ends the text of a tag and does not occur in it. -/
theorem notMem_body {t : XmlTag} (h : t.IsNamed) : '>' ∉ t.body := by
  have hhead : ∀ {name attributes}, AreNames name attributes → '>' ∉ (head name attributes).toList := by
    intro name attributes h hmem
    rw [toList_head] at hmem
    rcases List.mem_append.mp hmem with hmem | hmem
    · exact notMem_of_isName h.1 rfl hmem
    · obtain ⟨a, ha, hmem⟩ := List.mem_flatMap.mp hmem
      have hname := notMem_of_isName (c := '>') (h.2 a ha) rfl
      have hvalue := notMem_escape (c := '>') (by decide) a.2
      simp [hname, hvalue] at hmem
  cases t with
  | declaration => decide
  | opening name attributes => exact hhead h
  | closing name =>
    rintro (_ | ⟨_, hmem⟩)
    exact notMem_of_isName h rfl hmem
  | single name attributes =>
    intro hmem
    rcases List.mem_append.mp hmem with hmem | hmem
    · exact hhead h hmem
    · simp at hmem

/-! ## §3 Reading a text -/

/-- The characters that may stand between tags. -/
def isLayout (c : Char) : Bool :=
  c == ' ' || c == '\n'

/-- The tag of a piece in front of a closing bracket, which may have layout in front of it. -/
def ofPiece? (piece : List Char) : Option XmlTag :=
  match piece.dropWhile isLayout with
  | '<' :: body => ofBody? body
  | _ => none

/-- The tags of a text that was cut at closing brackets. Behind the last tag there is only layout. -/
def ofPieces? : List (List Char) → Option (List XmlTag)
  | [] => none
  | [last] => if last.all isLayout then some [] else none
  | piece :: rest =>
    match ofPiece? piece, ofPieces? rest with
    | some t, some ts => some (t :: ts)
    | _, _ => none

/-- The tags of a text. -/
def read? (text : String) : Option (List XmlTag) :=
  ofPieces? (Text.piecesAt '>' text.toList)

/-- A piece without the layout in front of its tag. -/
def dropLayout (piece : List Char) : List Char :=
  match piece.dropWhile isLayout with
  | '<' :: body => '<' :: body
  | _ => piece

/-- A text without the layout in front of its tags. -/
def withoutLayout (text : String) : String :=
  String.ofList (['>'].intercalate ((Text.piecesAt '>' text.toList).map dropLayout))

/-- A text with certain tags, each with layout in front of it, and with `last` behind the last one. -/
inductive Spaced (last : List Char) : List XmlTag → List Char → Prop
  | stop : Spaced last [] last
  | tag {layout cs : List Char} {t : XmlTag} {ts : List XmlTag} (hlayout : ∀ c ∈ layout, isLayout c = true)
    (h : Spaced last ts cs) : Spaced last (t :: ts) (layout ++ t.text.toList ++ cs)

variable {last layout cs : List Char} {t : XmlTag} {ts : List XmlTag}

theorem notMem_layout (h : ∀ c ∈ layout, isLayout c = true) : '>' ∉ layout := by
  intro hmem
  cases h '>' hmem

theorem dropWhile_layout (h : ∀ c ∈ layout, isLayout c = true) (body : List Char) :
    (layout ++ '<' :: body).dropWhile isLayout = '<' :: body := by
  rw [List.dropWhile_append_of_pos h]
  rfl

/-- The first piece of a text that begins with a tag. -/
theorem piecesAt_tag (hlayout : ∀ c ∈ layout, isLayout c = true) (ht : t.IsNamed) (cs : List Char) :
    Text.piecesAt '>' (layout ++ t.text.toList ++ cs) = (layout ++ '<' :: t.body) :: Text.piecesAt '>' cs := by
  have hfree : '>' ∉ layout ++ '<' :: t.body := by
    simp [notMem_layout hlayout, notMem_body ht]
  rw [← Text.piecesAt_cut hfree, toList_text]
  simp

theorem ofPieces?_cons (piece : List Char) {pieces : List (List Char)} (h : pieces ≠ []) :
    ofPieces? (piece :: pieces) = match ofPiece? piece, ofPieces? pieces with
      | some t, some ts => some (t :: ts)
      | _, _ => none := by
  obtain ⟨next, rest, rfl⟩ := List.exists_cons_of_ne_nil h
  rfl

namespace Spaced

/-- The tags of a text are read back. -/
theorem ofPieces?_piecesAt (h : Spaced last ts cs) (hlast : ∀ c ∈ last, isLayout c = true)
    (hnamed : ∀ t ∈ ts, t.IsNamed) : ofPieces? (Text.piecesAt '>' cs) = some ts := by
  induction h with
  | stop =>
    rw [Text.piecesAt_of_notMem (notMem_layout hlast), ofPieces?, if_pos (List.all_eq_true.mpr hlast)]
  | @tag layout cs t ts hlayout _ ih =>
    obtain ⟨ht, hts⟩ := List.forall_mem_cons.mp hnamed
    have hread : ofPiece? (layout ++ '<' :: t.body) = some t := by
      rw [ofPiece?, dropWhile_layout hlayout]
      exact ofBody?_body ht
    have hmore : Text.piecesAt '>' cs ≠ [] := Text.piecesBy_ne_nil _ cs
    rw [piecesAt_tag hlayout ht, ofPieces?_cons _ hmore, hread, ih hts]

/-- Without layout a text is the row of its tags. -/
theorem withoutLayout_eq (h : Spaced last ts cs) (hlast : ∀ c ∈ last, isLayout c = true)
    (hnamed : ∀ t ∈ ts, t.IsNamed) :
    ['>'].intercalate ((Text.piecesAt '>' cs).map dropLayout) = (ts.flatMap fun t => t.text.toList) ++ last := by
  induction h with
  | stop =>
    have hkept : dropLayout last = last := by
      rw [dropLayout, List.dropWhile_eq_nil_iff.mpr hlast]
    rw [Text.piecesAt_of_notMem (notMem_layout hlast), List.map_singleton, List.intercalate_singleton, hkept]
    rfl
  | @tag layout cs t ts hlayout _ ih =>
    -- The first bracket that closes is that of the first tag, and only the layout in front of the tag is dropped.
    obtain ⟨ht, hts⟩ := List.forall_mem_cons.mp hnamed
    have hdropped : dropLayout (layout ++ '<' :: t.body) = '<' :: t.body := by
      unfold dropLayout
      rw [dropWhile_layout hlayout]
      rfl
    have hmore : (Text.piecesAt '>' cs).map dropLayout ≠ [] :=
      fun hnil => Text.piecesBy_ne_nil _ cs (List.map_eq_nil_iff.mp hnil)
    rw [piecesAt_tag hlayout ht, List.map_cons, hdropped, List.intercalate_cons_of_ne_nil hmore, ih hts,
      List.flatMap_cons, toList_text]
    simp only [List.append_assoc]

end Spaced

/-! ## §4 Nested tags -/

/-- The elements that are open behind a tag, the innermost first. A closing tag must close the innermost one. -/
def nest : List String → XmlTag → Option (List String)
  | inner, .declaration => some inner
  | inner, .opening name _ => some (name :: inner)
  | inner, .single _ _ => some inner
  | [], .closing _ => none
  | innermost :: outer, .closing name => if innermost = name then some outer else none

/-- Tags that are nested in each other, with a closing tag for each opening one. -/
def AreNested (ts : List XmlTag) : Prop :=
  ts.foldlM nest [] = some []

end XmlTag

end BenchPlot
