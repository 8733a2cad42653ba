import BenchPlot.Proofs.Output.PointRecords
import BenchPlot.Proofs.Value.Literal
import Mathlib.Algebra.Group.Nat.Even

/-!
# Quoted texts of a script

A text is written between double quotes with a backslash in front of each quote and each backslash in it. So a quote
ends the text iff the backslashes in front of it are an even number, and dropping one backslash for each escape gives
the text back. Whatever a label, a title or the name of a file is, a script that is read by its quotes has this text
and goes on behind it.

Main statements: `Script.isQuoted_quote` and `Layout.shows_script`.
-/

namespace BenchPlot

namespace Script

/-! ## §1 Escapes -/

/-- A text as it stands between quotes. -/
def escaped (cs : List Char) : List Char :=
  cs.flatMap quotedChar

/-- What stands between quotes, without one backslash for each escape. -/
def unescaped : List Char → List Char
  | '\\' :: c :: cs => c :: unescaped cs
  | c :: cs => c :: unescaped cs
  | [] => []

theorem toList_quote (s : String) : (quote s).toList = '"' :: (escaped s.toList ++ ['"']) := by
  simp [quote, escaped]

/-- Backslashes and quotes are escaped, and every other character is written as it is. -/
theorem quotedChar_cases (c : Char) :
    ((c = '\\' ∨ c = '"') ∧ quotedChar c = ['\\', c]) ∨ (c ≠ '\\' ∧ c ≠ '"' ∧ quotedChar c = [c]) := by
  by_cases hslash : c = '\\'
  · exact .inl ⟨.inl hslash, by simp [quotedChar, hslash]⟩
  · by_cases hquote : c = '"'
    · exact .inl ⟨.inr hquote, by simp [quotedChar, hquote]⟩
    · exact .inr ⟨hslash, hquote, by simp [quotedChar, hslash, hquote]⟩

/-- The escapes are those of two passes, of which the first doubles the backslashes: the second one adds a backslash to
    each quote and leaves those of the first alone. -/
theorem quote_eq_replaceChar (s : String) :
    quote s = "\"" ++ Text.replaceChar '"' ['\\', '"'] (Text.replaceChar '\\' ['\\', '\\'] s) ++ "\"" := by
  have hpasses : ∀ c, (if c == '\\' then ['\\', '\\'] else [c]).flatMap (fun d => if d == '"' then ['\\', '"'] else [d])
      = quotedChar c := by
    intro c
    rcases quotedChar_cases c with ⟨rfl | rfl, h⟩ | ⟨hslash, hquote, h⟩
    · rfl
    · rfl
    · simp [h, hslash, hquote]
  simp only [quote, Text.replaceChar, String.toList_ofList, List.flatMap_assoc, hpasses]

theorem escaped_cons (c : Char) (cs : List Char) : escaped (c :: cs) = quotedChar c ++ escaped cs :=
  List.flatMap_cons

theorem unescaped_cons {c : Char} (hc : c ≠ '\\') (cs : List Char) : unescaped (c :: cs) = c :: unescaped cs := by
  rw [unescaped]
  exact fun _ _ hslash => absurd hslash hc

theorem unescaped_escaped (cs : List Char) : unescaped (escaped cs) = cs := by
  induction cs with
  | nil => rfl
  | cons c cs ih =>
    rw [escaped_cons]
    rcases quotedChar_cases c with ⟨-, h⟩ | ⟨hslash, -, h⟩
    · rw [h]
      exact congrArg (c :: ·) ih
    · rw [h, List.singleton_append, unescaped_cons hslash]
      exact congrArg (c :: ·) ih

/-! ## §2 Backslashes in front of a quote -/

/-- The number of backslashes that a text ends in. -/
def backslashesAtEnd (cs : List Char) : Nat :=
  (cs.reverse.takeWhile (· == '\\')).length

/-- Whether the character behind a text is escaped, where `escape` says it of the first character of the text. -/
def escapesNext (escape : Bool) : List Char → Bool
  | [] => escape
  | c :: cs => escapesNext (!escape && c == '\\') cs

theorem escapesNext_append (escape : Bool) (cs rest : List Char) :
    escapesNext escape (cs ++ rest) = escapesNext (escapesNext escape cs) rest := by
  induction cs generalizing escape with
  | nil => rfl
  | cons c cs ih => exact ih _

/-- A character is escaped iff an odd number of backslashes stands in front of it. -/
theorem escapesNext_iff (cs : List Char) : escapesNext false cs = true ↔ Odd (backslashesAtEnd cs) := by
  -- From the end, since a further backslash lengthens the run and any other character breaks it.
  induction cs using List.reverseRecOn with
  | nil => simp [escapesNext, backslashesAtEnd]
  | append_singleton cs c ih =>
    rw [escapesNext_append]
    by_cases hc : c = '\\'
    · have hrun : backslashesAtEnd (cs ++ [c]) = backslashesAtEnd cs + 1 := by simp [backslashesAtEnd, hc]
      rw [hrun, Nat.odd_add_one, ← ih]
      simp [escapesNext, hc]
    · have hrun : backslashesAtEnd (cs ++ [c]) = 0 := by simp [backslashesAtEnd, hc]
      rw [hrun]
      simp [escapesNext, hc]

/-- What is written for a character leaves the next one alone. -/
theorem escapesNext_quotedChar (c : Char) : escapesNext false (quotedChar c) = false := by
  rcases quotedChar_cases c with ⟨-, h⟩ | ⟨hslash, -, h⟩
  · simp [h, escapesNext]
  · simp [h, escapesNext, hslash]

theorem escapesNext_escaped (cs : List Char) : escapesNext false (escaped cs) = false := by
  induction cs with
  | nil => rfl
  | cons c cs ih =>
    rw [escaped_cons, escapesNext_append, escapesNext_quotedChar]
    exact ih

/-- Every quote inside is escaped. -/
theorem escapesNext_of_escaped_eq {cs front back : List Char} (h : escaped cs = front ++ '"' :: back) :
    escapesNext false front = true := by
  induction cs generalizing front with
  | nil => simp [escaped] at h
  | cons c cs ih =>
    rw [escaped_cons] at h
    rcases quotedChar_cases c with ⟨-, hwritten⟩ | ⟨hslash, hquote, hwritten⟩
    · -- The quote is the escaped character itself, or it stands behind the escape.
      rw [hwritten] at h
      match front, h with
      | [], h => simp at h
      | [d], h =>
        obtain ⟨rfl, -⟩ : '\\' = d ∧ _ := by simpa using h
        rfl
      | d :: e :: front, h =>
        obtain ⟨rfl, rfl, hrest⟩ : '\\' = d ∧ c = e ∧ escaped cs = front ++ '"' :: back := by simpa using h
        show escapesNext false front = true
        exact ih hrest
    · rw [hwritten] at h
      match front, h with
      | [], h => simp [hquote] at h
      | d :: front, h =>
        obtain ⟨rfl, hrest⟩ : c = d ∧ escaped cs = front ++ '"' :: back := by simpa using h
        rw [escapesNext, beq_false_of_ne hslash]
        exact ih hrest

/-- Of the quotes in a quoted text, those that are neither the first nor the last character are escaped, and no other
    ones. -/
theorem odd_backslashes_iff {s : String} {front back : List Char} (h : (quote s).toList = front ++ '"' :: back) :
    Odd (backslashesAtEnd front) ↔ front ≠ [] ∧ back ≠ [] := by
  rw [toList_quote] at h
  rw [← escapesNext_iff]
  cases front with
  | nil => simp [escapesNext]
  | cons d front =>
    obtain ⟨rfl, hbody⟩ := List.cons.inj h
    have hstart : escapesNext false ('"' :: front) = escapesNext false front := rfl
    rw [hstart]
    rcases List.eq_nil_or_concat back with rfl | ⟨back, last, rfl⟩
    · -- The last quote stands behind the whole text.
      have hwhole : escaped s.toList = front := List.append_inj_left' hbody rfl
      simp [← hwhole, escapesNext_escaped]
    · have hinner : escaped s.toList = front ++ '"' :: back := by
        have hends : escaped s.toList ++ ['"'] = (front ++ '"' :: back) ++ [last] := by simpa using hbody
        exact List.append_inj_left' hends rfl
      simp [escapesNext_of_escaped_eq hinner]

/-! ## §3 Reading a script by its quotes -/

/-- The texts between the quotes of a command, from left to right: a quote begins a text, and the next one that no
    backslash escapes ends it. The first argument is the text whose end has not been read yet. None if the last text
    has no end. -/
def textsFrom? : Option (List Char) → List Char → Option (List (List Char))
  | none, [] => some []
  | some _, [] => none
  | none, c :: cs => textsFrom? (if c = '"' then some [] else none) cs
  | some text, '"' :: cs => (textsFrom? none cs).map (text :: ·)
  | some text, '\\' :: c :: cs => textsFrom? (some (text ++ [c])) cs
  | some text, c :: cs => textsFrom? (some (text ++ [c])) cs

/-- The texts between the quotes of a command. -/
def quotedTexts? (command : List Char) : Option (List (List Char)) :=
  textsFrom? none command

theorem textsFrom?_escaped (text cs rest : List Char) :
    textsFrom? (some text) (escaped cs ++ rest) = textsFrom? (some (text ++ cs)) rest := by
  induction cs generalizing text with
  | nil => simp [escaped]
  | cons c cs ih =>
    rw [escaped_cons]
    have hnext := ih (text ++ [c])
    rw [List.append_assoc, List.singleton_append] at hnext
    rcases quotedChar_cases c with ⟨-, hwritten⟩ | ⟨hslash, hquote, hwritten⟩
    · rw [hwritten]
      exact hnext
    · rw [hwritten, List.append_assoc, List.singleton_append, textsFrom?]
      · exact hnext
      · exact hquote
      · exact fun _ _ h => absurd h hslash

/-- What is read of a command does not depend on what follows. -/
theorem textsFrom?_append {reading : Option (List Char)} {command : List Char} {texts : List (List Char)}
    (h : textsFrom? reading command = some texts) (rest : List Char) :
    textsFrom? reading (command ++ rest) = (textsFrom? none rest).map (texts ++ ·) := by
  fun_induction textsFrom? reading command generalizing texts with
  | case1 =>
    obtain rfl := Option.some.inj h
    simp
  | case2 => cases h
  | case3 c cs ih => exact ih h
  | case4 text cs ih =>
    obtain ⟨others, hothers, rfl⟩ := Option.map_eq_some_iff.mp h
    rw [List.cons_append, textsFrom?, ih hothers, Option.map_map]
    rfl
  | case5 text c cs ih => exact ih h
  | case6 text c cs hquote hslash ih =>
    cases cs with
    | nil => cases h
    | cons d cs =>
      rw [List.cons_append, textsFrom?]
      · exact ih h
      · exact hquote
      · exact fun _ _ hc _ => hslash d cs hc rfl

theorem textsFrom?_of_notMem {command : List Char} (h : '"' ∉ command) : textsFrom? none command = some [] := by
  induction command with
  | nil => rfl
  | cons c cs ih =>
    obtain ⟨hc, hcs⟩ : '"' ≠ c ∧ '"' ∉ cs := by simpa using h
    rw [textsFrom?, if_neg hc.symm]
    exact ih hcs

/-- Wherever no quote is open, a quoted text is read as the text, and what follows is read by itself. -/
theorem quotedTexts?_quote {before : List Char} {texts : List (List Char)} (h : quotedTexts? before = some texts)
    (s : String) (after : List Char) :
    quotedTexts? (before ++ (quote s).toList ++ after) = (quotedTexts? after).map (texts ++ s.toList :: ·) := by
  have hquoted : textsFrom? none ((quote s).toList ++ after) = (textsFrom? none after).map (s.toList :: ·) := by
    rw [toList_quote, List.cons_append, List.append_assoc, textsFrom?, if_pos rfl, textsFrom?_escaped, List.nil_append,
      List.singleton_append, textsFrom?]
  rw [quotedTexts?, List.append_assoc, textsFrom?_append h, hquoted, Option.map_map]
  rfl

/-! ## §4 Quoted texts -/

/-- What is written for a text is quoted, and stands for the text: it begins and ends with a quote and has the text
    escaped in between, its other quotes are escaped and the last one is not, and it is read as the text wherever it
    stands outside quotes. -/
structure IsQuoted (s written : String) : Prop where
  /-- Two passes over the text: each backslash is doubled, then each quote gets a backslash. -/
  passes : written = "\"" ++ Text.replaceChar '"' ['\\', '"'] (Text.replaceChar '\\' ['\\', '\\'] s) ++ "\""
  body : ∃ body, written.toList = '"' :: (body ++ ['"']) ∧ unescaped body = s.toList
  /-- An odd number of backslashes stands in front of each quote but the first character and the last one. -/
  quotes : ∀ front back, written.toList = front ++ '"' :: back →
    (Odd (backslashesAtEnd front) ↔ front ≠ [] ∧ back ≠ [])
  read : ∀ before texts, quotedTexts? before = some texts → ∀ after,
    quotedTexts? (before ++ written.toList ++ after) = (quotedTexts? after).map (texts ++ s.toList :: ·)

/-- Quoting can be undone, and no text ends its quotes early. -/
theorem isQuoted_quote (s : String) : IsQuoted s (quote s) where
  passes := quote_eq_replaceChar s
  body := ⟨_, toList_quote s, unescaped_escaped s.toList⟩
  quotes _ _ h := odd_backslashes_iff h
  read _ _ h := quotedTexts?_quote h s

/-- A backslash in front of a quote, and one at the end. -/
example : quote "a\\\"b\\" = "\"a\\\\\\\"b\\\\\"" := by decide

/-! ## §5 The texts of a script -/

/-- Read by its quotes, a command has the texts, and no quote is left open. -/
def Shows (command : String) (texts : List String) : Prop :=
  quotedTexts? command.toList = some (texts.map String.toList)

namespace Shows

variable {command command' : String} {texts texts' : List String}

theorem append (h : Shows command texts) (h' : Shows command' texts') :
    Shows (command ++ command') (texts ++ texts') := by
  unfold Shows at h' ⊢
  rw [quotedTexts?] at h'
  rw [String.toList_append, quotedTexts?, textsFrom?_append h, h', List.map_append]
  rfl

theorem plain (command : String) (h : '"' ∉ command.toList) : Shows command [] :=
  textsFrom?_of_notMem h

theorem quote (s : String) : Shows (quote s) [s] := by
  have hnone : quotedTexts? [] = some [] := rfl
  have h := quotedTexts?_quote hnone s []
  rwa [List.nil_append, List.append_nil] at h

theorem intercalate {β : Type} {separator : String} (hseparator : Shows separator []) {l : List β}
    {command : β → String} {texts : β → List String} (h : ∀ a ∈ l, Shows (command a) (texts a)) :
    Shows (separator.intercalate (l.map command)) (l.flatMap texts) := by
  induction l with
  | nil => rfl
  | cons a rest ih =>
    obtain ⟨ha, hrest⟩ := List.forall_mem_cons.mp h
    cases rest with
    | nil => simpa using ha
    | cons b rest =>
      have hboth := (ha.append hseparator).append (ih hrest)
      rw [List.append_nil] at hboth
      simpa [String.intercalate_cons_cons] using hboth

end Shows

/-- Read by their quotes, lines have the texts. -/
def ShowsLines (lines : List String) (texts : List String) : Prop :=
  Shows (linesText lines) texts

namespace ShowsLines

variable {lines lines' texts texts' : List String}

theorem nil : ShowsLines [] [] :=
  rfl

theorem singleton {line : String} (h : Shows line texts) : ShowsLines [line] texts := by
  have hend := h.append (.plain "\n" (by decide))
  rw [List.append_nil] at hend
  simpa [ShowsLines, linesText] using hend

theorem append (h : ShowsLines lines texts) (h' : ShowsLines lines' texts') :
    ShowsLines (lines ++ lines') (texts ++ texts') := by
  have hboth := Shows.append h h'
  simpa [ShowsLines, linesText, String.join_append] using hboth

/-- A line that is written under a condition, and the texts of it. -/
theorem ite {p : Prop} [Decidable p] (h : ShowsLines lines texts) (h' : ShowsLines lines' texts') :
    ShowsLines (if p then lines else lines') (if p then texts else texts') := by
  split
  · exact h
  · exact h'

theorem toList {o : Option String} {line : String → String} (h : ∀ t, Shows (line t) [t]) :
    ShowsLines (o.map line).toList o.toList := by
  cases o with
  | none => exact nil
  | some t => exact singleton (h t)

theorem flatMap {β : Type} {l : List β} {lines : β → List String} {texts : β → List String}
    (h : ∀ a ∈ l, ShowsLines (lines a) (texts a)) : ShowsLines (l.flatMap lines) (l.flatMap texts) := by
  induction l with
  | nil => exact nil
  | cons a rest ih =>
    obtain ⟨ha, hrest⟩ := List.forall_mem_cons.mp h
    exact ha.append (ih hrest)

end ShowsLines

theorem quote_notMem_numberText (x : Float) : '"' ∉ (numberText x).toList :=
  notMem_numberText rfl (by simp) x

theorem quote_notMem_integerText (i : Int) : '"' ∉ (Decimal.integerText i).toList := by
  have hdigits : ∀ n, '"' ∉ (Decimal.naturalText n).toList := fun n =>
    (isPlainNumeral_naturalText n).notMem rfl (by decide)
  unfold Decimal.integerText
  split
  · simpa using hdigits i.natAbs
  · exact hdigits i.natAbs

/-- The texts of an axis: its label and its ticks. -/
def axisTexts (a : AxisLayout) : List String :=
  a.label.toList ++ a.ticks.map Tick.label

/-- The texts of a graph: its title, those of its axes, and the label and the colour of each curve. -/
def graphTexts (g : GraphLayout Float) : List String :=
  (if g.title.isEmpty then [] else [g.title]) ++ axisTexts g.x ++ axisTexts g.y
    ++ g.curves.flatMap fun c => [c.label, colorName c.color]

/-- The dash and the point type of a curve, which are written as they are, have no quotes in them. -/
def HasPlainTypes (c : CurveLayout) : Prop :=
  (∀ d ∈ dashType? c.line, '"' ∉ d.toList) ∧ ∀ p ∈ pointType? c.mark, '"' ∉ p.toList

theorem shows_tickText (t : Tick) : Shows (tickText t) [t.label] :=
  ((Shows.quote t.label).append (.plain " " (by decide))).append (.plain _ (quote_notMem_integerText t.position))

theorem shows_boundText (x : Option Float) : Shows (boundText x) [] := by
  cases x with
  | none => exact .plain "*" (by decide)
  | some x => exact .plain _ (quote_notMem_numberText x)

theorem showsLines_axisLines {name : String} (hname : '"' ∉ name.toList) (a : AxisLayout) :
    ShowsLines (axisLines name a) (axisTexts a) := by
  have hset : Shows s!"set {name}" [] := .append (.plain "set " (by decide)) (.plain name hname)
  have hlabel : ShowsLines (a.label.map fun label => s!"set {name}label " ++ quote label).toList a.label.toList :=
    .toList fun label => (hset.append (.plain "label " (by decide))).append (.quote label)
  have hscale : ShowsLines (if a.scale.scaleKind == .log then [s!"set logscale {name}"] else []) [] := by
    split
    · exact .singleton (.append (.plain "set logscale " (by decide)) (.plain name hname))
    · exact .nil
  have hticks : ShowsLines (if a.ticks.isEmpty then []
      else [s!"set {name}tics (" ++ ", ".intercalate (a.ticks.map tickText) ++ ")"]) (a.ticks.map Tick.label) := by
    split
    · rename_i hempty
      rw [List.isEmpty_iff.mp hempty]
      exact .nil
    · have hlist : Shows (", ".intercalate (a.ticks.map tickText)) (a.ticks.map Tick.label) := by
        rw [List.map_eq_flatMap (f := Tick.label)]
        exact .intercalate (.plain ", " (by decide)) fun t _ => shows_tickText t
      have hline := ((hset.append (.plain "tics (" (by decide))).append hlist).append (.plain ")" (by decide))
      rw [List.append_nil] at hline
      exact .singleton hline
  have hrange : ShowsLines (if a.range.1.isNone && a.range.2.isNone then []
      else [s!"set {name}range [" ++ boundText a.range.1 ++ ":" ++ boundText a.range.2 ++ "]"]) [] := by
    split
    · exact .nil
    · have hleft := (hset.append (.plain "range [" (by decide))).append (shows_boundText a.range.1)
      exact .singleton (((hleft.append (.plain ":" (by decide))).append (shows_boundText a.range.2)).append
        (.plain "]" (by decide)))
  simpa [axisLines, axisTexts] using ((hlabel.append hscale).append hticks).append hrange

/-- A word and a type behind it, if there is one. -/
theorem shows_type {word : String} (hword : '"' ∉ word.toList) {type : Option String}
    (htype : ∀ t ∈ type, '"' ∉ t.toList) : Shows ((type.map fun t => s!"{word}{t}").getD "") [] := by
  cases type with
  | none => exact .plain "" (by decide)
  | some t => exact (Shows.plain word hword).append (.plain t (htype t rfl))

theorem shows_plotClause {c : CurveLayout} (hplain : HasPlainTypes c) :
    Shows (plotClause c) [c.label, colorName c.color] := by
  have hstyle : '"' ∉ (plotStyle c).1.toList ∧ '"' ∉ (plotStyle c).2.toList := by
    unfold plotStyle
    split <;> decide
  have hcolumns : Shows s!"'-' using {(plotStyle c).1} title " [] :=
    ((Shows.plain "'-' using " (by decide)).append (.plain _ hstyle.1)).append (.plain " title " (by decide))
  have hdrawn : Shows s!" with {(plotStyle c).2}" [] :=
    (Shows.plain " with " (by decide)).append (.plain _ hstyle.2)
  have hdash : Shows (((dashType? c.line).map fun d => s!" dt {d}").getD "") [] := shows_type (by decide) hplain.1
  have hpoint : Shows (((pointType? c.mark).map fun p => s!" pt {p}").getD "") [] := shows_type (by decide) hplain.2
  exact (((((hcolumns.append (.quote c.label)).append hdrawn).append hdash).append hpoint).append
    (.plain " lc rgb " (by decide))).append (.quote (colorName c.color))

/-- A line of data is a row of numbers. -/
theorem shows_dataLine (errorbars : Bool) (p : PlotPoint Float) : Shows (dataLine errorbars p) [] := by
  have hnumbers : ∀ numbers : List Float, Shows (" ".intercalate (numbers.map numberText)) [] := by
    intro numbers
    have h := Shows.intercalate (.plain " " (by decide)) fun x (_ : x ∈ numbers) => .plain _ (quote_notMem_numberText x)
    rwa [flatMap_nothing] at h
  cases errorbars with
  | false => exact hnumbers [p.x, p.y]
  | true => exact hnumbers [p.x, p.y, p.low, p.high]

theorem showsLines_dataBlock (g : GraphLayout Float) (c : CurveLayout) : ShowsLines (dataBlock g c) [] := by
  have hpoints : ShowsLines ((g.pointsOf c.id).map (dataLine c.errorbars)) [] := by
    have h := ShowsLines.flatMap fun p (_ : p ∈ g.pointsOf c.id) => .singleton (shows_dataLine c.errorbars p)
    rwa [← List.map_eq_flatMap, flatMap_nothing] at h
  exact hpoints.append (.singleton (.plain "e" (by decide)))

theorem showsLines_plotLines {g : GraphLayout Float} (hplain : ∀ c ∈ g.curves, HasPlainTypes c) :
    ShowsLines (plotLines g) (g.curves.flatMap fun c => [c.label, colorName c.color]) := by
  unfold plotLines
  split
  · rename_i hempty
    rw [List.isEmpty_iff.mp hempty]
    exact .nil
  · have hclauses := Shows.intercalate (.plain ", \\\n     " (by decide)) fun c hc => shows_plotClause (hplain c hc)
    have hcommand := (Shows.plain "plot " (by decide)).append hclauses
    have hdata := ShowsLines.flatMap fun c (_ : c ∈ g.curves) => showsLines_dataBlock g c
    rw [flatMap_nothing] at hdata
    have hlines := (ShowsLines.singleton hcommand).append hdata
    rwa [List.append_nil] at hlines

/-- Read by their quotes, the commands of a graph have the texts of the graph, one for one and in this order. -/
theorem showsLines_graphLines {g : GraphLayout Float} (hplain : ∀ c ∈ g.curves, HasPlainTypes c) :
    ShowsLines (graphLines g) (graphTexts g) := by
  have htitle : ShowsLines (if g.title.isEmpty then [] else ["set title " ++ quote g.title])
      (if g.title.isEmpty then [] else [g.title]) :=
    .ite .nil (.singleton ((Shows.plain "set title " (by decide)).append (.quote g.title)))
  have hlegend : ShowsLines [legendLine g.legend] [] := by
    cases g.legend <;> exact .singleton (.plain _ (by decide))
  have hgrid : ShowsLines (if g.grid then ["set grid"] else []) [] := by
    split
    · exact .singleton (.plain _ (by decide))
    · exact .nil
  have hbars : ShowsLines (if g.curves.any CurveLayout.bar then
      ["set style fill solid 0.5 border", "set boxwidth 0.9"] else []) [] := by
    split
    · exact (ShowsLines.singleton (.plain _ (by decide))).append (.singleton (.plain _ (by decide)))
    · exact .nil
  have hx : ShowsLines (axisLines "x" g.x) (axisTexts g.x) := showsLines_axisLines (by decide) g.x
  have hy : ShowsLines (axisLines "y" g.y) (axisTexts g.y) := showsLines_axisLines (by decide) g.y
  have hlines := (((((htitle.append hx).append hy).append hlegend).append hgrid).append hbars).append
    (showsLines_plotLines hplain)
  simpa [graphLines, graphTexts] using hlines

/-- The lines in front of all graphs have the name of the file that the script writes to. -/
theorem showsLines_headLines {s : ScriptSettings} {title : Option String} (htitle : ∀ t ∈ title, '"' ∉ t.toList)
    (hterminal : ∀ t ∈ s.terminal, '"' ∉ t.toList) : ShowsLines (headLines s title) s.output.toList := by
  have hraw : ∀ {word : String} {o : Option String}, '"' ∉ word.toList → (∀ t ∈ o, '"' ∉ t.toList) →
      ShowsLines (o.map fun t => s!"{word}{t}").toList [] := by
    intro word o hword ho
    cases o with
    | none => exact .nil
    | some t => exact .singleton ((Shows.plain word hword).append (.plain t (ho t rfl)))
  have houtput : ShowsLines (s.output.map fun o => "set output " ++ quote o).toList s.output.toList :=
    .toList fun o => (Shows.plain "set output " (by decide)).append (.quote o)
  exact ((hraw (by decide) htitle).append (hraw (by decide) hterminal)).append houtput

end Script

/-- Read by its quotes, a script has the name of the file that it writes to and the texts of the graphs, one for one and
    in this order. The title in the first line, the terminal and the types of lines and marks are not quoted; they are
    without quotes here. -/
theorem Layout.shows_script {s : ScriptSettings} {l : Layout Float} (htitle : ∀ t ∈ l.title, '"' ∉ t.toList)
    (hterminal : ∀ t ∈ s.terminal, '"' ∉ t.toList)
    (hplain : ∀ g ∈ l.graphs, ∀ c ∈ g.curves, Script.HasPlainTypes c) :
    Script.Shows (l.script s) (s.output.toList ++ l.graphs.flatMap Script.graphTexts) := by
  have hgraphs : Script.ShowsLines (l.graphs.zipIdx.flatMap fun g => Script.numberedLines g.1 g.2)
      (l.graphs.zipIdx.flatMap fun g => Script.graphTexts g.1) := by
    refine .flatMap fun g hg => ?_
    have hreset : Script.ShowsLines (if g.2 = 0 then [] else ["reset"]) [] := by
      split
      · exact .nil
      · exact .singleton (.plain "reset" (by decide))
    exact hreset.append (Script.showsLines_graphLines (hplain g.1 (List.fst_mem_of_mem_zipIdx hg)))
  have htexts : (l.graphs.zipIdx.flatMap fun g => Script.graphTexts g.1) = l.graphs.flatMap Script.graphTexts := by
    rw [← List.flatMap_map, List.zipIdx_map_fst]
  rw [htexts] at hgraphs
  exact (Script.showsLines_headLines htitle hterminal).append hgraphs

end BenchPlot
