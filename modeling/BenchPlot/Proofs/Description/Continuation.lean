import BenchPlot.Proofs.Description.Ending
import BenchPlot.Proofs.Description.Renumbering

/-!
# Continued lines

A line may be broken at a space between two characters that are not blank: a backslash goes behind the space, and the
rest of the line to the next one, behind any blanks. Both pieces are put together with a space again, whatever stands
in front of them in the same logical line, so the logical lines stay, but for the numbers of those behind the break.
The rest may start with a number sign: only a line that continues no other one is a comment.

Main statement: `Document.parseText_continued`.
-/

namespace BenchPlot

open Text (trimChars trimStartChars trimEndChars isBlank)

/-! ## §1 Contents -/

theorem joinPieces_assoc (a b c : List Char) : joinPieces (joinPieces a b) c = joinPieces a (joinPieces b c) := by
  unfold joinPieces
  cases a <;> cases b <;> cases c <;> simp

theorem joinPieces_nil (a : List Char) : joinPieces a [] = a := by
  simp [joinPieces]

theorem joinPieces_of_ne_nil {a b : List Char} (ha : a ≠ []) (hb : b ≠ []) : joinPieces a b = a ++ ' ' :: b := by
  simp [joinPieces, ha, hb]

theorem lineContent_backslash (cs : List Char) : lineContent (cs ++ ['\\']) = (trimEndChars cs, true) := by
  simp [lineContent]

theorem lineContent_of_ne {cs : List Char} (h : cs.getLast? ≠ some '\\') : lineContent cs = (cs, false) := by
  unfold lineContent
  split
  · rename_i rest hreverse
    rw [← List.head?_reverse, hreverse] at h
    exact absurd rfl h
  · rfl

/-- A text behind a space is trimmed by itself; if nothing is left of it, the space goes too. -/
theorem trimEndChars_join {left : List Char} (hleft : ∃ c ∈ left.getLast?, isBlank c = false) (right : List Char) :
    trimEndChars (left ++ ' ' :: right) = joinPieces left (trimEndChars right) := by
  have hfull : left ≠ [] := by
    rintro rfl
    obtain ⟨c, hc, -⟩ := hleft
    cases hc
  by_cases htext : ∃ c ∈ right, isBlank c = false
  · have hspace : left ++ ' ' :: right = (left ++ [' ']) ++ right := by simp
    rw [hspace, Text.trimEndChars_append _ htext, joinPieces_of_ne_nil hfull (Text.trimEndChars_ne_nil htext),
      List.append_assoc, List.singleton_append]
  · have hblank : ∀ c ∈ ' ' :: right, isBlank c = true := by
      rw [List.forall_mem_cons]
      exact ⟨by decide, by simpa using htext⟩
    have hnone : trimEndChars right = [] := Text.trimEndChars_of_blanks [] (List.forall_mem_cons.mp hblank).2
    rw [Text.trimEndChars_of_blanks left hblank, Text.trimEndChars_of_last hleft, hnone, joinPieces_nil]

/-- The content of a line is that of its two pieces at a space, put together. -/
theorem lineContent_append {left right : List Char} (hleft : ∃ c ∈ left.getLast?, isBlank c = false)
    (hright : right ≠ []) :
    lineContent (left ++ ' ' :: right) = (joinPieces left (lineContent right).1, (lineContent right).2) := by
  have hfull : left ≠ [] := by
    rintro rfl
    obtain ⟨c, hc, -⟩ := hleft
    cases hc
  obtain ⟨front, d, rfl⟩ := (List.eq_nil_or_concat right).resolve_left hright
  have hline : left ++ ' ' :: (front ++ [d]) = (left ++ ' ' :: front) ++ [d] := by simp
  rw [List.concat_eq_append]
  by_cases hd : d = '\\'
  · rw [hline, hd, lineContent_backslash, lineContent_backslash, trimEndChars_join hleft]
  · have hlast : ∀ cs : List Char, (cs ++ [d]).getLast? ≠ some '\\' := fun cs => by simpa using hd
    rw [lineContent_of_ne (hlast front), lineContent_of_ne (hline ▸ hlast _), joinPieces_of_ne_nil hfull (by simp)]

/-! ## §2 Groups -/

/-- The number of a line behind which a further line comes in: the lines up to `line` keep their numbers, and those
    behind it move by one. -/
def pushedBehind (line n : Nat) : Nat :=
  if n ≤ line then n else n + 1

/-- Groups under the numbers that they have when a line comes in behind `line`. -/
def pushGroups (line : Nat) (groups : List (Nat × List Char)) : List (Nat × List Char) :=
  groups.map (Prod.map (pushedBehind line) id)

theorem pushedBehind_of_le {line n : Nat} (h : n ≤ line) : pushedBehind line n = n :=
  if_pos h

theorem pushedBehind_of_lt {line n : Nat} (h : line < n) : pushedBehind line n = n + 1 :=
  if_neg (Nat.not_le.mpr h)

/-- Lines behind the one that comes in have greater numbers by one. -/
theorem groupLines_succ {line number : Nat} (h : line < number) (pending : Option (Nat × List Char))
    (lines : List (List Char)) :
    groupLines (number + 1) (pending.map (Prod.map (pushedBehind line) id)) lines
      = pushGroups line (groupLines number pending lines) := by
  induction lines generalizing number pending with
  | nil => cases pending <;> rfl
  | cons raw rest ih =>
    have hnext : line < number + 1 := Nat.lt_succ_of_lt h
    have hnone : (pending.map (Prod.map (pushedBehind line) id)).isNone = pending.isNone := by cases pending <;> rfl
    cases hread : pending.isNone && isSkippedLine (trimChars raw) with
    | true =>
      rw [groupLines_skipped (hnone ▸ hread), groupLines_skipped hread]
      exact ih hnext none
    | false =>
      have hstart : (pending.map (Prod.map (pushedBehind line) id)).getD (number + 1, [])
          = Prod.map (pushedBehind line) id (pending.getD (number, [])) := by
        cases pending with
        | none => exact Prod.ext (pushedBehind_of_lt h).symm rfl
        | some p => rfl
      obtain ⟨content, continued, hcontent⟩ : ∃ content continued, lineContent (trimChars raw) = (content, continued) :=
        ⟨_, _, rfl⟩
      rw [groupLines_read (hnone ▸ hread) hcontent, groupLines_read hread hcontent, hstart]
      cases continued with
      | true =>
        rw [if_pos rfl, if_pos rfl]
        exact ih hnext (some ((pending.getD (number, [])).1, joinPieces (pending.getD (number, [])).2 content))
      | false =>
        rw [if_neg Bool.false_ne_true, if_neg Bool.false_ne_true]
        exact congrArg (_ :: ·) (ih hnext none)

/-- A line that is read as two: `left`, a space and a backslash, and `right` behind that, up to blanks at the ends. -/
structure SplitsInto (line first second left right : List Char) : Prop where
  last : ∃ c ∈ left.getLast?, isBlank c = false
  full : right ≠ []
  whole : trimChars line = left ++ ' ' :: right
  first : trimChars first = left ++ [' ', '\\']
  second : trimChars second = right

section Break

variable {line first second left right : List Char} (h : SplitsInto line first second left right)
include h

/-- The two pieces of a line go to the group that the line goes to. -/
theorem groupLines_broken {number : Nat} {pending : Option (Nat × List Char)} (hpending : ∀ p ∈ pending, p.1 ≤ number)
    (hread : pending.isSome = true ∨ left.head? ≠ some '#') (lines : List (List Char)) :
    groupLines number pending (first :: second :: lines)
      = pushGroups number (groupLines number pending (line :: lines)) := by
  obtain ⟨hlast, hright, hline, hfirst, hsecond⟩ := h
  have hskip : ∀ more, (pending.isNone && isSkippedLine (left ++ more)) = false := by
    intro more
    rcases hread with hopen | hhead
    · rw [Option.isSome_iff_exists] at hopen
      obtain ⟨p, rfl⟩ := hopen
      rfl
    · obtain ⟨c, hc, -⟩ := hlast
      cases left with
      | nil => cases hc
      | cons d left => simpa [isSkippedLine] using fun _ => by simpa using hhead
  have hopened : lineContent (trimChars first) = (left, true) := by
    have hspace : left ++ [' ', '\\'] = left ++ [' '] ++ ['\\'] := by simp
    rw [hfirst, hspace, lineContent_backslash, trimEndChars_join hlast]
    exact congrArg (·, true) (joinPieces_nil left)
  have hwhole := lineContent_append hlast hright
  rw [← hline] at hwhole
  obtain ⟨content, continued, hcontent⟩ : ∃ content continued, lineContent right = (content, continued) := ⟨_, _, rfl⟩
  -- Both go to the line that starts at `start`, and the pieces may be put together in any order.
  have hstart := pushedBehind_of_le (start_le hpending)
  generalize hp : pending.getD (number, []) = p at hstart
  obtain ⟨start, before⟩ := p
  rw [groupLines_read (hfirst ▸ hskip _) hopened, if_pos rfl, groupLines_read rfl (hsecond ▸ hcontent),
    groupLines_read (hline ▸ hskip _) hwhole, hp, hcontent, Option.getD_some, joinPieces_assoc]
  have hnext := groupLines_succ (Nat.lt_succ_self number)
  cases continued with
  | true =>
    rw [if_pos rfl, if_pos rfl, ← hnext, Option.map_some, Prod.map_apply, hstart]
    rfl
  | false =>
    rw [if_neg Bool.false_ne_true, if_neg Bool.false_ne_true, pushGroups, List.map_cons, Prod.map_apply, hstart]
    exact congrArg (_ :: ·) (hnext none lines)

/-- The same behind further lines. -/
theorem groupLines_append_broken {number : Nat} {pending : Option (Nat × List Char)} (front : List (List Char))
    (hpending : ∀ p ∈ pending, p.1 ≤ number) (hread : leavesOpen pending.isSome front = true ∨ left.head? ≠ some '#')
    (lines : List (List Char)) :
    groupLines number pending (front ++ first :: second :: lines)
      = pushGroups (number + front.length) (groupLines number pending (front ++ line :: lines)) := by
  induction front generalizing number pending with
  | nil => exact groupLines_broken h hpending hread lines
  | cons raw rest ih =>
    have hnumber : number + (raw :: rest).length = number + 1 + rest.length := by
      rw [List.length_cons]
      omega
    have hnone : ∀ p ∈ (none : Option (Nat × List Char)), p.1 ≤ number + 1 := fun p hp => by cases hp
    have hstart := start_le hpending
    rw [List.cons_append, List.cons_append, hnumber]
    cases hskip : pending.isNone && isSkippedLine (trimChars raw) with
    | true =>
      rw [leavesOpen_skipped hskip] at hread
      rw [groupLines_skipped hskip, groupLines_skipped hskip]
      exact ih hnone hread
    | false =>
      obtain ⟨content, continued, hcontent⟩ : ∃ content continued, lineContent (trimChars raw) = (content, continued) :=
        ⟨_, _, rfl⟩
      rw [leavesOpen_read hskip hcontent] at hread
      rw [groupLines_read hskip hcontent, groupLines_read hskip hcontent]
      cases continued with
      | true =>
        rw [if_pos rfl, if_pos rfl]
        refine ih (fun p hp => ?_) hread
        cases hp
        exact Nat.le_succ_of_le hstart
      | false =>
        rw [if_neg Bool.false_ne_true, if_neg Bool.false_ne_true, ih hnone hread, pushGroups, pushGroups, List.map_cons,
          Prod.map_apply, pushedBehind_of_le (by omega)]
        rfl

end Break

/-! ## §3 Broken texts -/

/-- A text, and the text with its line `number` broken at a space. The line has `left` in front of the space, and it is
    neither blank nor a comment: it continues a line, or it does not start with a number sign. -/
inductive Broken (number : Nat) : String → String → Prop
  | mk {front left rest ending indent : String} (hfront : Text.closed front.toList = front.toList)
    (hnumber : number = (Text.lineChars front.toList).length + 1) (hline : '\n' ∉ left.toList)
    (hleft : ∃ c ∈ left.toList.getLast?, isBlank c = false) (hrest : ∃ c ∈ rest.toList.head?, isBlank c = false)
    (hread : endsOpen front = true ∨ (Text.trim left).toList.head? ≠ some '#')
    (hending : ending = "\n" ∨ ending = "\r\n") (hindent : ∀ c ∈ indent.toList, isBlank c = true ∧ c ≠ '\n') :
    Broken number (front ++ left ++ " " ++ rest) (front ++ left ++ " \\" ++ ending ++ indent ++ rest)

/-- A text, and the text with lines broken any number of times: the line `n` becomes the line `f n`. -/
inductive Continued (text : String) : (Nat → Nat) → String → Prop
  | refl : Continued text id text
  | step {f : Nat → Nat} {mid text' : String} {number : Nat} (h : Continued text f mid)
    (hbroken : Broken number mid text') : Continued text (pushedBehind number ∘ f) text'

/-- Two words with a space between them, broken there, with `marks` for the backslash and what else the line ends in. -/
theorem splitsInto_words {left right marks indent : List Char} (hleft : ∃ c ∈ left.getLast?, isBlank c = false)
    (hright : ∃ c ∈ right.head?, isBlank c = false) (hmarks : marks = [' ', '\\'] ∨ marks = [' ', '\\', '\r'])
    (hindent : ∀ c ∈ indent, isBlank c = true) :
    SplitsInto (left ++ ' ' :: right) (left ++ marks) (indent ++ right) (trimStartChars left) (trimEndChars right) := by
  have hword : ∃ c ∈ left, isBlank c = false := by
    obtain ⟨c, hc, hblank⟩ := hleft
    exact ⟨c, List.mem_of_getLast? hc, hblank⟩
  have hword' : ∃ c ∈ right, isBlank c = false := by
    obtain ⟨c, hc, hblank⟩ := hright
    exact ⟨c, List.mem_of_head? hc, hblank⟩
  refine ⟨?_, Text.trimEndChars_ne_nil hword', ?_, ?_, ?_⟩
  · obtain ⟨c, hc, hblank⟩ := hleft
    obtain ⟨start, rfl⟩ := List.getLast?_eq_some_iff.mp hc
    exact ⟨c, by rw [Text.trimStartChars_concat hblank, List.getLast?_concat]; rfl, hblank⟩
  · obtain ⟨c, hc, hblank⟩ := hword'
    rw [Text.trimChars_append hword ⟨c, List.mem_cons_of_mem _ hc, hblank⟩]
    exact congrArg (_ ++ ·) (Text.trimEndChars_append [' '] ⟨c, hc, hblank⟩)
  · have hbackslash : (∃ c ∈ marks, isBlank c = false) ∧ trimEndChars marks = [' ', '\\'] := by
      rcases hmarks with rfl | rfl
      · exact ⟨⟨'\\', by decide, by decide⟩, by decide⟩
      · exact ⟨⟨'\\', by decide, by decide⟩, by decide⟩
    rw [Text.trimChars_append hword hbackslash.1, hbackslash.2]
  · rw [trimChars, Text.trimStartChars_of_blanks hindent, Text.trimStartChars_of_head hright]

/-- The lines of a text that is broken, up to blanks at their ends: one line becomes two. -/
theorem Broken.exists_lines {number : Nat} {text text' : String} (h : Broken number text text') :
    ∃ front line first second left right lines, SplitsInto line first second left right
      ∧ (Text.lineChars text.toList).map trimChars = (front ++ line :: lines).map trimChars
      ∧ (Text.lineChars text'.toList).map trimChars = (front ++ first :: second :: lines).map trimChars
      ∧ number = 1 + front.length ∧ (leavesOpen false front = true ∨ left.head? ≠ some '#') := by
  obtain ⟨hfront, hnumber, hline, hleft, hrest, hread, hending, hindent⟩ := h
  rename_i front left rest ending indent
  have hlead : ∀ more, (Text.lineChars (front.toList ++ more)).map trimChars
      = (Text.lineChars front.toList).map trimChars ++ (Text.lineChars more).map trimChars := by
    intro more
    rw [← Text.map_trimChars_lineChars_closed, hfront]
  -- The rest of the line, and the lines behind it.
  obtain ⟨right, lines, hlines, hfeed, hright⟩ : ∃ right lines, Text.lineChars rest.toList = right :: lines
      ∧ rest.toList.head? ≠ some '\n' ∧ ∃ c ∈ right.head?, isBlank c = false := by
    obtain ⟨c, hc, hblank⟩ := hrest
    cases hchars : rest.toList with
    | nil =>
      rw [hchars] at hc
      cases hc
    | cons d tail =>
      rw [hchars] at hc
      obtain rfl : d = c := Option.some.inj hc
      have hfeed : d ≠ '\n' := by
        rintro rfl
        cases hblank
      have hreturn : d ≠ '\r' := by
        rintro rfl
        cases hblank
      obtain ⟨right, lines, hlines⟩ := Text.exists_lineChars hfeed hreturn tail
      exact ⟨_, lines, hlines, by simpa using hfeed, d, rfl, hblank⟩
  -- The first piece ends in a backslash, and maybe in a carriage return that belongs to the end of the line.
  obtain ⟨marks, hmarks, hforms⟩ : ∃ marks, " \\".toList ++ ending.toList = marks ++ ['\n']
      ∧ (marks = [' ', '\\'] ∨ marks = [' ', '\\', '\r']) := by
    rcases hending with rfl | rfl
    · exact ⟨[' ', '\\'], by decide, .inl rfl⟩
    · exact ⟨[' ', '\\', '\r'], by decide, .inr rfl⟩
  have hsplits := splitsInto_words hleft hright hforms fun c hc => (hindent c hc).1
  refine ⟨Text.lineChars front.toList, _, _, _, _, _, lines, hsplits, ?_, ?_, ?_, ?_⟩
  · have hspaced : '\n' ∉ left.toList ++ [' '] := by simpa using hline
    have htext : (front ++ left ++ " " ++ rest).toList = front.toList ++ (left.toList ++ [' '] ++ rest.toList) := by
      simp
    rw [htext, hlead, Text.lineChars_append_of_notMem hspaced hfeed hlines, List.map_append, List.append_assoc,
      List.singleton_append]
  · have htext : (front ++ left ++ " \\" ++ ending ++ indent ++ rest).toList
        = front.toList ++ (left.toList ++ ((" \\".toList ++ ending.toList) ++ (indent.toList ++ rest.toList))) := by
      simp
    have hpiece : '\n' ∉ left.toList ++ marks := by
      rw [List.mem_append, not_or]
      exact ⟨hline, by rcases hforms with rfl | rfl <;> decide⟩
    have hindented : Text.lineChars (indent.toList ++ rest.toList) = (indent.toList ++ right) :: lines :=
      Text.lineChars_append_of_notMem (fun hmem => (hindent _ hmem).2 rfl) hfeed hlines
    rw [htext, hmarks, List.append_assoc, List.singleton_append, hlead, ← List.append_assoc, Text.lineChars_append,
      Text.piecesAt_of_notMem hpiece, hindented, List.map_append, List.map_append, List.map_singleton,
      List.map_singleton, Text.trimChars_withoutReturn]
    rfl
  · rw [hnumber, Nat.add_comm]
  · refine hread.imp_right fun hhead => ?_
    rwa [Text.toList_trim, trimChars, Text.trimEndChars_of_last hsplits.last] at hhead

/-- The logical lines of a text that is broken are the same, and those behind the break have greater numbers. -/
theorem Broken.logicalLines_eq {number : Nat} {text text' : String} (h : Broken number text text') (file : String) :
    logicalLines file text' = (logicalLines file text).map (LogicalLine.renumber file (pushedBehind number)) := by
  obtain ⟨front, line, first, second, left, right, lines, hsplits, htext, htext', rfl, hread⟩ := h.exists_lines
  have hnone : ∀ p ∈ (none : Option (Nat × List Char)), p.1 ≤ 1 := fun p hp => by cases hp
  have hgroups := groupLines_append_broken hsplits front hnone hread lines
  rw [← groupLines_map_trimChars, ← htext', ← groupLines_map_trimChars 1 none (front ++ line :: lines), ← htext,
    groupLines_map_trimChars, groupLines_map_trimChars] at hgroups
  unfold logicalLines
  rw [hgroups, pushGroups, List.filter_map, List.map_map, List.map_map]
  refine List.map_congr_left fun group _ => ?_
  exact congrArg (LogicalLine.mk · _) (if_pos rfl).symm

/-! ## §4 Documents -/

namespace Document

/-- Line continuation is transparent: a text is accepted with its lines broken iff it is accepted as it is, and its
    document is the same but for the numbers of the lines behind the breaks. -/
theorem parseText_continued {files : SourceFiles} {scope : Scope} {origin text text' : String} {f : Nat → Nat}
    (h : Continued text f text') :
    (parseText files scope origin text').toOption
      = (parseText files scope origin text).toOption.map (Document.renumber origin f) := by
  induction h with
  | refl =>
    have hid : Document.renumber origin id = id := funext Document.renumber_id
    rw [hid, Option.map_id_fun, id_eq]
  | step h hbroken ih =>
    rw [parseText_renumber (hbroken.logicalLines_eq origin), ih, Option.map_map]
    exact Option.map_congr fun d _ => d.renumber_renumber

end Document

/-! A graph with a type and a title, and the same with both lines broken. The second piece of the title starts with a
number sign. -/

def titledGraph (titleLine : Nat) : Document :=
  ⟨[⟨.graph, ⟨"plan", 1⟩, [⟨"xtype", "linear", ⟨"plan", 2⟩⟩, ⟨"title", "a #b", ⟨"plan", titleLine⟩⟩]⟩]⟩

theorem parseText_titledGraph :
    Document.parseText noFiles (.new ∅ ∅) "plan" "[graph]\nxtype: linear\ntitle: a #b\n" = .ok (titledGraph 3) := by
  have hlines : logicalLines "plan" "[graph]\nxtype: linear\ntitle: a #b\n"
      = [⟨⟨"plan", 1⟩, "[graph]"⟩, ⟨⟨"plan", 2⟩, "xtype: linear"⟩, ⟨⟨"plan", 3⟩, "title: a #b"⟩] := by cbv
  have hload : loadText noFiles (.new ∅ ∅) "plan" "[graph]\nxtype: linear\ntitle: a #b\n"
      = .ok [⟨⟨"plan", 1⟩, "[graph]"⟩, ⟨⟨"plan", 2⟩, "xtype: linear"⟩, ⟨⟨"plan", 3⟩, "title: a #b"⟩] := by
    rw [loadText, hlines]
    exact expandLines_of_no_include (by decide)
  have hname : headerName? "[graph]" = some "graph" := by cbv
  have hreads : Document.Reads none
      [⟨⟨"plan", 1⟩, "[graph]"⟩, ⟨⟨"plan", 2⟩, "xtype: linear"⟩, ⟨⟨"plan", 3⟩, "title: a #b"⟩]
      (titledGraph 3).sections :=
    .header hname (by decide) (.item (by cbv) (by cbv) (by cbv) (.item (by cbv) (by cbv) (by cbv) .nil))
  rw [Document.parseText, hload]
  exact map_eq_ok.2 ⟨_, Document.parseLines_eq_ok.2 hreads, rfl⟩

theorem continued_titledGraph :
    Continued "[graph]\nxtype: linear\ntitle: a #b\n" (pushedBehind 4 ∘ pushedBehind 2 ∘ id)
        "[graph]\nxtype: \\\n  linear\ntitle: a \\\r\n#b\n"
      ∧ (Document.parseText noFiles (.new ∅ ∅) "plan" "[graph]\nxtype: \\\n  linear\ntitle: a \\\r\n#b\n").toOption
        = some (titledGraph 4) := by
  have hfirst : Broken 2 "[graph]\nxtype: linear\ntitle: a #b\n" "[graph]\nxtype: \\\n  linear\ntitle: a #b\n" := by
    have hbefore : "[graph]\nxtype: linear\ntitle: a #b\n"
        = "[graph]\n" ++ "xtype:" ++ " " ++ "linear\ntitle: a #b\n" := by decide
    have hafter : "[graph]\nxtype: \\\n  linear\ntitle: a #b\n"
        = "[graph]\n" ++ "xtype:" ++ " \\" ++ "\n" ++ "  " ++ "linear\ntitle: a #b\n" := by decide
    have hindent : ∀ c ∈ "  ".toList, isBlank c = true ∧ c ≠ '\n' := by
      intro c hc
      obtain rfl : c = ' ' := by simpa using hc
      decide
    rw [hbefore, hafter]
    exact .mk (by decide) (by decide) (by decide) ⟨':', by decide, by decide⟩ ⟨'l', by decide, by decide⟩ (by decide)
      (by decide) hindent
  have hsecond : Broken 4 "[graph]\nxtype: \\\n  linear\ntitle: a #b\n"
      "[graph]\nxtype: \\\n  linear\ntitle: a \\\r\n#b\n" := by
    have hbefore : "[graph]\nxtype: \\\n  linear\ntitle: a #b\n"
        = "[graph]\nxtype: \\\n  linear\n" ++ "title: a" ++ " " ++ "#b\n" := by decide
    have hafter : "[graph]\nxtype: \\\n  linear\ntitle: a \\\r\n#b\n"
        = "[graph]\nxtype: \\\n  linear\n" ++ "title: a" ++ " \\" ++ "\r\n" ++ "" ++ "#b\n" := by decide
    rw [hbefore, hafter]
    exact .mk (by decide) (by decide) (by decide) ⟨'a', by decide, by decide⟩ ⟨'#', by decide, by decide⟩ (by decide)
      (by decide) (by simp)
  have hcontinued := Continued.step (.step .refl hfirst) hsecond
  refine ⟨hcontinued, ?_⟩
  rw [Document.parseText_continued hcontinued, parseText_titledGraph]
  rfl

end BenchPlot
