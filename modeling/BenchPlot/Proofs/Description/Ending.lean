import BenchPlot.Proofs.Description.Reading
import BenchPlot.Proofs.Text.Lines
import Mathlib

/-!
# What follows the end of a document

The logical lines of a text and of what stands behind it are those of both, unless the last line of the text is
continued. A document stops at the header `[end]`, so the sections of the text are the sections of the
whole; the include directives behind the header are followed nonetheless, before the sections are read.

Main statement: `Document.parseText_endedBy`.
-/

namespace BenchPlot

/-! ## §1 Logical lines of two texts -/

/-- The logical lines of the text of a file whose first line has the number `number`. -/
def logicalLinesFrom (number : Nat) (file text : String) : List LogicalLine :=
  ((groupLines number none (Text.lineChars text.toList)).filter fun l => !l.2.isEmpty).map
    fun l => ⟨⟨file, l.1⟩, String.ofList l.2⟩

/-- Whether a text ends with a line that the next one would continue. -/
def endsOpen (text : String) : Bool :=
  leavesOpen false (Text.lineChars text.toList)

/-- Only a text whose last line ends in a backslash ends with a line that the next one would continue. -/
theorem continued_of_endsOpen {text : String} (h : endsOpen text = true) :
    ∃ line, (Text.lineChars text.toList).getLast? = some line ∧ (lineContent (Text.trimChars line)).2 = true := by
  unfold endsOpen at h
  cases hlast : (Text.lineChars text.toList).getLast? with
  | none =>
    rw [List.getLast?_eq_none_iff.mp hlast] at h
    cases h
  | some line =>
    obtain ⟨front, hlines⟩ := List.getLast?_eq_some_iff.mp hlast
    rw [hlines] at h
    exact ⟨line, rfl, continued_of_leavesOpen h⟩

/-- A text with a line `[end]` behind its lines, and the text `rest` behind that. -/
def endedBy (text rest : String) : String :=
  String.ofList (Text.closed text.toList ++ "[end]\n".toList ++ rest.toList)

/-- The number of the first line of `rest`. -/
def lineBehind (text : String) : Nat :=
  (Text.lineChars text.toList).length + 2

theorem logicalLines_endedBy (file : String) {text : String} (h : endsOpen text = false) (rest : String) :
    logicalLines file (endedBy text rest) = logicalLines file text
      ++ ⟨⟨file, lineBehind text - 1⟩, "[end]"⟩ :: logicalLinesFrom (lineBehind text) file rest := by
  have hlines : groupLines 1 none (Text.lineChars (endedBy text rest).toList)
      = groupLines 1 none (Text.lineChars text.toList)
        ++ (lineBehind text - 1, "[end]".toList)
          :: groupLines (lineBehind text) none (Text.lineChars rest.toList) := by
    have htail : Text.lineChars ("[end]\n".toList ++ rest.toList) = "[end]".toList :: Text.lineChars rest.toList :=
      Text.lineChars_append "[end]".toList rest.toList
    have hopen : leavesOpen (none : Option (Nat × List Char)).isSome
        ((Text.lineChars text.toList).map Text.trimChars) = false := (leavesOpen_map_trimChars false _).trans h
    have hnumber : lineBehind text - 1 = 1 + (Text.lineChars text.toList).length := by
      rw [lineBehind]
      omega
    rw [endedBy, String.toList_ofList, List.append_assoc, ← groupLines_map_trimChars,
      Text.map_trimChars_lineChars_closed, groupLines_append hopen, groupLines_map_trimChars,
      groupLines_map_trimChars, htail, List.length_map, ← hnumber]
    rfl
  rw [logicalLines, hlines, List.filter_append, List.map_append]
  rfl

/-! ## §2 Documents that end -/

namespace Document

/-- Nothing behind the end of a document changes its sections. -/
theorem parseLines_append_end {current : Option Section} {lines : List LogicalLine} {sections : List Section}
    (h : parseLines current lines = .ok sections) (location : Location) (more : List LogicalLine) :
    parseLines current (lines ++ ⟨location, "[end]"⟩ :: more) = .ok sections := by
  rw [parseLines_eq_ok] at h ⊢
  have hname : headerName? "[end]" = some "end" := by cbv
  induction h with
  | nil => exact .stop hname
  | stop hname => exact .stop hname
  | header hname hkind _ ih => exact .header hname hkind ih
  | item hline hitem hadmitted _ ih => exact .item hline hitem hadmitted ih

/-- Nothing behind a line `[end]` changes the document of a text; but the include directives there are followed, and
    the whole is refused if one of them fails. Without such directives the document is that of the text. -/
theorem parseText_endedBy {files : SourceFiles} {scope : Scope} {origin text : String} {d : Document}
    (h : parseText files scope origin text = .ok d) (hopen : endsOpen text = false) (rest : String) :
    parseText files scope origin (endedBy text rest)
        = (expandLines scope (expandFile files scope (maxIncludeDepth - 1) [files.identity origin])
            (logicalLinesFrom (lineBehind text) origin rest)).map (fun _ => d)
      ∧ ((∀ line ∈ logicalLinesFrom (lineBehind text) origin rest, isInclude line.text = false) →
        parseText files scope origin (endedBy text rest) = .ok d) := by
  have hwhole : parseText files scope origin (endedBy text rest)
      = (expandLines scope (expandFile files scope (maxIncludeDepth - 1) [files.identity origin])
          (logicalLinesFrom (lineBehind text) origin rest)).map fun _ => d := by
    unfold parseText at h ⊢
    cases hload : loadText files scope origin text with
    | error e =>
      rw [hload] at h
      cases h
    | ok lines =>
      rw [hload] at h
      obtain ⟨sections, hsections, rfl⟩ := map_eq_ok.1 h
      -- All lines are expanded before one of them is read, so a failure behind the end is one of the whole.
      have hend : isInclude "[end]" = false := by decide
      unfold loadText at hload ⊢
      rw [logicalLines_endedBy origin hopen, expandLines_append, hload, expandLines_cons hend]
      cases expandLines scope (expandFile files scope (maxIncludeDepth - 1) [files.identity origin])
          (logicalLinesFrom (lineBehind text) origin rest) with
      | error e => rfl
      | ok tail => exact map_eq_ok.2 ⟨sections, parseLines_append_end hsections .., rfl⟩
  refine ⟨hwhole, fun hnone => ?_⟩
  rw [hwhole, expandLines_of_no_include hnone]
  rfl

end Document

/-! A graph with a type, and the same with a line behind its end. -/

def typedGraph : Document :=
  ⟨[⟨.graph, ⟨"plan", 1⟩, [⟨"xtype", "linear", ⟨"plan", 2⟩⟩]⟩]⟩

/-- No files at all. -/
def noFiles : SourceFiles :=
  ⟨fun _ => .error .missing, id⟩

theorem parseText_typedGraph :
    Document.parseText noFiles (.new ∅ ∅) "plan" "[graph]\nxtype: linear\n" = .ok typedGraph := by
  have hlines : logicalLines "plan" "[graph]\nxtype: linear\n"
      = [⟨⟨"plan", 1⟩, "[graph]"⟩, ⟨⟨"plan", 2⟩, "xtype: linear"⟩] := by cbv
  have hload : loadText noFiles (.new ∅ ∅) "plan" "[graph]\nxtype: linear\n"
      = .ok [⟨⟨"plan", 1⟩, "[graph]"⟩, ⟨⟨"plan", 2⟩, "xtype: linear"⟩] := by
    rw [loadText, hlines]
    exact expandLines_of_no_include (by decide)
  have hname : headerName? "[graph]" = some "graph" := by cbv
  have hreads : Document.Reads none [⟨⟨"plan", 1⟩, "[graph]"⟩, ⟨⟨"plan", 2⟩, "xtype: linear"⟩] typedGraph.sections :=
    .header hname (by decide) (.item (by cbv) (by cbv) (by cbv) .nil)
  rw [Document.parseText, hload]
  exact map_eq_ok.2 ⟨_, Document.parseLines_eq_ok.2 hreads, rfl⟩

theorem endedBy_sample :
    Document.parseText noFiles (.new ∅ ∅) "plan" "[graph]\nxtype: linear\n" = .ok typedGraph
      ∧ endsOpen "[graph]\nxtype: linear\n" = false
      ∧ endedBy "[graph]\nxtype: linear\n" "this is not read\n" = "[graph]\nxtype: linear\n[end]\nthis is not read\n"
      ∧ (∀ line ∈ logicalLinesFrom (lineBehind "[graph]\nxtype: linear\n") "plan" "this is not read\n",
        isInclude line.text = false)
      ∧ Document.parseText noFiles (.new ∅ ∅) "plan" (endedBy "[graph]\nxtype: linear\n" "this is not read\n")
        = .ok typedGraph := by
  have hopen : endsOpen "[graph]\nxtype: linear\n" = false := by decide
  have hlines : logicalLinesFrom (lineBehind "[graph]\nxtype: linear\n") "plan" "this is not read\n"
      = [⟨⟨"plan", 4⟩, "this is not read"⟩] := by cbv
  have hnone : ∀ line ∈ logicalLinesFrom (lineBehind "[graph]\nxtype: linear\n") "plan" "this is not read\n",
      isInclude line.text = false := by
    rw [hlines]
    decide
  exact ⟨parseText_typedGraph, hopen, by decide, hnone,
    (Document.parseText_endedBy parseText_typedGraph hopen _).2 hnone⟩

/-- A malformed include directive behind the end is refused. -/
theorem includeBehindEnd_sample :
    Document.parseText noFiles (.new ∅ ∅) "plan" "[graph]\nxtype: linear\n" = .ok typedGraph
      ∧ endsOpen "[graph]\nxtype: linear\n" = false
      ∧ endedBy "[graph]\nxtype: linear\n" "include notes\n" = "[graph]\nxtype: linear\n[end]\ninclude notes\n"
      ∧ Document.parseText noFiles (.new ∅ ∅) "plan" "[graph]\nxtype: linear\n[end]\ninclude notes\n"
        = .error ⟨⟨"plan", 4⟩, .malformedInclude⟩ := by
  have hlines : logicalLines "plan" "[graph]\nxtype: linear\n[end]\ninclude notes\n"
      = [⟨⟨"plan", 1⟩, "[graph]"⟩, ⟨⟨"plan", 2⟩, "xtype: linear"⟩, ⟨⟨"plan", 3⟩, "[end]"⟩,
        ⟨⟨"plan", 4⟩, "include notes"⟩] := by cbv
  have hload : loadText noFiles (.new ∅ ∅) "plan" "[graph]\nxtype: linear\n[end]\ninclude notes\n"
      = .error ⟨⟨"plan", 4⟩, .malformedInclude⟩ := by
    rw [loadText, hlines, expandLines_cons (by decide), expandLines_cons (by decide), expandLines_cons (by decide)]
    have htarget : includeTarget (.new ∅ ∅) ⟨⟨"plan", 4⟩, "include notes"⟩ = .error .malformedInclude := by cbv
    have hinclude : isInclude "include notes" = true := by decide
    rw [expandLines, List.mapM_cons, expandLine, if_pos hinclude, htarget]
    rfl
  refine ⟨parseText_typedGraph, by decide, by decide, ?_⟩
  rw [Document.parseText, hload]

end BenchPlot
