import BenchPlot.Description.Source

/-!
# Logical lines and their expansion

Lines are grouped one by one: the first line of a group gives it its number, so the groups are numbered in the order
of the lines, and lines of which the last is not continued are grouped by themselves. A logical line that is no
include directive stands for itself.

Main statements: `groupLines_append`, `pairwise_logicalLines` and `expandLines_of_no_include`.
-/

namespace BenchPlot

/-! ## §1 Groups of lines -/

/-- Whether a line behind the given ones would continue the last of them; `opened` says it of the line in front. -/
def leavesOpen (opened : Bool) : List (List Char) → Bool
  | [] => opened
  | raw :: rest =>
    let line := Text.trimChars raw
    leavesOpen (if !opened && isSkippedLine line then false else (lineContent line).2) rest

theorem continued_of_leavesOpen {opened : Bool} {lines : List (List Char)} {last : List Char}
    (h : leavesOpen opened (lines ++ [last]) = true) : (lineContent (Text.trimChars last)).2 = true := by
  induction lines generalizing opened with
  | nil =>
    rw [List.nil_append, leavesOpen, leavesOpen] at h
    split at h
    · cases h
    · exact h
  | cons raw rest ih => exact ih h

theorem leavesOpen_map_trimChars (opened : Bool) (lines : List (List Char)) :
    leavesOpen opened (lines.map Text.trimChars) = leavesOpen opened lines := by
  induction lines generalizing opened with
  | nil => rfl
  | cons raw rest ih => rw [List.map_cons, leavesOpen, leavesOpen, Text.trimChars_trimChars, ih]

theorem groupLines_map_trimChars (number : Nat) (pending : Option (Nat × List Char)) (lines : List (List Char)) :
    groupLines number pending (lines.map Text.trimChars) = groupLines number pending lines := by
  induction lines generalizing number pending with
  | nil => rfl
  | cons raw rest ih => simp only [List.map_cons, groupLines, Text.trimChars_trimChars, ih]

section Step

variable {number : Nat} {pending : Option (Nat × List Char)} {raw content : List Char} {continued : Bool}

/-- A line that stands for nothing is left out. -/
theorem groupLines_skipped (hskip : (pending.isNone && isSkippedLine (Text.trimChars raw)) = true)
    (rest : List (List Char)) : groupLines number pending (raw :: rest) = groupLines (number + 1) none rest := by
  rw [groupLines]
  dsimp only
  rw [hskip, if_pos rfl]

/-- A line that is read goes to the line that it continues, or starts one. -/
theorem groupLines_read (hread : (pending.isNone && isSkippedLine (Text.trimChars raw)) = false)
    (hcontent : lineContent (Text.trimChars raw) = (content, continued)) (rest : List (List Char)) :
    groupLines number pending (raw :: rest)
      = if continued then
          groupLines (number + 1)
            (some ((pending.getD (number, [])).1, joinPieces (pending.getD (number, [])).2 content)) rest
        else ((pending.getD (number, [])).1, joinPieces (pending.getD (number, [])).2 content)
          :: groupLines (number + 1) none rest := by
  rw [groupLines]
  dsimp only
  rw [hread, if_neg Bool.false_ne_true, hcontent]

theorem leavesOpen_skipped (hskip : (pending.isNone && isSkippedLine (Text.trimChars raw)) = true)
    (rest : List (List Char)) : leavesOpen pending.isSome (raw :: rest) = leavesOpen false rest := by
  have hopen : (!pending.isSome) = pending.isNone := by cases pending <;> rfl
  rw [leavesOpen, hopen, hskip, if_pos rfl]

theorem leavesOpen_read (hread : (pending.isNone && isSkippedLine (Text.trimChars raw)) = false)
    (hcontent : lineContent (Text.trimChars raw) = (content, continued)) (rest : List (List Char)) :
    leavesOpen pending.isSome (raw :: rest) = leavesOpen continued rest := by
  have hopen : (!pending.isSome) = pending.isNone := by cases pending <;> rfl
  rw [leavesOpen, hopen, hread, if_neg Bool.false_ne_true, hcontent]

/-- A line starts where the line does that it continues, or where it stands. -/
theorem start_le (hpending : ∀ p ∈ pending, p.1 ≤ number) : (pending.getD (number, [])).1 ≤ number := by
  cases pending with
  | none => exact Nat.le_refl number
  | some p => exact hpending p rfl

end Step

/-- Lines of which the last is not continued are grouped by themselves. -/
theorem groupLines_append {number : Nat} {pending : Option (Nat × List Char)} {lines : List (List Char)}
    (h : leavesOpen pending.isSome lines = false) (more : List (List Char)) :
    groupLines number pending (lines ++ more)
      = groupLines number pending lines ++ groupLines (number + lines.length) none more := by
  induction lines generalizing number pending with
  | nil =>
    rw [Option.isNone_iff_eq_none.mp (Option.isSome_eq_false_iff.mp h)]
    rfl
  | cons raw rest ih =>
    have hnumber : number + (raw :: rest).length = number + 1 + rest.length := by
      rw [List.length_cons]
      omega
    rw [List.cons_append, hnumber]
    cases hskip : pending.isNone && isSkippedLine (Text.trimChars raw) with
    | true =>
      rw [leavesOpen_skipped hskip] at h
      rw [groupLines_skipped hskip, groupLines_skipped hskip]
      exact ih h
    | false =>
      obtain ⟨content, continued, hcontent⟩ :
          ∃ content continued, lineContent (Text.trimChars raw) = (content, continued) := ⟨_, _, rfl⟩
      rw [leavesOpen_read hskip hcontent] at h
      rw [groupLines_read hskip hcontent, groupLines_read hskip hcontent]
      cases continued with
      | true => exact ih h
      | false => exact congrArg (_ :: ·) (ih h)

/-- Groups are numbered by their first lines, in the order of the lines. -/
theorem pairwise_groupLines {number : Nat} {pending : Option (Nat × List Char)}
    (hpending : ∀ p ∈ pending, p.1 < number) (lines : List (List Char)) :
    (groupLines number pending lines).Pairwise (fun a b => a.1 < b.1)
      ∧ ∀ l ∈ groupLines number pending lines, (pending.getD (number, [])).1 ≤ l.1 := by
  -- The bound carries the induction: the groups of the later lines start behind the pending one.
  induction lines generalizing number pending with
  | nil =>
    cases pending with
    | none => exact ⟨.nil, fun l hl => absurd hl List.not_mem_nil⟩
    | some p =>
      refine ⟨List.pairwise_singleton .., fun l hl => ?_⟩
      rw [List.mem_singleton.mp hl]
      exact Nat.le_refl _
  | cons raw rest ih =>
    have hstart : (pending.getD (number, [])).1 < number + 1 :=
      Nat.lt_succ_of_le (start_le fun p hp => Nat.le_of_lt (hpending p hp))
    have hnone : ∀ p ∈ (none : Option (Nat × List Char)), p.1 < number + 1 := fun p hp => by cases hp
    obtain ⟨hrest, hbehind⟩ := ih hnone
    unfold groupLines
    dsimp only
    split
    · exact ⟨hrest, fun l hl => Nat.le_of_lt (Nat.lt_of_lt_of_le hstart (hbehind l hl))⟩
    · split
      · exact ih fun p hp => by cases hp; exact hstart
      · refine ⟨List.pairwise_cons.mpr ⟨fun l hl => Nat.lt_of_lt_of_le hstart (hbehind l hl), hrest⟩, fun l hl => ?_⟩
        rcases List.mem_cons.mp hl with rfl | hl
        · exact Nat.le_refl _
        · exact Nat.le_of_lt (Nat.lt_of_lt_of_le hstart (hbehind l hl))

/-- The logical lines of a file come in the order of its lines. -/
theorem pairwise_logicalLines (file text : String) :
    (logicalLines file text).Pairwise fun a b => a.location.line < b.location.line := by
  rw [logicalLines, List.pairwise_map]
  exact (pairwise_groupLines (fun p hp => by cases hp) _).1.filter _

/-! ## §2 Expansion -/

theorem expandLines_append (scope : Scope)
    (included : String → Location → Except DescriptionError (List LogicalLine)) (lines more : List LogicalLine) :
    expandLines scope included (lines ++ more) = (do
      let front ← expandLines scope included lines
      (expandLines scope included more).map (front ++ ·)) := by
  unfold expandLines
  rw [List.mapM_append]
  cases lines.mapM (expandLine scope included) with
  | error e => rfl
  | ok front =>
    cases more.mapM (expandLine scope included) with
    | error e => rfl
    | ok back => exact congrArg Except.ok List.flatten_append

/-- A line that is no include directive stands for itself. -/
theorem expandLines_cons {scope : Scope}
    {included : String → Location → Except DescriptionError (List LogicalLine)} {line : LogicalLine}
    (hline : isInclude line.text = false) (more : List LogicalLine) :
    expandLines scope included (line :: more) = (expandLines scope included more).map (line :: ·) := by
  unfold expandLines
  have hself : expandLine scope included line = .ok [line] := if_neg (ne_true_of_eq_false hline)
  rw [List.mapM_cons, hself]
  cases more.mapM (expandLine scope included) <;> rfl

/-- Lines without include directives stand for themselves. -/
theorem expandLines_of_no_include {scope : Scope}
    {included : String → Location → Except DescriptionError (List LogicalLine)} {lines : List LogicalLine}
    (h : ∀ line ∈ lines, isInclude line.text = false) : expandLines scope included lines = .ok lines := by
  induction lines with
  | nil => rfl
  | cons line rest ih =>
    have hrest := ih fun other hother => h other (List.mem_cons_of_mem _ hother)
    rw [expandLines_cons (h line (List.mem_cons_self ..)), hrest]
    rfl

section Loading

variable {files : SourceFiles} {scope : Scope} {file text : String}

/-- A text without include directives is loaded as its own logical lines. -/
theorem loadText_of_no_include (hnone : ∀ line ∈ logicalLines file text, isInclude line.text = false) :
    loadText files scope file text = .ok (logicalLines file text) :=
  expandLines_of_no_include hnone

theorem loadFile_of_no_include (hread : files.read file = .ok text)
    (hnone : ∀ line ∈ logicalLines file text, isInclude line.text = false) :
    loadFile files scope file = .ok (logicalLines file text) := by
  rw [loadFile, maxIncludeDepth, expandFile, hread]
  exact expandLines_of_no_include hnone

end Loading

end BenchPlot
