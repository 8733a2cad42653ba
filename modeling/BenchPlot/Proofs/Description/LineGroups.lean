import BenchPlot.Proofs.Description.Continuation

/-!
# Groups of lines

The lines of a file fall into groups, one for each logical line. A line that is neither blank nor a comment starts a
group, and the group goes on to the first line that is not continued, or to the end of the file; blank lines and
comments are left out between the groups, and are pieces like any others inside one. A logical line has the number of
the first line of its group, and its text is put together of the pieces in the group that are not empty. The loop over
the lines holds a line that it has not finished; what it takes until it lets go of that line is a group.

Main statements: `areGroups_lineGroups`, `groupLines_eq` and `loadText_lineGroups`.
-/

namespace BenchPlot

open Text (trimChars trimStartChars isBlank)

/-! ## §1 Pieces -/

/-- Whether the next line continues a line: the last character that is not blank is a backslash. -/
def isContinued (raw : List Char) : Bool :=
  (trimChars raw).getLast? == some '\\'

/-- What a line gives to its logical line: the line without the backslash that continues it, and without the blanks at
    either end. -/
def linePiece (raw : List Char) : List Char :=
  if isContinued raw then trimChars (trimChars raw).dropLast else trimChars raw

theorem lineContent_trimChars (raw : List Char) : lineContent (trimChars raw) = (linePiece raw, isContinued raw) := by
  cases h : isContinued raw with
  | false =>
    have hlast : (trimChars raw).getLast? ≠ some '\\' := beq_eq_false_iff_ne.mp h
    rw [lineContent_of_ne hlast, linePiece, h, if_neg Bool.false_ne_true]
  | true =>
    obtain ⟨front, hfront⟩ := List.getLast?_eq_some_iff.mp (eq_of_beq h)
    have hback : isBlank '\\' = false := by decide
    -- The line is trimmed, so there are no blanks at the start of what stands in front of the backslash.
    have hstart : trimStartChars front = front := by
      have htrim : trimChars (front ++ ['\\']) = front ++ ['\\'] := by rw [← hfront, Text.trimChars_trimChars]
      rw [trimChars, Text.trimStartChars_concat hback, Text.trimEndChars_of_last ⟨'\\', by simp, hback⟩] at htrim
      exact List.append_cancel_right htrim
    rw [linePiece, h, if_pos rfl, hfront, lineContent_backslash, List.dropLast_concat, trimChars, hstart]

/-- The text of the lines of a group: their pieces with single spaces between them, without the empty ones. -/
def groupText (lines : List (List Char)) : List Char :=
  [' '].intercalate ((lines.map linePiece).filter fun piece => !piece.isEmpty)

theorem nil_joinPieces (a : List Char) : joinPieces [] a = a := by
  simp [joinPieces]

/-- Joining by spaces is putting pieces together one by one, if none of them is empty. -/
theorem intercalate_cons_eq_joinPieces {piece : List Char} (hpiece : piece ≠ []) {pieces : List (List Char)}
    (hpieces : ∀ p ∈ pieces, p ≠ []) :
    [' '].intercalate (piece :: pieces) = joinPieces piece ([' '].intercalate pieces) := by
  cases pieces with
  | nil => rw [List.intercalate_singleton, List.intercalate_nil, joinPieces_nil]
  | cons next rest =>
    have hrest : [' '].intercalate (next :: rest) ≠ [] := by
      have hnext := hpieces next (List.mem_cons_self ..)
      cases rest with
      | nil => rwa [List.intercalate_singleton]
      | cons other rest =>
        rw [List.intercalate_cons_cons, List.append_assoc]
        exact List.append_ne_nil_of_left_ne_nil hnext _
    rw [List.intercalate_cons_cons, List.append_assoc, List.singleton_append, joinPieces_of_ne_nil hpiece hrest]

theorem groupText_cons (raw : List Char) (rest : List (List Char)) :
    groupText (raw :: rest) = joinPieces (linePiece raw) (groupText rest) := by
  unfold groupText
  rw [List.map_cons]
  by_cases hpiece : linePiece raw = []
  · rw [List.filter_cons_of_neg (by simp [hpiece]), hpiece, nil_joinPieces]
  · rw [List.filter_cons_of_pos (by simpa using hpiece)]
    exact intercalate_cons_eq_joinPieces hpiece fun p hp => by simpa using (List.mem_filter.mp hp).2

/-- A group has no text iff all its pieces are empty. -/
theorem isEmpty_groupText (lines : List (List Char)) :
    (groupText lines).isEmpty = lines.all fun raw => (linePiece raw).isEmpty := by
  induction lines with
  | nil => rfl
  | cons raw rest ih =>
    rw [groupText_cons, List.all_cons, ← ih, joinPieces]
    cases linePiece raw <;> cases groupText rest <;> rfl

/-! ## §2 Groups -/

/-- Consecutive lines of a file, and the number of the first of them. -/
@[ext]
structure LineGroup where
  first : Nat
  lines : List (List Char)
  deriving DecidableEq, Repr

/-- Whether the line with the number `n` belongs to a group. -/
def LineGroup.Has (g : LineGroup) (n : Nat) : Prop :=
  g.first ≤ n ∧ n < g.first + g.lines.length

/-- The logical line of a group of lines of a file: there is none if all pieces are empty. -/
def LineGroup.logicalLine? (file : String) (g : LineGroup) : Option LogicalLine :=
  if g.lines.all fun raw => (linePiece raw).isEmpty then none
  else some ⟨⟨file, g.first⟩, String.ofList (groupText g.lines)⟩

/-- The lines up to the first one that is not continued, and the lines behind it. -/
def splitContinued : List (List Char) → List (List Char) × List (List Char)
  | [] => ([], [])
  | raw :: rest =>
    if isContinued raw then (raw :: (splitContinued rest).1, (splitContinued rest).2) else ([raw], rest)

theorem splitContinued_append (lines : List (List Char)) :
    (splitContinued lines).1 ++ (splitContinued lines).2 = lines := by
  fun_induction splitContinued lines with
  | case1 => rfl
  | case2 raw rest _ ih => rw [List.cons_append, ih]
  | case3 raw rest _ => rfl

theorem exists_splitContinued_cons (raw : List Char) (rest : List (List Char)) :
    ∃ body, (splitContinued (raw :: rest)).1 = raw :: body := by
  rw [splitContinued]
  split
  · exact ⟨_, rfl⟩
  · exact ⟨[], rfl⟩

/-- Every line in front of the last one of the split is continued. -/
theorem isContinued_of_mem_dropLast_splitContinued (lines : List (List Char)) :
    ∀ raw ∈ (splitContinued lines).1.dropLast, isContinued raw = true := by
  fun_induction splitContinued lines with
  | case1 => exact fun raw hraw => absurd hraw List.not_mem_nil
  | case2 raw rest hcontinued ih =>
    cases hbody : (splitContinued rest).1 with
    | nil => exact fun raw hraw => absurd hraw List.not_mem_nil
    | cons next body =>
      rw [hbody] at ih
      rw [List.dropLast_cons_cons, List.forall_mem_cons]
      exact ⟨hcontinued, ih⟩
  | case3 raw rest _ => exact fun raw hraw => absurd hraw List.not_mem_nil

/-- The last line of the split is not continued, unless it is the last line of all. -/
theorem splitContinued_ends (lines : List (List Char)) :
    (∃ last ∈ (splitContinued lines).1.getLast?, isContinued last = false) ∨ (splitContinued lines).2 = [] := by
  fun_induction splitContinued lines with
  | case1 => exact .inr rfl
  | case2 raw rest _ ih =>
    refine ih.imp_left fun ⟨last, hlast, hends⟩ => ⟨last, ?_, hends⟩
    rw [List.getLast?_cons, Option.mem_def.mp hlast]
    rfl
  | case3 raw rest hends => exact .inl ⟨raw, rfl, by simpa using hends⟩

theorem length_splitContinued_lt (raw : List Char) (rest : List (List Char)) :
    (splitContinued (raw :: rest)).2.length < (raw :: rest).length := by
  obtain ⟨body, hbody⟩ := exists_splitContinued_cons raw rest
  have hlength := congrArg List.length (splitContinued_append (raw :: rest))
  rw [hbody, List.length_append, List.length_cons] at hlength
  omega

/-- The groups of lines, of which the first has the number `number`. -/
def lineGroups (number : Nat) (lines : List (List Char)) : List LineGroup :=
  match lines with
  | [] => []
  | raw :: rest =>
    if isSkippedLine (trimChars raw) then lineGroups (number + 1) rest
    else
      ⟨number, (splitContinued (raw :: rest)).1⟩
        :: lineGroups (number + (splitContinued (raw :: rest)).1.length) (splitContinued (raw :: rest)).2
termination_by lines.length
decreasing_by
  · exact Nat.lt_succ_self rest.length
  · exact length_splitContinued_lt raw rest

/-! ## §3 What the groups are -/

/-- Whether the line behind the first `i` lines stands for nothing: a blank line or a comment that continues no other
    line. -/
def IsLeftOut (lines : List (List Char)) (i : Nat) : Prop :=
  leavesOpen false (lines.take i) = false ∧ ∃ raw ∈ lines[i]?, isSkippedLine (trimChars raw) = true

/-- A group of the lines of a file, of which the first has the number `number`. -/
structure IsGroup (number : Nat) (lines : List (List Char)) (g : LineGroup) : Prop where
  /-- The lines of the group are those of the file from its number on, one behind the other. -/
  consecutive : number ≤ g.first ∧ g.lines <+: lines.drop (g.first - number)
  /-- The first line stands for something. -/
  begins : ∃ raw ∈ g.lines.head?, isSkippedLine (trimChars raw) = false
  /-- All lines but the last are continued. -/
  continued : ∀ raw ∈ g.lines.dropLast, isContinued raw = true
  /-- The last line is not continued, or is the last one of the file. -/
  ends : (∃ last ∈ g.lines.getLast?, isContinued last = false) ∨ g.first + g.lines.length = number + lines.length

/-- The groups of the lines of a file, in the order of the lines. -/
structure AreGroups (number : Nat) (lines : List (List Char)) (groups : List LineGroup) : Prop where
  each : ∀ g ∈ groups, IsGroup number lines g
  ordered : groups.Pairwise fun g g' => g.first + g.lines.length ≤ g'.first
  /-- A line that is not left out belongs to exactly one group. -/
  once : ∀ i < lines.length, ¬ IsLeftOut lines i → ∃! g, g ∈ groups ∧ g.Has (number + i)
  /-- A line that is left out belongs to none. -/
  leftOut : ∀ i, IsLeftOut lines i → ∀ g ∈ groups, ¬ g.Has (number + i)

theorem leavesOpen_append (opened : Bool) (front back : List (List Char)) :
    leavesOpen opened (front ++ back) = leavesOpen (leavesOpen opened front) back := by
  induction front generalizing opened with
  | nil => rfl
  | cons raw rest ih => exact ih _

theorem leavesOpen_of_continued {lines : List (List Char)} (h : ∀ raw ∈ lines, isContinued raw = true) :
    leavesOpen true lines = true := by
  induction lines with
  | nil => rfl
  | cons raw rest ih =>
    obtain ⟨hraw, hrest⟩ := List.forall_mem_cons.mp h
    rw [leavesOpen, lineContent_trimChars]
    exact (congrArg (leavesOpen · rest) hraw).trans (ih hrest)

/-- A line that is not continued leaves nothing open. -/
theorem leavesOpen_of_last {opened : Bool} {lines : List (List Char)} {last : List Char}
    (hlast : last ∈ lines.getLast?) (h : isContinued last = false) : leavesOpen opened lines = false := by
  obtain ⟨front, rfl⟩ := List.getLast?_eq_some_iff.mp hlast
  refine Bool.eq_false_iff.mpr fun hopen => ?_
  have hcontinued := continued_of_leavesOpen hopen
  rw [lineContent_trimChars, h] at hcontinued
  cases hcontinued

theorem isLeftOut_append {front : List (List Char)} (h : leavesOpen false front = false) (lines : List (List Char))
    (i : Nat) : IsLeftOut (front ++ lines) (front.length + i) ↔ IsLeftOut lines i := by
  unfold IsLeftOut
  rw [List.take_length_add_append, leavesOpen_append, h, List.getElem?_append_right (Nat.le_add_right ..),
    Nat.add_sub_cancel_left]

namespace IsGroup

variable {number : Nat} {lines front : List (List Char)} {g : LineGroup}

theorem lines_ne_nil (h : IsGroup number lines g) : g.lines ≠ [] := by
  obtain ⟨raw, hraw, -⟩ := h.begins
  intro hnil
  rw [hnil] at hraw
  cases hraw

theorem has_first (h : IsGroup number lines g) : g.Has g.first :=
  ⟨Nat.le_refl _, Nat.lt_add_of_pos_right (List.length_pos_iff.mpr h.lines_ne_nil)⟩

theorem length_le (h : IsGroup number lines g) : g.first + g.lines.length ≤ number + lines.length := by
  obtain ⟨hfirst, hlines⟩ := h.consecutive
  have hlength := hlines.length_le
  have hfull := List.length_pos_iff.mpr h.lines_ne_nil
  rw [List.length_drop] at hlength
  omega

/-- A group does not end inside another one that starts at the same line. -/
theorem lines_eq_of_prefix {g' : LineGroup} (h : IsGroup number lines g) (h' : IsGroup number lines g')
    (hfirst : g.first = g'.first) (hlines : g.lines <+: g'.lines) : g.lines = g'.lines := by
  refine hlines.eq_of_length (Nat.le_antisymm hlines.length_le (Nat.not_lt.mp fun hlt => ?_))
  rcases h.ends with ⟨last, hlast, hends⟩ | hends
  · -- The last line of the shorter group is continued, as a line inside the longer one.
    have hinside : last ∈ g'.lines.dropLast := by
      rw [List.dropLast_eq_take]
      have hshort : g.lines <+: g'.lines.take (g'.lines.length - 1) := by
        rw [List.prefix_take_iff]
        exact ⟨hlines, by omega⟩
      exact hshort.subset (List.mem_of_getLast? hlast)
    rw [h'.continued last hinside] at hends
    cases hends
  · have hlength := h'.length_le
    omega

theorem eq_of_first {g' : LineGroup} (h : IsGroup number lines g) (h' : IsGroup number lines g')
    (hfirst : g.first = g'.first) : g = g' := by
  have hlines := h'.consecutive.2
  rw [← hfirst] at hlines
  rcases List.prefix_or_prefix_of_prefix h.consecutive.2 hlines with hle | hle
  · exact LineGroup.ext hfirst (h.lines_eq_of_prefix h' hfirst hle)
  · exact LineGroup.ext hfirst (h'.lines_eq_of_prefix h hfirst.symm hle).symm

/-- A group stays one behind further lines. -/
theorem behind (h : IsGroup (number + front.length) lines g) : IsGroup number (front ++ lines) g := by
  obtain ⟨hfirst, hlines⟩ := h.consecutive
  refine ⟨⟨by omega, ?_⟩, h.begins, h.continued, h.ends.imp_right fun hends => ?_⟩
  · rwa [List.drop_append, List.drop_eq_nil_of_le (by omega), List.nil_append, Nat.sub_sub]
  · rw [List.length_append]
    omega

/-- No line of a group is left out. -/
theorem not_isLeftOut {more : List (List Char)} (h : IsGroup number (front ++ more) ⟨number, front⟩) {i : Nat}
    (hi : i < front.length) : ¬ IsLeftOut (front ++ more) i := by
  rintro ⟨hclosed, raw, hraw, hskip⟩
  obtain ⟨start, hstart, hread⟩ := h.begins
  obtain ⟨body, rfl⟩ : ∃ body, front = start :: body := by
    cases front with
    | nil => cases hstart
    | cons head body => exact ⟨body, congrArg (· :: body) (Option.some.inj hstart)⟩
  cases i with
  | zero =>
    obtain rfl := Option.some.inj hraw
    rw [hskip] at hread
    cases hread
  | succ i =>
    -- The lines of the group up to here are continued, so the line in front is one of them.
    have hi : i < body.length := Nat.lt_of_succ_lt_succ hi
    have hbefore : ∀ line ∈ start :: body.take i, isContinued line = true := by
      intro line hline
      refine h.continued line ?_
      rw [← List.take_succ_cons] at hline
      rw [List.dropLast_eq_take, List.length_cons, Nat.add_sub_cancel]
      exact (List.take_prefix_take_left hi).subset hline
    obtain ⟨hfirst, hrest⟩ := List.forall_mem_cons.mp hbefore
    have hopen : leavesOpen false ((start :: body ++ more).take (i + 1)) = true := by
      rw [List.cons_append, List.take_succ_cons, List.take_append_of_le_length (Nat.le_of_lt hi), leavesOpen,
        lineContent_trimChars, hread, hfirst]
      exact leavesOpen_of_continued hrest
    rw [hopen] at hclosed
    cases hclosed

end IsGroup

namespace AreGroups

variable {number : Nat} {lines : List (List Char)} {groups : List LineGroup}

theorem nil (number : Nat) : AreGroups number [] [] where
  each _ hg := absurd hg List.not_mem_nil
  ordered := .nil
  once i hi _ := absurd hi (Nat.not_lt_zero i)
  leftOut _ _ _ hg := absurd hg List.not_mem_nil

/-- A line that is left out starts no group. -/
theorem skip {raw : List Char} {rest : List (List Char)} (hskip : isSkippedLine (trimChars raw) = true)
    (h : AreGroups (number + 1) rest groups) : AreGroups number (raw :: rest) groups := by
  have hclosed : leavesOpen false [raw] = false := by
    rw [leavesOpen, leavesOpen, hskip]
    rfl
  have hbehind : ∀ i, IsLeftOut (raw :: rest) (i + 1) ↔ IsLeftOut rest i := by
    intro i
    rw [Nat.add_comm]
    exact isLeftOut_append hclosed rest i
  have hnumber : ∀ i, number + (i + 1) = number + 1 + i := by omega
  have heach : ∀ g ∈ groups, IsGroup number ([raw] ++ rest) g := fun g hg => (h.each g hg).behind
  refine ⟨heach, h.ordered, ?_, ?_⟩
  · rintro (_ | i) hi hread
    · exact absurd ⟨rfl, raw, rfl, hskip⟩ hread
    · rw [hnumber]
      exact h.once i (Nat.lt_of_succ_lt_succ hi) fun hleft => hread ((hbehind i).mpr hleft)
  · rintro (_ | i) hleft g hg
    · have hfirst := (h.each g hg).consecutive.1
      rintro ⟨hhas, -⟩
      omega
    · rw [hnumber]
      exact h.leftOut i ((hbehind i).mp hleft) g hg

/-- The groups behind a group. -/
theorem cons {front more : List (List Char)} (hgroup : IsGroup number (front ++ more) ⟨number, front⟩)
    (hends : (∃ last ∈ front.getLast?, isContinued last = false) ∨ more = [])
    (h : AreGroups (number + front.length) more groups) :
    AreGroups number (front ++ more) (⟨number, front⟩ :: groups) := by
  have hlater : ∀ g ∈ groups, number + front.length ≤ g.first := fun g hg => (h.each g hg).consecutive.1
  have hbehind : ∀ i < more.length, (IsLeftOut (front ++ more) (front.length + i) ↔ IsLeftOut more i) := by
    intro i hi
    rcases hends with ⟨last, hlast, hends⟩ | rfl
    · exact isLeftOut_append (leavesOpen_of_last hlast hends) more i
    · exact absurd hi (Nat.not_lt_zero i)
  refine ⟨?_, List.pairwise_cons.mpr ⟨hlater, h.ordered⟩, ?_, ?_⟩
  · rw [List.forall_mem_cons]
    exact ⟨hgroup, fun g hg => (h.each g hg).behind⟩
  · intro i hi hread
    by_cases hfront : i < front.length
    · refine ⟨⟨number, front⟩, ⟨List.mem_cons_self .., Nat.le_add_right .., Nat.add_lt_add_left hfront _⟩, ?_⟩
      rintro g ⟨hg, hfirst, -⟩
      rcases List.mem_cons.mp hg with rfl | hg
      · rfl
      · have := hlater g hg
        omega
    · obtain ⟨j, rfl⟩ := Nat.exists_eq_add_of_le (Nat.not_lt.mp hfront)
      have hj : j < more.length := by
        rw [List.length_append] at hi
        omega
      obtain ⟨g, ⟨hg, hhas⟩, honly⟩ := h.once j hj fun hleft => hread ((hbehind j hj).mpr hleft)
      rw [← Nat.add_assoc]
      refine ⟨g, ⟨List.mem_cons_of_mem _ hg, hhas⟩, ?_⟩
      rintro g' ⟨hg', hhas'⟩
      rcases List.mem_cons.mp hg' with rfl | hg'
      · exact absurd hhas'.2 (Nat.not_lt.mpr (Nat.le_add_right ..))
      · exact honly g' ⟨hg', hhas'⟩
  · intro i hleft g hg hhas
    by_cases hfront : i < front.length
    · exact hgroup.not_isLeftOut hfront hleft
    · obtain ⟨j, rfl⟩ := Nat.exists_eq_add_of_le (Nat.not_lt.mp hfront)
      have hj : j < more.length := by
        obtain ⟨-, raw, hraw, -⟩ := hleft
        obtain ⟨hlt, -⟩ := List.getElem?_eq_some_iff.mp hraw
        rw [List.length_append] at hlt
        omega
      rw [← Nat.add_assoc] at hhas
      rcases List.mem_cons.mp hg with rfl | hg
      · exact Nat.not_lt.mpr (Nat.le_add_right ..) hhas.2
      · exact h.leftOut j ((hbehind j hj).mp hleft) g hg hhas

/-- A group is one of any other grouping of the same lines. -/
theorem mem_of_mem {groups' : List LineGroup} (h : AreGroups number lines groups) (h' : AreGroups number lines groups')
    {g : LineGroup} (hg : g ∈ groups) : g ∈ groups' := by
  -- The line that the group starts at is in a group of the other one; by induction no such group starts further up.
  induction hk : g.first using Nat.strong_induction_on generalizing g groups groups' with
  | _ k ih =>
    have hgroup := h.each g hg
    obtain ⟨i, hi⟩ := Nat.exists_eq_add_of_le hgroup.consecutive.1
    have hhas : g.Has (number + i) := hi ▸ hgroup.has_first
    have hread : ¬ IsLeftOut lines i := fun hleft => h.leftOut i hleft g hg hhas
    have hlt : i < lines.length := by
      have hlength := hgroup.length_le
      have hend := hhas.2
      omega
    obtain ⟨g', ⟨hg', hhas'⟩, -⟩ := h'.once i hlt hread
    rcases Nat.lt_or_eq_of_le hhas'.1 with hbefore | hsame
    · have hmem : g' ∈ groups := ih g'.first (by omega) h' h hg' rfl
      obtain ⟨only, -, honly⟩ := h.once i hlt hread
      have heq : g' = g := (honly g' ⟨hmem, hhas'⟩).trans (honly g ⟨hg, hhas⟩).symm
      rw [heq] at hbefore
      omega
    · rwa [hgroup.eq_of_first (h'.each g' hg') (hi.trans hsame.symm)]

theorem pairwise_first (h : AreGroups number lines groups) : groups.Pairwise fun g g' => g.first < g'.first :=
  h.ordered.imp_of_mem fun hg _ hle => Nat.lt_of_lt_of_le (h.each _ hg).has_first.2 hle

/-- There is no other grouping of the same lines. -/
theorem unique {groups' : List LineGroup} (h : AreGroups number lines groups) (h' : AreGroups number lines groups') :
    groups = groups' := by
  have : Std.Irrefl fun g g' : LineGroup => g.first < g'.first := ⟨fun g => Nat.lt_irrefl g.first⟩
  have : Std.Antisymm fun g g' : LineGroup => g.first < g'.first :=
    ⟨fun g g' hlt hgt => absurd hgt (Nat.lt_asymm hlt)⟩
  exact h.pairwise_first.eq_of_mem_iff h'.pairwise_first fun g => ⟨h.mem_of_mem h', h'.mem_of_mem h⟩

end AreGroups

theorem areGroups_lineGroups (number : Nat) (lines : List (List Char)) :
    AreGroups number lines (lineGroups number lines) := by
  fun_induction lineGroups number lines with
  | case1 number => exact .nil number
  | case2 number raw rest hskip ih => exact .skip hskip ih
  | case3 number raw rest hread ih =>
    obtain ⟨body, hbody⟩ := exists_splitContinued_cons raw rest
    have hsplit := splitContinued_append (raw :: rest)
    have hends := splitContinued_ends (raw :: rest)
    have hgroup : IsGroup number ((splitContinued (raw :: rest)).1 ++ (splitContinued (raw :: rest)).2)
        ⟨number, (splitContinued (raw :: rest)).1⟩ := by
      refine ⟨⟨Nat.le_refl _, ?_⟩, ⟨raw, ?_, by simpa using hread⟩, ?_, hends.imp_right fun hnil => ?_⟩
      · rw [Nat.sub_self, List.drop_zero]
        exact List.prefix_append ..
      · rw [hbody]
        rfl
      · exact isContinued_of_mem_dropLast_splitContinued _
      · rw [hnil, List.append_nil]
    have := AreGroups.cons hgroup hends ih
    rwa [hsplit] at this

theorem areGroups_iff {number : Nat} {lines : List (List Char)} {groups : List LineGroup} :
    AreGroups number lines groups ↔ groups = lineGroups number lines := by
  constructor
  · exact fun h => h.unique (areGroups_lineGroups number lines)
  · rintro rfl
    exact areGroups_lineGroups number lines

/-! ## §4 The loop -/

/-- The line that the loop is in the middle of takes the pieces of the lines up to the first one that is not
    continued. -/
theorem groupLines_pending (number start : Nat) (before : List Char) (lines : List (List Char)) :
    groupLines number (some (start, before)) lines
      = (start, joinPieces before (groupText (splitContinued lines).1))
        :: groupLines (number + (splitContinued lines).1.length) none (splitContinued lines).2 := by
  induction lines generalizing number before with
  | nil =>
    rw [splitContinued, groupText, List.map_nil, List.filter_nil, List.intercalate_nil, joinPieces_nil]
    rfl
  | cons raw rest ih =>
    rw [groupLines_read rfl (lineContent_trimChars raw), splitContinued]
    cases isContinued raw with
    | true =>
      rw [if_pos rfl, if_pos rfl]
      refine (ih (number + 1) (joinPieces before (linePiece raw))).trans ?_
      rw [groupText_cons, ← joinPieces_assoc, List.length_cons, Nat.add_assoc, Nat.add_comm 1]
    | false =>
      rw [if_neg Bool.false_ne_true, if_neg Bool.false_ne_true, groupText_cons, groupText, List.map_nil,
        List.filter_nil, List.intercalate_nil, joinPieces_nil]
      rfl

/-- A line that stands for something starts a line of its own. -/
theorem groupLines_starts {raw : List Char} (hread : isSkippedLine (trimChars raw) = false) (number : Nat)
    (rest : List (List Char)) :
    groupLines number none (raw :: rest) = groupLines number (some (number, [])) (raw :: rest) := by
  have hnone : ((none : Option (Nat × List Char)).isNone && isSkippedLine (trimChars raw)) = false := hread
  rw [groupLines_read hnone (lineContent_trimChars raw), groupLines_read rfl (lineContent_trimChars raw)]
  rfl

theorem groupLines_eq (number : Nat) (lines : List (List Char)) :
    groupLines number none lines = (lineGroups number lines).map fun g => (g.first, groupText g.lines) := by
  fun_induction lineGroups number lines with
  | case1 number => rfl
  | case2 number raw rest hskip ih =>
    have hnone : ((none : Option (Nat × List Char)).isNone && isSkippedLine (trimChars raw)) = true := hskip
    rw [groupLines_skipped hnone, ih]
  | case3 number raw rest hread ih =>
    rw [groupLines_starts (by simpa using hread), groupLines_pending, ih, nil_joinPieces, List.map_cons]

/-- The logical lines of a file are those of its groups. -/
theorem logicalLines_eq (file text : String) :
    logicalLines file text
      = (lineGroups 1 (Text.lineChars text.toList)).filterMap (LineGroup.logicalLine? file) := by
  rw [logicalLines, groupLines_eq, List.filter_map, List.map_map, ← List.filterMap_eq_map, List.filterMap_filter]
  refine List.filterMap_congr fun g _ => ?_
  simp only [Function.comp_apply, LineGroup.logicalLine?, ← isEmpty_groupText]
  cases (groupText g.lines).isEmpty <;> rfl

/-- Source positions are exact where nothing is included: the lines of a text fall into groups in one way only, and what
    is loaded are the logical lines of the groups, in increasing order, each with the number of the first line of its
    group. -/
theorem loadText_lineGroups {files : SourceFiles} {scope : Scope} {file text : String}
    (hnone : ∀ line ∈ logicalLines file text, isInclude line.text = false) :
    ∃ lines, loadText files scope file text = .ok lines
      ∧ (files.read file = .ok text → loadFile files scope file = .ok lines)
      ∧ lines.Pairwise (fun a b => a.location.line < b.location.line)
      ∧ ∃ groups, lines = groups.filterMap (LineGroup.logicalLine? file)
        ∧ ∀ others, AreGroups 1 (Text.lineChars text.toList) others ↔ others = groups := by
  have hfile : files.read file = .ok text → loadFile files scope file = .ok (logicalLines file text) := fun hread =>
    loadFile_of_no_include hread hnone
  exact ⟨logicalLines file text, loadText_of_no_include hnone, hfile, pairwise_logicalLines file text,
    lineGroups 1 (Text.lineChars text.toList), logicalLines_eq file text, fun _ => areGroups_iff⟩

/-! A comment, a header, an item on three lines of which the last is blank, a backslash by itself with a blank line, and
a further item. -/

def notedText : String :=
  "# notes \\\n[graph]\ntitle: a \\\n  # b\\\n\n\\\n\nxtype: linear"

theorem loadText_notedText :
    (∀ line ∈ logicalLines "plan" notedText, isInclude line.text = false)
      ∧ (lineGroups 1 (Text.lineChars notedText.toList)).map (fun g => (g.first, g.lines.length))
        = [(2, 1), (3, 3), (6, 2), (8, 1)]
      ∧ loadFile ⟨fun _ => .ok notedText, id⟩ (.new ∅ ∅) "plan"
        = .ok [⟨⟨"plan", 2⟩, "[graph]"⟩, ⟨⟨"plan", 3⟩, "title: a # b"⟩, ⟨⟨"plan", 8⟩, "xtype: linear"⟩] := by
  have hlines : logicalLines "plan" notedText
      = [⟨⟨"plan", 2⟩, "[graph]"⟩, ⟨⟨"plan", 3⟩, "title: a # b"⟩, ⟨⟨"plan", 8⟩, "xtype: linear"⟩] := by cbv
  have hnone : ∀ line ∈ logicalLines "plan" notedText, isInclude line.text = false := by
    rw [hlines]
    decide
  refine ⟨hnone, by cbv, ?_⟩
  obtain ⟨lines, -, hload, -, groups, rfl, hgroups⟩ :=
    @loadText_lineGroups ⟨fun _ => .ok notedText, id⟩ (.new ∅ ∅) "plan" notedText hnone
  rw [hload rfl, ← (hgroups _).mp (areGroups_lineGroups 1 _), ← logicalLines_eq, hlines]

end BenchPlot
