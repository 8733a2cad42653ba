import BenchPlot.Proofs.Description.Reading

/-!
# Documents under other line numbers

Line numbers say where something was written and no more: if the logical lines of a text are numbered in another way,
the text is accepted as before, and the same document comes out under the other numbers. Included files keep theirs,
since none of them is the text itself.

Main statement: `Document.parseText_renumber`.
-/

namespace BenchPlot

/-! ## §1 Other numbers -/

/-- The position under the number that `f` gives it, if it is one in `file`. -/
def Location.renumber (file : String) (f : Nat → Nat) (l : Location) : Location :=
  if l.file = file then { l with line := f l.line } else l

def LogicalLine.renumber (file : String) (f : Nat → Nat) (l : LogicalLine) : LogicalLine :=
  { l with location := l.location.renumber file f }

def Item.renumber (file : String) (f : Nat → Nat) (i : Item) : Item :=
  { i with location := i.location.renumber file f }

def Section.renumber (file : String) (f : Nat → Nat) (s : Section) : Section :=
  { s with location := s.location.renumber file f, items := s.items.map (Item.renumber file f) }

/-- The document under other line numbers. -/
def Document.renumber (file : String) (f : Nat → Nat) (d : Document) : Document :=
  ⟨d.sections.map (Section.renumber file f)⟩

variable {file : String} {f g : Nat → Nat}

theorem Location.file_renumber (l : Location) : (l.renumber file f).file = l.file := by
  unfold renumber
  split <;> rfl

theorem Location.renumber_of_ne {l : Location} (h : l.file ≠ file) : l.renumber file f = l :=
  if_neg h

theorem LogicalLine.text_renumber (l : LogicalLine) : (l.renumber file f).text = l.text :=
  rfl

theorem Location.renumber_renumber (l : Location) : (l.renumber file f).renumber file g = l.renumber file (g ∘ f) := by
  unfold renumber
  by_cases h : l.file = file
  · rw [if_pos h, if_pos h, if_pos h]
    rfl
  · rw [if_neg h, if_neg h, if_neg h]

theorem Item.renumber_renumber (i : Item) : (i.renumber file f).renumber file g = i.renumber file (g ∘ f) := by
  rw [renumber, renumber, renumber, Location.renumber_renumber]

theorem Section.renumber_renumber (s : Section) :
    (s.renumber file f).renumber file g = s.renumber file (g ∘ f) := by
  rw [renumber, renumber, renumber, Location.renumber_renumber, List.map_map]
  exact congrArg _ (List.map_congr_left fun i _ => i.renumber_renumber)

theorem Document.renumber_renumber (d : Document) :
    (d.renumber file f).renumber file g = d.renumber file (g ∘ f) := by
  rw [renumber, renumber, renumber, List.map_map]
  exact congrArg _ (List.map_congr_left fun s _ => s.renumber_renumber)

theorem Document.renumber_id (d : Document) : d.renumber file id = d := by
  have hlocation : Location.renumber file id = id := by
    funext l
    unfold Location.renumber
    split <;> rfl
  have hitem : Item.renumber file id = id := by
    funext i
    rw [Item.renumber, hlocation]
    rfl
  have hsection : Section.renumber file id = id := by
    funext s
    rw [Section.renumber, hlocation, hitem, List.map_id]
    rfl
  rw [renumber, hsection, List.map_id]

/-! ## §2 Expansion -/

section Expansion

variable {files : SourceFiles} {scope : Scope} {origin : String}

/-- The place of a directive is for messages only. -/
theorem toOption_expandFile (levels : Nat) (chain : List String) (path : String) (site site' : Location) :
    (expandFile files scope levels chain path site).toOption
      = (expandFile files scope levels chain path site').toOption := by
  cases levels with
  | zero => rfl
  | succ levels =>
    unfold expandFile
    split
    · rfl
    · dsimp only
      split <;> rfl

variable {included : String → Location → Except DescriptionError (List LogicalLine)}

theorem toOption_expandLines_cons (line : LogicalLine) (rest : List LogicalLine) :
    (expandLines scope included (line :: rest)).toOption = (expandLine scope included line).toOption.bind
      fun front => (expandLines scope included rest).toOption.map (front ++ ·) := by
  unfold expandLines
  rw [List.mapM_cons]
  cases expandLine scope included line with
  | error e => rfl
  | ok front => cases rest.mapM (expandLine scope included) <;> rfl

theorem toOption_map {ε α β : Type} (x : Except ε α) (step : α → β) : (x.map step).toOption = x.toOption.map step := by
  cases x <;> rfl

/-- Each result of a pass that is accepted comes from an element. -/
theorem exists_of_mem_mapM {ε α β : Type} {step : α → Except ε β} {l : List α} {r : List β}
    (h : l.mapM step = .ok r) {b : β} (hb : b ∈ r) : ∃ a ∈ l, step a = .ok b := by
  have hforall := forall₂_of_mapM_eq_ok h
  clear h
  induction hforall with
  | nil => cases hb
  | cons hfirst _ ih =>
    rcases List.mem_cons.mp hb with rfl | hb
    · exact ⟨_, List.mem_cons_self .., hfirst⟩
    · obtain ⟨a, ha, hstep⟩ := ih hb
      exact ⟨a, List.mem_cons_of_mem _ ha, hstep⟩

/-- Each line of an expansion is a given one, or one of an included file. -/
theorem mem_expandLines {lines out : List LogicalLine} (h : expandLines scope included lines = .ok out)
    {l : LogicalLine} (hl : l ∈ out) :
    l ∈ lines ∨ ∃ target site part, included target site = .ok part ∧ l ∈ part := by
  obtain ⟨parts, hparts, rfl⟩ := map_eq_ok.1 h
  obtain ⟨part, hpart, hl⟩ := List.mem_flatten.mp hl
  obtain ⟨line, hline, hexpand⟩ := exists_of_mem_mapM hparts hpart
  unfold expandLine at hexpand
  split at hexpand
  · split at hexpand
    · cases hexpand
    · exact .inr ⟨_, _, part, hexpand, hl⟩
  · cases hexpand
    exact .inl (List.mem_singleton.mp hl ▸ hline)

theorem file_of_mem_logicalLines {path text : String} {l : LogicalLine} (hl : l ∈ logicalLines path text) :
    l.location.file = path := by
  obtain ⟨group, -, rfl⟩ := List.mem_map.mp hl
  rfl

/-- While a text is open, no line of an included file is a line of that text. -/
theorem file_ne_of_expandFile {levels : Nat} {chain : List String} {path : String} {site : Location}
    {out : List LogicalLine} (h : expandFile files scope levels chain path site = .ok out)
    (hopen : files.identity origin ∈ chain) {l : LogicalLine} (hl : l ∈ out) : l.location.file ≠ origin := by
  induction levels generalizing chain path site out with
  | zero => cases h
  | succ levels ih =>
    unfold expandFile at h
    split at h
    · cases h
    · dsimp only at h
      split at h
      · cases h
      · rename_i hcycle
        rcases mem_expandLines h hl with hl | ⟨target, site, part, hpart, hl⟩
        · -- A path that is the text's own has its identity, which is open already.
          rw [file_of_mem_logicalLines hl]
          rintro rfl
          exact hcycle (List.contains_iff_mem.mpr hopen)
        · exact ih hpart (List.mem_cons_of_mem _ hopen) hl

section Included

-- What is included does not depend on the place of the directive, and none of its lines is one of the text.
variable (hsite : ∀ target site site', (included target site).toOption = (included target site').toOption)
  (hfile : ∀ target site part, included target site = .ok part → ∀ l ∈ part, l.location.file ≠ origin)
include hsite hfile

theorem toOption_expandLine_renumber (line : LogicalLine) :
    (expandLine scope included (line.renumber origin f)).toOption
      = (expandLine scope included line).toOption.map (List.map (LogicalLine.renumber origin f)) := by
  have htarget : includeTarget scope (line.renumber origin f) = includeTarget scope line := by
    unfold includeTarget
    rw [LogicalLine.renumber, Location.file_renumber]
  unfold expandLine
  rw [htarget, LogicalLine.text_renumber]
  split
  · cases includeTarget scope line with
    | error fault => rfl
    | ok target =>
      dsimp only
      rw [hsite target _ line.location]
      cases hpart : included target line.location with
      | error e => rfl
      | ok part =>
        have hkept : part.map (LogicalLine.renumber origin f) = part := by
          refine (List.map_congr_left fun l hl => ?_).trans (List.map_id part)
          rw [LogicalLine.renumber, Location.renumber_of_ne (hfile target _ part hpart l hl)]
          rfl
        exact congrArg some hkept.symm
  · rfl

/-- Lines under other numbers have the same expansion under the other numbers. -/
theorem toOption_expandLines_renumber (lines : List LogicalLine) :
    (expandLines scope included (lines.map (LogicalLine.renumber origin f))).toOption
      = (expandLines scope included lines).toOption.map (List.map (LogicalLine.renumber origin f)) := by
  induction lines with
  | nil => rfl
  | cons line rest ih =>
    rw [List.map_cons, toOption_expandLines_cons, toOption_expandLines_cons,
      toOption_expandLine_renumber hsite hfile, ih]
    cases (expandLine scope included line).toOption with
    | none => rfl
    | some front =>
      cases (expandLines scope included rest).toOption with
      | none => rfl
      | some back => exact congrArg some (List.map_append ..).symm

end Included

theorem toOption_loadText_renumber {text text' : String}
    (h : logicalLines origin text' = (logicalLines origin text).map (LogicalLine.renumber origin f)) :
    (loadText files scope origin text').toOption
      = (loadText files scope origin text).toOption.map (List.map (LogicalLine.renumber origin f)) := by
  unfold loadText
  rw [h]
  exact toOption_expandLines_renumber (fun target site site' => toOption_expandFile _ _ target site site')
    (fun target site part hpart l hl => file_ne_of_expandFile hpart (List.mem_singleton_self _) hl) _

end Expansion

/-! ## §3 Reading -/

theorem parseItem_renumber (line : LogicalLine) :
    parseItem (line.renumber file f) = (parseItem line).map (Item.renumber file f) := by
  unfold parseItem
  rw [LogicalLine.text_renumber]
  cases Text.cutAt? ':' line.text with
  | none => rfl
  | some cut =>
    dsimp only
    split <;> rfl

theorem item?_renumber (s : Section) (key : String) :
    (s.renumber file f).item? key = (s.item? key).map (Item.renumber file f) :=
  List.find?_map ..

/-- Whether an item may be added does not depend on line numbers. -/
theorem isNone_admissionFault?_renumber (s : Section) (item : Item) :
    (admissionFault? (s.renumber file f) (item.renumber file f)).isNone = (admissionFault? s item).isNone := by
  have hkind : (s.renumber file f).kind = s.kind := rfl
  have hkey : (item.renumber file f).key = item.key := rfl
  have hvalue : (item.renumber file f).value = item.value := rfl
  unfold admissionFault?
  rw [hkind, hkey, hvalue, item?_renumber]
  cases s.kind.vocabulary.find? fun rule => rule.name == item.key with
  | none => rfl
  | some rule =>
    dsimp only
    cases rule.repeats with
    | true => rfl
    | false => cases s.item? item.key <;> rfl

namespace Document

theorem toOption_parseLines_renumber (current : Option Section) (lines : List LogicalLine) :
    (parseLines (current.map (Section.renumber file f)) (lines.map (LogicalLine.renumber file f))).toOption
      = (parseLines current lines).toOption.map (List.map (Section.renumber file f)) := by
  have hcurrent : ∀ current : Option Section, (current.map (Section.renumber file f)).toList
      = current.toList.map (Section.renumber file f) := by
    intro current
    cases current <;> rfl
  fun_induction parseLines current lines with
  | case1 current => exact congrArg some (hcurrent current)
  | case2 current line rest hname =>
    simp only [List.map_cons, parseLines, LogicalLine.text_renumber, hname]
    exact congrArg some (hcurrent current)
  | case3 current line rest name hend hname hkind =>
    simp only [List.map_cons, parseLines, LogicalLine.text_renumber, hname, hkind]
    rfl
  | case4 current line rest name hend hname kind hkind ih =>
    have hsection : Section.renumber file f ⟨kind, line.location, []⟩
        = ⟨kind, (line.renumber file f).location, []⟩ := rfl
    simp only [List.map_cons, parseLines, LogicalLine.text_renumber, hname, hkind]
    rw [toOption_map, ← hsection, ← Option.map_some, ih, toOption_map, hcurrent, Option.map_map, Option.map_map]
    exact Option.map_congr fun sections _ => (List.map_append ..).symm
  | case5 line rest hname =>
    simp only [List.map_cons, parseLines, LogicalLine.text_renumber, hname, Option.map_none]
    rfl
  | case6 line rest hname s fault hitem =>
    have hitem' : parseItem (line.renumber file f) = .error fault := by
      rw [parseItem_renumber, hitem]
      rfl
    simp only [List.map_cons, parseLines, LogicalLine.text_renumber, hname, Option.map_some, hitem']
    rfl
  | case7 line rest hname s item hitem fault hfault =>
    have hitem' : parseItem (line.renumber file f) = .ok (item.renumber file f) := by
      rw [parseItem_renumber, hitem]
      rfl
    -- The fault may name another line, but it is one.
    have hadmitted : (admissionFault? (s.renumber file f) (item.renumber file f)).isNone
        = (admissionFault? s item).isNone := isNone_admissionFault?_renumber s item
    rw [hfault, Option.isNone_some, Option.isNone_eq_false_iff, Option.isSome_iff_exists] at hadmitted
    obtain ⟨fault', hfault'⟩ := hadmitted
    simp only [List.map_cons, parseLines, LogicalLine.text_renumber, hname, Option.map_some, hitem', hfault']
    rfl
  | case8 line rest hname s item hitem hadmitted ih =>
    have hitem' : parseItem (line.renumber file f) = .ok (item.renumber file f) := by
      rw [parseItem_renumber, hitem]
      rfl
    have hadmitted' : (admissionFault? (s.renumber file f) (item.renumber file f)).isNone
        = (admissionFault? s item).isNone := isNone_admissionFault?_renumber s item
    rw [hadmitted, Option.isNone_none, Option.isNone_iff_eq_none] at hadmitted'
    simp only [List.map_cons, parseLines, LogicalLine.text_renumber, hname, Option.map_some, hitem', hadmitted']
    have hsection : (⟨s.kind, s.location, s.items ++ [item]⟩ : Section).renumber file f
        = { s.renumber file f with items := (s.renumber file f).items ++ [item.renumber file f] } := by
      simp [Section.renumber]
    rw [← ih, Option.map_some, hsection]

variable {files : SourceFiles} {scope : Scope} {origin : String}

theorem toOption_parseText (text : String) : (parseText files scope origin text).toOption
    = (loadText files scope origin text).toOption.bind fun lines => (ofLines lines).toOption := by
  unfold parseText
  cases loadText files scope origin text <;> rfl

/-- A text whose logical lines are those of another under other numbers is accepted iff the other is, and its document
    is that of the other under the other numbers. -/
theorem parseText_renumber {text text' : String}
    (h : logicalLines origin text' = (logicalLines origin text).map (LogicalLine.renumber origin f)) :
    (parseText files scope origin text').toOption
      = (parseText files scope origin text).toOption.map (Document.renumber origin f) := by
  have hdocument : ∀ lines, (ofLines (lines.map (LogicalLine.renumber origin f))).toOption
      = (ofLines lines).toOption.map (Document.renumber origin f) := by
    intro lines
    have hlines : (parseLines none (lines.map (LogicalLine.renumber origin f))).toOption
        = (parseLines none lines).toOption.map (List.map (Section.renumber origin f)) :=
      toOption_parseLines_renumber none lines
    rw [ofLines, ofLines, toOption_map, toOption_map, hlines, Option.map_map, Option.map_map]
    rfl
  have hload : (loadText files scope origin text').toOption
      = (loadText files scope origin text).toOption.map (List.map (LogicalLine.renumber origin f)) :=
    toOption_loadText_renumber h
  rw [toOption_parseText, toOption_parseText, hload]
  cases (loadText files scope origin text).toOption with
  | none => rfl
  | some lines => exact hdocument lines

end Document

end BenchPlot
