import BenchPlot.Description.Document
import BenchPlot.Proofs.Description.LogicalLines
import BenchPlot.Proofs.Store.Accepted
import BenchPlot.Proofs.Store.Row

/-!
# What is read as a document

Lines that are accepted are read one by one: a header opens a section, an item goes to the section that was opened
last, and `[end]` stops. Each step keeps the vocabulary: every item of a section has a key of its kind and a value that
fits, and a key that does not repeat stands there once. The headers and the items of the document are the lines
in their order.

Main statements: `Document.parseLines_eq_ok`, `Document.admitted_ofLines`, `Document.written_ofLines` and
`Document.pairwise_entries_of_no_include`.
-/

namespace BenchPlot

/-! ## §1 Reading line by line -/

namespace Document

/-- How lines are read as sections, where `current` is the section that was opened last. -/
inductive Reads : Option Section → List LogicalLine → List Section → Prop
  | nil {current} : Reads current [] current.toList
  | stop {current line rest} (hname : headerName? line.text = some "end") :
    Reads current (line :: rest) current.toList
  | header {current line rest name kind sections} (hname : headerName? line.text = some name)
    (hkind : SectionKind.ofName? name = some kind) (hrest : Reads (some ⟨kind, line.location, []⟩) rest sections) :
    Reads current (line :: rest) (current.toList ++ sections)
  | item {s line rest item sections} (hline : headerName? line.text = none) (hitem : parseItem line = .ok item)
    (hadmitted : admissionFault? s item = none)
    (hrest : Reads (some { s with items := s.items ++ [item] }) rest sections) :
    Reads (some s) (line :: rest) sections

theorem ne_end_of_ofName? {name : String} {kind : SectionKind} (h : SectionKind.ofName? name = some kind) :
    name ≠ "end" := by
  rintro rfl
  have hnone : SectionKind.ofName? "end" = none := by decide
  rw [hnone] at h
  cases h

/-- Lines are accepted as sections iff they are read as these. -/
theorem parseLines_eq_ok {current : Option Section} {lines : List LogicalLine} {sections : List Section} :
    parseLines current lines = .ok sections ↔ Reads current lines sections := by
  constructor
  · intro h
    fun_induction parseLines current lines generalizing sections with
    | case1 => cases h; exact .nil
    | case2 current line rest hname => cases h; exact .stop hname
    | case3 => cases h
    | case4 current line rest name hend hname kind hkind ih =>
      obtain ⟨later, hlater, rfl⟩ := map_eq_ok.1 h
      exact .header hname hkind (ih hlater)
    | case5 => cases h
    | case6 => cases h
    | case7 => cases h
    | case8 line rest hline s item hitem hadmitted ih => exact .item hline hitem hadmitted (ih h)
  · intro h
    induction h with
    | nil => rfl
    | stop hname => simp only [parseLines, hname]
    | header hname hkind _ ih =>
      unfold parseLines
      split
      · rename_i hend
        exact absurd (Option.some.inj (hname.symm.trans hend)) (ne_end_of_ofName? hkind)
      · rename_i hname'
        cases hname.symm.trans hname'
        rw [hkind]
        exact map_eq_ok.2 ⟨_, ih, rfl⟩
      · rename_i hline
        cases hname.symm.trans hline
    | item hline hitem hadmitted _ ih => simp only [parseLines, hline, hitem, hadmitted, ih]

end Document

/-! ## §2 The vocabulary -/

/-- The item of a line stands where the line does, and its value has no blanks at its ends. -/
theorem parseItem_eq_ok {line : LogicalLine} {item : Item} (h : parseItem line = .ok item) :
    item.location = line.location ∧ Text.trim item.value = item.value := by
  unfold parseItem at h
  split at h
  · cases h
  · dsimp only at h
    split at h
    · cases h
      exact ⟨rfl, Text.trim_trim _⟩
    · cases h

/-- The rule for a key in the sections of a kind. -/
def SectionKind.rule? (kind : SectionKind) (key : String) : Option KeyRule :=
  kind.vocabulary.find? fun rule => rule.name == key

/-- A section that fits the vocabulary of its kind: each item has a key with a rule that its value passes, and a key
    that does not repeat has one item at most. The values have no blanks at their ends. -/
structure Section.Admitted (s : Section) : Prop where
  fits : ∀ item ∈ s.items, ∃ rule, s.kind.rule? item.key = some rule ∧ rule.check item.value = none
  once : ∀ key rule, s.kind.rule? key = some rule → rule.repeats = false → (s.itemsAt key).length ≤ 1
  trimmed : ∀ item ∈ s.items, Text.trim item.value = item.value

namespace Section

/-- A section without items. -/
theorem admitted_nil (kind : SectionKind) (location : Location) : Admitted ⟨kind, location, []⟩ where
  fits _ h := absurd h List.not_mem_nil
  once _ _ _ _ := Nat.zero_le 1
  trimmed _ h := absurd h List.not_mem_nil

/-- An item is accepted if its key has a rule that its value passes, and has no item yet unless it repeats. -/
theorem admissionFault?_eq_none {s : Section} {item : Item} (h : admissionFault? s item = none) :
    ∃ rule, s.kind.rule? item.key = some rule ∧ rule.check item.value = none
      ∧ (rule.repeats = false → s.item? item.key = none) := by
  unfold admissionFault? at h
  split at h
  · cases h
  · rename_i rule hrule
    split at h
    · cases h
    · rename_i hfree
      refine ⟨rule, hrule, Option.map_eq_none_iff.mp h, fun hrepeats => ?_⟩
      rw [hrepeats] at hfree
      exact hfree

theorem itemsAt_append (s : Section) (item : Item) (key : String) :
    itemsAt { s with items := s.items ++ [item] } key = s.itemsAt key ++ if item.key == key then [item] else [] := by
  rw [itemsAt, itemsAt, List.filter_append, List.filter_singleton, Bool.cond_eq_ite]

/-- A section keeps fitting with each item that is accepted. -/
theorem Admitted.append {s : Section} (h : s.Admitted) {line : LogicalLine} {item : Item}
    (hitem : parseItem line = .ok item) (hadmitted : admissionFault? s item = none) :
    Admitted { s with items := s.items ++ [item] } := by
  obtain ⟨rule, hrule, hcheck, hfree⟩ := admissionFault?_eq_none hadmitted
  refine ⟨fun i hi => ?_, fun key other hother hrepeats => ?_, fun i hi => ?_⟩
  · rcases List.mem_append.mp hi with hi | hi
    · exact h.fits i hi
    · obtain rfl := List.mem_singleton.mp hi
      exact ⟨rule, hrule, hcheck⟩
  · rw [itemsAt_append]
    cases hkey : item.key == key with
    | false =>
      rw [if_neg Bool.false_ne_true, List.append_nil]
      exact h.once key other hother hrepeats
    | true =>
      -- The first item under its key.
      obtain rfl := eq_of_beq hkey
      obtain rfl := Option.some.inj (hrule.symm.trans hother)
      have hnone : s.itemsAt item.key = [] :=
        List.filter_eq_nil_iff.mpr (List.find?_eq_none.mp (hfree hrepeats))
      rw [hnone]
      exact Nat.le_refl 1
  · rcases List.mem_append.mp hi with hi | hi
    · exact h.trimmed i hi
    · obtain rfl := List.mem_singleton.mp hi
      exact (parseItem_eq_ok hitem).2

end Section

namespace Document

/-- All sections that are read fit, if the opened one does. -/
theorem Reads.admitted {current : Option Section} {lines : List LogicalLine} {sections : List Section}
    (h : Reads current lines sections) (hcurrent : ∀ s ∈ current, s.Admitted) : ∀ s ∈ sections, s.Admitted := by
  induction h with
  | nil => exact fun s hs => hcurrent s (Option.mem_toList.mp hs)
  | stop => exact fun s hs => hcurrent s (Option.mem_toList.mp hs)
  | header hname hkind hrest ih =>
    intro s hs
    rcases List.mem_append.mp hs with hs | hs
    · exact hcurrent s (Option.mem_toList.mp hs)
    · refine ih (fun opened hopened => ?_) s hs
      cases hopened
      exact Section.admitted_nil ..
  | item hline hitem hadmitted hrest ih =>
    refine ih fun opened hopened => ?_
    cases hopened
    exact (hcurrent _ rfl).append hitem hadmitted

/-- The sections of a document fit the vocabulary. -/
theorem admitted_ofLines {lines : List LogicalLine} {d : Document} (h : ofLines lines = .ok d) :
    ∀ s ∈ d.sections, s.Admitted := by
  obtain ⟨sections, hsections, rfl⟩ := map_eq_ok.1 h
  exact (parseLines_eq_ok.1 hsections).admitted fun s hs => by cases hs

end Document

/-! ## §3 The order of items -/

/-- What a line of a document is: the header of a section, or an item. -/
inductive Entry where
  | header (kind : SectionKind) (location : Location)
  | item (item : Item)
  deriving DecidableEq

/-- The header of a section and its items. -/
def Section.entries (s : Section) : List Entry :=
  .header s.kind s.location :: s.items.map .item

/-- The headers and items of a document in their order. -/
def Document.entries (d : Document) : List Entry :=
  d.sections.flatMap Section.entries

/-- What a logical line is written for. -/
inductive LogicalLine.Writes : LogicalLine → Entry → Prop
  | header {line name kind} (hname : headerName? line.text = some name)
    (hkind : SectionKind.ofName? name = some kind) : Writes line (.header kind line.location)
  | item {line item} (hline : headerName? line.text = none) (hitem : parseItem line = .ok item) :
    Writes line (.item item)

/-- Where an entry was written. -/
def Entry.location : Entry → Location
  | .header _ location => location
  | .item i => i.location

theorem LogicalLine.Writes.location_eq {line : LogicalLine} {e : Entry} (h : line.Writes e) :
    e.location = line.location := by
  cases h with
  | header => rfl
  | item _ hitem => exact (parseItem_eq_ok hitem).1

/-- The lines in front of the header `[end]`. -/
def beforeEnd (lines : List LogicalLine) : List LogicalLine :=
  lines.takeWhile fun line => headerName? line.text != some "end"

namespace Document

/-- The lines that are read are written for what the opened section has besides, and for the later sections. -/
theorem Reads.written {current : Option Section} {lines : List LogicalLine} {sections : List Section}
    (h : Reads current lines sections) : ∃ entries, List.Forall₂ LogicalLine.Writes (beforeEnd lines) entries
      ∧ sections.flatMap Section.entries = current.toList.flatMap Section.entries ++ entries := by
  induction h with
  | nil => exact ⟨[], .nil, (List.append_nil _).symm⟩
  | @stop current line rest hname =>
    have hnone : beforeEnd (line :: rest) = [] := by simp [beforeEnd, hname]
    rw [hnone]
    exact ⟨[], .nil, (List.append_nil _).symm⟩
  | @header current line rest name kind sections hname hkind hrest ih =>
    obtain ⟨entries, hwritten, hentries⟩ := ih
    have hcons : beforeEnd (line :: rest) = line :: beforeEnd rest := by
      simp [beforeEnd, hname, ne_end_of_ofName? hkind]
    rw [hcons, List.flatMap_append, hentries]
    exact ⟨.header kind line.location :: entries, .cons (.header hname hkind) hwritten, rfl⟩
  | @item s line rest item sections hline hitem hadmitted hrest ih =>
    obtain ⟨entries, hwritten, hentries⟩ := ih
    have hcons : beforeEnd (line :: rest) = line :: beforeEnd rest := by simp [beforeEnd, hline]
    rw [hcons, hentries]
    refine ⟨.item item :: entries, .cons (.item hline hitem) hwritten, ?_⟩
    simp [Section.entries]

/-- A document has the headers and the items of its lines in their order. -/
theorem written_ofLines {lines : List LogicalLine} {d : Document} (h : ofLines lines = .ok d) :
    List.Forall₂ LogicalLine.Writes (beforeEnd lines) d.entries := by
  obtain ⟨sections, hsections, rfl⟩ := map_eq_ok.1 h
  obtain ⟨entries, hwritten, hentries⟩ := (parseLines_eq_ok.1 hsections).written
  rw [Document.entries, hentries]
  exact hwritten

/-- The entries of a document stand where its lines do. -/
theorem map_location_entries {lines : List LogicalLine} {d : Document} (h : ofLines lines = .ok d) :
    d.entries.map Entry.location = (beforeEnd lines).map LogicalLine.location :=
  (map_eq_map_of_forall₂ (written_ofLines h) fun _ _ hwrites => hwrites.location_eq.symm).symm

/-- The entries of the text of one file stand on lines in increasing order. -/
theorem pairwise_entries {file text : String} {d : Document} (h : ofLines (logicalLines file text) = .ok d) :
    d.entries.Pairwise fun a b => a.location.line < b.location.line := by
  have hlines : (beforeEnd (logicalLines file text)).Pairwise fun a b => a.location.line < b.location.line :=
    (pairwise_logicalLines file text).sublist (List.takeWhile_sublist _)
  rw [← List.pairwise_map (f := Entry.location) (R := fun a b => a.line < b.line), map_location_entries h,
    List.pairwise_map]
  exact hlines

variable {files : SourceFiles} {scope : Scope} {d : Document}

/-- A document that is read from a text or from a file comes from the lines that are loaded. -/
theorem exists_ofLines {origin text path : String}
    (h : parseText files scope origin text = .ok d ∨ parseFile files scope path = .ok d) :
    ∃ lines, (loadText files scope origin text = .ok lines ∨ loadFile files scope path = .ok lines)
      ∧ ofLines lines = .ok d := by
  unfold parseText parseFile at h
  rcases h with h | h
  · split at h
    · cases h
    · rename_i lines hlines
      exact ⟨lines, .inl hlines, h⟩
  · split at h
    · cases h
    · rename_i lines hlines
      exact ⟨lines, .inr hlines, h⟩

/-- Where nothing is included, the entries of a document stand on lines in increasing order. -/
theorem pairwise_entries_of_no_include {file text : String}
    (hnone : ∀ line ∈ logicalLines file text, isInclude line.text = false)
    (h : parseText files scope file text = .ok d ∨ files.read file = .ok text ∧ parseFile files scope file = .ok d) :
    d.entries.Pairwise fun a b => a.location.line < b.location.line := by
  rcases h with h | ⟨hread, h⟩
  · rw [parseText, loadText_of_no_include hnone] at h
    exact pairwise_entries h
  · rw [parseFile, loadFile_of_no_include hread hnone] at h
    exact pairwise_entries h

end Document

end BenchPlot
