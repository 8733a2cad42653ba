import BenchPlot.Proofs.SortedMap
import BenchPlot.Proofs.Store.Columns
import BenchPlot.Proofs.Text.Utf8
import BenchPlot.Store.Import

/-!
# What digests of rows are made of

The digest that identifies a row is taken of its values, each on a line of its own behind the name of its field.
Names hold no line feed and no equals sign, but values may hold both; so a value that holds a line which begins
like that of another field can stand for several values. Two rows with one text are the same, blanks around the
values apart, if at least one of them has no such value.

Main statements: `map_trimmed_of_contentText` and `find?_of_contentBytes`.
-/

namespace BenchPlot

/-! ## §1 Lines inside texts -/

section Lines

variable {α : Type} {a : α} {mark front rest : List α}

/-- What begins with an element that a front does not hold begins behind the front. -/
theorem isInfix_behind (h : (a :: mark) <:+: front ++ rest) (hfront : a ∉ front) : (a :: mark) <:+: rest := by
  obtain ⟨before, after, h⟩ := h
  rw [List.append_assoc] at h
  rcases List.append_eq_append_iff.mp h with ⟨as, hcut, hrest⟩ | ⟨bs, _, hrest⟩
  · cases as with
    | nil => exact ⟨[], after, by simpa using hrest⟩
    | cons b as =>
      -- The front would hold the first element.
      obtain ⟨rfl, _⟩ := List.cons.inj hrest
      rw [hcut] at hfront
      exact absurd (List.mem_append_right _ (List.mem_cons_self ..)) hfront
  · exact ⟨bs, after, by rw [hrest, List.append_assoc]⟩

/-- What begins with an element, and does not hold it again, stands before that element or begins with it or
    behind it. -/
theorem isInfix_cut (h : (a :: mark) <:+: front ++ a :: rest) (hmark : a ∉ mark) :
    (a :: mark) <:+: front ∨ (a :: mark) <:+: a :: rest := by
  obtain ⟨before, after, h⟩ := h
  rw [List.append_assoc] at h
  rcases List.append_eq_append_iff.mp h with ⟨as, hcut, hrest⟩ | ⟨bs, _, hrest⟩
  · cases as with
    | nil => exact .inr ⟨[], after, by simpa using hrest⟩
    | cons b as =>
      obtain ⟨rfl, htail⟩ := List.cons.inj hrest
      -- It begins in the front. It does not go on past the front, since it would hold the element again.
      rcases List.append_eq_append_iff.mp htail with ⟨cs, hinside, _⟩ | ⟨cs, hpast, hbehind⟩
      · refine .inl ⟨before, cs, ?_⟩
        rw [hcut, hinside, List.append_assoc]
        rfl
      · cases cs with
        | nil =>
          refine .inl ⟨before, [], ?_⟩
          rw [hcut, hpast, List.append_nil, List.append_nil]
        | cons c cs =>
          obtain ⟨rfl, _⟩ := List.cons.inj hbehind
          rw [hpast] at hmark
          exact absurd (List.mem_append_right _ (List.mem_cons_self ..)) hmark
  · exact .inr ⟨bs, after, by rw [hrest, List.append_assoc]⟩

/-- Two words before an element that neither holds are one word. -/
theorem eq_of_prefix_concat {word other : List α} (hword : a ∉ word) (hother : a ∉ other)
    (h : word ++ [a] <+: other ++ a :: rest) : word = other := by
  obtain ⟨after, h⟩ := h
  rw [List.append_assoc] at h
  rcases List.append_eq_append_iff.mp h with ⟨as, rfl, hrest⟩ | ⟨bs, rfl, hrest⟩
  · cases as with
    | nil => exact (List.append_nil _).symm
    | cons b as =>
      cases hrest
      exact absurd (List.mem_append_right _ (List.mem_cons_self ..)) hother
  · cases bs with
    | nil => exact List.append_nil _
    | cons b bs =>
      cases hrest
      exact absurd (List.mem_append_right _ (List.mem_cons_self ..)) hword

end Lines

/-! ## §2 The text of a row -/

/-- The lines of values behind the names of their fields. -/
def contentText (entries : List (String × String)) : List Char :=
  entries.flatMap fun entry => entry.1.toList ++ '=' :: (Text.trim entry.2).toList ++ ['\n']

/-- The bytes that the digest of a row is taken of. -/
def contentBytes (values : SortedMap String String) : List UInt8 :=
  Text.encode (String.ofList (contentText values.entries))

theorem contentKey_eq (values : SortedMap String String) :
    contentKey values = String.ofList ((Sha256.digestText (contentBytes values)).toList.take 16) :=
  rfl

/-- How the line of a field begins behind another line. -/
def fieldMark (name : String) : List Char :=
  '\n' :: (name.toList ++ ['='])

/-- No value holds a line that begins like that of a field with one of the names. -/
def WithoutMarks (names : List String) (values : List String) : Prop :=
  ∀ name ∈ names, ∀ value ∈ values, ¬fieldMark name <:+: (Text.trim value).toList

/-- A name that can stand before an equals sign on a line. -/
structure IsLineName (name : String) : Prop where
  noFeed : '\n' ∉ name.toList
  noEquals : '=' ∉ name.toList

theorem IsCanonical.isLineName {name : String} (h : IsCanonical name) : IsLineName name := by
  have hword : ∀ c, Sql.isWordChar c = false → c ∉ name.toList := by
    intro c hc hmem
    obtain ⟨d, rfl⟩ := h.exists_foldChar hmem
    rw [isWordChar_foldChar] at hc
    cases hc
  exact ⟨hword '\n' (by decide), hword '=' (by decide)⟩

section Content

variable {name : String} {entry : String × String} {entries rest : List (String × String)}

theorem contentText_cons (entry : String × String) (rest : List (String × String)) :
    contentText (entry :: rest)
      = (entry.1.toList ++ ['=']) ++ ((Text.trim entry.2).toList ++ '\n' :: contentText rest) := by
  simp [contentText]

theorem IsLineName.noFeed_front (h : IsLineName name) : '\n' ∉ name.toList ++ ['='] := by
  intro hmem
  rcases List.mem_append.mp hmem with hname | hequals
  · exact h.noFeed hname
  · exact absurd (List.mem_singleton.mp hequals) (by decide)

/-- The lines behind a line hold no line of a field that is not among them. -/
theorem not_mark_behind (hname : IsLineName name) (hlines : ∀ e ∈ entries, IsLineName e.1)
    (hother : name ∉ entries.map (·.1))
    (hmarks : ∀ e ∈ entries, ¬fieldMark name <:+: (Text.trim e.2).toList) :
    ¬fieldMark name <:+: '\n' :: contentText entries := by
  induction entries with
  | nil =>
    intro h
    have hlength := h.length_le
    simp [fieldMark, contentText] at hlength
  | cons entry rest ih =>
    rw [contentText_cons]
    intro h
    have hentry := hlines entry (List.mem_cons_self ..)
    rcases List.infix_cons_iff.mp h with hprefix | hlater
    · -- The first line would be that of the field.
      have hcut := (List.prefix_cons_inj '\n').mp hprefix
      rw [List.append_assoc, List.singleton_append] at hcut
      have hsame := eq_of_prefix_concat hname.noEquals hentry.noEquals hcut
      exact hother (String.toList_inj.mp hsame ▸ List.mem_cons_self ..)
    · rcases isInfix_cut (isInfix_behind hlater hentry.noFeed_front) hname.noFeed_front with hvalue | hrest
      · exact hmarks entry (List.mem_cons_self ..) hvalue
      · exact ih (fun e he => hlines e (List.mem_cons_of_mem _ he)) (fun hmem => hother (List.mem_cons_of_mem _ hmem))
          (fun e he => hmarks e (List.mem_cons_of_mem _ he)) hrest

/-- Lines hold no further line of the field that the first of them is about. -/
theorem not_mark_contentText (hname : IsLineName name) (hentry : IsLineName entry.1)
    (hlines : ∀ e ∈ rest, IsLineName e.1) (hother : name ∉ rest.map (·.1))
    (hmarks : ∀ e ∈ entry :: rest, ¬fieldMark name <:+: (Text.trim e.2).toList) :
    ¬fieldMark name <:+: contentText (entry :: rest) := by
  rw [contentText_cons]
  intro h
  rcases isInfix_cut (isInfix_behind h hentry.noFeed_front) hname.noFeed_front with hvalue | hrest
  · exact hmarks entry (List.mem_cons_self ..) hvalue
  · exact not_mark_behind hname hlines hother (fun e he => hmarks e (List.mem_cons_of_mem _ he)) hrest

/-- Lines without such values do not end in a line feed and lines of the same fields. -/
theorem contentText_ne {rest' : List (String × String)} (hnames : rest.map (·.1) = rest'.map (·.1))
    (hnodup : (rest.map (·.1)).Nodup) (hlines : ∀ e ∈ rest, IsLineName e.1)
    (hmarks : WithoutMarks (rest.map (·.1)) (rest.map (·.2))) (before : List Char) :
    contentText rest ≠ before ++ '\n' :: contentText rest' := by
  intro h
  cases rest with
  | nil =>
    have hlength := congrArg List.length h
    simp [contentText] at hlength
  | cons entry rest =>
    cases rest' with
    | nil => cases hnames
    | cons entry' rest' =>
      -- The later lines would begin with a second line of the first field.
      have hname : entry.1 = entry'.1 := (List.cons.inj hnames).1
      have hentry := hlines entry (List.mem_cons_self ..)
      apply not_mark_contentText hentry hentry (fun e he => hlines e (List.mem_cons_of_mem _ he))
        (List.nodup_cons.mp hnodup).1
        (fun e he => hmarks entry.1 (List.mem_cons_self ..) e.2 (List.mem_map_of_mem he))
      rw [h, contentText_cons, ← hname]
      exact ⟨before, (Text.trim entry'.2).toList ++ '\n' :: contentText rest', by simp [fieldMark]⟩

/-- What stands before a line feed and the lines behind it begins like the first line, if the whole does. -/
theorem exists_front_of_split {rest' : List (String × String)} (hnames : rest.map (·.1) = rest'.map (·.1))
    (hlines : ∀ e ∈ rest, IsLineName e.1) {before : List Char}
    (h : contentText rest' = before ++ '\n' :: contentText rest) :
    ∃ name ∈ rest.map (·.1), name.toList ++ ['='] <+: before := by
  cases rest' with
  | nil =>
    have hlength := congrArg List.length h
    simp [contentText] at hlength
  | cons entry' rest' =>
    cases rest with
    | nil => cases hnames
    | cons entry rest =>
      have hname : entry.1 = entry'.1 := (List.cons.inj hnames).1
      refine ⟨entry.1, List.mem_cons_self .., ?_⟩
      rw [contentText_cons, ← hname] at h
      rcases List.append_eq_append_iff.mp h with ⟨as, rfl, _⟩ | ⟨bs, hcut, hrest⟩
      · exact List.prefix_append _ _
      · cases bs with
        | nil =>
          rw [List.append_nil] at hcut
          rw [hcut]
        | cons b bs =>
          -- The line feed would be part of the name.
          obtain ⟨rfl, _⟩ := List.cons.inj hrest
          have hfeed := (hlines entry (List.mem_cons_self ..)).noFeed_front
          rw [hcut] at hfeed
          exact absurd (List.mem_append_right _ (List.mem_cons_self ..)) hfeed

/-- Lines of the same fields tell their values apart, blanks around the values aside, if the values of one of the
    two rows hold no line that begins like that of a field. -/
theorem map_trimmed_of_contentText {entries' : List (String × String)}
    (hnames : entries.map (·.1) = entries'.map (·.1)) (hnodup : (entries.map (·.1)).Nodup)
    (hlines : ∀ e ∈ entries, IsLineName e.1) (hmarks : WithoutMarks (entries.map (·.1)) (entries.map (·.2)))
    (h : contentText entries = contentText entries') :
    entries.map (fun e => (e.1, Text.trim e.2)) = entries'.map fun e => (e.1, Text.trim e.2) := by
  -- Along the fields: the first values end at one place, and the lines behind them are those of the other fields.
  induction entries generalizing entries' with
  | nil =>
    obtain rfl := List.map_eq_nil_iff.mp hnames.symm
    rfl
  | cons entry rest ih =>
    cases entries' with
    | nil => cases hnames
    | cons entry' rest' =>
      have hname : entry.1 = entry'.1 := (List.cons.inj hnames).1
      have hnames := (List.cons.inj hnames).2
      have hlater : ∀ e ∈ rest, IsLineName e.1 := fun e he => hlines e (List.mem_cons_of_mem _ he)
      have hbehind : WithoutMarks (rest.map (·.1)) (rest.map (·.2)) := fun name hmem value hvalue =>
        hmarks name (List.mem_cons_of_mem _ hmem) value (List.mem_cons_of_mem _ hvalue)
      rw [contentText_cons, contentText_cons, hname] at h
      -- It is enough that the first values are the same.
      suffices hvalue : (Text.trim entry.2).toList = (Text.trim entry'.2).toList by
        rw [hvalue] at h
        have hrest := List.append_cancel_left (List.append_cancel_left h)
        rw [List.map_cons, List.map_cons, hname, String.toList_inj.mp hvalue,
          ih hnames (List.nodup_cons.mp hnodup).2 hlater hbehind (List.cons.inj hrest).2]
      rcases List.append_eq_append_iff.mp (List.append_cancel_left h) with ⟨as, hvalue, hrest⟩ | ⟨bs, hvalue, hrest⟩
      · cases as with
        | nil => rw [hvalue, List.append_nil]
        | cons a as =>
          obtain ⟨rfl, hlines⟩ := List.cons.inj hrest
          exact absurd hlines (contentText_ne hnames (List.nodup_cons.mp hnodup).2 hlater hbehind as)
      · cases bs with
        | nil => rw [hvalue, List.append_nil]
        | cons b bs =>
          -- The first value would hold a line that begins like that of a field.
          obtain ⟨rfl, hlines⟩ := List.cons.inj hrest
          obtain ⟨name, hmem, after, hfront⟩ := exists_front_of_split hnames hlater hlines
          refine absurd ?_ (hmarks name (List.mem_cons_of_mem _ hmem) entry.2 (List.mem_cons_self ..))
          rw [hvalue, ← hfront]
          exact ⟨(Text.trim entry'.2).toList, after, by simp [fieldMark]⟩

end Content

/-- Rows of the same fields tell their values apart by the bytes that their digests are taken of, blanks around the
    values aside, if the values of one of the two hold no line that begins like that of a field. -/
theorem find?_of_contentBytes {values values' : SortedMap String String} (hsorted : values.Sorted)
    (hkeys : values.keys = values'.keys) (hnames : ∀ name ∈ values.keys, IsLineName name)
    (hmarks : WithoutMarks values.keys values.values) (h : contentBytes values = contentBytes values')
    (name : String) : (values.find? name).map Text.trim = (values'.find? name).map Text.trim := by
  have htext := String.ofList_injective (Text.encode_injective h)
  have htrimmed := map_trimmed_of_contentText hkeys hsorted.nodup_keys
    (fun e he => hnames e.1 (List.mem_map_of_mem he)) hmarks htext
  have hfind : ∀ m : SortedMap String String, (m.find? name).map Text.trim
      = ((m.entries.map fun e => (e.1, Text.trim e.2)).find? fun e => compare name e.1 == .eq).map (·.2) := by
    intro m
    rw [List.find?_map, SortedMap.find?, Option.map_map, Option.map_map]
    rfl
  rw [hfind, hfind, htrimmed]

end BenchPlot
