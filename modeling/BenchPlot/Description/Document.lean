import BenchPlot.Description.Source
import BenchPlot.Description.Vocabulary

/-!
# Reading documents

A logical line is a section header `[name]` or an item `key: value` of the section that was opened
last. Every item must fit the vocabulary of its section. The header `[end]` ends the document; what
follows it is not read as sections and items.
-/

namespace BenchPlot

/-! ## §1 Headers and items -/

/-- The name between the brackets of a section header, in lower case. -/
def headerName? (text : String) : Option String :=
  match text.toList with
  | '[' :: rest =>
    let body := Text.trimStartChars rest
    let name := body.takeWhile fun c => c.isAlpha || c == '_'
    if name.isEmpty then none
    else
      match Text.trimStartChars (body.drop name.length) with
      | [']'] => some (Text.asciiLower (String.ofList name))
      | _ => none
  | _ => none

/-- Whether a text is the key of an item: a lower-case letter or an underscore, and more of these and
    of digits. -/
def isItemKey (key : String) : Bool :=
  match key.toList with
  | [] => false
  | c :: rest => (c.isLower || c == '_') && rest.all fun d => d.isLower || d.isDigit || d == '_'

/-- The item that a logical line is. -/
def parseItem (line : LogicalLine) : Except DescriptionFault Item :=
  match Text.cutAt? ':' line.text with
  | none => .error (.notAnItem line.text)
  | some (key, value) =>
    let key := Text.asciiLower (Text.trim key)
    if isItemKey key then .ok ⟨key, Text.trim value, line.location⟩ else .error (.malformedKey key)

/-- Why an item may not be added to a section: its key must be known, may occur once unless it
    repeats, and its value must fit. -/
def admissionFault? (s : Section) (item : Item) : Option DescriptionFault :=
  match s.kind.vocabulary.find? fun rule => rule.name == item.key with
  | none => some (.unknownKey item.key s.kind)
  | some rule =>
    match if rule.repeats then none else s.item? item.key with
    | some previous => some (.duplicateKey item.key s.kind previous.location.line)
    | none => (rule.check item.value).map (.badValue item.key)

/-! ## §2 Documents -/

namespace Document

/-- The section `current` with the items that the lines add to it, and the sections that follow. The
    sections come in the order in which they were written. -/
def parseLines (current : Option Section) : List LogicalLine → Except DescriptionError (List Section)
  | [] => .ok current.toList
  | line :: rest =>
    match headerName? line.text with
    -- What follows the end is not even looked at.
    | some "end" => .ok current.toList
    | some name =>
      match SectionKind.ofName? name with
      | none => .error ⟨line.location, .unknownSection name⟩
      | some kind => (parseLines (some ⟨kind, line.location, []⟩) rest).map (current.toList ++ ·)
    | none =>
      match current with
      | none => .error ⟨line.location, .itemBeforeSection⟩
      | some s =>
        match parseItem line with
        | .error fault => .error ⟨line.location, fault⟩
        | .ok item =>
          match admissionFault? s item with
          | some fault => .error ⟨line.location, fault⟩
          | none => parseLines (some { s with items := s.items ++ [item] }) rest

/-- The document that logical lines are. -/
def ofLines (lines : List LogicalLine) : Except DescriptionError Document :=
  (parseLines none lines).map Document.mk

/-- The document in the file at a path. -/
def parseFile (files : SourceFiles) (scope : Scope) (path : String) :
    Except DescriptionError Document :=
  match loadFile files scope path with
  | .error e => .error e
  | .ok lines => ofLines lines

/-- The document that a text is; `origin` names the text in messages, and includes are seen from
    there. -/
def parseText (files : SourceFiles) (scope : Scope) (origin text : String) :
    Except DescriptionError Document :=
  match loadText files scope origin text with
  | .error e => .error e
  | .ok lines => ofLines lines

end Document

end BenchPlot
