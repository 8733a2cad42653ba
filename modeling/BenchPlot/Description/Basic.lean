import BenchPlot.Decimal.Reading

/-!
# Descriptions

A description of graphs is a document of sections, and a section is a list of items with a key and a
value. Each section and each item knows where it was written.
-/

namespace BenchPlot

/-- A position in a description: a file, and the number of a line in it. -/
structure Location where
  file : String
  line : Nat
  deriving DecidableEq, Repr

/-- The text of a position. -/
def Location.text (l : Location) : String :=
  l.file ++ ":" ++ Decimal.naturalText l.line

/-- The kinds of sections. -/
inductive SectionKind where
  | global
  | graph
  | bench
  | curve
  deriving DecidableEq, Repr

/-- The name of a kind of sections. -/
def SectionKind.name : SectionKind → String
  | .global => "global"
  | .graph => "graph"
  | .bench => "bench"
  | .curve => "curve"

/-- The kind of sections that a name stands for. -/
def SectionKind.ofName? (name : String) : Option SectionKind :=
  [SectionKind.global, .graph, .bench, .curve].find? fun k => k.name == name

/-- An item of a section. -/
structure Item where
  key : String
  value : String
  location : Location
  deriving DecidableEq, Repr

/-- A section with its items in the order in which they were written. -/
structure Section where
  kind : SectionKind
  location : Location
  items : List Item
  deriving DecidableEq, Repr

namespace Section

/-- The first item with a key. -/
def item? (s : Section) (key : String) : Option Item :=
  s.items.find? fun i => i.key == key

/-- The value of the first item with a key. -/
def value? (s : Section) (key : String) : Option String :=
  (s.item? key).map Item.value

/-- All items with a key. -/
def itemsAt (s : Section) (key : String) : List Item :=
  s.items.filter fun i => i.key == key

end Section

/-- A description: its sections in the order in which they were written. -/
structure Document where
  sections : List Section
  deriving DecidableEq, Repr

end BenchPlot
