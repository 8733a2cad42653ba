import BenchPlot.Text.Pieces

/-!
# Element trees

Trees of elements with attributes, and their two written forms: all tags in one line, or each tag on a
line of its own, indented by its depth. An element is closed by a tag of its own, or by its opening tag
alone where it can have no children.
-/

namespace BenchPlot

/-- An element with its attributes. -/
inductive XmlNode where
  /-- An element with a closing tag. -/
  | element (name : String) (attributes : List (String × String)) (children : List XmlNode)
  /-- An element that its opening tag closes. -/
  | single (name : String) (attributes : List (String × String))

/-- A tag of a written tree. -/
inductive XmlTag where
  | declaration
  | opening (name : String) (attributes : List (String × String))
  | closing (name : String)
  | single (name : String) (attributes : List (String × String))
  deriving DecidableEq, Repr

namespace XmlTag

/-! ## §1 Texts of tags -/

/-- A character of the value of an attribute. -/
def escapedChar (c : Char) : List Char :=
  if c == '<' then "&lt;".toList
  else if c == '>' then "&gt;".toList
  else if c == '&' then "&amp;".toList
  else if c == '\'' then "&apos;".toList
  else if c == '"' then "&quot;".toList
  else [c]

/-- The value of an attribute as it is written. -/
def escape (s : String) : String :=
  String.ofList (s.toList.flatMap escapedChar)

/-- A name with the attributes behind it. -/
def head (name : String) (attributes : List (String × String)) : String :=
  name ++ String.join (attributes.map fun a => " " ++ a.1 ++ "=\"" ++ escape a.2 ++ "\"")

/-- The text of a tag. -/
def text : XmlTag → String
  | .declaration => "<?xml version=\"1.0\" encoding=\"UTF-8\"?>"
  | .opening name attributes => "<" ++ head name attributes ++ ">"
  | .closing name => "</" ++ name ++ ">"
  | .single name attributes => "<" ++ head name attributes ++ "/>"

end XmlTag

namespace XmlNode

/-! ## §2 Tags of trees -/

mutual

/-- The tags of an element at a depth, each with its own depth. -/
def tags (depth : Nat) : XmlNode → List (Nat × XmlTag)
  | .element name attributes children =>
    (depth, .opening name attributes) :: (tagsOfAll (depth + 1) children ++ [(depth, .closing name)])
  | .single name attributes => [(depth, .single name attributes)]

/-- The tags of several elements at a depth. -/
def tagsOfAll (depth : Nat) : List XmlNode → List (Nat × XmlTag)
  | [] => []
  | node :: rest => tags depth node ++ tagsOfAll depth rest

end

/-- The tags of a document: a declaration in front of those of its element. -/
def documentTags (node : XmlNode) : List (Nat × XmlTag) :=
  (0, .declaration) :: node.tags 0

/-- The document with all tags in one line. -/
def compact (node : XmlNode) : String :=
  String.join ((documentTags node).map fun t => t.2.text) ++ "\n"

/-- The document with each tag on a line of its own, `indent` spaces further in for each depth. -/
def pretty (indent : Nat) (node : XmlNode) : String :=
  String.join ((documentTags node).map fun t => Text.repeated ' ' (indent * t.1) ++ t.2.text ++ "\n")

end XmlNode

end BenchPlot
