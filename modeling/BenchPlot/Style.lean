import BenchPlot.Text.Blank
import BenchPlot.SortedMap

/-!
# Styles

The kinds of lines, marks, colours and scales: a closed set that is built in, and the kinds that a
description registers. A kind is chosen by name, or, where no name is given, from the automatic cycle
of its category.

Main definitions: `StyleKind`, `StyleRegistry` with `register` and `resolve`.
-/

namespace BenchPlot

/-! ## §1 Kinds -/

/-- What a style is a style of. -/
inductive StyleCategory where
  | line
  | mark
  | color
  | scale
  deriving DecidableEq, Repr

/-- The built-in kinds of lines. -/
inductive LineKind where
  | solid
  | dashed
  | dotted
  | none
  deriving DecidableEq, Repr

/-- The built-in kinds of marks. -/
inductive MarkKind where
  | none
  | circle
  | square
  | triangle
  | diamond
  | cross
  | star
  deriving DecidableEq, Repr

/-- The built-in colours. -/
inductive ColorKind where
  | black
  | red
  | green
  | blue
  | magenta
  | cyan
  | orange
  | brown
  | gray
  deriving DecidableEq, Repr

/-- The built-in kinds of scales. -/
inductive ScaleKind where
  | linear
  | log
  | category
  deriving DecidableEq, Repr

/-- A registered kind: its name, the text that is shown for it, and what one output format writes
    for it, if anything. -/
structure CustomStyle where
  category : StyleCategory
  name : String
  display : String
  payload : Option String
  deriving DecidableEq, Repr

/-- A style, built in or registered. -/
inductive StyleKind where
  | line (kind : LineKind)
  | mark (kind : MarkKind)
  | color (kind : ColorKind)
  | scale (kind : ScaleKind)
  | custom (style : CustomStyle)
  deriving DecidableEq, Repr

/-- Why a style cannot be registered or found. -/
inductive StyleError where
  | invalidName (category : StyleCategory) (name : String)
  | alreadyDefined (category : StyleCategory) (name : String)
  | unknown (category : StyleCategory) (name : String)
  deriving DecidableEq, Repr

/-! ## §2 Names -/

namespace StyleCategory

/-- The name of a category. -/
def name : StyleCategory → String
  | .line => "line"
  | .mark => "mark"
  | .color => "color"
  | .scale => "scale"

/-- The category that a text names, in any letter case and with blanks around it. -/
def ofName? (text : String) : Option StyleCategory :=
  [StyleCategory.line, .mark, .color, .scale].find?
    fun c => c.name == Text.asciiLower (Text.trim text)

end StyleCategory

/-- The name of a kind of lines. -/
def LineKind.name : LineKind → String
  | .solid => "solid"
  | .dashed => "dashed"
  | .dotted => "dotted"
  | .none => "none"

/-- The name of a kind of marks. -/
def MarkKind.name : MarkKind → String
  | .none => "none"
  | .circle => "circle"
  | .square => "square"
  | .triangle => "triangle"
  | .diamond => "diamond"
  | .cross => "cross"
  | .star => "star"

/-- The name of a colour. -/
def ColorKind.name : ColorKind → String
  | .black => "black"
  | .red => "red"
  | .green => "green"
  | .blue => "blue"
  | .magenta => "magenta"
  | .cyan => "cyan"
  | .orange => "orange"
  | .brown => "brown"
  | .gray => "gray"

/-- The name of a kind of scales. -/
def ScaleKind.name : ScaleKind → String
  | .linear => "linear"
  | .log => "log"
  | .category => "category"

namespace StyleKind

/-- The name of a style. -/
def name : StyleKind → String
  | .line k => k.name
  | .mark k => k.name
  | .color k => k.name
  | .scale k => k.name
  | .custom s => s.name

/-- The text that is shown for a style. -/
def display : StyleKind → String
  | .custom s => s.display
  | k => k.name

/-- What one output format writes for a style, if anything is set. -/
def payload? : StyleKind → Option String
  | .custom s => s.payload
  | _ => none

/-- The scale that a style means. A registered scale is linear. -/
def scaleKind : StyleKind → ScaleKind
  | .scale k => k
  | _ => .linear

end StyleKind

/-- The message of a failure. -/
def StyleError.message : StyleError → String
  | .invalidName category name => s!"invalid {category.name} kind name '{name}'"
  | .alreadyDefined category name => s!"{category.name} kind '{name}' is already defined"
  | .unknown category name => s!"unknown {category.name} kind '{name}'"

/-! ## §3 Built-in kinds -/

namespace StyleCategory

/-- The built-in kinds of a category. -/
def builtins : StyleCategory → List StyleKind
  | .line => [LineKind.solid, .dashed, .dotted, .none].map .line
  | .mark => [MarkKind.none, .circle, .square, .triangle, .diamond, .cross, .star].map .mark
  | .color =>
    [ColorKind.black, .red, .green, .blue, .magenta, .cyan, .orange, .brown, .gray].map .color
  | .scale => [ScaleKind.linear, .log, .category].map .scale

/-- The kinds that are chosen in turn where no name is given: the visible ones of the category. -/
def cycle : StyleCategory → List StyleKind
  | .line => [LineKind.solid, .dashed, .dotted].map .line
  | .mark => [MarkKind.circle, .square, .triangle, .diamond, .cross, .star].map .mark
  | .color => builtins .color
  | .scale => [.scale .linear]

/-- The kind that stands at a place of the cycle, which starts again after its end. -/
def automatic (category : StyleCategory) (index : Nat) : StyleKind :=
  let kinds := category.cycle
  kinds.getD (index % kinds.length) (.scale .linear)

end StyleCategory

/-! ## §4 The registry -/

/-- The registered kinds. -/
structure StyleRegistry where
  customs : List CustomStyle
  deriving DecidableEq, Repr

namespace StyleRegistry

/-- The registry in which nothing is registered. -/
def empty : StyleRegistry := ⟨[]⟩

instance : Inhabited StyleRegistry := ⟨empty⟩

/-- The name that asks for an automatic choice. -/
def automaticName : String := "auto"

/-- The form of a name under which kinds are kept: without blanks around it, in lower case. -/
def key (name : String) : String :=
  Text.asciiLower (Text.trim name)

/-- The kind of a category that a name stands for. -/
def lookup? (r : StyleRegistry) (category : StyleCategory) (name : String) : Option StyleKind :=
  match category.builtins.find? fun k => k.name == key name with
  | some k => some k
  | none => (r.customs.find? fun s => s.category == category && s.name == key name).map .custom

/-- The registry with a further kind. Neither a built-in nor a registered kind can be redefined. -/
def register (r : StyleRegistry) (style : CustomStyle) : Except StyleError StyleRegistry :=
  let name := key style.name
  if name == "" || name == automaticName then .error (.invalidName style.category style.name)
  else if (r.lookup? style.category name).isSome then
    .error (.alreadyDefined style.category name)
  else .ok ⟨r.customs ++ [⟨style.category, name, style.display, style.payload⟩]⟩

/-- Whether a name asks for an automatic choice. -/
def isAutomatic (name : String) : Bool :=
  key name == automaticName

/-- The style that a configured name stands for, or the automatic one at `index`. -/
def resolve (r : StyleRegistry) (category : StyleCategory) (name : Option String) (index : Nat) :
    Except StyleError StyleKind :=
  match name with
  | none => .ok (category.automatic index)
  | some name =>
    if isAutomatic name then .ok (category.automatic index)
    else
      match r.lookup? category name with
      | some k => .ok k
      | none => .error (.unknown category (Text.trim name))

/-- Whether a name can be configured. -/
def isKnown (r : StyleRegistry) (category : StyleCategory) (name : String) : Bool :=
  isAutomatic name || (r.lookup? category name).isSome

end StyleRegistry

end BenchPlot
