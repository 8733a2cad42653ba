import BenchPlot.Proofs.Output.PointRecords
import BenchPlot.Proofs.Output.Tags

/-!
# Texts in element trees

The tags of a written tree are nested and can be read back, in one line or indented, whatever the values of the
attributes are; the two forms differ only in their layout. So every text of a layout is found in the document that
shows the layout: titles, labels, the names of kinds and the written values.

Main statements: `XmlNode.areNested_tagRow`, `XmlNode.read?_pretty`, `XmlNode.withoutLayout_pretty` and
`Layout.readsBack_plotXml`.
-/

namespace BenchPlot

namespace XmlNode

/-! ## §1 Trees and their tags -/

/-- The tags of a document in their order. -/
def tagRow (node : XmlNode) : List XmlTag :=
  (documentTags node).map Prod.snd

mutual

/-- The tags of a tree leave the elements around it open, and no other. -/
theorem foldlM_nest_tags (inner : List String) (depth : Nat) :
    ∀ node : XmlNode, ((node.tags depth).map Prod.snd).foldlM XmlTag.nest inner = some inner
  | .element name attributes children => by
    have hchildren := foldlM_nest_tagsOfAll (name :: inner) (depth + 1) children
    rw [tags, List.map_cons, List.map_append, List.foldlM_cons]
    show ((tagsOfAll (depth + 1) children).map Prod.snd ++ [XmlTag.closing name]).foldlM XmlTag.nest (name :: inner) = _
    rw [List.foldlM_append, hchildren]
    show XmlTag.nest (name :: inner) (.closing name) >>= some = _
    rw [XmlTag.nest, if_pos rfl]
    rfl
  | .single name attributes => by
    rw [tags]
    rfl

theorem foldlM_nest_tagsOfAll (inner : List String) (depth : Nat) :
    ∀ nodes : List XmlNode, ((tagsOfAll depth nodes).map Prod.snd).foldlM XmlTag.nest inner = some inner
  | [] => rfl
  | node :: rest => by
    rw [tagsOfAll, List.map_append, List.foldlM_append, foldlM_nest_tags inner depth node]
    exact foldlM_nest_tagsOfAll inner depth rest

end

/-- The tags of a document are nested. -/
theorem areNested_tagRow (node : XmlNode) : XmlTag.AreNested node.tagRow := by
  rw [XmlTag.AreNested, tagRow, documentTags, List.map_cons, List.foldlM_cons]
  exact foldlM_nest_tags [] 0 node

/-- A tree whose elements and attributes have names. -/
inductive IsNamed : XmlNode → Prop
  | element {name attributes children} (h : XmlTag.AreNames name attributes)
    (hchildren : ∀ node ∈ children, IsNamed node) : IsNamed (.element name attributes children)
  | single {name attributes} (h : XmlTag.AreNames name attributes) : IsNamed (.single name attributes)

variable {node : XmlNode}

theorem IsNamed.tags (h : node.IsNamed) (depth : Nat) : ∀ t ∈ node.tags depth, t.2.IsNamed := by
  induction h generalizing depth with
  | single h =>
    intro t ht
    rw [XmlNode.tags, List.mem_singleton] at ht
    rw [ht]
    exact h
  | element h _ ih =>
    intro t ht
    rw [XmlNode.tags, tagsOfAll_eq_flatMap, List.mem_cons, List.mem_append, List.mem_singleton] at ht
    rcases ht with rfl | ht | rfl
    · exact h
    · obtain ⟨child, hchild, ht⟩ := List.mem_flatMap.mp ht
      exact ih child hchild _ t ht
    · exact h.1

theorem IsNamed.tagRow (h : node.IsNamed) : ∀ t ∈ node.tagRow, t.IsNamed := by
  intro t ht
  obtain ⟨p, hp, rfl⟩ := List.mem_map.mp ht
  rcases List.mem_cons.mp hp with rfl | hp
  · trivial
  · exact h.tags 0 p hp

/-! ## §2 Written trees -/

theorem toList_compact (node : XmlNode) :
    node.compact.toList = (node.tagRow.flatMap fun t => t.text.toList) ++ ['\n'] := by
  unfold compact tagRow
  rw [String.toList_append, String.toList_join, List.flatMap_map, List.flatMap_map]
  rfl

/-- Tags in one line have no layout in front of them. -/
theorem spaced_flatMap (last : List Char) (ts : List XmlTag) :
    XmlTag.Spaced last ts ((ts.flatMap fun t => t.text.toList) ++ last) := by
  induction ts with
  | nil => exact .stop
  | cons t ts ih =>
    have htag : XmlTag.Spaced last (t :: ts) ([] ++ t.text.toList ++ ((ts.flatMap fun t => t.text.toList) ++ last)) :=
      ih.tag fun c hc => nomatch hc
    rw [List.flatMap_cons, List.append_assoc]
    exact htag

/-- An indented line. -/
def line (indent : Nat) (t : Nat × XmlTag) : List Char :=
  List.replicate (indent * t.1) ' ' ++ t.2.text.toList ++ ['\n']

theorem isLayout_replicate {n : Nat} : ∀ c ∈ List.replicate n ' ', XmlTag.isLayout c = true := by
  intro c hc
  rw [List.eq_of_mem_replicate hc]
  rfl

/-- The line feed of a line counts as layout of the next one. -/
theorem spaced_lines (indent : Nat) (ts : List (Nat × XmlTag)) :
    XmlTag.Spaced ['\n'] (ts.map Prod.snd) ('\n' :: ts.flatMap (line indent)) := by
  induction ts with
  | nil => exact .stop
  | cons t ts ih =>
    have hlayout : ∀ c ∈ '\n' :: List.replicate (indent * t.1) ' ', XmlTag.isLayout c = true :=
      List.forall_mem_cons.mpr ⟨rfl, isLayout_replicate⟩
    have htag := ih.tag (t := t.2) hlayout
    simpa only [List.map_cons, List.flatMap_cons, line, List.cons_append, List.append_assoc, List.nil_append] using htag

theorem spaced_pretty (indent : Nat) (node : XmlNode) :
    XmlTag.Spaced ['\n'] node.tagRow (node.pretty indent).toList := by
  have htext : (node.pretty indent).toList = (documentTags node).flatMap (line indent) := by
    unfold pretty line Text.repeated
    rw [String.toList_join, List.flatMap_map]
    simp
  have htag := (spaced_lines indent (node.tags 0)).tag (t := .declaration) (isLayout_replicate (n := indent * 0))
  rw [htext, tagRow, documentTags]
  simpa only [List.map_cons, List.flatMap_cons, line, List.append_assoc, List.singleton_append] using htag

theorem isLayout_lineFeed : ∀ c ∈ ['\n'], XmlTag.isLayout c = true :=
  List.forall_mem_singleton.mpr rfl

/-- A document in one line is read back. -/
theorem read?_compact (h : node.IsNamed) : XmlTag.read? node.compact = some node.tagRow := by
  rw [XmlTag.read?, toList_compact]
  exact (spaced_flatMap ['\n'] node.tagRow).ofPieces?_piecesAt isLayout_lineFeed h.tagRow

/-- An indented document is read back. -/
theorem read?_pretty (h : node.IsNamed) (indent : Nat) : XmlTag.read? (node.pretty indent) = some node.tagRow :=
  (spaced_pretty indent node).ofPieces?_piecesAt isLayout_lineFeed h.tagRow

/-- Without layout an indented document is the document in one line. -/
theorem withoutLayout_pretty (h : node.IsNamed) (indent : Nat) :
    XmlTag.withoutLayout (node.pretty indent) = node.compact := by
  rw [XmlTag.withoutLayout, (spaced_pretty indent node).withoutLayout_eq isLayout_lineFeed h.tagRow, ← toList_compact,
    String.ofList_toList]

/-! ## §3 Texts of attributes -/

/-- The texts that the elements with a name have as an attribute, if they have it, in the order of the elements. -/
def textsAt (element key : String) (depth : Nat) (node : XmlNode) : List (Option String) :=
  (node.attributesAt element depth).map (List.lookup key)

variable {element key tag : String} {depth : Nat} {attributes : List (String × String)}

theorem textsAt_single : textsAt element key depth (.single tag attributes)
    = if tag = element then [attributes.lookup key] else [] := by
  rw [textsAt, attributesAt, tags, List.filterMap_cons, List.filterMap_nil, XmlTag.attributesOf?]
  split <;> simp_all

theorem textsAt_element (children : List XmlNode) : textsAt element key depth (.element tag attributes children)
    = (if tag = element then [attributes.lookup key] else [])
      ++ children.flatMap (textsAt element key (depth + 1)) := by
  have hclosing : (XmlTag.closing tag).attributesOf? element = none := rfl
  have hopening : (XmlTag.opening tag attributes).attributesOf? element
      = if tag = element then some attributes else none := rfl
  have hchildren : ((tagsOfAll (depth + 1) children).filterMap fun t => t.2.attributesOf? element)
      = children.flatMap (attributesAt element (depth + 1)) := by
    rw [tagsOfAll_eq_flatMap, List.filterMap_flatMap]
    rfl
  rw [textsAt, attributesAt, tags, List.filterMap_cons, List.filterMap_append, List.filterMap_cons, hclosing, hopening,
    List.filterMap_nil, List.append_nil, hchildren]
  unfold textsAt
  rw [← List.map_flatMap]
  by_cases htag : tag = element
  · rw [if_pos htag, if_pos htag]
    rfl
  · rw [if_neg htag, if_neg htag]
    rfl

end XmlNode

/-- The texts that the elements with a name have as an attribute, if they have it, in the order of their tags. -/
def XmlTag.textsOf (element key : String) (ts : List XmlTag) : List (Option String) :=
  (ts.filterMap (attributesOf? element)).map (List.lookup key)

theorem XmlNode.textsOf_tagRow (element key : String) (node : XmlNode) :
    XmlTag.textsOf element key node.tagRow = node.textsAt element key 0 := by
  rw [XmlTag.textsOf, tagRow, List.filterMap_map, textsAt, ← attributesOf_eq]
  rfl

namespace PlotXml

/-! ## §4 Texts of a layout -/

/-- The texts that a graph shows, each with its attribute; and those of an axis, a tick, a curve and a point. -/
def graphTexts : List (String × (GraphLayout Float → Option String)) :=
  [("title", fun g => g.title), ("xtype", fun g => g.x.scale.display), ("ytype", fun g => g.y.scale.display),
    ("legend", fun g => g.legend.name)]

def axisTexts : List (String × (AxisLayout → Option String)) :=
  [("type", fun a => a.scale.display), ("label", AxisLayout.label)]

def tickTexts : List (String × (Tick → Option String)) :=
  [("label", fun t => t.label)]

def curveTexts : List (String × (CurveLayout → Option String)) :=
  [("label", fun c => c.label), ("line", fun c => c.line.display), ("mark", fun c => c.mark.display),
    ("color", fun c => c.color.display), ("marktext", CurveLayout.markText)]

def pointTexts : List (String × (PlotPoint Float → Option String)) :=
  [("rawx", fun p => p.rawX.display), ("rawy", fun p => p.rawY.display)]

/-! The attributes of a graph, an axis and a curve. -/

def graphAttributes (g : GraphLayout Float) : List (String × String) :=
  [("title", g.title), ("xtype", g.x.scale.display), ("ytype", g.y.scale.display), ("legend", g.legend.name)]
    ++ flag "grid" g.grid

def axisAttributes (name : String) (a : AxisLayout) : List (String × String) :=
  [("name", name), ("type", a.scale.display)] ++ optional "label" a.label
    ++ optional "min" (a.range.1.map numberText) ++ optional "max" (a.range.2.map numberText)

def curveAttributes (c : CurveLayout) : List (String × String) :=
  [("id", Decimal.naturalText c.id), ("label", c.label), ("line", c.line.display), ("mark", c.mark.display),
    ("color", c.color.display)] ++ flag "bar" c.bar ++ optional "marktext" c.markText

theorem axisNode_eq (name : String) (a : AxisLayout) : axisNode name a
    = if a.ticks.isEmpty then .single "axis" (axisAttributes name a)
      else .element "axis" (axisAttributes name a) (a.ticks.map tickNode) :=
  rfl

theorem lookup_graphAttributes {p} (hp : p ∈ graphTexts) (g : GraphLayout Float) :
    (graphAttributes g).lookup p.1 = p.2 g := by
  revert p
  simp only [graphTexts, List.forall_mem_cons, List.not_mem_nil, false_implies, implies_true, and_true]
  exact ⟨rfl, rfl, rfl, rfl⟩

/-- Behind the type comes the label, if there is one, in front of the range. -/
theorem lookup_axisAttributes {p} (hp : p ∈ axisTexts) (name : String) (a : AxisLayout) :
    (axisAttributes name a).lookup p.1 = p.2 a := by
  revert p
  simp only [axisTexts, axisAttributes, List.forall_mem_cons, List.not_mem_nil, false_implies, implies_true, and_true]
  refine ⟨rfl, ?_⟩
  cases a.label <;> cases a.range.1 <;> cases a.range.2 <;> rfl

theorem lookup_curveAttributes {p} (hp : p ∈ curveTexts) (c : CurveLayout) :
    (curveAttributes c).lookup p.1 = p.2 c := by
  revert p
  simp only [curveTexts, curveAttributes, List.forall_mem_cons, List.not_mem_nil, false_implies, implies_true,
    and_true]
  refine ⟨rfl, rfl, rfl, rfl, ?_⟩
  cases c.bar <;> cases c.markText <;> rfl

section Elements

variable {element key : String} {depth : Nat}

/-- The ticks of an axis have no others below them, so an axis without ticks has its own texts alone. -/
theorem textsAt_axisNode (name : String) (a : AxisLayout) : (axisNode name a).textsAt element key depth
    = (if "axis" = element then [(axisAttributes name a).lookup key] else [])
      ++ a.ticks.flatMap fun t => (tickNode t).textsAt element key (depth + 1) := by
  rw [axisNode_eq]
  split
  · rename_i hnone
    rw [XmlNode.textsAt_single, List.isEmpty_iff.mp hnone, List.flatMap_nil, List.append_nil]
  · rw [XmlNode.textsAt_element, List.flatMap_map]

theorem textsAt_curveNode (g : GraphLayout Float) (c : CurveLayout) : (curveNode g c).textsAt element key depth
    = (if "curve" = element then [(curveAttributes c).lookup key] else [])
      ++ (g.pointsOf c.id).flatMap fun p => (pointNode c p).textsAt element key (depth + 1) := by
  rw [curveNode, XmlNode.textsAt_element, List.flatMap_map]
  rfl

theorem textsAt_graphNode (g : GraphLayout Float) : (graphNode g).textsAt element key depth
    = (if "graph" = element then [(graphAttributes g).lookup key] else [])
      ++ ((axisNode "x" g.x).textsAt element key (depth + 1) ++ (axisNode "y" g.y).textsAt element key (depth + 1)
        ++ g.curves.flatMap fun c => (curveNode g c).textsAt element key (depth + 1)) := by
  rw [graphNode, XmlNode.textsAt_element, List.flatMap_append, List.flatMap_map, List.flatMap_cons, List.flatMap_cons,
    List.flatMap_nil, List.append_nil]
  rfl

theorem textsAt_tickNode {p} (hp : p ∈ tickTexts) (t : Tick) : (tickNode t).textsAt "tick" p.1 depth = [p.2 t] := by
  rw [tickNode, XmlNode.textsAt_single, if_pos rfl]
  revert p
  simp only [tickTexts, List.forall_mem_cons, List.not_mem_nil, false_implies, implies_true, and_true]
  rfl

theorem textsAt_pointNode {q} (hq : q ∈ pointTexts) (c : CurveLayout) (p : PlotPoint Float) :
    (pointNode c p).textsAt "point" q.1 depth = [q.2 p] := by
  rw [pointNode, XmlNode.textsAt_single, if_pos rfl]
  revert q
  simp only [pointTexts, List.forall_mem_cons, List.not_mem_nil, false_implies, implies_true, and_true]
  exact ⟨rfl, rfl⟩

/-- Ticks and points are no other elements. -/
theorem textsAt_tickNode_of_ne (h : "tick" ≠ element) (t : Tick) : (tickNode t).textsAt element key depth = [] := by
  rw [tickNode, XmlNode.textsAt_single, if_neg h]

theorem textsAt_pointNode_of_ne (h : "point" ≠ element) (c : CurveLayout) (p : PlotPoint Float) :
    (pointNode c p).textsAt element key depth = [] := by
  rw [pointNode, XmlNode.textsAt_single, if_neg h]

/-- The set of graphs shows the texts of the graphs behind its own. -/
theorem textsOf_layoutNode (hroot : "plotdata" ≠ element) (name : String) (l : Layout Float) :
    XmlTag.textsOf element key (layoutNode name l).tagRow
      = (if "graphset" = element then [[("name", l.title.getD name)].lookup key] else [])
        ++ l.graphs.flatMap fun g => (graphNode g).textsAt element key 2 := by
  rw [XmlNode.textsOf_tagRow, layoutNode, XmlNode.textsAt_element, if_neg hroot, List.nil_append,
    List.flatMap_singleton, XmlNode.textsAt_element, List.flatMap_map]

end Elements

/-- Tags that show all texts of a layout, each as the value of its attribute, in the order of the layout. The set of
    graphs has a name of its own if the layout has no title. -/
structure ShowsTexts (name : String) (l : Layout Float) (ts : List XmlTag) : Prop where
  title : XmlTag.textsOf "graphset" "name" ts = [some (l.title.getD name)]
  graphs : ∀ p ∈ graphTexts, XmlTag.textsOf "graph" p.1 ts = l.graphs.map p.2
  axes : ∀ p ∈ axisTexts, XmlTag.textsOf "axis" p.1 ts = l.graphs.flatMap fun g => [p.2 g.x, p.2 g.y]
  ticks : ∀ p ∈ tickTexts, XmlTag.textsOf "tick" p.1 ts = l.graphs.flatMap fun g => (g.x.ticks ++ g.y.ticks).map p.2
  curves : ∀ p ∈ curveTexts, XmlTag.textsOf "curve" p.1 ts = l.graphs.flatMap fun g => g.curves.map p.2
  points : ∀ p ∈ pointTexts, XmlTag.textsOf "point" p.1 ts
    = l.graphs.flatMap fun g => g.curves.flatMap fun c => (g.pointsOf c.id).map p.2

theorem showsTexts_tagRow (name : String) (l : Layout Float) : ShowsTexts name l (layoutNode name l).tagRow where
  title := by
    rw [textsOf_layoutNode (by decide), if_pos rfl]
    simp [textsAt_graphNode, textsAt_axisNode, textsAt_curveNode, textsAt_tickNode_of_ne, textsAt_pointNode_of_ne]
  graphs p hp := by
    rw [textsOf_layoutNode (by decide), if_neg (by decide), List.nil_append, List.map_eq_flatMap]
    refine List.flatMap_congr fun g _ => ?_
    simp [textsAt_graphNode, textsAt_axisNode, textsAt_curveNode, textsAt_tickNode_of_ne, textsAt_pointNode_of_ne,
      lookup_graphAttributes hp]
  axes p hp := by
    rw [textsOf_layoutNode (by decide), if_neg (by decide), List.nil_append]
    refine List.flatMap_congr fun g _ => ?_
    simp [textsAt_graphNode, textsAt_axisNode, textsAt_curveNode, textsAt_tickNode_of_ne, textsAt_pointNode_of_ne,
      lookup_axisAttributes hp, flatMap_nothing]
  ticks p hp := by
    rw [textsOf_layoutNode (by decide), if_neg (by decide), List.nil_append]
    refine List.flatMap_congr fun g _ => ?_
    simp [textsAt_graphNode, textsAt_axisNode, textsAt_curveNode, textsAt_tickNode hp, textsAt_pointNode_of_ne,
      flatMap_nothing, ← List.map_eq_flatMap]
  curves p hp := by
    rw [textsOf_layoutNode (by decide), if_neg (by decide), List.nil_append]
    refine List.flatMap_congr fun g _ => ?_
    simp [textsAt_graphNode, textsAt_axisNode, textsAt_curveNode, textsAt_tickNode_of_ne, textsAt_pointNode_of_ne,
      lookup_curveAttributes hp, flatMap_nothing, ← List.map_eq_flatMap]
  points p hp := by
    rw [textsOf_layoutNode (by decide), if_neg (by decide), List.nil_append]
    refine List.flatMap_congr fun g _ => ?_
    simp [textsAt_graphNode, textsAt_axisNode, textsAt_curveNode, textsAt_tickNode_of_ne, textsAt_pointNode hp,
      flatMap_nothing, ← List.map_eq_flatMap]

/-! ## §5 Names of elements and attributes -/

/-- Attributes whose names are names. -/
abbrev AreNamed (attributes : List (String × String)) : Prop :=
  ∀ a ∈ attributes, XmlTag.isName a.1 = true

theorem areNamed_of {attributes : List (String × String)} (names : List String)
    (h : names.all XmlTag.isName = true) (hnames : attributes.map Prod.fst = names) : AreNamed attributes := by
  rw [← hnames, List.all_eq_true] at h
  exact fun a ha => h a.1 (List.mem_map_of_mem ha)

theorem areNamed_optional {name : String} (h : XmlTag.isName name = true) (value : Option String) :
    AreNamed (optional name value) := by
  intro a ha
  obtain ⟨v, _, rfl⟩ := Option.map_eq_some_iff.mp (Option.mem_toList.mp ha)
  exact h

theorem areNamed_flag {name : String} (h : XmlTag.isName name = true) (value : Bool) : AreNamed (flag name value) := by
  unfold flag
  split
  · exact List.forall_mem_singleton.mpr h
  · exact fun a ha => nomatch ha

theorem AreNamed.append {attributes more : List (String × String)} (h : AreNamed attributes) (hmore : AreNamed more) :
    AreNamed (attributes ++ more) :=
  List.forall_mem_append.mpr ⟨h, hmore⟩

theorem isNamed_tickNode (t : Tick) : (tickNode t).IsNamed :=
  .single ⟨by decide, areNamed_of ["label", "position"] (by decide) rfl⟩

theorem areNamed_axisAttributes (name : String) (a : AxisLayout) : AreNamed (axisAttributes name a) := by
  refine .append (.append (.append ?_ ?_) ?_) ?_
  · exact areNamed_of ["name", "type"] (by decide) rfl
  · exact areNamed_optional (by decide) _
  · exact areNamed_optional (by decide) _
  · exact areNamed_optional (by decide) _

theorem isNamed_axisNode (name : String) (a : AxisLayout) : (axisNode name a).IsNamed := by
  have hattributes := areNamed_axisAttributes name a
  rw [axisNode_eq]
  split
  · exact .single ⟨by decide, hattributes⟩
  · exact .element ⟨by decide, hattributes⟩ (List.forall_mem_map.mpr fun t _ => isNamed_tickNode t)

theorem isNamed_pointNode (c : CurveLayout) (p : PlotPoint Float) : (pointNode c p).IsNamed := by
  refine .single ⟨by decide, AreNamed.append (areNamed_of ["x", "y", "rawx", "rawy"] (by decide) rfl) ?_⟩
  split
  · exact areNamed_of ["low", "high"] (by decide) rfl
  · exact fun a ha => nomatch ha

theorem isNamed_curveNode (g : GraphLayout Float) (c : CurveLayout) : (curveNode g c).IsNamed := by
  refine .element ⟨by decide, AreNamed.append (AreNamed.append ?_ ?_) ?_⟩ ?_
  · exact areNamed_of ["id", "label", "line", "mark", "color"] (by decide) rfl
  · exact areNamed_flag (by decide) _
  · exact areNamed_optional (by decide) _
  · exact List.forall_mem_map.mpr fun p _ => isNamed_pointNode c p

theorem isNamed_graphNode (g : GraphLayout Float) : (graphNode g).IsNamed := by
  refine .element ⟨by decide, AreNamed.append ?_ ?_⟩ (List.forall_mem_append.mpr ⟨?_, ?_⟩)
  · exact areNamed_of ["title", "xtype", "ytype", "legend"] (by decide) rfl
  · exact areNamed_flag (by decide) _
  · exact List.forall_mem_cons.mpr ⟨isNamed_axisNode _ _, List.forall_mem_singleton.mpr (isNamed_axisNode _ _)⟩
  · exact List.forall_mem_map.mpr fun c _ => isNamed_curveNode g c

theorem isNamed_layoutNode (name : String) (l : Layout Float) : (layoutNode name l).IsNamed := by
  refine .element ⟨by decide, fun a ha => nomatch ha⟩ (List.forall_mem_singleton.mpr ?_)
  exact .element ⟨by decide, areNamed_of ["name"] (by decide) rfl⟩
    (List.forall_mem_map.mpr fun g _ => isNamed_graphNode g)

end PlotXml

/-! ## §6 Documents -/

/-- Whatever the texts of a layout are, the tags of its document can be read back from it, in one line or indented:
    they are nested and show all texts of the layout. Without its layout an indented document is the document in one
    line. -/
theorem Layout.readsBack_plotXml (name : String) (l : Layout Float) : ∃ ts : List XmlTag,
    (∀ indent : Option Nat, XmlTag.read? (l.plotXml ⟨indent, name⟩) = some ts)
      ∧ ts = (PlotXml.layoutNode name l).tagRow ∧ XmlTag.AreNested ts ∧ PlotXml.ShowsTexts name l ts
      ∧ ∀ indent : Nat, XmlTag.withoutLayout (l.plotXml ⟨some indent, name⟩) = l.plotXml ⟨none, name⟩ := by
  have hnamed := PlotXml.isNamed_layoutNode name l
  refine ⟨(PlotXml.layoutNode name l).tagRow, fun indent => ?_, rfl, XmlNode.areNested_tagRow _,
    PlotXml.showsTexts_tagRow name l, fun indent => XmlNode.withoutLayout_pretty hnamed indent⟩
  cases indent with
  | none => exact XmlNode.read?_compact hnamed
  | some indent => exact XmlNode.read?_pretty hnamed indent

/-- A graph whose title has brackets, quotes and a line feed. -/
def quotedLayout : Layout Float :=
  ⟨none, [⟨0, "a > \"b\"\n <c/> & 'd'", ⟨.scale .linear, some "&lt;", [], (none, none)⟩,
    ⟨.scale .linear, none, [⟨"/>", 0⟩], (none, none)⟩, .below, true, [], []⟩]⟩

theorem readsBack_quotedLayout : ∃ ts : List XmlTag,
    XmlTag.read? (quotedLayout.plotXml ⟨some 2, "plots"⟩) = some ts ∧ ts.length = 11
      ∧ XmlTag.textsOf "graph" "title" ts = [some "a > \"b\"\n <c/> & 'd'"]
      ∧ XmlTag.textsOf "axis" "label" ts = [some "&lt;", none]
      ∧ XmlTag.textsOf "tick" "label" ts = [some "/>"] := by
  obtain ⟨ts, hread, rfl, _, hshown, _⟩ := quotedLayout.readsBack_plotXml "plots"
  exact ⟨_, hread (some 2), rfl, hshown.graphs ("title", _) (List.mem_cons_self ..),
    hshown.axes ("label", _) (.tail _ (List.mem_cons_self ..)), hshown.ticks ("label", _) (List.mem_cons_self ..)⟩

end BenchPlot
