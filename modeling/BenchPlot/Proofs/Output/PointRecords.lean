import BenchPlot.Output.PlotXml
import BenchPlot.Output.Script
import BenchPlot.Proofs.Decimal.ReadBack
import BenchPlot.Proofs.Layout.CategoryAxes

/-!
# Points in the output formats

A layout lists the points of a graph curve by curve, and every output format groups them again by the numbers of
their curves. Since the curves of a layout are numbered from zero in their order, the grouping gives back the
points as they are listed: each format has one record for each point, in the order of the points, and no other
record.

A record of a listing or of a script is a line that begins like a number; a record of an element tree is a tag
of a point.

Main statements: `GraphLayout.groupsPoints_ofBound` and `Layout.showsPoints_ofBound`.
-/

namespace BenchPlot

/-! ## §1 Points by curve -/

namespace GraphLayout

variable {styles : StyleRegistry} {b : BoundGraph} {g : GraphLayout Float}

/-- The curves of a layout are numbered from zero, and its points are those of the curves in their order. The
    curves come from the shown instances of the graph, and have the pairs of these that have a place as points. -/
structure GroupsPoints (g : GraphLayout Float) (b : BoundGraph) : Prop where
  numbered : g.curves.map CurveLayout.id = List.range g.curves.length
  known : ∀ p ∈ g.points, p.curve < g.curves.length
  regrouped : (List.range g.curves.length).flatMap g.pointsOf = g.points
  visible : ∀ k c, g.curves[k]? = some c → ∃ i : Instance Float,
    ((Instance.ofGraph b).filter Instance.isShown)[k]? = some i ∧ i.curve.options.skip = false
      ∧ c.curve = i.curve.id ∧ (g.pointsOf k).map PlotPoint.raw = i.pairs.filter b.places

theorem length_curves_ofBound (h : ofBound styles b = .ok g) :
    g.curves.length = (shown b : List (Instance Float)).length := by
  rw [← (ofBound_eq_ok h).2.2.1.length_eq, List.length_zipIdx]

/-- The numbers of the shown instances, which are the numbers of the curves. -/
theorem map_snd_shown (h : ofBound styles b = .ok g) :
    (shown b : List (Instance Float)).zipIdx.map Prod.snd = List.range g.curves.length := by
  rw [List.zipIdx_map_snd, length_curves_ofBound h, List.range_eq_range']

/-- The points of a curve, as the values that were paired. -/
theorem map_raw_pointsOf (h : ofBound styles b = .ok g) {k : Nat} {i : Instance Float} (hi : (shown b)[k]? = some i) :
    (g.pointsOf k).map PlotPoint.raw = i.bare.pairs.filter b.places := by
  have hraw : i.drawing.2.map PlotPoint.raw = i.bare.pairs.filter b.places :=
    map_raw_drawing (List.mem_of_getElem? hi)
  rw [pointsOf_ofBound h hi, ← hraw]
  -- The number of the curve is no part of the values.
  unfold Instance.drawing Instance.plotPoints
  rw [List.map_map, List.map_map]
  rfl

theorem groupsPoints_ofBound (h : ofBound styles b = .ok g) : g.GroupsPoints b := by
  have hpoints := (ofBound_eq_ok h).2.2.2
  have hnumbers := map_snd_shown h
  refine ⟨?_, ?_, ?_, ?_⟩
  · -- The numbers of the curves are those of the shown instances.
    have hids := congrArg (List.map Prod.fst) (curves_ofBound h)
    rw [List.map_map, List.map_map, ← map_bare_shown, List.zipIdx_map, List.map_map] at hids
    exact hids.trans hnumbers
  · intro p hp
    rw [hpoints] at hp
    obtain ⟨e, he, hp⟩ := List.mem_flatMap.mp hp
    obtain ⟨q, _, rfl⟩ := List.mem_map.mp hp
    have hmem : e.2 ∈ (shown b : List (Instance Float)).zipIdx.map Prod.snd := List.mem_map_of_mem he
    rw [hnumbers] at hmem
    exact List.mem_range.mp hmem
  · rw [← hnumbers, List.flatMap_map, hpoints]
    refine List.flatMap_congr fun e he => ?_
    exact pointsOf_ofBound h (List.mem_zipIdx_iff_getElem?.mp he)
  · intro k c hc
    have hlt : k < (shown b : List (Instance Float)).length := by
      rw [← length_curves_ofBound h]
      exact (List.getElem?_eq_some_iff.mp hc).1
    obtain ⟨i, hi⟩ : ∃ i, (shown b : List (Instance Float))[k]? = some i := ⟨_, List.getElem?_eq_getElem hlt⟩
    have hbare : ((Instance.ofGraph b : List (Instance Float)).filter Instance.isShown)[k]? = some i.bare := by
      rw [← map_bare_shown, List.getElem?_map, hi]
      rfl
    have hcurve : some (c.id, c.curve) = some (k, i.bare.curve.id) := by
      have hkth := congrArg (fun l => l[k]?) (curves_ofBound h)
      simpa only [List.getElem?_map, List.getElem?_zipIdx, hc, hbare, Option.map_some, Nat.zero_add] using hkth
    have hshown : i.bare.isShown = true := (List.mem_filter.mp (List.mem_of_getElem? hbare)).2
    refine ⟨i.bare, hbare, ?_, congrArg Prod.snd (Option.some.inj hcurve), map_raw_pointsOf h hi⟩
    simpa only [Instance.isShown, Bool.not_eq_true'] using hshown

/-- The points of the curves, curve by curve, are the points of the layout. -/
theorem GroupsPoints.flatMap_pointsOf (h : g.GroupsPoints b) :
    g.curves.flatMap (fun c => g.pointsOf c.id) = g.points := by
  rw [← h.regrouped, ← h.numbered, List.flatMap_map]

end GraphLayout

/-! ## §2 Lines that are records -/

/-- Whether a character can be the first one of a number: a digit, a sign, or a letter of `inf` or `NaN`. -/
def isNumberStart (c : Char) : Bool :=
  Decimal.isDigit c || c == '-' || c == 'i' || c == 'N'

/-- Whether a line begins like a number. -/
def beginsNumber (line : String) : Bool :=
  line.toList.head?.any isNumberStart

/-- The coordinates of a point, as they are written. -/
def PlotPoint.written (p : PlotPoint Float) : Option String × Option String :=
  (some (numberText p.x), some (numberText p.y))

/-- The lines that begin like numbers are one record for each of the points. A record has the coordinates of its
    point as its parts with the numbers `place` and `place + 1`. -/
def RecordsPoints (separator : String) (place : Nat) (lines : List String) (points : List (PlotPoint Float)) : Prop :=
  ∃ records : List (List String), lines.filter beginsNumber = records.map separator.intercalate
    ∧ records.map (fun r => (r[place]?, r[place + 1]?)) = points.map PlotPoint.written

theorem beginsNumber_of_head? {line : String} {c : Char} (h : line.toList.head? = some c) :
    beginsNumber line = isNumberStart c := by
  rw [beginsNumber, h]
  rfl

theorem flatMap_nothing {α β : Type} (l : List α) : l.flatMap (fun _ => ([] : List β)) = [] :=
  List.flatMap_eq_nil_iff.mpr fun _ _ => rfl

theorem head?_toList_append {s : String} {c : Char} (h : s.toList.head? = some c) (t : String) :
    (s ++ t).toList.head? = some c := by
  rw [String.toList_append, List.head?_append, h]
  rfl

theorem head?_toList_intercalate {s : String} {c : Char} (h : s.toList.head? = some c) (separator : String)
    (rest : List String) : (separator.intercalate (s :: rest)).toList.head? = some c := by
  rw [String.toList_intercalate]
  cases rest with
  | nil => simpa [List.intercalate] using h
  | cons t rest => simp [List.intercalate, h]

/-- None of the lines begins like a number. -/
def NoRecord (lines : List String) : Prop :=
  ∀ line ∈ lines, beginsNumber line = false

namespace NoRecord

theorem nil : NoRecord [] :=
  fun _ h => nomatch h

theorem singleton {line : String} {c : Char} (h : line.toList.head? = some c) (hc : isNumberStart c = false) :
    NoRecord [line] := by
  intro t ht
  rw [List.mem_singleton.mp ht, beginsNumber_of_head? h, hc]

theorem append {lines lines' : List String} (h : NoRecord lines) (h' : NoRecord lines') :
    NoRecord (lines ++ lines') := by
  intro line hline
  rcases List.mem_append.mp hline with hline | hline
  · exact h line hline
  · exact h' line hline

theorem ite {p : Prop} [Decidable p] {lines lines' : List String} (h : NoRecord lines) (h' : NoRecord lines') :
    NoRecord (if p then lines else lines') := by
  split
  · exact h
  · exact h'

theorem toList {β : Type} {o : Option β} {line : β → String} (h : ∀ a, NoRecord [line a]) :
    NoRecord (o.map line).toList := by
  intro t ht
  obtain ⟨a, _, rfl⟩ := Option.map_eq_some_iff.mp (Option.mem_toList.mp ht)
  exact h a _ (List.mem_singleton_self _)

end NoRecord

theorem exists_head?_naturalText (n : Nat) :
    ∃ c, (Decimal.naturalText n).toList.head? = some c ∧ isNumberStart c = true := by
  obtain ⟨c, cs, hcs, hc⟩ := (Decimal.isNumeral_naturalText false n).digit
  exact ⟨c, by rw [hcs]; rfl, by rw [isNumberStart, hc]; rfl⟩

theorem exists_head?_withSign (negative : Bool) {body : String} {c : Char} (h : body.toList.head? = some c)
    (hc : isNumberStart c = true) :
    ∃ d, (Decimal.withSign negative body).toList.head? = some d ∧ isNumberStart d = true := by
  cases negative with
  | false => exact ⟨c, h, hc⟩
  | true => exact ⟨'-', head?_toList_append rfl body, rfl⟩

/-- The text of a number begins like a number. -/
theorem exists_head?_numberText (x : Float) :
    ∃ c, (numberText x).toList.head? = some c ∧ isNumberStart c = true := by
  cases hx : Decimal.isFinite x with
  | true =>
    obtain ⟨negative, body, n, htext, hn, -, -⟩ := Decimal.exists_isNumeral_numberText hx
    obtain ⟨c, cs, hcs, hc⟩ := hn.digit
    rw [htext]
    refine exists_head?_withSign negative (c := c) ?_ ?_
    · rw [hcs]
      rfl
    · rw [isNumberStart, hc]
      rfl
  | false =>
    unfold Decimal.isFinite at hx
    unfold numberText Decimal.plainText
    cases hparts : Decimal.Parts.ofFloat x with
    | nan => exact ⟨'N', rfl, rfl⟩
    | infinite negative =>
      show ∃ c, (Decimal.withSign negative "inf").toList.head? = some c ∧ isNumberStart c = true
      exact exists_head?_withSign negative rfl rfl
    | finite negative m =>
      rw [hparts] at hx
      cases hx

namespace RecordsPoints

variable {separator : String} {place : Nat}

/-- Lines of which none begins like a number record no points. -/
theorem of_none {lines : List String} (h : NoRecord lines) :
    RecordsPoints separator place lines [] := by
  refine ⟨[], List.filter_eq_nil_iff.mpr fun line hline => ?_, rfl⟩
  rw [h line hline]
  exact Bool.false_ne_true

theorem append {lines lines' : List String} {points points' : List (PlotPoint Float)}
    (h : RecordsPoints separator place lines points) (h' : RecordsPoints separator place lines' points') :
    RecordsPoints separator place (lines ++ lines') (points ++ points') := by
  obtain ⟨records, hlines, hpoints⟩ := h
  obtain ⟨records', hlines', hpoints'⟩ := h'
  refine ⟨records ++ records', ?_, ?_⟩
  · rw [List.filter_append, List.map_append, hlines, hlines']
  · rw [List.map_append, List.map_append, hpoints, hpoints']

/-- Lines without a record may stand in front. -/
theorem behind {lines lines' : List String} {points : List (PlotPoint Float)}
    (h : NoRecord lines) (h' : RecordsPoints separator place lines' points) :
    RecordsPoints separator place (lines ++ lines') points :=
  (of_none h).append h'

theorem flatMap {β : Type} {l : List β} {lines : β → List String} {points : β → List (PlotPoint Float)}
    (h : ∀ a ∈ l, RecordsPoints separator place (lines a) (points a)) :
    RecordsPoints separator place (l.flatMap lines) (l.flatMap points) := by
  induction l with
  | nil => exact of_none NoRecord.nil
  | cons a rest ih =>
    rw [List.flatMap_cons, List.flatMap_cons]
    exact (h a (List.mem_cons_self ..)).append (ih fun c hc => h c (List.mem_cons_of_mem _ hc))

/-- One line for each point, which begins with a number and has the coordinates at their place. -/
theorem map {parts : PlotPoint Float → List String}
    (hbegins : ∀ p, ∃ s rest c, parts p = s :: rest ∧ s.toList.head? = some c ∧ isNumberStart c = true)
    (hparts : ∀ p, ((parts p)[place]?, (parts p)[place + 1]?) = p.written) (points : List (PlotPoint Float)) :
    RecordsPoints separator place (points.map fun p => separator.intercalate (parts p)) points := by
  refine ⟨points.map parts, ?_, ?_⟩
  · rw [List.map_map]
    refine List.filter_eq_self.mpr fun line hline => ?_
    obtain ⟨p, _, rfl⟩ := List.mem_map.mp hline
    obtain ⟨s, rest, c, hcons, hc, hstart⟩ := hbegins p
    show beginsNumber (separator.intercalate (parts p)) = true
    rw [hcons, beginsNumber_of_head? (head?_toList_intercalate hc separator rest), hstart]
  · rw [List.map_map]
    exact List.map_congr_left fun p _ => hparts p

end RecordsPoints

/-- All points of a layout, graph by graph. -/
def Layout.points (l : Layout Float) : List (PlotPoint Float) :=
  l.graphs.flatMap GraphLayout.points

/-- The lines of numbered graphs record the points of the graphs if those of each graph do. -/
theorem RecordsPoints.zipIdx {separator : String} {place : Nat} {graphs : List (GraphLayout Float)}
    {lines : GraphLayout Float → Nat → List String}
    (h : ∀ g ∈ graphs, ∀ index, RecordsPoints separator place (lines g index) g.points) :
    RecordsPoints separator place (graphs.zipIdx.flatMap fun g => lines g.1 g.2) (graphs.flatMap GraphLayout.points) := by
  have hpoints : graphs.flatMap GraphLayout.points = (graphs.zipIdx.map Prod.fst).flatMap GraphLayout.points := by
    rw [List.zipIdx_map_fst]
  rw [hpoints, List.flatMap_map]
  exact RecordsPoints.flatMap fun g hg => h g.1 (List.fst_mem_of_mem_zipIdx hg) g.2

/-! ## §3 Listings -/

namespace Listing

variable {b : BoundGraph} {g : GraphLayout Float}

/-- The lines of a curve are a comment and the records of its points. -/
theorem recordsPoints_curveLines (s : ListingSettings) (g : GraphLayout Float) (c : CurveLayout) :
    RecordsPoints s.separator 3 (curveLines s g c) (g.pointsOf c.id) := by
  have hcomment : NoRecord [s!"# curve {c.id} {c.label}"] :=
    .singleton (head?_toList_append (head?_toList_append (head?_toList_append rfl _) _) _) rfl
  refine RecordsPoints.behind hcomment (RecordsPoints.map (fun p => ?_) (fun p => rfl) _)
  -- A record begins with the number of its curve.
  obtain ⟨digit, hdigit, hstart⟩ := exists_head?_naturalText p.curve
  exact ⟨_, _, digit, rfl, hdigit, hstart⟩

theorem recordsPoints_graphLines (h : g.GroupsPoints b) (s : ListingSettings) (index : Nat) :
    RecordsPoints s.separator 3 (graphLines s g index) g.points := by
  have hgap : NoRecord (if index = 0 then [] else [""]) := by
    refine .ite .nil fun line hline => ?_
    rw [List.mem_singleton.mp hline]
    rfl
  have hcomment : NoRecord [s!"# graph {index + 1} {g.title}"] :=
    .singleton (head?_toList_append (head?_toList_append (head?_toList_append rfl _) _) _) rfl
  rw [← h.flatMap_pointsOf]
  refine RecordsPoints.behind hgap (RecordsPoints.behind hcomment ?_)
  exact RecordsPoints.flatMap fun c _ => recordsPoints_curveLines s g c

end Listing

/-! ## §4 Scripts -/

namespace Script

variable {b : BoundGraph} {g : GraphLayout Float}

/-- The lines of a script. -/
def lines (s : ScriptSettings) (l : Layout Float) : List String :=
  headLines s l.title ++ l.graphs.zipIdx.flatMap fun g => numberedLines g.1 g.2

theorem script_eq_linesText (s : ScriptSettings) (l : Layout Float) : l.script s = linesText (lines s l) :=
  rfl

/-- The command that draws the curves of a graph, with a clause for each of them. -/
def plotCommand (g : GraphLayout Float) : String :=
  "plot " ++ ", \\\n     ".intercalate (g.curves.map plotClause)

/-- A graph with curves is drawn by one command, and the data behind it are as many blocks as the command has
    clauses. The block with a number holds the points of the curve that has its clause under this number. A graph
    without curves has no points and is not drawn. -/
def DrawsCurves (g : GraphLayout Float) : Prop :=
  (g.curves = [] ∧ g.points = [] ∧ plotLines g = []) ∨
    ∃ data, plotLines g = plotCommand g :: data
      ∧ data.splitOn "e" = (g.curves.map fun c => (g.pointsOf c.id).map (dataLine c.errorbars)) ++ [[]]

/-- The commands of a graph in front of the one that draws its curves. -/
def settingLines (g : GraphLayout Float) : List String :=
  (if g.title.isEmpty then [] else ["set title " ++ quote g.title]) ++
    axisLines "x" g.x ++ axisLines "y" g.y ++ [legendLine g.legend] ++
    (if g.grid then ["set grid"] else []) ++
    (if g.curves.any CurveLayout.bar then
      ["set style fill solid 0.5 border", "set boxwidth 0.9"] else [])

theorem graphLines_eq (g : GraphLayout Float) : graphLines g = settingLines g ++ plotLines g :=
  rfl

theorem noRecord_axisLines (name : String) (a : AxisLayout) : NoRecord (axisLines name a) := by
  unfold axisLines
  refine .append (.append (.append (.toList fun label => ?_) (.ite ?_ .nil)) (.ite .nil ?_)) (.ite .nil ?_)
  · exact .singleton (c := 's') (head?_toList_append (head?_toList_append (head?_toList_append rfl _) _) _) rfl
  · exact .singleton (c := 's') (head?_toList_append rfl _) rfl
  · refine .singleton (c := 's') ?_ rfl
    refine head?_toList_append (head?_toList_append ?_ _) _
    exact head?_toList_append (head?_toList_append rfl _) _
  · refine .singleton (c := 's') ?_ rfl
    refine head?_toList_append (head?_toList_append (head?_toList_append (head?_toList_append ?_ _) _) _) _
    exact head?_toList_append (head?_toList_append rfl _) _

theorem noRecord_settingLines (g : GraphLayout Float) : NoRecord (settingLines g) := by
  have htitle : NoRecord ["set title " ++ quote g.title] := .singleton (head?_toList_append rfl _) rfl
  have hlegend : NoRecord [legendLine g.legend] := by
    cases g.legend <;> exact .singleton rfl rfl
  have hfill : NoRecord ["set style fill solid 0.5 border"] := .singleton rfl rfl
  have hwidth : NoRecord ["set boxwidth 0.9"] := .singleton rfl rfl
  unfold settingLines
  refine .append (.append (.append (.append (.append (.ite .nil htitle) ?_) ?_) hlegend) ?_) ?_
  · exact noRecord_axisLines "x" g.x
  · exact noRecord_axisLines "y" g.y
  · exact .ite (.singleton rfl rfl) .nil
  · exact .ite (hfill.append hwidth) .nil

theorem noRecord_headLines (s : ScriptSettings) (title : Option String) : NoRecord (headLines s title) := by
  unfold headLines
  refine .append (.append (.toList fun t => ?_) (.toList fun t => ?_)) (.toList fun o => ?_)
  · exact .singleton (c := '#') (head?_toList_append rfl _) rfl
  · exact .singleton (c := 's') (head?_toList_append rfl _) rfl
  · exact .singleton (c := 's') (head?_toList_append rfl _) rfl

/-- A block of data is one record for each point of its curve, and a line that ends it. -/
theorem recordsPoints_dataBlock (g : GraphLayout Float) (c : CurveLayout) :
    RecordsPoints " " 0 (dataBlock g c) (g.pointsOf c.id) := by
  have hend : RecordsPoints " " 0 ["e"] [] := .of_none (.singleton rfl rfl)
  rw [← List.append_nil (g.pointsOf c.id)]
  refine RecordsPoints.append (RecordsPoints.map (fun p => ?_) (fun p => rfl) _) hend
  -- A record begins with the first coordinate.
  obtain ⟨start, hhead, hstart⟩ := exists_head?_numberText p.x
  exact ⟨_, _, start, rfl, hhead, hstart⟩

theorem recordsPoints_numberedLines (h : g.GroupsPoints b) (index : Nat) :
    RecordsPoints " " 0 (numberedLines g index) g.points := by
  have hreset : NoRecord (if index = 0 then [] else ["reset"]) := .ite .nil (.singleton rfl rfl)
  refine RecordsPoints.behind hreset ?_
  rw [graphLines_eq]
  refine RecordsPoints.behind (noRecord_settingLines g) ?_
  unfold plotLines
  rw [← h.flatMap_pointsOf]
  split
  · rename_i hcurves
    rw [List.isEmpty_iff.mp hcurves]
    exact .of_none .nil
  · have hcommand : NoRecord ["plot " ++ ", \\\n     ".intercalate (g.curves.map plotClause)] :=
      .singleton (head?_toList_append rfl _) rfl
    refine RecordsPoints.behind hcommand ?_
    exact RecordsPoints.flatMap fun c _ => recordsPoints_dataBlock g c

/-- Blocks that each have an end, split at the ends. -/
theorem splitOn_flatMap_concat {β : Type} [DecidableEq β] {x : β} {blocks : List (List β)}
    (h : ∀ block ∈ blocks, x ∉ block) : (blocks.flatMap fun block => block ++ [x]).splitOn x = blocks ++ [[]] := by
  have hjoined : (blocks.flatMap fun block => block ++ [x]) = [x].intercalate (blocks ++ [[]]) := by
    induction blocks with
    | nil => rfl
    | cons block rest ih =>
      rw [List.flatMap_cons, ih fun b hb => h b (List.mem_cons_of_mem _ hb)]
      cases rest with
      | nil => simp [List.intercalate]
      | cons next rest => simp [List.intercalate]
  rw [hjoined]
  refine List.splitOn_intercalate x (fun block hblock => ?_) (List.append_ne_nil_of_right_ne_nil _ (List.cons_ne_nil _ _))
  rcases List.mem_append.mp hblock with hblock | hblock
  · exact h block hblock
  · rw [List.mem_singleton.mp hblock]
    exact List.not_mem_nil

/-- A line of data begins like a number, so it ends no block. -/
theorem end_ne_dataLine (errorbars : Bool) (p : PlotPoint Float) : "e" ≠ dataLine errorbars p := by
  intro heq
  obtain ⟨start, hhead, hstart⟩ := exists_head?_numberText p.x
  have hnumber : beginsNumber (dataLine errorbars p) = true :=
    (beginsNumber_of_head? (head?_toList_intercalate hhead _ _)).trans hstart
  rw [← heq] at hnumber
  exact Bool.noConfusion hnumber

theorem drawsCurves (h : g.GroupsPoints b) : DrawsCurves g := by
  unfold DrawsCurves plotLines plotCommand
  cases hcurves : g.curves with
  | nil =>
    refine .inl ⟨rfl, ?_, rfl⟩
    rw [← h.flatMap_pointsOf, hcurves]
    rfl
  | cons c rest =>
    refine .inr ⟨_, rfl, ?_⟩
    rw [← hcurves]
    have hdata : g.curves.flatMap (dataBlock g)
        = (g.curves.map fun c => (g.pointsOf c.id).map (dataLine c.errorbars)).flatMap fun block => block ++ ["e"] := by
      rw [List.flatMap_map]
      rfl
    rw [hdata]
    refine splitOn_flatMap_concat fun block hblock hend => ?_
    obtain ⟨c, _, rfl⟩ := List.mem_map.mp hblock
    obtain ⟨p, _, heq⟩ := List.mem_map.mp hend
    exact end_ne_dataLine c.errorbars p heq.symm

end Script

/-! ## §5 Element trees -/

/-- The attributes of a tag that opens an element with a name, or is one alone. -/
def XmlTag.attributesOf? (name : String) : XmlTag → Option (List (String × String))
  | .opening tag attributes => if tag = name then some attributes else none
  | .single tag attributes => if tag = name then some attributes else none
  | _ => none

namespace XmlNode

/-- The attributes of the elements with a name, in the order of their tags in a document. -/
def attributesOf (name : String) (node : XmlNode) : List (List (String × String)) :=
  (documentTags node).filterMap fun t => t.2.attributesOf? name

/-- The same for the tags of an element at a depth. -/
def attributesAt (name : String) (depth : Nat) (node : XmlNode) : List (List (String × String)) :=
  (node.tags depth).filterMap fun t => t.2.attributesOf? name

theorem attributesOf_eq (name : String) (node : XmlNode) : node.attributesOf name = node.attributesAt name 0 :=
  rfl

theorem tagsOfAll_eq_flatMap (depth : Nat) (nodes : List XmlNode) : tagsOfAll depth nodes = nodes.flatMap (tags depth) := by
  induction nodes with
  | nil => rw [tagsOfAll, List.flatMap_nil]
  | cons node rest ih => rw [tagsOfAll, ih, List.flatMap_cons]

variable {name tag : String} {depth : Nat} {attributes : List (String × String)}

theorem attributesAt_single (h : tag ≠ name) : attributesAt name depth (.single tag attributes) = [] := by
  have hother : (XmlTag.single tag attributes).attributesOf? name = none := if_neg h
  rw [attributesAt, tags, List.filterMap_cons, hother, List.filterMap_nil]

/-- An element with another name has the elements with the name that its children have. -/
theorem attributesAt_element (h : tag ≠ name) (children : List XmlNode) :
    attributesAt name depth (.element tag attributes children) = children.flatMap (attributesAt name (depth + 1)) := by
  have hother : (XmlTag.opening tag attributes).attributesOf? name = none := if_neg h
  have hclosing : (XmlTag.closing tag).attributesOf? name = none := rfl
  rw [attributesAt, tags, List.filterMap_cons, hother, List.filterMap_append, List.filterMap_cons, hclosing,
    List.filterMap_nil, List.append_nil, tagsOfAll_eq_flatMap, List.filterMap_flatMap]
  rfl

end XmlNode

namespace PlotXml

variable {b : BoundGraph} {g : GraphLayout Float}

/-- The axes have no points. -/
theorem attributesAt_axisNode (name : String) (a : AxisLayout) (depth : Nat) :
    (axisNode name a).attributesAt "point" depth = [] := by
  unfold axisNode
  dsimp only
  split
  · exact XmlNode.attributesAt_single (by decide)
  · rw [XmlNode.attributesAt_element (by decide), List.flatMap_map]
    refine List.flatMap_eq_nil_iff.mpr fun t _ => ?_
    exact XmlNode.attributesAt_single (by decide)

/-- The coordinates among the attributes of a point. -/
def coordinates (attributes : List (String × String)) : Option String × Option String :=
  (attributes.lookup "x", attributes.lookup "y")

theorem map_coordinates_pointNode (c : CurveLayout) (p : PlotPoint Float) (depth : Nat) :
    ((pointNode c p).attributesAt "point" depth).map coordinates = [p.written] := by
  unfold pointNode XmlNode.attributesAt
  rw [XmlNode.tags]
  rfl

theorem map_coordinates_curveNode (g : GraphLayout Float) (c : CurveLayout) (depth : Nat) :
    ((curveNode g c).attributesAt "point" depth).map coordinates = (g.pointsOf c.id).map PlotPoint.written := by
  unfold curveNode
  rw [XmlNode.attributesAt_element (by decide), List.flatMap_map, List.map_flatMap, List.map_eq_flatMap]
  exact List.flatMap_congr fun p _ => map_coordinates_pointNode c p _

theorem map_coordinates_graphNode (h : g.GroupsPoints b) (depth : Nat) :
    ((graphNode g).attributesAt "point" depth).map coordinates = g.points.map PlotPoint.written := by
  unfold graphNode
  rw [XmlNode.attributesAt_element (by decide), List.flatMap_append, List.flatMap_cons, List.flatMap_cons,
    List.flatMap_nil, attributesAt_axisNode, attributesAt_axisNode, List.flatMap_map, List.append_nil,
    List.append_nil, List.nil_append, List.map_flatMap, ← h.flatMap_pointsOf, List.map_flatMap]
  exact List.flatMap_congr fun c _ => map_coordinates_curveNode g c _

theorem map_coordinates_layoutNode {l : Layout Float} (h : ∀ g ∈ l.graphs, ∃ b, g.GroupsPoints b) (name : String) :
    ((layoutNode name l).attributesOf "point").map coordinates = l.points.map PlotPoint.written := by
  unfold layoutNode Layout.points
  rw [XmlNode.attributesOf_eq, XmlNode.attributesAt_element (by decide), List.flatMap_singleton,
    XmlNode.attributesAt_element (by decide), List.flatMap_map, List.map_flatMap, List.map_flatMap]
  refine List.flatMap_congr fun g hg => ?_
  obtain ⟨b, hb⟩ := h g hg
  exact map_coordinates_graphNode hb _

end PlotXml

/-! ## §6 Layouts -/

namespace Layout

/-- Every output format of a layout has one record for each point, with the coordinates of the point, in the order
    of the points, and no other record; and a script has the points of each curve in the block of data of its
    clause. -/
structure ShowsPoints (l : Layout Float) : Prop where
  listing : ∀ s, RecordsPoints s.separator 3 (Listing.lines s l) l.points
  tags : ∀ name, ((PlotXml.layoutNode name l).attributesOf "point").map PlotXml.coordinates
    = l.points.map PlotPoint.written
  script : ∀ s, RecordsPoints " " 0 (Script.lines s l) l.points
  blocks : ∀ g ∈ l.graphs, Script.DrawsCurves g

theorem showsPoints {l : Layout Float} (h : ∀ g ∈ l.graphs, ∃ b, g.GroupsPoints b) : l.ShowsPoints where
  listing s := by
    refine RecordsPoints.zipIdx fun g hg index => ?_
    obtain ⟨b, hb⟩ := h g hg
    exact Listing.recordsPoints_graphLines hb s index
  tags := PlotXml.map_coordinates_layoutNode h
  script s := by
    refine RecordsPoints.behind (Script.noRecord_headLines s l.title) (RecordsPoints.zipIdx fun g hg index => ?_)
    obtain ⟨b, hb⟩ := h g hg
    exact Script.recordsPoints_numberedLines hb index
  blocks g hg := by
    obtain ⟨b, hb⟩ := h g hg
    exact Script.drawsCurves hb

/-- Whatever graphs are laid out, the points of each are those of its curves in their order, and every output
    format shows every point once. -/
theorem showsPoints_ofBound {title : Option String} {styles : StyleRegistry} {graphs : List BoundGraph}
    {l : Layout Float} (h : ofBound title styles graphs = .ok l) :
    List.Forall₂ (fun b g => GraphLayout.GroupsPoints g b) graphs l.graphs ∧ l.ShowsPoints := by
  obtain ⟨layouts, hlayouts, rfl⟩ := map_eq_ok.1 h
  have hgroups : List.Forall₂ (fun b g => GraphLayout.GroupsPoints g b) graphs layouts :=
    (forall₂_of_mapM_eq_ok hlayouts).imp fun _ _ hg => GraphLayout.groupsPoints_ofBound hg
  refine ⟨hgroups, showsPoints fun g hg => ?_⟩
  obtain ⟨b, _, hb⟩ := exists_mem_of_forall₂ hgroups.flip hg
  exact ⟨b, hb⟩

end Layout

/-- A curve that is skipped between two curves that are not, which have two points and one. -/
def sampleSkipped : BoundGraph :=
  .ofCurves .linear .linear .none
    [.ofPairs 0 .none [(.number 1.0, .number 10.0), (.number 2.0, .number 20.0)],
      .ofPairs 1 { CurveOptions.none with skip := true } [(.number 1.0, .number 5.0)],
      .ofPairs 2 .none [(.number 1.0, .number 30.0)]]

theorem showsPoints_sample : ∃ l : Layout Float, Layout.ofBound none .empty [sampleSkipped] = .ok l
    ∧ l.points.map PlotPoint.written = [(some "1", some "10"), (some "2", some "20"), (some "1", some "30")]
    ∧ List.Forall₂ (fun b g => GraphLayout.GroupsPoints g b) [sampleSkipped] l.graphs ∧ l.ShowsPoints := by
  have hrun : (Layout.ofBound (α := Float) none .empty [sampleSkipped]).toOption.map
      (fun l => l.points.map PlotPoint.written)
      = some [(some "1", some "10"), (some "2", some "20"), (some "1", some "30")] := by
    decide +kernel
  obtain ⟨l, hl, hpoints⟩ := exists_eq_ok hrun
  exact ⟨l, hl, hpoints, Layout.showsPoints_ofBound hl⟩

end BenchPlot
