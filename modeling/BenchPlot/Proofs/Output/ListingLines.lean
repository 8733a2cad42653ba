import BenchPlot.Proofs.Layout.Independence
import BenchPlot.Proofs.Output.PointRecords
import BenchPlot.Proofs.Plan.Iteration
import BenchPlot.Proofs.Text.Lines
import BenchPlot.Proofs.Value.Literal

/-!
# Lines of a listing

A listing has a record for each graph, each curve and each point of a layout, and an empty one between graphs. The
titles, labels and values of a record are written as they are, so the lines of a record are those of its line cut at
the line feeds in these texts: every record is one line iff no text has a line feed.

Main statements: `Layout.listsAll_ofBound`, `piecesAt_linesText_iff` and `Layout.splits_listing`.
-/

namespace BenchPlot

/-! ## §1 Texts and their lines -/

/-- Lines that are written one below the other come back cut at their line feeds. -/
theorem piecesAt_linesText (lines : List String) :
    Text.piecesAt '\n' (linesText lines).toList = (lines.flatMap fun line => Text.piecesAt '\n' line.toList) ++ [[]] := by
  induction lines with
  | nil => rfl
  | cons line rest ih =>
    have htext : (linesText (line :: rest)).toList = line.toList ++ '\n' :: (linesText rest).toList := by
      simp [linesText, String.join_cons]
    have hcut : Text.piecesAt '\n' (line.toList ++ '\n' :: (linesText rest).toList)
        = Text.piecesAt '\n' line.toList ++ Text.piecesAt '\n' (linesText rest).toList :=
      Text.piecesBy_append (p := (· == '\n')) rfl _ _
    rw [htext, hcut, ih, List.flatMap_cons, List.append_assoc]

/-- They come back as they are iff none of them has a line feed. -/
theorem piecesAt_linesText_iff (lines : List String) :
    Text.piecesAt '\n' (linesText lines).toList = lines.map String.toList ++ [[]] ↔ ∀ line ∈ lines, '\n' ∉ line.toList := by
  constructor
  · intro h line hline
    -- A line that comes back is a piece, and no piece has a line feed.
    have hpiece : line.toList ∈ Text.piecesAt '\n' (linesText lines).toList := by
      rw [h]
      exact List.mem_append_left _ (List.mem_map_of_mem hline)
    exact Text.notMem_of_mem_piecesAt hpiece
  · intro h
    rw [piecesAt_linesText, List.map_eq_flatMap]
    exact congrArg (· ++ [[]]) (List.flatMap_congr fun line hline => Text.piecesAt_of_notMem (h line hline))

/-! ## §2 Records -/

/-- What a listing says in one line: nothing between two graphs, the number and title of a graph, the number and label
    of a curve, or a point. -/
inductive ListingRecord where
  | gap
  | graph (number : Nat) (title : String)
  | curve (id : Nat) (label : String)
  | point (p : PlotPoint Float)

namespace ListingRecord

/-- The line of a record. -/
def line (s : ListingSettings) : ListingRecord → String
  | gap => ""
  | graph number title => "# graph " ++ Decimal.naturalText number ++ " " ++ title
  | curve id label => "# curve " ++ Decimal.naturalText id ++ " " ++ label
  | point p => Listing.pointLine s p

/-- The texts in the line of a record that are written as they are. -/
def texts (s : ListingSettings) : ListingRecord → List String
  | gap => []
  | graph _ title => [title]
  | curve _ label => [label]
  | point p => [p.rawX.display, p.rawY.display, s.separator]

def graph? : ListingRecord → Option (Nat × String)
  | graph number title => some (number, title)
  | _ => none

def curve? : ListingRecord → Option (Nat × String)
  | curve id label => some (id, label)
  | _ => none

def point? : ListingRecord → Option (PlotPoint Float)
  | point p => some p
  | _ => none

def isGap : ListingRecord → Bool
  | gap => true
  | _ => false

theorem lineFeed_notMem_numberText (x : Float) : '\n' ∉ (numberText x).toList :=
  notMem_numberText rfl (by simp) x

theorem lineFeed_notMem_naturalText (n : Nat) : '\n' ∉ (Decimal.naturalText n).toList := by
  rw [Decimal.naturalText, String.toList_ofList]
  intro h
  cases Decimal.isDigit_of_mem_digitChars h

/-- The line of a record has a line feed iff one of its texts has one. -/
theorem lineFeed_mem_line (s : ListingSettings) (r : ListingRecord) :
    '\n' ∈ (r.line s).toList ↔ ∃ t ∈ r.texts s, '\n' ∈ t.toList := by
  cases r with
  | gap => simp [line, texts]
  | graph number title => simp [line, texts, lineFeed_notMem_naturalText]
  | curve id label => simp [line, texts, lineFeed_notMem_naturalText]
  | point p =>
    have hparts : (∃ t ∈ (Listing.pointParts s.bounds p).map String.toList, '\n' ∈ t)
        ↔ '\n' ∈ p.rawX.display.toList ∨ '\n' ∈ p.rawY.display.toList := by
      unfold Listing.pointParts
      split <;> simp [lineFeed_notMem_numberText, lineFeed_notMem_naturalText]
    have hlength : 2 ≤ ((Listing.pointParts s.bounds p).map String.toList).length := by
      simp [Listing.pointParts]
    rw [line, Listing.pointLine, String.toList_intercalate, Text.mem_intercalate, hparts, and_iff_left hlength]
    simp [texts, or_assoc]

theorem forall_texts_iff {s : ListingSettings} {r : ListingRecord} {P : String → Prop} : (∀ t ∈ r.texts s, P t)
    ↔ (∀ x, r.graph? = some x → P x.2) ∧ (∀ x, r.curve? = some x → P x.2)
      ∧ ∀ p, r.point? = some p → P p.rawX.display ∧ P p.rawY.display ∧ P s.separator := by
  cases r <;> simp [texts, graph?, curve?, point?]

end ListingRecord

/-! ## §3 Records of a layout -/

/-- The records of the graph with number `index`: the graph, and each curve with its points. -/
def GraphLayout.records (g : GraphLayout Float) (index : Nat) : List ListingRecord :=
  (if index = 0 then [] else [.gap])
    ++ .graph (index + 1) g.title :: g.curves.flatMap fun c => .curve c.id c.label :: (g.pointsOf c.id).map .point

/-- The records of a layout, graph by graph. -/
def Layout.records (l : Layout Float) : List ListingRecord :=
  l.graphs.zipIdx.flatMap fun g => g.1.records g.2

namespace Layout

theorem graphComment_eq (number : Nat) (title : String) (s : ListingSettings) :
    s!"# graph {number} {title}" = (ListingRecord.graph number title).line s :=
  rfl

theorem curveComment_eq (id : Nat) (label : String) (s : ListingSettings) :
    s!"# curve {id} {label}" = (ListingRecord.curve id label).line s :=
  rfl

theorem lines_eq (s : ListingSettings) (l : Layout Float) : Listing.lines s l = l.records.map (ListingRecord.line s) := by
  unfold Listing.lines Listing.graphLines Listing.curveLines Layout.records GraphLayout.records
  rw [List.map_flatMap]
  refine List.flatMap_congr fun g _ => ?_
  have hgap : (if g.2 = 0 then [] else [""]) = (if g.2 = 0 then [] else [.gap]).map (ListingRecord.line s) := by
    split <;> rfl
  have hcurve : ∀ c ∈ g.1.curves, (s!"# curve {c.id} {c.label}" :: (g.1.pointsOf c.id).map (Listing.pointLine s))
      = (.curve c.id c.label :: (g.1.pointsOf c.id).map .point).map (ListingRecord.line s) := by
    intro c _
    have hpoints : ListingRecord.line s ∘ ListingRecord.point = Listing.pointLine s := funext fun p => by
      rw [Function.comp_apply, ListingRecord.line]
    rw [List.map_cons, List.map_map, hpoints, curveComment_eq _ _ s]
  rw [List.map_append, ← hgap, List.map_cons, List.map_flatMap, ← List.flatMap_congr hcurve, graphComment_eq _ _ s]

end Layout

namespace GraphLayout

variable (g : GraphLayout Float) (index : Nat)

/-- The records of a kind among those of a graph, for a kind that no gap is of. -/
theorem filterMap_records {α : Type} {f : ListingRecord → Option α} (hgap : f .gap = none) :
    (g.records index).filterMap f = (f (.graph (index + 1) g.title)).toList
      ++ g.curves.flatMap fun c => (f (.curve c.id c.label)).toList ++ (g.pointsOf c.id).filterMap (f ∘ .point) := by
  have hcons : ∀ r rest, (r :: rest).filterMap f = (f r).toList ++ rest.filterMap f := by
    intro r rest
    rw [List.filterMap_cons]
    cases f r <;> rfl
  have hfront : (if index = 0 then [] else [ListingRecord.gap]).filterMap f = [] := by
    split
    · rfl
    · rw [hcons, hgap]
      rfl
  rw [records, List.filterMap_append, hfront, List.nil_append, hcons, List.filterMap_flatMap]
  refine congrArg _ (List.flatMap_congr fun c _ => ?_)
  rw [hcons, List.filterMap_map]

theorem filterMap_graph_records : (g.records index).filterMap ListingRecord.graph? = [(index + 1, g.title)] := by
  have hcurves : (g.curves.flatMap fun c => (ListingRecord.graph? (.curve c.id c.label)).toList
      ++ (g.pointsOf c.id).filterMap (ListingRecord.graph? ∘ .point)) = [] := by
    refine List.flatMap_eq_nil_iff.mpr fun c _ => ?_
    exact List.filterMap_eq_nil_iff.mpr fun p _ => rfl
  rw [g.filterMap_records index rfl, hcurves]
  rfl

theorem filterMap_curve_records :
    (g.records index).filterMap ListingRecord.curve? = g.curves.map fun c => (c.id, c.label) := by
  rw [g.filterMap_records index rfl, List.map_eq_flatMap]
  refine List.flatMap_congr fun c _ => ?_
  have hpoints : (g.pointsOf c.id).filterMap (ListingRecord.curve? ∘ .point) = [] :=
    List.filterMap_eq_nil_iff.mpr fun p _ => rfl
  rw [hpoints]
  rfl

theorem filterMap_point_records :
    (g.records index).filterMap ListingRecord.point? = g.curves.flatMap fun c => g.pointsOf c.id := by
  rw [g.filterMap_records index rfl]
  refine List.flatMap_congr fun c _ => ?_
  exact List.filterMap_some

theorem countP_gap_records : (g.records index).countP ListingRecord.isGap = if index = 0 then 0 else 1 := by
  have hcurves : (g.curves.flatMap fun c => .curve c.id c.label :: (g.pointsOf c.id).map .point).countP
      ListingRecord.isGap = 0 := by
    refine List.countP_eq_zero.mpr fun r hr => ?_
    obtain ⟨c, _, hr⟩ := List.mem_flatMap.mp hr
    rcases List.mem_cons.mp hr with rfl | hr
    · exact Bool.false_ne_true
    · obtain ⟨p, _, rfl⟩ := List.mem_map.mp hr
      exact Bool.false_ne_true
  rw [records, List.countP_append, List.countP_cons_of_neg Bool.false_ne_true, hcurves]
  split <;> rfl

end GraphLayout

namespace Layout

/-- Every graph, every curve and every point of a layout has one record, in the order of the layout, and there is one
    more between two graphs. -/
structure ListsAll (l : Layout Float) : Prop where
  graphs : l.records.filterMap ListingRecord.graph? = l.graphs.zipIdx.map fun g => (g.2 + 1, g.1.title)
  curves : l.records.filterMap ListingRecord.curve? = l.graphs.flatMap fun g => g.curves.map fun c => (c.id, c.label)
  points : l.records.filterMap ListingRecord.point? = l.points
  gaps : l.records.countP ListingRecord.isGap = l.graphs.length - 1

/-- What each graph has whatever its number is. -/
theorem filterMap_records {α : Type} {f : ListingRecord → Option α} {of : GraphLayout Float → List α} (l : Layout Float)
    (h : ∀ g ∈ l.graphs, ∀ index, (g.records index).filterMap f = of g) : l.records.filterMap f = l.graphs.flatMap of := by
  have hgraphs : l.graphs.flatMap of = (l.graphs.zipIdx.map Prod.fst).flatMap of := by
    rw [List.zipIdx_map_fst]
  rw [records, List.filterMap_flatMap, hgraphs, List.flatMap_map]
  exact List.flatMap_congr fun g hg => h g.1 (List.fst_mem_of_mem_zipIdx hg) g.2

theorem listsAll {l : Layout Float} (h : ∀ g ∈ l.graphs, ∃ b, g.GroupsPoints b) : l.ListsAll where
  graphs := by
    rw [records, List.filterMap_flatMap, List.map_eq_flatMap]
    exact List.flatMap_congr fun g _ => g.1.filterMap_graph_records g.2
  curves := l.filterMap_records fun g _ => g.filterMap_curve_records
  points := by
    refine l.filterMap_records fun g hg index => ?_
    obtain ⟨b, hb⟩ := h g hg
    rw [g.filterMap_point_records, hb.flatMap_pointsOf]
  gaps := by
    rw [records, List.countP_flatMap]
    cases l.graphs with
    | nil => rfl
    | cons g rest =>
      -- The first graph has nothing in front of it, and each later one has a gap.
      have hlater : (rest.zipIdx 1).map (List.countP ListingRecord.isGap ∘ fun g => g.1.records g.2)
          = (rest.zipIdx 1).map fun _ => 1 := by
        refine List.map_congr_left fun g hg => ?_
        have hindex : g.2 ≠ 0 := Nat.ne_of_gt (List.le_snd_of_mem_zipIdx hg)
        rw [Function.comp_apply, GraphLayout.countP_gap_records, if_neg hindex]
      rw [List.zipIdx_cons, List.map_cons, List.sum_cons, hlater, Function.comp_apply, GraphLayout.countP_gap_records,
        if_pos rfl, List.map_const', List.length_zipIdx, List.sum_replicate]
      simp

theorem listsAll_ofBound {title : Option String} {styles : StyleRegistry} {graphs : List BoundGraph} {l : Layout Float}
    (h : ofBound title styles graphs = .ok l) : l.ListsAll := by
  obtain ⟨layouts, hlayouts, rfl⟩ := map_eq_ok.1 h
  refine listsAll fun g hg => ?_
  obtain ⟨b, _, hb⟩ := exists_mem_of_forall₂ (forall₂_of_mapM_eq_ok hlayouts).flip hg
  exact ⟨b, GraphLayout.groupsPoints_ofBound hb⟩

/-! ## §4 Lines of a listing -/

/-- No text that a listing writes has a line feed. -/
structure IsOneLined (s : ListingSettings) (l : Layout Float) : Prop where
  titles : ∀ g ∈ l.graphs, '\n' ∉ g.title.toList
  labels : ∀ g ∈ l.graphs, ∀ c ∈ g.curves, '\n' ∉ c.label.toList
  values : ∀ p ∈ l.points, '\n' ∉ p.rawX.display.toList ∧ '\n' ∉ p.rawY.display.toList
  separator : l.points ≠ [] → '\n' ∉ s.separator.toList

theorem ListsAll.isOneLined_iff {l : Layout Float} (h : l.ListsAll) (s : ListingSettings) :
    l.IsOneLined s ↔ ∀ r ∈ l.records, ∀ t ∈ r.texts s, '\n' ∉ t.toList := by
  have hkinds : (∀ r ∈ l.records, ∀ t ∈ r.texts s, '\n' ∉ t.toList)
      ↔ (∀ x ∈ l.graphs.zipIdx.map fun g => (g.2 + 1, g.1.title), '\n' ∉ x.2.toList)
        ∧ (∀ x ∈ l.graphs.flatMap fun g => g.curves.map fun c => (c.id, c.label), '\n' ∉ x.2.toList)
        ∧ ∀ p ∈ l.points, '\n' ∉ p.rawX.display.toList ∧ '\n' ∉ p.rawY.display.toList ∧ '\n' ∉ s.separator.toList := by
    rw [← h.graphs, ← h.curves, ← h.points, List.forall_mem_filterMap, List.forall_mem_filterMap,
      List.forall_mem_filterMap]
    simp only [ListingRecord.forall_texts_iff, forall_and]
  have htitles : (∀ x ∈ l.graphs.zipIdx.map fun g => (g.2 + 1, g.1.title), '\n' ∉ x.2.toList)
      ↔ ∀ g ∈ l.graphs, '\n' ∉ g.title.toList := by
    have hfirst := List.forall_mem_map (f := Prod.fst) (l := l.graphs.zipIdx)
      (P := fun g : GraphLayout Float => '\n' ∉ g.title.toList)
    rw [List.zipIdx_map_fst] at hfirst
    exact List.forall_mem_map.trans hfirst.symm
  rw [hkinds, htitles, List.forall_mem_flatMap]
  simp only [List.forall_mem_map]
  constructor
  · rintro ⟨htitles, hlabels, hvalues, hseparator⟩
    exact ⟨htitles, hlabels, fun p hp => ⟨(hvalues p hp).1, (hvalues p hp).2, hseparator (List.ne_nil_of_mem hp)⟩⟩
  · rintro ⟨htitles, hlabels, hpoints⟩
    refine ⟨htitles, hlabels, fun p hp => ⟨(hpoints p hp).1, (hpoints p hp).2.1⟩, fun hne => ?_⟩
    obtain ⟨p, hp⟩ := List.exists_mem_of_ne_nil _ hne
    exact (hpoints p hp).2.2

/-- A listing is the lines of its records, each cut at the line feeds in its texts. So the lines of a listing are
    exactly one for each graph, one for each curve, one for each point and one between two graphs, in the order of the
    layout, iff no title, label or value, and no separator, has a line feed. -/
theorem splits_listing {title : Option String} {styles : StyleRegistry} {graphs : List BoundGraph} {l : Layout Float}
    (h : ofBound title styles graphs = .ok l) (s : ListingSettings) :
    l.ListsAll
      ∧ Text.piecesAt '\n' (l.listing s).toList
        = (l.records.flatMap fun r => Text.piecesAt '\n' (r.line s).toList) ++ [[]]
      ∧ (Text.piecesAt '\n' (l.listing s).toList = (l.records.map fun r => (r.line s).toList) ++ [[]] ↔ l.IsOneLined s) := by
  have hlists := listsAll_ofBound h
  refine ⟨hlists, ?_, ?_⟩
  · rw [listing, lines_eq, piecesAt_linesText, List.flatMap_map]
  · have hiff := piecesAt_linesText_iff (Listing.lines s l)
    rw [lines_eq, List.map_map] at hiff
    rw [listing, lines_eq]
    refine hiff.trans ?_
    rw [hlists.isOneLined_iff, List.forall_mem_map]
    refine forall₂_congr fun r _ => ?_
    rw [← not_iff_not, not_not, ListingRecord.lineFeed_mem_line]
    simp

end Layout

/-- Two graphs, each with two curves of two points and of one. -/
theorem splits_listing_sample : ∃ l : Layout Float, Layout.ofBound none .empty [sampleSkipped, sampleSkipped] = .ok l
    ∧ l.records.length = 13 ∧ l.ListsAll ∧ l.IsOneLined ⟨":", false⟩
    ∧ Text.piecesAt '\n' (l.listing ⟨":", false⟩).toList
      = (l.records.map fun r => (r.line ⟨":", false⟩).toList) ++ [[]] := by
  have hrun : (Layout.ofBound (α := Float) none .empty [sampleSkipped, sampleSkipped]).toOption.map (fun l =>
      (l.records.length, Text.piecesAt '\n' (l.listing ⟨":", false⟩).toList
        == (l.records.map fun r => (r.line ⟨":", false⟩).toList) ++ [[]])) = some (13, true) := by
    decide +kernel
  obtain ⟨l, hl, hresult⟩ := exists_eq_ok hrun
  rw [Prod.mk.injEq] at hresult
  obtain ⟨hlists, _, hiff⟩ := Layout.splits_listing hl ⟨":", false⟩
  have hlines := eq_of_beq hresult.2
  exact ⟨l, hl, hresult.1, hlists, hiff.mp hlines, hlines⟩

/-! A curve whose label has a line feed, and behind it what looks like a point. -/

def forgingSection : Section :=
  ⟨.curve, ⟨"plan", 7⟩, [⟨"xval", "$size", ⟨"plan", 8⟩⟩, ⟨"yval", "$size", ⟨"plan", 9⟩⟩,
    ⟨"label", "'a\\n0:9:9:9:9'", ⟨"plan", 10⟩⟩]⟩

def forgingCurve : CurvePlan :=
  ⟨0, 0, ⟨"plan", 7⟩, 0, ⟨"$size", [.column "size"]⟩, ⟨"$size", [.column "size"]⟩,
    some ⟨"'a\\n0:9:9:9:9'", [.literal (.text "a\n0:9:9:9:9")]⟩, none, none, none, none, none, [], [], .none⟩

def forgingPlan : Plan :=
  ⟨none, [stackedGraph [0]], [runsBench 0 [0]], [forgingCurve]⟩

theorem forgingPlan_ofDocument :
    Plan.ofDocument (.new ∅ ∅) ⟨[stackedSection, runsSection, forgingSection]⟩ = .ok (forgingPlan, .new ∅ ∅) := by
  have hsize : Formula.parse "$size" = .ok ⟨"$size", [.column "size"]⟩ := by cbv
  have hlabel : Formula.parse "'a\\n0:9:9:9:9'" = .ok ⟨"'a\\n0:9:9:9:9'", [.literal (.text "a\n0:9:9:9:9")]⟩ := by cbv
  have hxval : PlanItem.formula ⟨"xval", "$size", ⟨"plan", 8⟩⟩ = .ok forgingCurve.xval := mapError_eq_ok.2 hsize
  have hyval : PlanItem.formula ⟨"yval", "$size", ⟨"plan", 9⟩⟩ = .ok forgingCurve.yval := mapError_eq_ok.2 hsize
  have hoptional : forgingSection.optional "label" PlanItem.formula = .ok forgingCurve.label :=
    map_eq_ok.2 ⟨_, mapError_eq_ok.2 hlabel, rfl⟩
  have hcurve : CurvePlan.ofSection ⟨.new ∅ ∅, none, none⟩ 0 0 0 forgingSection = .ok forgingCurve :=
    bind_eq_ok.2 ⟨_, rfl, bind_eq_ok.2 ⟨_, hxval, bind_eq_ok.2 ⟨_, rfl, bind_eq_ok.2 ⟨_, hyval, bind_eq_ok.2 ⟨_, rfl,
      bind_eq_ok.2 ⟨_, hoptional, rfl⟩⟩⟩⟩⟩⟩
  have hsections : [stackedSection, runsSection, forgingSection].foldlM (Plan.addSection ⟨.new ∅ ∅, none, none⟩)
      (.empty, 0) = .ok (forgingPlan, 1) :=
    bind_eq_ok.2 ⟨_, map_eq_ok.2 ⟨_, stackedGraph_ofSection _, rfl⟩, bind_eq_ok.2 ⟨_,
      map_eq_ok.2 ⟨_, runsBench_ofSection 0, rfl⟩, bind_eq_ok.2 ⟨_, map_eq_ok.2 ⟨_, hcurve, rfl⟩, rfl⟩⟩⟩
  exact map_eq_ok.2 ⟨_, hsections, rfl⟩

/-- The layout has one point, and its listing one more line that looks like one. -/
theorem forgedPoint_sample :
    Plan.ofDocument (.new ∅ ∅) ⟨[stackedSection, runsSection, forgingSection]⟩ = .ok (forgingPlan, .new ∅ ∅)
      ∧ Store.sampleStart.Reachable ∧ ∃ graphs, forgingPlan.bind Store.sampleStart (.new ∅ ∅) = .ok graphs
      ∧ ∃ l : Layout Float, Layout.ofBound forgingPlan.title .empty graphs = .ok l ∧ l.points.length = 1
        ∧ l.listing ⟨":", false⟩ = "# graph 1 \n# curve 0 a\n0:9:9:9:9\n0:10:10:10:10\n"
        ∧ Text.piecesAt '\n' (l.listing ⟨":", false⟩).toList
          ≠ (l.records.map fun r => (r.line ⟨":", false⟩).toList) ++ [[]] := by
  have hrun : (forgingPlan.bind Store.sampleStart (.new ∅ ∅)).toOption.map (fun graphs =>
      (Layout.ofBound (α := Float) none .empty graphs).toOption.map fun l => (l.points.length, l.listing ⟨":", false⟩,
        Text.piecesAt '\n' (l.listing ⟨":", false⟩).toList
          == (l.records.map fun r => (r.line ⟨":", false⟩).toList) ++ [[]]))
      = some (some (1, "# graph 1 \n# curve 0 a\n0:9:9:9:9\n0:10:10:10:10\n", false)) := by
    decide +kernel
  obtain ⟨graphs, hgraphs, hlaid⟩ := exists_eq_ok hrun
  obtain ⟨l, hl, hresult⟩ := exists_eq_ok hlaid
  simp only [Prod.mk.injEq] at hresult
  obtain ⟨hpoints, hlisting, hlines⟩ := hresult
  refine ⟨forgingPlan_ofDocument, ⟨"0", _, rfl⟩, graphs, hgraphs, l, hl, hpoints, hlisting, fun heq => ?_⟩
  rw [heq, beq_self_eq_true] at hlines
  cases hlines

end BenchPlot
