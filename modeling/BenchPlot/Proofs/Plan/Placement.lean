import BenchPlot.Proofs.Layout.Independence
import BenchPlot.Proofs.Plan.Failures
import BenchPlot.Proofs.Plan.Forest

/-!
# Misplaced sections

A bench needs a graph in front of it, and a curve a bench since the last graph. Building a plan is refused for the place
of a section exactly where the first section that does not fit stands at a wrong place: no item is ever refused with
such a failure, and a section that is placed and can be built by itself is added.

Main statements: `Plan.exists_foldlM_iff`, `Plan.foldlM_eq_placement` and `Plan.forest_ofDocument`.
-/

namespace BenchPlot

/-- A failure for the place of a section. -/
def PlanError.isPlacement (e : PlanError) : Bool :=
  match e.cause with
  | .invalid .benchBeforeGraph | .invalid .curveBeforeBench => true
  | _ => false

/-! ## §1 Failures of items -/

/-- A result that is no failure for the place of a section. -/
abbrev NotMisplaced {α : Type} (r : Except PlanError α) : Prop :=
  FailsOnly (fun e : PlanError => e.isPlacement = false) r

namespace PlanItem

variable (item : Item)

theorem notMisplaced_text (scope : Scope) : NotMisplaced (text scope item) :=
  .mapError fun _ _ => rfl

theorem notMisplaced_formula : NotMisplaced (formula item) :=
  .mapError fun _ _ => rfl

theorem notMisplaced_aggregation : NotMisplaced (aggregation item) := by
  unfold aggregation
  split
  · exact .of_ok ⟨_, rfl⟩
  · exact .of_error rfl

theorem notMisplaced_number : NotMisplaced (number item) := by
  unfold number
  split
  · exact .of_ok ⟨_, rfl⟩
  · exact .of_error rfl

theorem notMisplaced_range : NotMisplaced (range item) := by
  unfold range
  split
  · exact .of_ok ⟨_, rfl⟩
  · exact .of_error rfl

theorem notMisplaced_styleName (scope : Scope) (category : StyleCategory) :
    NotMisplaced (styleName scope category item) := by
  unfold styleName
  split
  · exact .of_ok ⟨_, rfl⟩
  · exact .of_error rfl

end PlanItem

namespace Section

variable (s : Section)

theorem notMisplaced_require (key : String) : NotMisplaced (s.require key) := by
  unfold require
  split
  · exact .of_ok ⟨_, rfl⟩
  · exact .of_error rfl

theorem notMisplaced_optional {α : Type} (key : String) {f : Item → Except PlanError α}
    (hf : ∀ item, NotMisplaced (f item)) : NotMisplaced (s.optional key f) := by
  unfold optional
  split
  · exact .of_ok ⟨_, rfl⟩
  · exact (hf _).map

theorem notMisplaced_options {α : Type} (none_ : α) (set? : α → String → Option α) {fault : String → PlanFault}
    (hfault : ∀ flag, PlanError.isPlacement ⟨s.location, .invalid (fault flag)⟩ = false) :
    NotMisplaced (s.options none_ set? fault) := by
  refine .foldlM (fun flag _ o => ?_) none_
  split
  · exact .of_ok ⟨_, rfl⟩
  · exact .of_error (hfault flag)

theorem notMisplaced_legend : NotMisplaced s.legend := by
  unfold legend
  split
  · exact .of_ok ⟨_, rfl⟩
  · split
    · exact .of_ok ⟨_, rfl⟩
    · exact .of_error rfl

end Section

variable (s : Section) (g : GlobalSettings)

theorem AxisPlan.notMisplaced_ofSection (scope : Scope) (letter : String) (scale : Item) :
    NotMisplaced (AxisPlan.ofSection scope s letter scale) := by
  unfold AxisPlan.ofSection
  -- What follows the lookup of the scale is the same for every kind of it.
  extract_lets rest
  have hrest : ∀ kind, NotMisplaced (rest kind) := by
    intro kind
    refine .bind (s.notMisplaced_optional _ PlanItem.notMisplaced_number) fun base _ => ?_
    refine .bind (s.notMisplaced_optional _ PlanItem.notMisplaced_range) fun range _ => ?_
    refine .bind (s.notMisplaced_optional _ fun item => PlanItem.notMisplaced_text item scope) fun label _ => ?_
    exact .of_ok ⟨_, rfl⟩
  split
  · exact (FailsOnly.of_ok ⟨_, rfl⟩).bind fun kind _ => hrest kind
  · have hrefused : ∀ e, NotMisplaced (scale.refuse (.style e) : Except PlanError StyleKind) := fun e => .of_error rfl
    exact (hrefused _).bind fun kind _ => hrest kind

theorem GraphPlan.notMisplaced_ofSection (id : Nat) : NotMisplaced (GraphPlan.ofSection g id s) := by
  unfold GraphPlan.ofSection
  refine .bind (s.notMisplaced_require _) fun xtype _ => ?_
  refine .bind (s.notMisplaced_require _) fun ytype _ => ?_
  refine .bind (s.notMisplaced_options _ _ fun _ => rfl) fun options _ => ?_
  refine .bind s.notMisplaced_legend fun legend _ => ?_
  refine .bind (s.notMisplaced_optional _ fun item => PlanItem.notMisplaced_text item _) fun title _ => ?_
  refine .bind (AxisPlan.notMisplaced_ofSection s _ _ _) fun x _ => ?_
  refine .bind (AxisPlan.notMisplaced_ofSection s _ _ _) fun y _ => ?_
  refine .bind (s.notMisplaced_optional _ PlanItem.notMisplaced_aggregation) fun aggregation _ => ?_
  exact .of_ok ⟨_, rfl⟩

theorem BenchPlan.notMisplaced_ofSection (id graph : Nat) : NotMisplaced (BenchPlan.ofSection g id graph s) := by
  unfold BenchPlan.ofSection
  refine .bind (s.notMisplaced_require _) fun item _ => ?_
  refine .bind (PlanItem.notMisplaced_text item _) fun name _ => ?_
  refine .bind (s.notMisplaced_optional _ fun item => PlanItem.notMisplaced_text item _) fun label _ => ?_
  exact .of_ok ⟨_, rfl⟩

theorem CurvePlan.notMisplaced_ofSection (id bench ordinal : Nat) :
    NotMisplaced (CurvePlan.ofSection g id bench ordinal s) := by
  unfold CurvePlan.ofSection
  refine .bind (s.notMisplaced_require _) fun xItem _ => ?_
  refine .bind (PlanItem.notMisplaced_formula xItem) fun xval _ => ?_
  refine .bind (s.notMisplaced_require _) fun yItem _ => ?_
  refine .bind (PlanItem.notMisplaced_formula yItem) fun yval _ => ?_
  refine .bind (s.notMisplaced_options _ _ fun _ => rfl) fun options _ => ?_
  refine .bind (s.notMisplaced_optional _ PlanItem.notMisplaced_formula) fun label _ => ?_
  refine .bind (s.notMisplaced_optional _ PlanItem.notMisplaced_formula) fun markText _ => ?_
  refine .bind (s.notMisplaced_optional _ PlanItem.notMisplaced_aggregation) fun aggregation _ => ?_
  refine .bind (s.notMisplaced_optional _ fun item => PlanItem.notMisplaced_styleName item _ _) fun line _ => ?_
  refine .bind (s.notMisplaced_optional _ fun item => PlanItem.notMisplaced_styleName item _ _) fun mark _ => ?_
  refine .bind (s.notMisplaced_optional _ fun item => PlanItem.notMisplaced_styleName item _ _) fun color _ => ?_
  exact .of_ok ⟨_, rfl⟩

namespace GlobalSettings

theorem notMisplaced_defineStyle (item : Item) : NotMisplaced (g.defineStyle item) := by
  unfold defineStyle
  split
  · exact .of_error rfl
  · split
    · exact .of_error rfl
    · split
      · exact .of_error rfl
      · exact .of_ok ⟨_, rfl⟩

theorem notMisplaced_define (item : Item) (r : Except FormulaError Scope) : NotMisplaced (g.define item r) :=
  FailsOnly.map (.mapError fun _ _ => rfl)

/-- No item of a global section is refused for a place. -/
theorem notMisplaced_apply (item : Item) : NotMisplaced (g.apply item) := by
  unfold apply
  split
  · split
    · exact .of_error rfl
    · exact .of_ok ⟨_, rfl⟩
  · split
    · exact .of_error rfl
    · exact g.notMisplaced_define item _
  · split
    · exact .of_error rfl
    · exact g.notMisplaced_define item _
  · exact g.notMisplaced_defineStyle item
  · exact g.notMisplaced_defineStyle item
  · exact g.notMisplaced_defineStyle item
  · exact g.notMisplaced_defineStyle item
  · exact (PlanItem.notMisplaced_text item _).map
  · exact (PlanItem.notMisplaced_aggregation item).map
  · exact .of_ok ⟨_, rfl⟩

theorem notMisplaced_ofDocument (scope : Scope) (d : Document) : NotMisplaced (ofDocument scope d) :=
  .foldlM (fun item _ g => g.notMisplaced_apply item) _

end GlobalSettings

/-! ## §2 Places of sections -/

/-- Whether a section stands where it has no parent: a bench in front of all graphs, or a curve with no bench since the
    last graph. -/
def Section.IsMisplaced (front : List Section) (s : Section) : Prop :=
  s.kind = .bench ∧ sectionsOf .graph front = [] ∨ s.kind = .curve ∧ sectionsOf .bench (sinceGraph front) = []

/-- The failure for the place of a section. -/
def Section.placementError (s : Section) : PlanError :=
  ⟨s.location, .invalid (if s.kind = .bench then .benchBeforeGraph else .curveBeforeBench)⟩

/-- Whether a section can be built by itself, wherever it stands. -/
def Section.IsBuildable (g : GlobalSettings) (s : Section) : Prop :=
  match s.kind with
  | .global => True
  | .graph => ∃ n, GraphPlan.ofSection g 0 s = .ok n
  | .bench => ∃ n, BenchPlan.ofSection g 0 0 s = .ok n
  | .curve => ∃ n, CurvePlan.ofSection g 0 0 0 s = .ok n

theorem Section.isPlacement_placementError (s : Section) : s.placementError.isPlacement = true := by
  unfold placementError
  split <;> rfl

namespace Plan

variable {s : Section} {g : GlobalSettings} {front sections : List Section} {p : Plan} {ordinal : Nat}

theorem Grows.graphs_eq_nil_iff (h : Grows g front p ordinal) : p.graphs.getLast? = none ↔ sectionsOf .graph front = [] := by
  rw [List.getLast?_eq_none_iff, ← List.length_eq_zero_iff, ← h.follows.length_graphs, List.length_eq_zero_iff]

/-- A section that stands at a wrong place is refused for it. -/
theorem Grows.addSection_of_misplaced (h : Grows g front p ordinal) (hmisplaced : s.IsMisplaced front) :
    addSection g (p, ordinal) s = .error s.placementError := by
  unfold addSection
  dsimp only
  rcases hmisplaced with ⟨hkind, hnone⟩ | ⟨hkind, hnone⟩
  · simp only [hkind, h.graphs_eq_nil_iff.mpr hnone, Section.placementError, if_true]
  · have hclosed := h.open_iff.mpr hnone
    unfold openBench? at hclosed
    simp only [hkind, hclosed, Section.placementError, reduceCtorEq, if_false]

/-- A section that stands at its place is added iff it can be built by itself. -/
theorem Grows.addSection_of_placed (h : Grows g front p ordinal) (hplaced : ¬s.IsMisplaced front) :
    NotMisplaced (addSection g (p, ordinal) s)
      ∧ ((∃ r, addSection g (p, ordinal) s = .ok r) ↔ s.IsBuildable g) := by
  rw [Section.IsMisplaced, not_or] at hplaced
  obtain ⟨hbench, hcurve⟩ := hplaced
  unfold addSection Section.IsBuildable
  dsimp only
  cases hkind : s.kind with
  | «global» => exact ⟨.of_ok ⟨_, rfl⟩, iff_of_true ⟨_, rfl⟩ trivial⟩
  | graph =>
    dsimp only
    refine ⟨(GraphPlan.notMisplaced_ofSection s g _).map, ?_⟩
    rw [exists_map_eq_ok, GraphPlan.ofSection_eq, exists_map_eq_ok]
  | bench =>
    dsimp only
    cases hlast : p.graphs.getLast? with
    | none => exact absurd ⟨hkind, h.graphs_eq_nil_iff.mp hlast⟩ hbench
    | some parent =>
      dsimp only
      refine ⟨(BenchPlan.notMisplaced_ofSection s g _ _).map, ?_⟩
      rw [exists_map_eq_ok, BenchPlan.ofSection_eq, exists_map_eq_ok]
  | curve =>
    dsimp only
    cases hlast : p.benches.getLast?.filter fun b => some b.graph == p.graphs.getLast?.map GraphPlan.id with
    | none => exact absurd ⟨hkind, h.open_iff.mp hlast⟩ hcurve
    | some parent =>
      dsimp only
      refine ⟨(CurvePlan.notMisplaced_ofSection s g _ _ _).map, ?_⟩
      rw [exists_map_eq_ok, CurvePlan.ofSection_eq, exists_map_eq_ok]

/-! ## §3 All sections -/

/-- Sections that can all be built, each at its place. -/
def SectionsFit (g : GlobalSettings) (sections : List Section) : Prop :=
  ∀ {front s back}, sections = front ++ s :: back → s.IsBuildable g ∧ ¬s.IsMisplaced front

theorem sectionsFit_concat : SectionsFit g (sections ++ [s])
    ↔ SectionsFit g sections ∧ s.IsBuildable g ∧ ¬s.IsMisplaced sections := by
  constructor
  · refine fun h => ⟨fun {front t back} hsplit => @h front t (back ++ [s]) ?_, h rfl⟩
    rw [hsplit, List.append_assoc]
    rfl
  · rintro ⟨h, hlast⟩ front t back hsplit
    rcases split_concat hsplit with ⟨rfl, rfl⟩ | ⟨back', hold⟩
    · exact hlast
    · exact h hold

/-- A fold is refused at the first step that is refused. -/
theorem foldlM_eq_error {ε α β : Type} {f : β → α → Except ε β} {l : List α} {b : β} {e : ε} :
    l.foldlM f b = .error e ↔
      ∃ front a back c, l = front ++ a :: back ∧ front.foldlM f b = .ok c ∧ f c a = .error e := by
  constructor
  · intro h
    induction l generalizing b with
    | nil => cases h
    | cons a rest ih =>
      rw [List.foldlM_cons] at h
      cases hfirst : f b a with
      | error e' =>
        rw [hfirst] at h
        cases h
        exact ⟨[], a, rest, b, rfl, rfl, hfirst⟩
      | ok b' =>
        rw [hfirst] at h
        obtain ⟨front, a', back, c, rfl, hfront, hrefused⟩ := ih h
        refine ⟨a :: front, a', back, c, rfl, ?_, hrefused⟩
        rw [List.foldlM_cons, hfirst]
        exact hfront
  · rintro ⟨front, a, back, c, rfl, hfront, hrefused⟩
    rw [List.foldlM_append, hfront]
    show (a :: back).foldlM f c = _
    rw [List.foldlM_cons, hrefused]
    rfl

/-- The plan without graphs, to which all sections are added. -/
def start (g : GlobalSettings) : Plan × Nat :=
  ({ empty with title := g.title }, 0)

/-- Sections are added one by one iff they fit. -/
theorem exists_foldlM_iff : (∃ r, sections.foldlM (addSection g) (start g) = .ok r) ↔ SectionsFit g sections := by
  -- From the end, since a section is judged by those in front of it.
  induction sections using List.reverseRecOn with
  | nil => exact iff_of_true ⟨_, rfl⟩ fun h => by simp at h
  | append_singleton front s ih =>
    rw [sectionsFit_concat, ← ih, List.foldlM_append]
    cases hfront : front.foldlM (addSection g) (start g) with
    | error e =>
      refine iff_of_false ?_ ?_
      · rintro ⟨r, hr⟩
        cases hr
      · rintro ⟨⟨r, hr⟩, -⟩
        cases hr
    | ok state =>
      have hgrows : Grows g front state.1 state.2 := grows_of_foldlM hfront
      have hstep : ((Except.ok state : Except PlanError (Plan × Nat)) >>= fun b => [s].foldlM (addSection g) b)
          = addSection g state s := bind_pure (addSection g state s)
      rw [hstep]
      by_cases hplaced : s.IsMisplaced front
      · refine iff_of_false ?_ fun h => h.2.2 hplaced
        rintro ⟨r, hr⟩
        cases (hgrows.addSection_of_misplaced hplaced).symm.trans hr
      · rw [(hgrows.addSection_of_placed hplaced).2]
        exact ⟨fun h => ⟨⟨_, rfl⟩, h, hplaced⟩, fun h => h.2.1⟩

/-- Adding is refused for a place iff the first section that does not fit stands at a wrong one. -/
theorem foldlM_eq_placement {e : PlanError} :
    (sections.foldlM (addSection g) (start g) = .error e ∧ e.isPlacement = true) ↔
      ∃ front s back, sections = front ++ s :: back ∧ SectionsFit g front ∧ s.IsMisplaced front
        ∧ e = s.placementError := by
  rw [foldlM_eq_error]
  constructor
  · rintro ⟨⟨front, s, back, state, hsplit, hfront, hrefused⟩, he⟩
    have hgrows : Grows g front state.1 state.2 := grows_of_foldlM hfront
    refine ⟨front, s, back, hsplit, exists_foldlM_iff.mp ⟨state, hfront⟩, ?_⟩
    by_cases hplaced : s.IsMisplaced front
    · exact ⟨hplaced, Except.error.inj (hrefused.symm.trans (hgrows.addSection_of_misplaced hplaced))⟩
    · -- What is refused at its place is refused for another reason.
      have hother := (hgrows.addSection_of_placed hplaced).1 e hrefused
      cases he.symm.trans hother
  · rintro ⟨front, s, back, hsplit, hfit, hplaced, rfl⟩
    obtain ⟨state, hfront⟩ := exists_foldlM_iff.mpr hfit
    have hgrows : Grows g front state.1 state.2 := grows_of_foldlM hfront
    exact ⟨⟨front, s, back, state, hsplit, hfront, hgrows.addSection_of_misplaced hplaced⟩,
      s.isPlacement_placementError⟩

/-! ## §4 Documents -/

theorem ofDocument_eq_of_ok {scope : Scope} {d : Document} (h : GlobalSettings.ofDocument scope d = .ok g) :
    ofDocument scope d = (d.sections.foldlM (addSection g) (start g)).map fun r => (r.1, g.scope) := by
  rw [ofDocument, h]
  rfl

/-- The plan of a document is a forest over its sections, and a section at a wrong place is the only reason to refuse
    it for a place. A plan is built iff the global settings are accepted and every section can be built and stands at
    its place; building fails for a place iff the first section that does not fit stands at a wrong one, and then the
    failure names this section. So if nothing else is refused, building fails iff some section stands at a wrong
    place. -/
theorem forest_ofDocument (scope : Scope) (d : Document) :
    (∀ p scope', ofDocument scope d = .ok (p, scope') →
      ∃ g, GlobalSettings.ofDocument scope d = .ok g ∧ p.IsForest g d.sections)
    ∧ ((∃ r, ofDocument scope d = .ok r) ↔
        ∃ g, GlobalSettings.ofDocument scope d = .ok g ∧ SectionsFit g d.sections)
    ∧ (∀ e, (ofDocument scope d = .error e ∧ e.isPlacement = true) ↔
        ∃ g front s back, GlobalSettings.ofDocument scope d = .ok g ∧ d.sections = front ++ s :: back
          ∧ SectionsFit g front ∧ s.IsMisplaced front ∧ e = s.placementError)
    ∧ ((∀ e, ofDocument scope d = .error e → e.isPlacement = true) →
        ((∃ e, ofDocument scope d = .error e) ↔
          ∃ front s back, d.sections = front ++ s :: back ∧ s.IsMisplaced front)) := by
  cases hg : GlobalSettings.ofDocument scope d with
  | error e =>
    have hrefused : ofDocument scope d = .error e := by rw [ofDocument, hg]
    have hother := GlobalSettings.notMisplaced_ofDocument scope d e hg
    rw [hrefused]
    refine ⟨fun _ _ h => (nomatch h), iff_of_false (fun ⟨_, hr⟩ => (nomatch hr)) fun ⟨_, hg, _⟩ => (nomatch hg),
      fun _ => iff_of_false ?_ fun ⟨_, _, _, _, hg, _⟩ => (nomatch hg), fun h => ?_⟩
    · rintro ⟨he, hplacement⟩
      cases he
      cases hplacement.symm.trans hother
    · cases (h e rfl).symm.trans hother
  | ok g =>
    have hbuilt := ofDocument_eq_of_ok hg
    have hsome : (∃ r, ofDocument scope d = .ok r) ↔ SectionsFit g d.sections := by
      rw [hbuilt, exists_map_eq_ok, exists_foldlM_iff]
    have hplacement : ∀ e, (ofDocument scope d = .error e ∧ e.isPlacement = true) ↔
        ∃ front s back, d.sections = front ++ s :: back ∧ SectionsFit g front ∧ s.IsMisplaced front
          ∧ e = s.placementError := by
      intro e
      rw [hbuilt, map_eq_error, foldlM_eq_placement]
    refine ⟨fun p scope' h => ⟨g, rfl, ?_⟩, hsome.trans ⟨fun h => ⟨g, rfl, h⟩, fun ⟨_, hg', h⟩ => ?_⟩,
      fun e => (hplacement e).trans (.intro ?_ ?_), fun honly => .intro ?_ ?_⟩
    · rw [hbuilt] at h
      obtain ⟨⟨p', ordinal⟩, hfold, hp⟩ := map_eq_ok.1 h
      cases hp
      exact (grows_of_foldlM hfold).isForest
    · cases hg'
      exact h
    · exact fun ⟨front, s, back, h⟩ => ⟨g, front, s, back, rfl, h⟩
    · rintro ⟨_, front, s, back, hg', h⟩
      cases hg'
      exact ⟨front, s, back, h⟩
    · rintro ⟨e, he⟩
      obtain ⟨front, s, back, hsplit, _, hplaced, _⟩ := (hplacement e).mp ⟨he, honly e he⟩
      exact ⟨front, s, back, hsplit, hplaced⟩
    · rintro ⟨front, s, back, hsplit, hplaced⟩
      cases hresult : ofDocument scope d with
      | error e => exact ⟨e, rfl⟩
      | ok r => exact absurd hplaced ((hsome.mp ⟨r, hresult⟩) hsplit).2

end Plan

/-- Two benches under one graph, whose curves are counted on; and a curve behind a graph that has no bench yet, though
    one follows. -/
theorem forest_ofDocument_sample :
    (∃ g, stackedPlan.IsForest g [stackedSection, runsSection, runsCurveSection, runsSection, runsCurveSection])
      ∧ Plan.ofDocument (.new ∅ ∅) ⟨[stackedSection, runsCurveSection, runsSection]⟩
        = .error ⟨runsCurveSection.location, .invalid .curveBeforeBench⟩ := by
  constructor
  · obtain ⟨g, _, hforest⟩ := (Plan.forest_ofDocument _ _).1 _ _ stackedPlan_ofDocument
    exact ⟨g, hforest⟩
  · have hfirst : ∃ r, [stackedSection].foldlM (Plan.addSection ⟨.new ∅ ∅, none, none⟩) (Plan.start ⟨.new ∅ ∅, none, none⟩)
        = .ok r := ⟨_, bind_eq_ok.2 ⟨_, map_eq_ok.2 ⟨_, stackedGraph_ofSection _, rfl⟩, rfl⟩⟩
    exact (((Plan.forest_ofDocument _ _).2.2.1 _).mpr ⟨⟨.new ∅ ∅, none, none⟩, [stackedSection], runsCurveSection,
      [runsSection], rfl, rfl, Plan.exists_foldlM_iff.mp hfirst, .inr ⟨rfl, rfl⟩, rfl⟩).1

end BenchPlot
