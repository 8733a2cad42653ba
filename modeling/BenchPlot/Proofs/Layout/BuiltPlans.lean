import BenchPlot.Plan.Building
import BenchPlot.Proofs.Layout.Independence
import BenchPlot.Proofs.Plan.Numbering
import BenchPlot.Proofs.Style

/-!
# Plans of documents are laid out

A style that a section chooses is looked up when its curve is built, with the styles of all global sections, and once
more for each instance that is drawn. Both look at the same names, so a plan that was built is laid out with the
styles of its scope, whatever data it is bound to.

Main statement: `Plan.ofDocument_suffices`.
-/

namespace BenchPlot

/-! ## §1 Styles of built curves -/

/-- A style that a section chooses is known. -/
theorem isKnown_of_styleName {scope : Scope} {category : StyleCategory} {item : Item} {name : String}
    (h : PlanItem.styleName scope category item = .ok name) : scope.styles.isKnown category name = true := by
  unfold PlanItem.styleName at h
  split at h
  · rename_i hknown
    cases h
    exact hknown
  · cases h

theorem all_isKnown_of_optional {scope : Scope} {category : StyleCategory} {s : Section} {key : String}
    {name : Option String} (h : s.optional key (PlanItem.styleName scope category) = .ok name) :
    name.all (scope.styles.isKnown category) = true := by
  unfold Section.optional at h
  split at h
  · cases h
    rfl
  · obtain ⟨chosen, hchosen, rfl⟩ := map_eq_ok.1 h
    exact isKnown_of_styleName hchosen

/-- The styles of a curve that is built are known. -/
theorem CurvePlan.stylesKnown_of_ofSection {settings : GlobalSettings} {id bench ordinal : Nat} {s : Section}
    {c : CurvePlan} (h : ofSection settings id bench ordinal s = .ok c) :
    c.stylesKnown settings.scope.styles = true := by
  obtain ⟨_, _, hline, hmark, hcolor⟩ := ofSection_eq_ok h
  rw [stylesKnown, all_isKnown_of_optional hline, all_isKnown_of_optional hmark, all_isKnown_of_optional hcolor]
  rfl

namespace Plan

/-- The styles of all curves of a plan are known. -/
def StylesKnown (styles : StyleRegistry) (p : Plan) : Prop :=
  ∀ c ∈ p.curves, c.stylesKnown styles = true

/-- Each section keeps the styles known. -/
theorem StylesKnown.addSection {settings : GlobalSettings} {p p' : Plan} {ordinal ordinal' : Nat} {s : Section}
    (hp : p.StylesKnown settings.scope.styles) (h : addSection settings (p, ordinal) s = .ok (p', ordinal')) :
    p'.StylesKnown settings.scope.styles := by
  obtain rfl | ⟨g, hg, rfl⟩ | ⟨graphs, g, b, hgraphs, hb, rfl⟩ | ⟨benches, b, c, hbenches, hc, rfl⟩ :=
    addSection_cases h
  · exact hp
  · exact hp
  · exact hp
  · intro curve hcurve
    rcases List.mem_append.mp hcurve with hcurve | hcurve
    · exact hp curve hcurve
    · obtain rfl := List.mem_singleton.mp hcurve
      exact CurvePlan.stylesKnown_of_ofSection hc

/-- The styles of a plan of a document are known in its scope. -/
theorem stylesKnown_ofDocument {scope scope' : Scope} {d : Document} {p : Plan}
    (h : ofDocument scope d = .ok (p, scope')) : p.StylesKnown scope'.styles := by
  obtain ⟨_, rfl, hp⟩ := ofDocument_invariant (fun g p => p.StylesKnown g.scope.styles)
    (fun _ _ hc => absurd hc List.not_mem_nil) (fun hq hadded => hq.addSection hadded) h
  exact hp

/-! ## §2 Layouts -/

/-- Graphs with data for curves of a plan. -/
def HasData (p : Plan) (graphs : List BoundGraph) : Prop :=
  ∀ b ∈ graphs, ∀ bench ∈ b.benches, ∀ c ∈ bench.curves, c.plan ∈ p.curves

/-- The curves of a bound graph are curves of the plan. -/
theorem Binds.mem_curves {p : Plan} {b : BoundGraph} (h : p.Binds b) : ∀ bench ∈ b.benches, ∀ c ∈ bench.curves,
    c.plan ∈ p.curves := by
  intro bench hbench c hc
  have hplan : c.plan ∈ p.curvesOf bench.plan := h.curves bench hbench ▸ List.mem_map_of_mem hc
  obtain ⟨id, _, hid⟩ := List.mem_filterMap.mp hplan
  exact List.mem_of_getElem? hid

/-- What a plan is bound to is data for its curves. -/
theorem hasData_of_bind {p : Plan} {store : Store} {scope : Scope} {graphs : List BoundGraph}
    (h : p.bind store scope = .ok graphs) : p.HasData graphs :=
  fun b hb => (binds_of_bind h b hb).mem_curves

variable {α : Type} [Coordinate α]

/-- A graph is laid out if its curves name known styles only. -/
theorem exists_ofBound_of_stylesKnown {styles : StyleRegistry} {b : BoundGraph}
    (h : ∀ bench ∈ b.benches, ∀ c ∈ bench.curves, c.plan.stylesKnown styles = true) :
    ∃ g : GraphLayout α, GraphLayout.ofBound styles b = .ok g := by
  refine GraphLayout.exists_ofBound_iff.2 fun i hi _ => ?_
  obtain ⟨bench, hbench, hi⟩ := List.mem_flatMap.mp hi
  obtain ⟨c, hc, hi⟩ := List.mem_flatMap.mp hi
  obtain ⟨d, _, rfl⟩ := List.mem_map.mp hi
  exact h bench hbench c hc

/-- Graphs with data for a plan are laid out if its styles are known. -/
theorem StylesKnown.exists_layout {p : Plan} {styles : StyleRegistry} (hp : p.StylesKnown styles)
    {graphs : List BoundGraph} (hgraphs : p.HasData graphs) (title : Option String) :
    ∃ l : Layout α, Layout.ofBound title styles graphs = .ok l := by
  have hlaid : ∀ b ∈ graphs, ∃ g : GraphLayout α, GraphLayout.ofBound styles b = .ok g := fun b hb =>
    exists_ofBound_of_stylesKnown fun bench hbench c hc => hp c.plan (hgraphs b hb bench hbench c hc)
  obtain ⟨layouts, hlayouts⟩ := exists_mapM_eq_ok_iff.2 hlaid
  exact ⟨_, map_eq_ok.2 ⟨layouts, hlayouts, rfl⟩⟩

/-- The plan of a document is laid out with the styles of its scope, whatever data its curves have. For a name that is
    known is found at every number, and a registered style changes no name that was found and is found itself. -/
theorem ofDocument_suffices (α : Type) [Coordinate α] :
    (∀ {scope scope' : Scope} {d : Document} {p : Plan} {graphs : List BoundGraph},
      ofDocument scope d = .ok (p, scope') → p.HasData graphs →
        ∃ l : Layout α, Layout.ofBound p.title scope'.styles graphs = .ok l)
    ∧ (∀ (r : StyleRegistry) (category : StyleCategory) (name : String),
      r.isKnown category name = true ↔ ∀ index, ∃ k, r.resolve category (some name) index = .ok k)
    ∧ ∀ {r r' : StyleRegistry} {style : CustomStyle}, r.register style = .ok r' → r.Extends r' style := by
  refine ⟨fun h hgraphs => (stylesKnown_ofDocument h).exists_layout hgraphs _, fun r category name => ?_,
    StyleRegistry.extends_of_register⟩
  constructor
  · exact fun hknown index => (StyleRegistry.exists_resolve_iff index).2 hknown
  · exact fun hfound => (StyleRegistry.exists_resolve_iff 0).1 (hfound 0)

end Plan

/-! A description that registers a kind of lines and draws a curve with it. -/

def wavyLine : CustomStyle :=
  ⟨.line, "Wavy", "waves", none⟩

def wavyStyles : StyleRegistry :=
  ⟨[{ wavyLine with name := "wavy" }]⟩

def wavySettings : GlobalSettings :=
  ⟨{ Scope.new ∅ ∅ with styles := wavyStyles }, none, none⟩

def wavySection : Section :=
  ⟨.global, ⟨"plan", 1⟩, [⟨"line", "Wavy = waves", ⟨"plan", 2⟩⟩]⟩

def wavyCurveSection : Section :=
  ⟨.curve, ⟨"plan", 7⟩, [⟨"xval", "$X", ⟨"plan", 8⟩⟩, ⟨"yval", "$Y", ⟨"plan", 9⟩⟩, ⟨"line", "WAVY", ⟨"plan", 10⟩⟩]⟩

def wavyCurve : CurvePlan :=
  { runsCurve 0 with line := some "WAVY" }

def wavyPlan : Plan :=
  ⟨none, [stackedGraph [0]], [runsBench 0 [0]], [wavyCurve]⟩

theorem wavyPlan_ofDocument :
    Plan.ofDocument (.new ∅ ∅) ⟨[wavySection, stackedSection, runsSection, wavyCurveSection]⟩
      = .ok (wavyPlan, wavySettings.scope) := by
  have hitem : GlobalSettings.apply ⟨.new ∅ ∅, none, none⟩ ⟨"line", "Wavy = waves", ⟨"plan", 2⟩⟩
      = .ok wavySettings := by cbv
  have hsettings : GlobalSettings.ofDocument (.new ∅ ∅)
      ⟨[wavySection, stackedSection, runsSection, wavyCurveSection]⟩ = .ok wavySettings :=
    bind_eq_ok.2 ⟨_, hitem, rfl⟩
  have hbench : BenchPlan.ofSection wavySettings 0 0 runsSection = .ok (runsBench 0 []) := by cbv
  have hcurve : CurvePlan.ofSection wavySettings 0 0 0 wavyCurveSection = .ok wavyCurve := by cbv
  have hsections : [wavySection, stackedSection, runsSection, wavyCurveSection].foldlM (Plan.addSection wavySettings)
      (.empty, 0) = .ok (wavyPlan, 1) :=
    bind_eq_ok.2 ⟨_, rfl, bind_eq_ok.2 ⟨_, map_eq_ok.2 ⟨_, stackedGraph_ofSection _, rfl⟩, bind_eq_ok.2 ⟨_,
      map_eq_ok.2 ⟨_, hbench, rfl⟩, bind_eq_ok.2 ⟨_, map_eq_ok.2 ⟨_, hcurve, rfl⟩, rfl⟩⟩⟩⟩
  rw [Plan.ofDocument, hsettings]
  exact map_eq_ok.2 ⟨_, hsections, rfl⟩

/-- Data for the curve of the description. -/
def wavyRuns : List BoundGraph :=
  [⟨stackedGraph [0], [⟨runsBench 0 [0], "RUNS",
    [⟨wavyCurve, [(CurveData.new "" none []).pushAll [(.number 1.0, .number 2.0)]]⟩]⟩]⟩]

theorem ofDocument_suffices_sample :
    wavyPlan.HasData wavyRuns
      ∧ (∃ l : Layout Float, Layout.ofBound wavyPlan.title wavySettings.scope.styles wavyRuns = .ok l)
      ∧ wavyStyles.isKnown .line "WAVY" = true
      ∧ (∀ index, ∃ k, wavyStyles.resolve .line (some "WAVY") index = .ok k)
      ∧ StyleRegistry.empty.register wavyLine = .ok wavyStyles
      ∧ StyleRegistry.empty.Extends wavyStyles wavyLine := by
  obtain ⟨hlaid, hknown, hregistered⟩ := Plan.ofDocument_suffices Float
  have hdata : wavyPlan.HasData wavyRuns := by
    intro b hb bench hbench c hc
    obtain rfl := List.mem_singleton.mp hb
    obtain rfl := List.mem_singleton.mp hbench
    obtain rfl := List.mem_singleton.mp hc
    exact List.mem_singleton_self _
  have hwavy : wavyStyles.isKnown .line "WAVY" = true := by cbv
  have hregister : StyleRegistry.empty.register wavyLine = .ok wavyStyles := by cbv
  exact ⟨hdata, hlaid wavyPlan_ofDocument hdata, hwavy, (hknown ..).1 hwavy, hregister, hregistered hregister⟩

end BenchPlot
