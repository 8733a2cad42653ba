import BenchPlot.Plan.Building
import BenchPlot.Proofs.Description.Ending

/-!
# What building a plan can fail with

The vocabulary of descriptions rules out most failures of building a plan: a value that passed the check of its key is
an assignment, a number, a flag or whatever else is asked for at that key. What is left are missing keys, misplaced
sections, styles, and formulas that are evaluated while the plan is built: the definitions of global sections and the
references in texts.

Main statements: `Plan.mayFail_ofDocument` and `Plan.ofDocument_parsed`.
-/

namespace BenchPlot

/-! ## §1 Failures of a kind -/

/-- A result that is no failure but one of a kind. -/
def FailsOnly {ε α : Type} (P : ε → Prop) (r : Except ε α) : Prop :=
  ∀ e, r = .error e → P e

namespace FailsOnly

variable {ε α β : Type} {P : ε → Prop} {r : Except ε α}

theorem of_ok (h : ∃ a, r = .ok a) : FailsOnly P r := by
  rintro e rfl
  obtain ⟨a, ha⟩ := h
  cases ha

theorem of_error {e : ε} (h : P e) : FailsOnly P (.error e : Except ε α) := by
  intro e' he
  cases he
  exact h

theorem bind {f : α → Except ε β} (h : FailsOnly P r) (hf : ∀ a, r = .ok a → FailsOnly P (f a)) :
    FailsOnly P (r >>= f) := by
  cases r with
  | error e => exact of_error (h e rfl)
  | ok a => exact hf a rfl

theorem map {f : α → β} (h : FailsOnly P r) : FailsOnly P (r.map f) := by
  cases r with
  | error e => exact of_error (h e rfl)
  | ok a => exact of_ok ⟨_, rfl⟩

theorem mapError {ε' : Type} {x : Except ε' α} {f : ε' → ε} (h : ∀ e, x = .error e → P (f e)) :
    FailsOnly P (x.mapError f) := by
  cases x with
  | error e => exact of_error (h e rfl)
  | ok a => exact of_ok ⟨_, rfl⟩

theorem foldlM {f : β → α → Except ε β} {l : List α} (h : ∀ a ∈ l, ∀ b, FailsOnly P (f b a)) (b : β) :
    FailsOnly P (l.foldlM f b) := by
  induction l generalizing b with
  | nil => exact of_ok ⟨b, rfl⟩
  | cons a rest ih =>
    rw [List.foldlM_cons]
    exact (h a (List.mem_cons_self ..) b).bind fun c _ => ih (fun a' ha' => h a' (List.mem_cons_of_mem _ ha')) c

end FailsOnly

/-! ## §2 Failures that are left -/

namespace SectionKind

/-- The keys that a section must have. -/
def requiredKeys : SectionKind → List String
  | .global => []
  | .graph => ["xtype", "ytype"]
  | .bench => ["name"]
  | .curve => ["xval", "yval"]

/-- The keys under which a style is registered or chosen. -/
def styleKeys : SectionKind → List String
  | .global => ["line", "mark", "color", "scale"]
  | .graph => ["xtype", "ytype"]
  | .bench => []
  | .curve => ["line", "mark", "color"]

/-- The keys of formulas that are defined for the whole description. -/
def definitionKeys : SectionKind → List String
  | .global => ["calc", "func"]
  | _ => []

/-- The keys of texts whose references are replaced. -/
def textKeys : SectionKind → List String
  | .global => ["title"]
  | .graph => ["title", "xlabel", "ylabel"]
  | .bench => ["name", "label"]
  | .curve => []

/-- The keys of formulas that are evaluated for each row. -/
def formulaKeys : SectionKind → List String
  | .curve => ["xval", "yval", "label", "marktext"]
  | _ => []

end SectionKind

/-- What building the plan of a document can fail with: a missing key, a misplaced section, a style, a definition, or
    a reference in a text. -/
inductive Document.MayFail (d : Document) : PlanError → Prop
  | missingKey {s key} (hs : s ∈ d.sections) (hkey : key ∈ s.kind.requiredKeys) (hnone : s.item? key = none) :
    MayFail d ⟨s.location, .missingKey s.kind key⟩
  | benchBeforeGraph {s} (hs : s ∈ d.sections) (hkind : s.kind = .bench) :
    MayFail d ⟨s.location, .invalid .benchBeforeGraph⟩
  | curveBeforeBench {s} (hs : s ∈ d.sections) (hkind : s.kind = .curve) :
    MayFail d ⟨s.location, .invalid .curveBeforeBench⟩
  | style {s item} (hs : s ∈ d.sections) (hitem : item ∈ s.items) (hkey : item.key ∈ s.kind.styleKeys)
    (error : StyleError) : MayFail d ⟨item.location, .invalid (.style error)⟩
  | definition {s item} (hs : s ∈ d.sections) (hitem : item ∈ s.items) (hkey : item.key ∈ s.kind.definitionKeys)
    (error : FormulaError) : MayFail d ⟨item.location, .formula error⟩
  | text {s item scope error} (hs : s ∈ d.sections) (hitem : item ∈ s.items) (hkey : item.key ∈ s.kind.textKeys)
    (herror : Scope.substitute scope item.value = .error error) : MayFail d ⟨item.location, .formula error⟩

/-! ## §3 Values that passed their checks -/

/-- A check of what a text is read as is passed by the texts that can be read. -/
theorem exists_of_check {α : Type} {o : Option α} {fault : ValueFault}
    (h : (if o.isSome then none else some fault) = none) : ∃ a, o = some a := by
  cases o with
  | none => cases h
  | some a => exact ⟨a, rfl⟩

namespace PlanItem

variable (item : Item)

theorem exists_aggregation (h : ItemCheck.aggregation item.value = none) : ∃ a, aggregation item = .ok a := by
  obtain ⟨a, ha⟩ := exists_of_check h
  exact ⟨a, by rw [aggregation, ha]⟩

theorem exists_number (h : ItemCheck.number item.value = none) : ∃ x, number item = .ok x := by
  obtain ⟨x, hx⟩ := exists_of_check h
  exact ⟨x, by rw [number, hx]⟩

theorem exists_range (h : ItemCheck.range item.value = none) : ∃ r, range item = .ok r := by
  unfold ItemCheck.range at h
  split at h
  · rename_i r hr
    exact ⟨r, by rw [range, hr]⟩
  · cases h

theorem exists_parse (h : ItemCheck.formula item.value = none) : ∃ f, Formula.parse item.value = .ok f := by
  unfold ItemCheck.formula at h
  split at h
  · rename_i f hf
    exact ⟨f, hf⟩
  · cases h

theorem exists_formula (h : ItemCheck.formula item.value = none) : ∃ f, formula item = .ok f := by
  obtain ⟨f, hf⟩ := exists_parse item h
  exact ⟨f, mapError_eq_ok.2 hf⟩

end PlanItem

/-- The flags that passed their check are allowed. -/
theorem mem_allowed_of_check {allowed : List String} {value : String} (h : ItemCheck.flags allowed value = none) :
    ∀ flag ∈ parseFlags value, flag ∈ allowed := by
  intro flag hflag
  have hallowed := List.find?_eq_none.mp (Option.map_eq_none_iff.mp h) flag hflag
  simpa using hallowed

theorem GraphOptions.exists_set? {flag : String} (h : flag ∈ graphFlags) (o : GraphOptions) :
    ∃ o', o.set? flag = some o' := by
  simp only [graphFlags, List.mem_cons, List.not_mem_nil, or_false] at h
  rcases h with rfl | rfl | rfl | rfl | rfl <;> exact ⟨_, rfl⟩

theorem CurveOptions.exists_set? {flag : String} (h : flag ∈ curveFlags) (o : CurveOptions) :
    ∃ o', o.set? flag = some o' := by
  simp only [curveFlags, List.mem_cons, List.not_mem_nil, or_false] at h
  rcases h with rfl | rfl | rfl | rfl | rfl | rfl | rfl <;> exact ⟨_, rfl⟩

theorem LegendPlacement.exists_ofName? {value : String} (htrimmed : Text.trim value = value)
    (h : ItemCheck.choice "legend placement" legendNames value = Option.none) : ∃ p, ofName? value = some p := by
  unfold ItemCheck.choice at h
  split at h
  · rename_i hmem
    rw [htrimmed, List.contains_iff_mem] at hmem
    unfold ofName?
    generalize Text.asciiLower value = name at hmem ⊢
    simp only [legendNames, List.mem_cons, List.not_mem_nil, or_false] at hmem
    rcases hmem with rfl | rfl | rfl | rfl <;> exact ⟨_, rfl⟩
  · cases h

namespace Section

theorem item?_eq_some {s : Section} {key : String} {item : Item} (h : s.item? key = some item) :
    item ∈ s.items ∧ item.key = key := by
  have hkey := List.find?_some h
  exact ⟨List.mem_of_find?_eq_some h, eq_of_beq hkey⟩

theorem require_eq_ok {s : Section} {key : String} {item : Item} (h : s.require key = .ok item) :
    s.item? key = some item := by
  unfold Section.require at h
  split at h
  · rename_i hitem
    cases h
    exact hitem
  · cases h

namespace Admitted

variable {s : Section} (h : s.Admitted) {P : PlanError → Prop}
include h

/-- The item at a key passes the check of the key. -/
theorem check_of_item? {key : String} {rule : KeyRule} (hrule : s.kind.rule? key = some rule) {item : Item}
    (hitem : s.item? key = some item) : rule.check item.value = none := by
  obtain ⟨hmem, rfl⟩ := item?_eq_some hitem
  obtain ⟨other, hother, hcheck⟩ := h.fits item hmem
  exact Option.some.inj (hother.symm.trans hrule) ▸ hcheck

/-- What is asked for at a key is found there, if the check of the key sees to it. -/
theorem failsOnly_optional {α : Type} {key : String} {repeats : Bool} {check : String → Option ValueFault}
    (hrule : s.kind.rule? key = some ⟨key, repeats, check⟩) {f : Item → Except PlanError α}
    (hf : ∀ item : Item, check item.value = none → ∃ a, f item = .ok a) : FailsOnly P (s.optional key f) := by
  unfold optional
  split
  · exact .of_ok ⟨_, rfl⟩
  · rename_i item hitem
    exact (FailsOnly.of_ok (hf item (h.check_of_item? hrule hitem))).map

theorem failsOnly_options {α : Type} {none_ : α} {set? : α → String → Option α} {fault : String → PlanFault}
    {allowed : List String} (hrule : s.kind.rule? "options" = some ⟨"options", false, ItemCheck.flags allowed⟩)
    (hset : ∀ flag ∈ allowed, ∀ o, ∃ o', set? o flag = some o') : FailsOnly P (s.options none_ set? fault) := by
  have hallowed : ∀ flag ∈ s.flags, flag ∈ allowed := by
    unfold flags value?
    cases hitem : s.item? "options" with
    | none => exact fun flag hflag => absurd hflag List.not_mem_nil
    | some item => exact mem_allowed_of_check (h.check_of_item? hrule hitem)
  refine .foldlM (fun flag hflag o => ?_) none_
  obtain ⟨o', ho'⟩ := hset flag (hallowed flag hflag) o
  exact .of_ok ⟨o', by rw [ho']⟩

theorem failsOnly_legend (hkind : s.kind = .graph) : FailsOnly P s.legend := by
  unfold legend value?
  cases hitem : s.item? "legend" with
  | none => exact .of_ok ⟨_, rfl⟩
  | some item =>
    have hrule : s.kind.rule? "legend"
        = some ⟨"legend", false, ItemCheck.choice "legend placement" legendNames⟩ := by
      rw [hkind]
      rfl
    obtain ⟨p, hp⟩ := LegendPlacement.exists_ofName? (h.trimmed item (item?_eq_some hitem).1)
      (h.check_of_item? hrule hitem)
    refine .of_ok ⟨p, ?_⟩
    dsimp only [Option.map_some]
    rw [hp]

end Admitted

end Section

/-! ## §4 Sections -/

section Sections

variable {d : Document} {s : Section} (hs : s ∈ d.sections) (h : s.Admitted)
include hs

theorem Section.failsOnly_require {key : String} (hkey : key ∈ s.kind.requiredKeys) :
    FailsOnly d.MayFail (s.require key) := by
  unfold Section.require
  split
  · exact .of_ok ⟨_, rfl⟩
  · rename_i hnone
    exact .of_error (.missingKey hs hkey hnone)

theorem PlanItem.failsOnly_text (scope : Scope) {item : Item} (hitem : item ∈ s.items)
    (hkey : item.key ∈ s.kind.textKeys) : FailsOnly d.MayFail (PlanItem.text scope item) :=
  .mapError fun _ herror => .text hs hitem hkey herror

theorem Section.failsOnly_optional_text (scope : Scope) {key : String} (hkey : key ∈ s.kind.textKeys) :
    FailsOnly d.MayFail (s.optional key (PlanItem.text scope)) := by
  unfold Section.optional
  split
  · exact .of_ok ⟨_, rfl⟩
  · rename_i item hitem
    obtain ⟨hmem, rfl⟩ := Section.item?_eq_some hitem
    exact (PlanItem.failsOnly_text hs scope hmem hkey).map

theorem Section.failsOnly_optional_style (scope : Scope) (category : StyleCategory) {key : String}
    (hkey : key ∈ s.kind.styleKeys) : FailsOnly d.MayFail (s.optional key (PlanItem.styleName scope category)) := by
  unfold Section.optional
  split
  · exact .of_ok ⟨_, rfl⟩
  · rename_i item hitem
    obtain ⟨hmem, rfl⟩ := Section.item?_eq_some hitem
    refine FailsOnly.map ?_
    unfold PlanItem.styleName
    split
    · exact .of_ok ⟨_, rfl⟩
    · exact .of_error (.style hs hmem hkey _)

include h

theorem AxisPlan.failsOnly_ofSection (hkind : s.kind = .graph) (scope : Scope) {letter : String}
    (hletter : letter = "x" ∨ letter = "y") {scale : Item} (hscale : scale ∈ s.items)
    (hkey : scale.key ∈ s.kind.styleKeys) : FailsOnly d.MayFail (AxisPlan.ofSection scope s letter scale) := by
  have hbase : s.kind.rule? (letter ++ "base") = some ⟨letter ++ "base", false, ItemCheck.number⟩ := by
    rw [hkind]
    rcases hletter with rfl | rfl <;> rfl
  have hrange : s.kind.rule? (letter ++ "range") = some ⟨letter ++ "range", false, ItemCheck.range⟩ := by
    rw [hkind]
    rcases hletter with rfl | rfl <;> rfl
  have hlabel : letter ++ "label" ∈ s.kind.textKeys := by
    rw [hkind]
    rcases hletter with rfl | rfl <;> decide
  unfold AxisPlan.ofSection
  -- What follows the lookup of the scale is the same for every kind of it.
  extract_lets rest
  have hrest : ∀ kind, FailsOnly d.MayFail (rest kind) := by
    intro kind
    refine .bind (h.failsOnly_optional hbase PlanItem.exists_number) fun base _ => ?_
    refine .bind (h.failsOnly_optional hrange PlanItem.exists_range) fun range _ => ?_
    refine .bind (Section.failsOnly_optional_text hs scope hlabel) fun label _ => ?_
    exact .of_ok ⟨_, rfl⟩
  split
  · exact (FailsOnly.of_ok ⟨_, rfl⟩).bind fun kind _ => hrest kind
  · exact (FailsOnly.of_error (.style hs hscale hkey _)).bind fun kind _ => hrest kind

theorem GraphPlan.failsOnly_ofSection (hkind : s.kind = .graph) (g : GlobalSettings) (id : Nat) :
    FailsOnly d.MayFail (GraphPlan.ofSection g id s) := by
  have hrequired : ∀ {key}, key ∈ ["xtype", "ytype"] → key ∈ s.kind.requiredKeys := by
    rw [hkind]
    exact fun hkey => hkey
  have hstyle : ∀ {key item}, key ∈ ["xtype", "ytype"] → s.require key = .ok item →
      item ∈ s.items ∧ item.key ∈ s.kind.styleKeys := by
    intro key item hkey hrequire
    obtain ⟨hitem, rfl⟩ := Section.item?_eq_some (Section.require_eq_ok hrequire)
    exact ⟨hitem, hkind ▸ hkey⟩
  have hoptions : s.kind.rule? "options" = some ⟨"options", false, ItemCheck.flags graphFlags⟩ := by
    rw [hkind]
    rfl
  have haggr : s.kind.rule? "aggr" = some ⟨"aggr", false, ItemCheck.aggregation⟩ := by
    rw [hkind]
    rfl
  have htitle : "title" ∈ s.kind.textKeys := by
    rw [hkind]
    decide
  unfold GraphPlan.ofSection
  refine .bind (Section.failsOnly_require hs (hrequired (by decide))) fun xtype hxtype => ?_
  refine .bind (Section.failsOnly_require hs (hrequired (by decide))) fun ytype hytype => ?_
  obtain ⟨hx, hxkey⟩ := hstyle (by decide) hxtype
  obtain ⟨hy, hykey⟩ := hstyle (by decide) hytype
  refine .bind (h.failsOnly_options hoptions fun _ hflag o => o.exists_set? hflag) fun options _ => ?_
  refine .bind (h.failsOnly_legend hkind) fun legend _ => ?_
  refine .bind (Section.failsOnly_optional_text hs _ htitle) fun title _ => ?_
  refine .bind (AxisPlan.failsOnly_ofSection hs h hkind _ (.inl rfl) hx hxkey) fun x _ => ?_
  refine .bind (AxisPlan.failsOnly_ofSection hs h hkind _ (.inr rfl) hy hykey) fun y _ => ?_
  refine .bind (h.failsOnly_optional haggr PlanItem.exists_aggregation) fun aggregation _ => ?_
  exact .of_ok ⟨_, rfl⟩

omit h in
theorem BenchPlan.failsOnly_ofSection (hkind : s.kind = .bench) (g : GlobalSettings) (id graph : Nat) :
    FailsOnly d.MayFail (BenchPlan.ofSection g id graph s) := by
  have hname : "name" ∈ s.kind.requiredKeys := by
    rw [hkind]
    decide
  have hlabel : "label" ∈ s.kind.textKeys := by
    rw [hkind]
    decide
  unfold BenchPlan.ofSection
  refine .bind (Section.failsOnly_require hs hname) fun item hitem => ?_
  have htext : FailsOnly d.MayFail (PlanItem.text g.scope item) := by
    obtain ⟨hmem, hkey⟩ := Section.item?_eq_some (Section.require_eq_ok hitem)
    refine PlanItem.failsOnly_text hs _ hmem ?_
    rw [hkey, hkind]
    decide
  refine .bind htext fun name _ => ?_
  refine .bind (Section.failsOnly_optional_text hs _ hlabel) fun label _ => ?_
  exact .of_ok ⟨_, rfl⟩

theorem CurvePlan.failsOnly_ofSection (hkind : s.kind = .curve) (g : GlobalSettings) (id bench ordinal : Nat) :
    FailsOnly d.MayFail (CurvePlan.ofSection g id bench ordinal s) := by
  have hrequired : ∀ {key}, key ∈ ["xval", "yval"] → key ∈ s.kind.requiredKeys := by
    rw [hkind]
    exact fun hkey => hkey
  have hformula : ∀ {key}, key ∈ ["xval", "yval", "label", "marktext"] →
      s.kind.rule? key = some ⟨key, false, ItemCheck.formula⟩ := by
    intro key hkey
    rw [hkind]
    simp only [List.mem_cons, List.not_mem_nil, or_false] at hkey
    rcases hkey with rfl | rfl | rfl | rfl <;> rfl
  have hparsed : ∀ {key item}, key ∈ ["xval", "yval", "label", "marktext"] → s.require key = .ok item →
      FailsOnly d.MayFail (PlanItem.formula item) := by
    intro key item hkey hrequire
    exact .of_ok (PlanItem.exists_formula item (h.check_of_item? (hformula hkey) (Section.require_eq_ok hrequire)))
  have hoptions : s.kind.rule? "options" = some ⟨"options", false, ItemCheck.flags curveFlags⟩ := by
    rw [hkind]
    rfl
  have haggr : s.kind.rule? "aggr" = some ⟨"aggr", false, ItemCheck.aggregation⟩ := by
    rw [hkind]
    rfl
  have hstyle : ∀ {key}, key ∈ ["line", "mark", "color"] → key ∈ s.kind.styleKeys := by
    rw [hkind]
    exact fun hkey => hkey
  unfold CurvePlan.ofSection
  refine .bind (Section.failsOnly_require hs (hrequired (by decide))) fun xItem hx => ?_
  refine .bind (hparsed (by decide) hx) fun xval _ => ?_
  refine .bind (Section.failsOnly_require hs (hrequired (by decide))) fun yItem hy => ?_
  refine .bind (hparsed (by decide) hy) fun yval _ => ?_
  refine .bind (h.failsOnly_options hoptions fun _ hflag o => o.exists_set? hflag) fun options _ => ?_
  refine .bind (h.failsOnly_optional (hformula (by decide)) PlanItem.exists_formula) fun label _ => ?_
  refine .bind (h.failsOnly_optional (hformula (by decide)) PlanItem.exists_formula) fun markText _ => ?_
  refine .bind (h.failsOnly_optional haggr PlanItem.exists_aggregation) fun aggregation _ => ?_
  refine .bind (Section.failsOnly_optional_style hs _ _ (hstyle (by decide))) fun line _ => ?_
  refine .bind (Section.failsOnly_optional_style hs _ _ (hstyle (by decide))) fun mark _ => ?_
  refine .bind (Section.failsOnly_optional_style hs _ _ (hstyle (by decide))) fun color _ => ?_
  exact .of_ok ⟨_, rfl⟩

end Sections

namespace GlobalSettings

/-- The keys of a global section. -/
theorem exists_rule_global {key : String} {rule : KeyRule} (h : SectionKind.global.rule? key = some rule) :
    (key = "env" ∧ rule.check = ItemCheck.assignment)
      ∨ (key = "calc" ∧ rule.check = ItemCheck.assignment)
      ∨ (key = "func" ∧ rule.check = ItemCheck.function)
      ∨ (key ∈ SectionKind.global.styleKeys ∧ rule.check = ItemCheck.style)
      ∨ key = "title"
      ∨ (key = "aggr" ∧ rule.check = ItemCheck.aggregation) := by
  have hname := List.find?_some h
  obtain rfl := eq_of_beq hname
  have hmem := List.mem_of_find?_eq_some h
  simp only [SectionKind.vocabulary, List.mem_cons, List.not_mem_nil, or_false] at hmem
  rcases hmem with rfl | rfl | rfl | rfl | rfl | rfl | rfl | rfl | rfl <;> simp [SectionKind.styleKeys]

variable {d : Document} {s : Section} (hs : s ∈ d.sections) (h : s.Admitted) (hkind : s.kind = .global)
variable (g : GlobalSettings) {item : Item} (hitem : item ∈ s.items)
include hs hitem

/-- A definition may fail. -/
theorem failsOnly_define (hkey : item.key ∈ s.kind.definitionKeys) (r : Except FormulaError Scope) :
    FailsOnly d.MayFail (g.define item r) :=
  FailsOnly.map (.mapError fun e _ => .definition hs hitem hkey e)

theorem failsOnly_defineStyle (hkey : item.key ∈ s.kind.styleKeys)
    (hcategory : ∃ c, StyleCategory.ofName? item.key = some c) (hcheck : ItemCheck.style item.value = none) : FailsOnly d.MayFail (g.defineStyle item) := by
  obtain ⟨category, hcategory⟩ := hcategory
  obtain ⟨⟨name, display, payload⟩, hstyle⟩ := exists_of_check hcheck
  unfold defineStyle
  rw [hcategory, hstyle]
  dsimp only
  split
  · exact .of_error (.style hs hitem hkey _)
  · exact .of_ok ⟨_, rfl⟩

include h hkind

/-- An item of a global section fails only for its definition, its style or a reference in its text. -/
theorem failsOnly_apply : FailsOnly d.MayFail (g.apply item) := by
  obtain ⟨rule, hrule, hcheck⟩ := h.fits item hitem
  rw [hkind] at hrule
  -- Each key is read at its own place; the check of its rule is what is asked for there.
  rcases exists_rule_global hrule with ⟨hkey, hrule⟩ | ⟨hkey, hrule⟩ | ⟨hkey, hrule⟩ | ⟨hkey, hrule⟩ | hkey
    | ⟨hkey, hrule⟩
  · obtain ⟨_, hvalue⟩ := exists_of_check (hrule ▸ hcheck)
    simp only [apply, hkey, hvalue]
    exact .of_ok ⟨_, rfl⟩
  · obtain ⟨_, hvalue⟩ := exists_of_check (hrule ▸ hcheck)
    simp only [apply, hkey, hvalue]
    exact failsOnly_define hs g hitem (by rw [hkey, hkind]; decide) _
  · obtain ⟨_, hvalue⟩ := exists_of_check (hrule ▸ hcheck)
    simp only [apply, hkey, hvalue]
    exact failsOnly_define hs g hitem (by rw [hkey, hkind]; decide) _
  · have happly : g.apply item = g.defineStyle item ∧ ∃ c, StyleCategory.ofName? item.key = some c := by
      simp only [SectionKind.styleKeys, List.mem_cons, List.not_mem_nil, or_false] at hkey
      rcases hkey with hkey | hkey | hkey | hkey
      all_goals
        simp only [apply, hkey, true_and]
        exact ⟨_, by cbv⟩
    rw [happly.1]
    exact failsOnly_defineStyle hs g hitem (hkind ▸ hkey) happly.2 (hrule ▸ hcheck)
  · simp only [apply, hkey]
    exact (PlanItem.failsOnly_text hs _ hitem (by rw [hkey, hkind]; decide)).map
  · simp only [apply, hkey]
    exact (FailsOnly.of_ok (PlanItem.exists_aggregation item (hrule ▸ hcheck))).map

end GlobalSettings

/-! ## §5 Documents -/

namespace Plan

variable {d : Document}

/-- A section that fits adds its node, or fails for a missing key, its place, a style or a reference in a text. -/
theorem failsOnly_addSection {s : Section} (hs : s ∈ d.sections) (h : s.Admitted) (g : GlobalSettings)
    (state : Plan × Nat) : FailsOnly d.MayFail (addSection g state s) := by
  unfold addSection
  dsimp only
  cases hkind : s.kind with
  | «global» => exact .of_ok ⟨_, rfl⟩
  | graph => exact (GraphPlan.failsOnly_ofSection hs h hkind g _).map
  | bench =>
    dsimp only
    split
    · exact .of_error (.benchBeforeGraph hs hkind)
    · exact (BenchPlan.failsOnly_ofSection hs hkind g _ _).map
  | curve =>
    dsimp only
    split
    · exact .of_error (.curveBeforeBench hs hkind)
    · exact (CurvePlan.failsOnly_ofSection hs h hkind g _ _ _).map

/-- What building the plan of a document whose sections fit can fail with. -/
theorem mayFail_ofDocument (h : ∀ s ∈ d.sections, s.Admitted) (scope : Scope) :
    FailsOnly d.MayFail (ofDocument scope d) := by
  have hsettings : FailsOnly d.MayFail (GlobalSettings.ofDocument scope d) := by
    refine .foldlM (fun item hitem g => ?_) _
    obtain ⟨s, hglobal, hitem⟩ := List.mem_flatMap.mp hitem
    obtain ⟨hs, hkind⟩ := List.mem_filter.mp hglobal
    exact GlobalSettings.failsOnly_apply hs (h s hs) (eq_of_beq hkind) g hitem
  unfold ofDocument
  split
  · rename_i e he
    exact .of_error (hsettings e he)
  · exact FailsOnly.map (.foldlM (fun s hs state => failsOnly_addSection hs (h s hs) _ state) _)

end Plan

/-- The failures that the vocabulary of descriptions rules out. -/
def PlanFault.IsFallback : PlanFault → Prop
  | .notAnAssignment | .notACalculation | .notAFunction | .notAStyle | .unknownCategory _ | .unknownGraphOption _
  | .unknownCurveOption _ | .unknownLegend _ | .notANumber _ | .badRange _ | .unknownAggregation _ => True
  | .benchBeforeGraph | .curveBeforeBench | .style _ | .functionInFilter _ => False

theorem Document.MayFail.not_isFallback {d : Document} {e : PlanError} (h : d.MayFail e) {fault : PlanFault}
    (hfault : e.cause = .invalid fault) : ¬fault.IsFallback := by
  cases h <;> cases hfault <;> exact id

/-- Every formula of a curve of a section that fits can be parsed. -/
theorem Section.Admitted.exists_formula {s : Section} (h : s.Admitted) {item : Item} (hitem : item ∈ s.items)
    (hkey : item.key ∈ s.kind.formulaKeys) : ∃ f, PlanItem.formula item = .ok f := by
  obtain ⟨rule, hrule, hcheck⟩ := h.fits item hitem
  have hformula : ∀ {kind : SectionKind} {key}, key ∈ kind.formulaKeys →
      kind.rule? key = some ⟨key, false, ItemCheck.formula⟩ := by
    intro kind key hkey
    cases kind with
    | curve =>
      simp only [SectionKind.formulaKeys, List.mem_cons, List.not_mem_nil, or_false] at hkey
      rcases hkey with rfl | rfl | rfl | rfl <;> rfl
    | _ => cases hkey
  obtain rfl := Option.some.inj (hrule.symm.trans (hformula hkey))
  exact PlanItem.exists_formula item hcheck

namespace Plan

/-- A document that is read fits the vocabulary and keeps the order of its lines, and building its plan in any scope
    fails with no more than the vocabulary leaves open: never with a fallback, and never for a formula of a curve. -/
theorem ofDocument_parsed {files : SourceFiles} {scope : Scope} {origin text path : String} {d : Document}
    (h : Document.parseText files scope origin text = .ok d ∨ Document.parseFile files scope path = .ok d) :
    (∀ s ∈ d.sections, s.Admitted)
      ∧ (∃ lines, (loadText files scope origin text = .ok lines ∨ loadFile files scope path = .ok lines)
        ∧ List.Forall₂ LogicalLine.Writes (beforeEnd lines) d.entries)
      ∧ (∀ {file content}, (∀ line ∈ logicalLines file content, isInclude line.text = false) →
        Document.parseText files scope file content = .ok d
          ∨ files.read file = .ok content ∧ Document.parseFile files scope file = .ok d →
        d.entries.Pairwise fun a b => a.location.line < b.location.line)
      ∧ (∀ s ∈ d.sections, ∀ item ∈ s.items, item.key ∈ s.kind.formulaKeys → ∃ f, PlanItem.formula item = .ok f)
      ∧ ∀ (context : Scope) (e : PlanError), ofDocument context d = .error e →
        d.MayFail e ∧ ∀ fault, e.cause = .invalid fault → ¬fault.IsFallback := by
  obtain ⟨lines, hload, hlines⟩ := Document.exists_ofLines h
  have hadmitted := Document.admitted_ofLines hlines
  refine ⟨hadmitted, ⟨lines, hload, Document.written_ofLines hlines⟩, Document.pairwise_entries_of_no_include,
    fun s hs item hitem hkey => (hadmitted s hs).exists_formula hitem hkey, fun context e he => ?_⟩
  have hleft := mayFail_ofDocument hadmitted context e he
  exact ⟨hleft, fun fault hfault => hleft.not_isFallback hfault⟩

end Plan

/-- A graph without a type of its y axis is read, and refused when its plan is built. -/
theorem ofDocument_parsed_sample :
    Document.parseText noFiles (.new ∅ ∅) "plan" "[graph]\nxtype: linear\n" = .ok typedGraph
      ∧ (∀ s ∈ typedGraph.sections, s.Admitted)
      ∧ typedGraph.entries.length = 2
      ∧ typedGraph.entries.Pairwise (fun a b => a.location.line < b.location.line)
      ∧ Plan.ofDocument (.new ∅ ∅) typedGraph = .error ⟨⟨"plan", 1⟩, .missingKey .graph "ytype"⟩
      ∧ typedGraph.MayFail ⟨⟨"plan", 1⟩, .missingKey .graph "ytype"⟩ := by
  have hparsed : Document.parseText noFiles (.new ∅ ∅) "plan" "[graph]\nxtype: linear\n" = .ok typedGraph
      ∨ Document.parseFile noFiles (.new ∅ ∅) "plan" = .ok typedGraph := .inl parseText_typedGraph
  obtain ⟨hadmitted, _, hordered, _, hleft⟩ := Plan.ofDocument_parsed hparsed
  have hlines : logicalLines "plan" "[graph]\nxtype: linear\n"
      = [⟨⟨"plan", 1⟩, "[graph]"⟩, ⟨⟨"plan", 2⟩, "xtype: linear"⟩] := by cbv
  have hnone : ∀ line ∈ logicalLines "plan" "[graph]\nxtype: linear\n", isInclude line.text = false := by
    rw [hlines]
    decide
  have hrefused : Plan.ofDocument (.new ∅ ∅) typedGraph = .error ⟨⟨"plan", 1⟩, .missingKey .graph "ytype"⟩ := rfl
  exact ⟨parseText_typedGraph, hadmitted, rfl, hordered hnone (.inl parseText_typedGraph), hrefused,
    (hleft _ _ hrefused).1⟩

end BenchPlot
