import BenchPlot.Plan.Binding
import BenchPlot.Plan.Building
import BenchPlot.Proofs.Store.Accepted
import BenchPlot.Proofs.Store.Row

/-!
# The numbers of the nodes of a plan

The nodes of each kind are numbered by their places. A parent lists the numbers of its children, which are the nodes
that name it as their parent, in their order. Each section of a document keeps this, so it holds of the plan of a
document: the benches of a graph are those that name it, and no two of them have the same number.

Main statements: `Plan.Numbered.addSection`, `Plan.numbered_ofDocument` and `Plan.Numbered.nodup_benches`.
-/

namespace BenchPlot

/-! ## §1 Parents and children -/

/-- Parents and children are numbered by their places, every child has a parent, and the parents list their
    children. -/
structure Lists {β γ : Type} (parentId : β → Nat) (children : β → List Nat) (childId parent : γ → Nat)
    (parents : List β) (kids : List γ) : Prop where
  parentIds : parents.map parentId = List.range parents.length
  childIds : kids.map childId = List.range kids.length
  has_parent : ∀ k ∈ kids, parent k < parents.length
  listed : ∀ p ∈ parents, children p = (kids.filter fun k => parent k == parentId p).map childId

namespace Lists

variable {β γ : Type} {parentId : β → Nat} {children : β → List Nat} {childId parent : γ → Nat}
variable {parents : List β} {kids : List γ}

theorem nil : Lists parentId children childId parent ([] : List β) ([] : List γ) where
  parentIds := rfl
  childIds := rfl
  has_parent := fun _ h => absurd h List.not_mem_nil
  listed := fun _ h => absurd h List.not_mem_nil

/-- The numbers of a list with one more element, which has the next number. -/
theorem map_append_range {δ : Type} {id : δ → Nat} {l : List δ} {a : δ} (h : l.map id = List.range l.length)
    (ha : id a = l.length) : (l ++ [a]).map id = List.range (l ++ [a]).length := by
  rw [List.map_append, h, List.length_append, List.length_singleton, List.range_succ, List.map_singleton, ha]

theorem id_lt_length {δ : Type} {id : δ → Nat} {l : List δ} {a : δ} (h : l.map id = List.range l.length)
    (ha : a ∈ l) : id a < l.length := by
  rw [← List.mem_range, ← h]
  exact List.mem_map_of_mem ha

/-- The element with a number stands at it. -/
theorem getElem?_id {δ : Type} {id : δ → Nat} {l : List δ} {a : δ} (h : l.map id = List.range l.length)
    (ha : a ∈ l) : l[id a]? = some a := by
  obtain ⟨n, hn⟩ := List.mem_iff_getElem?.mp ha
  have hid : (l.map id)[n]? = some (id a) := by rw [List.getElem?_map, hn]; rfl
  rw [h, List.getElem?_range (List.getElem?_eq_some_iff.mp hn).1] at hid
  rw [← Option.some.inj hid, hn]

/-- The children that a parent lists are those that name it. -/
theorem filterMap_children (h : Lists parentId children childId parent parents kids) {p : β} (hp : p ∈ parents) :
    (children p).filterMap (fun id => kids[id]?) = kids.filter fun k => parent k == parentId p := by
  rw [h.listed p hp, List.filterMap_map]
  have hfound : ∀ k ∈ kids.filter fun k => parent k == parentId p, ((fun id => kids[id]?) ∘ childId) k = some k :=
    fun k hk => getElem?_id h.childIds (List.mem_filter.mp hk).1
  rw [List.filterMap_congr hfound, List.filterMap_some]

theorem nodup_childIds (h : Lists parentId children childId parent parents kids) (keep : γ → Bool) :
    ((kids.filter keep).map childId).Nodup := by
  have hall : (kids.map childId).Nodup := h.childIds ▸ List.nodup_range
  exact hall.sublist (List.filter_sublist.map childId)

/-- A new parent has no children. -/
theorem append_parent (h : Lists parentId children childId parent parents kids) {p : β}
    (hid : parentId p = parents.length) (hchildren : children p = []) :
    Lists parentId children childId parent (parents ++ [p]) kids where
  parentIds := map_append_range h.parentIds hid
  childIds := h.childIds
  has_parent k hk := by
    rw [List.length_append]
    exact Nat.lt_add_right _ (h.has_parent k hk)
  listed q hq := by
    rcases List.mem_append.mp hq with hq | hq
    · exact h.listed q hq
    · obtain rfl := List.mem_singleton.mp hq
      -- The parents of all children were there before.
      have hnone : kids.filter (fun k => parent k == parentId q) = [] := by
        refine List.filter_eq_nil_iff.mpr fun k hk => ?_
        have hbelow := h.has_parent k hk
        rw [beq_iff_eq, hid]
        omega
      rw [hchildren, hnone]
      rfl

/-- A new child of the last parent, which lists it behind its other children. -/
theorem append_child {p q : β} (h : Lists parentId children childId parent (parents ++ [p]) kids) {k : γ}
    (hid : childId k = kids.length) (hparent : parent k = parentId p) (hq : parentId q = parentId p)
    (hchildren : children q = children p ++ [kids.length]) :
    Lists parentId children childId parent (parents ++ [q]) (kids ++ [k]) where
  parentIds := by
    have hids := h.parentIds
    rw [List.map_append, List.length_append] at hids ⊢
    rw [List.map_singleton, hq]
    exact hids
  childIds := map_append_range h.childIds hid
  has_parent j hj := by
    have hlength : (parents ++ [q]).length = (parents ++ [p]).length := by
      rw [List.length_append, List.length_append]
      rfl
    rw [hlength]
    rcases List.mem_append.mp hj with hj | hj
    · exact h.has_parent j hj
    · obtain rfl := List.mem_singleton.mp hj
      rw [hparent]
      exact id_lt_length h.parentIds (List.mem_append_right _ (List.mem_singleton_self p))
  listed r hr := by
    rw [List.filter_append, List.map_append]
    rcases List.mem_append.mp hr with hr | hr
    · -- The last parent alone has the number that the child names.
      have hother : parentId r ≠ parentId p := by
        have hids : ((parents ++ [p]).map parentId).Nodup := h.parentIds ▸ List.nodup_range
        rw [List.map_append, List.map_singleton] at hids
        intro heq
        exact List.disjoint_of_nodup_append hids (List.mem_map_of_mem hr) (List.mem_singleton.mpr heq)
      have hnone : [k].filter (fun k => parent k == parentId r) = [] := by
        refine List.filter_eq_nil_iff.mpr fun j hj => ?_
        obtain rfl := List.mem_singleton.mp hj
        rw [beq_iff_eq, hparent]
        exact hother.symm
      rw [hnone, List.map_nil, List.append_nil]
      exact h.listed r (List.mem_append_left _ hr)
    · obtain rfl := List.mem_singleton.mp hr
      have hone : [k].filter (fun k => parent k == parentId r) = [k] := by
        refine List.filter_eq_self.mpr fun j hj => ?_
        obtain rfl := List.mem_singleton.mp hj
        rw [beq_iff_eq, hparent, hq]
      rw [hone, hq, hchildren, List.map_singleton, hid,
        h.listed p (List.mem_append_right _ (List.mem_singleton_self p))]

/-- Changing children, but neither their numbers nor their parents. -/
theorem congr_kids (h : Lists parentId children childId parent parents kids) {kids' : List γ}
    (heq : kids'.map (fun k => (childId k, parent k)) = kids.map fun k => (childId k, parent k)) :
    Lists parentId children childId parent parents kids' := by
  have hids : kids'.map childId = kids.map childId := by
    have hfst := congrArg (List.map Prod.fst) heq
    rwa [List.map_map, List.map_map] at hfst
  have hparents : kids'.map parent = kids.map parent := by
    have hsnd := congrArg (List.map Prod.snd) heq
    rwa [List.map_map, List.map_map] at hsnd
  have hlength : kids'.length = kids.length := by
    have hlengths := congrArg List.length hids
    rwa [List.length_map, List.length_map] at hlengths
  have hnamed : ∀ (p : β) (l : List γ), (l.filter fun k => parent k == parentId p).map childId
      = ((l.map fun k => (childId k, parent k)).filter fun e => e.2 == parentId p).map Prod.fst := by
    intro p l
    rw [List.filter_map, List.map_map]
    rfl
  refine ⟨h.parentIds, by rw [hids, hlength, h.childIds], fun k hk => ?_, fun p hp => ?_⟩
  · obtain ⟨j, hj, hjk⟩ := List.mem_map.mp (hparents ▸ List.mem_map_of_mem hk)
    exact hjk ▸ h.has_parent j hj
  · rw [h.listed p hp, hnamed, hnamed, heq]

end Lists

/-! ## §2 What a section adds -/

theorem GraphPlan.ofSection_eq_ok {settings : GlobalSettings} {id : Nat} {s : Section} {g : GraphPlan}
    (h : ofSection settings id s = .ok g) : g.id = id ∧ g.benches = [] := by
  unfold ofSection at h
  obtain ⟨xtype, _, h⟩ := bind_eq_ok.1 h
  obtain ⟨ytype, _, h⟩ := bind_eq_ok.1 h
  obtain ⟨options, _, h⟩ := bind_eq_ok.1 h
  obtain ⟨legend, _, h⟩ := bind_eq_ok.1 h
  obtain ⟨title, _, h⟩ := bind_eq_ok.1 h
  obtain ⟨x, _, h⟩ := bind_eq_ok.1 h
  obtain ⟨y, _, h⟩ := bind_eq_ok.1 h
  obtain ⟨aggregation, _, h⟩ := bind_eq_ok.1 h
  cases h
  exact ⟨rfl, rfl⟩

theorem BenchPlan.ofSection_eq_ok {settings : GlobalSettings} {id graph : Nat} {s : Section} {b : BenchPlan}
    (h : ofSection settings id graph s = .ok b) : b.id = id ∧ b.graph = graph ∧ b.curves = [] := by
  unfold ofSection at h
  obtain ⟨nameItem, _, h⟩ := bind_eq_ok.1 h
  obtain ⟨name, _, h⟩ := bind_eq_ok.1 h
  obtain ⟨label, _, h⟩ := bind_eq_ok.1 h
  cases h
  exact ⟨rfl, rfl, rfl⟩

/-- A curve has the given number and parent, and the styles that its section chooses. -/
theorem CurvePlan.ofSection_eq_ok {settings : GlobalSettings} {id bench ordinal : Nat} {s : Section} {c : CurvePlan}
    (h : ofSection settings id bench ordinal s = .ok c) : c.id = id ∧ c.bench = bench
      ∧ s.optional "line" (PlanItem.styleName settings.scope .line) = .ok c.line
      ∧ s.optional "mark" (PlanItem.styleName settings.scope .mark) = .ok c.mark
      ∧ s.optional "color" (PlanItem.styleName settings.scope .color) = .ok c.color := by
  unfold ofSection at h
  obtain ⟨xItem, _, h⟩ := bind_eq_ok.1 h
  obtain ⟨xval, _, h⟩ := bind_eq_ok.1 h
  obtain ⟨yItem, _, h⟩ := bind_eq_ok.1 h
  obtain ⟨yval, _, h⟩ := bind_eq_ok.1 h
  obtain ⟨options, _, h⟩ := bind_eq_ok.1 h
  obtain ⟨label, _, h⟩ := bind_eq_ok.1 h
  obtain ⟨markText, _, h⟩ := bind_eq_ok.1 h
  obtain ⟨aggregation, _, h⟩ := bind_eq_ok.1 h
  obtain ⟨line, hline, h⟩ := bind_eq_ok.1 h
  obtain ⟨mark, hmark, h⟩ := bind_eq_ok.1 h
  obtain ⟨color, hcolor, h⟩ := bind_eq_ok.1 h
  cases h
  exact ⟨rfl, rfl, hline, hmark, hcolor⟩

namespace Plan

theorem changeLast_append {δ : Type} (f : δ → δ) (l : List δ) (a : δ) : changeLast f (l ++ [a]) = l ++ [f a] := by
  induction l with
  | nil => rfl
  | cons b rest ih =>
    cases rest with
    | nil => rfl
    | cons c rest => exact congrArg (b :: ·) ih

/-- A section of a plan leaves it as it is, or adds its graph, or its bench to the last graph, or its curve to the
    last bench. -/
theorem addSection_cases {settings : GlobalSettings} {p p' : Plan} {ordinal ordinal' : Nat} {s : Section}
    (h : addSection settings (p, ordinal) s = .ok (p', ordinal')) :
    p' = p
    ∨ (∃ g, GraphPlan.ofSection settings p.graphs.length s = .ok g ∧ p' = { p with graphs := p.graphs ++ [g] })
    ∨ (∃ graphs g b, p.graphs = graphs ++ [g] ∧ BenchPlan.ofSection settings p.benches.length g.id s = .ok b
        ∧ p' = { p with
            graphs := graphs ++ [{ g with benches := g.benches ++ [p.benches.length] }]
            benches := p.benches ++ [b] })
    ∨ (∃ benches b c, p.benches = benches ++ [b] ∧ CurvePlan.ofSection settings p.curves.length b.id ordinal s = .ok c
        ∧ p' = { p with
            benches := benches ++ [{ b with curves := b.curves ++ [p.curves.length] }]
            curves := p.curves ++ [c] }) := by
  unfold addSection at h
  dsimp only at h
  cases hkind : s.kind with
  | «global» =>
    rw [hkind] at h
    cases h
    exact .inl rfl
  | graph =>
    rw [hkind] at h
    obtain ⟨g, hg, h⟩ := map_eq_ok.1 h
    cases h
    exact .inr (.inl ⟨g, hg, rfl⟩)
  | bench =>
    rw [hkind] at h
    cases hlast : p.graphs.getLast? with
    | none =>
      rw [hlast] at h
      cases h
    | some g =>
      rw [hlast] at h
      obtain ⟨graphs, hgraphs⟩ := List.getLast?_eq_some_iff.mp hlast
      obtain ⟨b, hb, h⟩ := map_eq_ok.1 h
      cases h
      exact .inr (.inr (.inl ⟨graphs, g, b, hgraphs, hb, by rw [hgraphs, changeLast_append]⟩))
  | curve =>
    rw [hkind] at h
    cases hlast : p.benches.getLast?.filter fun b => some b.graph == p.graphs.getLast?.map GraphPlan.id with
    | none =>
      rw [hlast] at h
      cases h
    | some b =>
      rw [hlast] at h
      obtain ⟨benches, hbenches⟩ := List.getLast?_eq_some_iff.mp (Option.filter_eq_some_iff.mp hlast).1
      obtain ⟨c, hc, h⟩ := map_eq_ok.1 h
      cases h
      exact .inr (.inr (.inr ⟨benches, b, c, hbenches, hc, by rw [hbenches, changeLast_append]⟩))

/-! ## §3 Plans of documents -/

/-- The graphs of a plan list its benches, and the benches its curves. -/
structure Numbered (p : Plan) : Prop where
  benches : Lists GraphPlan.id GraphPlan.benches BenchPlan.id BenchPlan.graph p.graphs p.benches
  curves : Lists BenchPlan.id BenchPlan.curves CurvePlan.id CurvePlan.bench p.benches p.curves

/-- Each section keeps the numbers of a plan in order. -/
theorem Numbered.addSection {settings : GlobalSettings} {p p' : Plan} {ordinal ordinal' : Nat} {s : Section}
    (hp : p.Numbered) (h : addSection settings (p, ordinal) s = .ok (p', ordinal')) : p'.Numbered := by
  obtain rfl | ⟨g, hg, rfl⟩ | ⟨graphs, g, b, hgraphs, hb, rfl⟩ | ⟨benches, b, c, hbenches, hc, rfl⟩ :=
    addSection_cases h
  · exact hp
  · obtain ⟨hid, hbenches⟩ := GraphPlan.ofSection_eq_ok hg
    exact ⟨hp.benches.append_parent hid hbenches, hp.curves⟩
  · obtain ⟨hid, hgraph, hcurves⟩ := BenchPlan.ofSection_eq_ok hb
    have hlists := hp.benches
    rw [hgraphs] at hlists
    exact ⟨hlists.append_child hid hgraph rfl rfl, hp.curves.append_parent hid hcurves⟩
  · obtain ⟨hid, hbench, _⟩ := CurvePlan.ofSection_eq_ok hc
    have hlists := hp.curves
    rw [hbenches] at hlists
    refine ⟨hp.benches.congr_kids ?_, hlists.append_child hid hbench rfl rfl⟩
    rw [hbenches, List.map_append, List.map_append]
    rfl

/-- The plan of a document comes from its sections under the settings of the document, whose scope it has. What every
    section keeps under these settings holds of the plan. -/
theorem ofDocument_invariant (P : GlobalSettings → Plan → Prop) {scope scope' : Scope} {d : Document} {p : Plan}
    (hnil : ∀ g, P g { empty with title := g.title })
    (hstep : ∀ {g p p' ordinal ordinal' s}, P g p → addSection g (p, ordinal) s = .ok (p', ordinal') → P g p')
    (h : ofDocument scope d = .ok (p, scope')) : ∃ g, g.scope = scope' ∧ P g p := by
  unfold ofDocument at h
  cases hsettings : GlobalSettings.ofDocument scope d with
  | error e =>
    rw [hsettings] at h
    cases h
  | ok settings =>
    rw [hsettings] at h
    obtain ⟨⟨q, ordinal⟩, hfold, h⟩ := map_eq_ok.1 h
    cases h
    exact ⟨settings, rfl, foldlM_invariant (fun _ (state : Plan × Nat) => P settings state.1)
      (fun _ _ _ _ hq hadded => hstep hq hadded) (n := 0) (hnil settings) hfold⟩

/-- The plan of a document is numbered. -/
theorem numbered_ofDocument {scope scope' : Scope} {d : Document} {p : Plan}
    (h : ofDocument scope d = .ok (p, scope')) : p.Numbered := by
  obtain ⟨_, _, hp⟩ := ofDocument_invariant (fun _ => Numbered) (fun _ => ⟨.nil, .nil⟩)
    (fun hq hadded => hq.addSection hadded) h
  exact hp

variable {p : Plan}

/-- The benches of a graph are those that name it. -/
theorem Numbered.benchesOf_eq (hp : p.Numbered) {g : GraphPlan} (hg : g ∈ p.graphs) :
    p.benchesOf g = p.benches.filter fun b => b.graph == g.id :=
  hp.benches.filterMap_children hg

/-- The curves of a bench are those that name it. -/
theorem Numbered.curvesOf_eq (hp : p.Numbered) {b : BenchPlan} (hb : b ∈ p.benches) :
    p.curvesOf b = p.curves.filter fun c => c.bench == b.id :=
  hp.curves.filterMap_children hb

/-! ## §4 Bound plans -/

/-- A graph of a plan with data: its benches and their curves are those of the plan. -/
structure Binds (p : Plan) (b : BoundGraph) : Prop where
  graph : b.plan ∈ p.graphs
  benches : b.benches.map BoundBench.plan = p.benchesOf b.plan
  curves : ∀ bench ∈ b.benches, bench.curves.map BoundCurve.plan = p.curvesOf bench.plan

theorem plan_of_bindCurve {binding : BenchBinding} {curve : CurvePlan} {bound : BoundCurve}
    (h : binding.bindCurve curve = .ok bound) : curve = bound.plan := by
  unfold BenchBinding.bindCurve at h
  obtain ⟨_, _, h⟩ := bind_eq_ok.1 h
  obtain ⟨query, _, h⟩ := bind_eq_ok.1 h
  obtain ⟨sets, _, h⟩ := bind_eq_ok.1 h
  obtain ⟨instances, _, h⟩ := bind_eq_ok.1 h
  cases h
  rfl

/-- A bench that is bound is a bench of the plan with its curves. -/
theorem plan_of_bindBench {store : Store} {scope : Scope} {bench : BenchPlan} {bound : BoundBench}
    (h : p.bindBench store scope bench = .ok bound) :
    bench = bound.plan ∧ bound.curves.map BoundCurve.plan = p.curvesOf bound.plan := by
  unfold bindBench at h
  obtain ⟨binding, _, h⟩ := bind_eq_ok.1 h
  obtain ⟨curves, hcurves, h⟩ := bind_eq_ok.1 h
  cases h
  have hplans := map_eq_map_of_forall₂ (g := id) (forall₂_of_mapM_eq_ok hcurves) fun _ _ hc => plan_of_bindCurve hc
  exact ⟨rfl, by rw [← hplans, List.map_id]⟩

/-- The benches of a bound graph were bound. -/
theorem bindBench_of_bindGraph {store : Store} {scope : Scope} {plan : GraphPlan} {b : BoundGraph}
    (h : p.bindGraph store scope plan = .ok b) : b.plan = plan
      ∧ List.Forall₂ (fun bench bound => p.bindBench store scope bench = .ok bound) (p.benchesOf plan) b.benches := by
  obtain ⟨benches, hbenches, h⟩ := bind_eq_ok.1 h
  cases h
  exact ⟨rfl, forall₂_of_mapM_eq_ok hbenches⟩

/-- The graphs that a plan is bound to were bound. -/
theorem exists_bindGraph_of_bind {store : Store} {scope : Scope} {graphs : List BoundGraph}
    (h : p.bind store scope = .ok graphs) {b : BoundGraph} (hb : b ∈ graphs) :
    ∃ plan ∈ p.graphs, p.bindGraph store scope plan = .ok b :=
  exists_mem_of_forall₂ (R := flip fun plan b => p.bindGraph store scope plan = .ok b) (forall₂_of_mapM_eq_ok h).flip hb

/-- What a plan is bound to are its graphs with data. -/
theorem binds_of_bind {store : Store} {scope : Scope} {graphs : List BoundGraph}
    (h : p.bind store scope = .ok graphs) : ∀ b ∈ graphs, p.Binds b := by
  intro b hb
  obtain ⟨plan, hplan, hgraph⟩ := exists_bindGraph_of_bind h hb
  obtain ⟨rfl, hbenches⟩ := bindBench_of_bindGraph hgraph
  refine ⟨hplan, ?_, fun bench hbench => ?_⟩
  · have hplans := map_eq_map_of_forall₂ (g := id) hbenches fun _ _ hc => (plan_of_bindBench hc).1
    rw [← hplans, List.map_id]
  · obtain ⟨_, _, hbound⟩ := exists_mem_of_forall₂
      (R := flip fun plan bench => p.bindBench store scope plan = .ok bench) hbenches.flip hbench
    exact (plan_of_bindBench hbound).2

/-- The benches of a bound graph have different numbers, also where they select from one benchmark. -/
theorem Numbered.nodup_benches (hp : p.Numbered) {b : BoundGraph} (hb : p.Binds b) :
    (b.benches.map fun bench => bench.plan.id).Nodup := by
  have hplans : b.benches.map (fun bench => bench.plan.id) = (b.benches.map BoundBench.plan).map BenchPlan.id := by
    rw [List.map_map]
    rfl
  rw [hplans, hb.benches, hp.benchesOf_eq hb.graph]
  exact hp.benches.nodup_childIds _

end Plan

end BenchPlot
