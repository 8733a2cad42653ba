import BenchPlot.Proofs.Plan.Numbering

/-!
# Plans as forests

The graphs, benches and curves of a plan number the sections of their kinds in the order of the document. Every section
that is added keeps this: the new node is the last of its kind, it is listed last by its parent, and its parent is the
last one there is. So the lists of children, one behind the other, count all children, and the curves of a graph are
counted across its benches.

Main statements: `Plan.Adds.grows`, `Plan.grows_of_foldlM` and `Plan.Grows.isForest`.
-/

namespace BenchPlot

/-! ## §1 Sections in their order -/

/-- The sections of a kind. -/
def sectionsOf (kind : SectionKind) (sections : List Section) : List Section :=
  sections.filter fun s => s.kind == kind

/-- The sections behind the last graph, the last one first. -/
def sinceGraph (sections : List Section) : List Section :=
  sections.reverse.takeWhile fun s => s.kind != .graph

theorem sectionsOf_cons (kind : SectionKind) (s : Section) (sections : List Section) :
    sectionsOf kind (s :: sections) = (if s.kind = kind then [s] else []) ++ sectionsOf kind sections := by
  unfold sectionsOf
  split
  · rename_i h
    exact List.filter_cons_of_pos (beq_iff_eq.mpr h)
  · rename_i h
    exact List.filter_cons_of_neg fun heq => h (beq_iff_eq.mp heq)

theorem sectionsOf_concat (kind : SectionKind) (sections : List Section) (s : Section) :
    sectionsOf kind (sections ++ [s]) = sectionsOf kind sections ++ if s.kind = kind then [s] else [] := by
  have hlast := sectionsOf_cons kind s []
  rw [sectionsOf, List.filter_append]
  rw [sectionsOf, sectionsOf, List.filter_nil, List.append_nil] at hlast
  rw [hlast, sectionsOf]

theorem sinceGraph_concat (sections : List Section) (s : Section) :
    sinceGraph (sections ++ [s]) = if s.kind = .graph then [] else s :: sinceGraph sections := by
  unfold sinceGraph
  rw [List.reverse_concat]
  split
  · rename_i h
    exact List.takeWhile_cons_of_neg fun hne => bne_iff_ne.mp hne h
  · rename_i h
    exact List.takeWhile_cons_of_pos (bne_iff_ne.mpr h)

/-- What a fold starts with and each of its steps that is accepted keeps, holds of its result; it may depend on the
    steps that were made. -/
theorem foldlM_prefix_invariant {ε α β : Type} {f : β → α → Except ε β} (P : List α → β → Prop)
    (hstep : ∀ front b a b', P front b → f b a = .ok b' → P (front ++ [a]) b') (front : List α) {l : List α} {b b' : β}
    (hb : P front b) (h : l.foldlM f b = .ok b') : P (front ++ l) b' := by
  induction l generalizing front b with
  | nil =>
    cases h
    rwa [List.append_nil]
  | cons a rest ih =>
    rw [List.foldlM_cons] at h
    obtain ⟨c, hc, hrest⟩ := bind_eq_ok.1 h
    have hlater := ih (front ++ [a]) (hstep front b a c hb hc) hrest
    rwa [List.append_assoc] at hlater

namespace Plan

/-! ## §2 What a section adds -/

/-- The bench to which a curve is added: the last one, if it belongs to the last graph. -/
def openBench? (p : Plan) : Option BenchPlan :=
  p.benches.getLast?.filter fun b => some b.graph == p.graphs.getLast?.map GraphPlan.id

/-- How a section is added to a plan, with the ordinal of the next curve. -/
inductive Adds (g : GlobalSettings) (p : Plan) (ordinal : Nat) (s : Section) : Plan → Nat → Prop
  | settings (hkind : s.kind = .global) : Adds g p ordinal s p ordinal
  | graph {node} (hkind : s.kind = .graph) (hnode : GraphPlan.ofSection g p.graphs.length s = .ok node) :
    Adds g p ordinal s { p with graphs := p.graphs ++ [node] } 0
  | bench {graphs parent node} (hkind : s.kind = .bench) (hgraphs : p.graphs = graphs ++ [parent])
    (hnode : BenchPlan.ofSection g p.benches.length parent.id s = .ok node) :
    Adds g p ordinal s
      { p with
        graphs := graphs ++ [{ parent with benches := parent.benches ++ [p.benches.length] }]
        benches := p.benches ++ [node] } ordinal
  | curve {benches parent node} (hkind : s.kind = .curve) (hbenches : p.benches = benches ++ [parent])
    (hopen : p.openBench? = some parent) (hnode : CurvePlan.ofSection g p.curves.length parent.id ordinal s = .ok node) :
    Adds g p ordinal s
      { p with
        benches := benches ++ [{ parent with curves := parent.curves ++ [p.curves.length] }]
        curves := p.curves ++ [node] } (ordinal + 1)

variable {g : GlobalSettings} {p p' : Plan} {ordinal ordinal' : Nat} {s : Section}

theorem adds_of_addSection (h : addSection g (p, ordinal) s = .ok (p', ordinal')) : Adds g p ordinal s p' ordinal' := by
  unfold addSection at h
  dsimp only at h
  cases hkind : s.kind with
  | «global» =>
    rw [hkind] at h
    cases h
    exact .settings hkind
  | graph =>
    rw [hkind] at h
    obtain ⟨node, hnode, h⟩ := map_eq_ok.1 h
    cases h
    exact .graph hkind hnode
  | bench =>
    rw [hkind] at h
    cases hlast : p.graphs.getLast? with
    | none =>
      rw [hlast] at h
      cases h
    | some parent =>
      rw [hlast] at h
      obtain ⟨graphs, hgraphs⟩ := List.getLast?_eq_some_iff.mp hlast
      obtain ⟨node, hnode, h⟩ := map_eq_ok.1 h
      cases h
      rw [hgraphs, changeLast_append]
      exact .bench hkind hgraphs hnode
  | curve =>
    rw [hkind] at h
    cases hlast : p.benches.getLast?.filter fun b => some b.graph == p.graphs.getLast?.map GraphPlan.id with
    | none =>
      rw [hlast] at h
      cases h
    | some parent =>
      rw [hlast] at h
      obtain ⟨benches, hbenches⟩ := List.getLast?_eq_some_iff.mp (Option.filter_eq_some_iff.mp hlast).1
      obtain ⟨node, hnode, h⟩ := map_eq_ok.1 h
      cases h
      rw [hbenches, changeLast_append]
      exact .curve hkind hbenches hlast hnode

/-- The graph of an open bench is the last one. -/
theorem graph_of_openBench? {b : BenchPlan} (h : p.openBench? = some b) :
    ∃ graphs parent, p.graphs = graphs ++ [parent] ∧ b.graph = parent.id := by
  have hgraph := (Option.filter_eq_some_iff.mp h).2
  rw [beq_iff_eq] at hgraph
  obtain ⟨parent, hparent, hid⟩ := Option.map_eq_some_iff.mp hgraph.symm
  obtain ⟨graphs, hgraphs⟩ := List.getLast?_eq_some_iff.mp hparent
  exact ⟨graphs, parent, hgraphs, hid.symm⟩

end Plan

/-! ## §3 Nodes and sections -/

theorem map_bind {ε α β γ : Type} (x : Except ε α) (f : α → Except ε β) (k : β → γ) :
    (x >>= f).map k = x >>= fun a => (f a).map k := by
  cases x <;> rfl

section Numbers

variable (g : GlobalSettings) (s : Section)

/-! What a section asks for, and whether it can be had, does not depend on the numbers of its node. -/

theorem GraphPlan.ofSection_eq (id : Nat) : GraphPlan.ofSection g id s
    = (GraphPlan.ofSection g 0 s).map fun n => { n with id := id } := by
  unfold GraphPlan.ofSection
  simp only [map_bind]
  rfl

theorem BenchPlan.ofSection_eq (id graph : Nat) : BenchPlan.ofSection g id graph s
    = (BenchPlan.ofSection g 0 0 s).map fun n => { n with id := id, graph := graph } := by
  unfold BenchPlan.ofSection
  simp only [map_bind]
  rfl

theorem CurvePlan.ofSection_eq (id bench ordinal : Nat) : CurvePlan.ofSection g id bench ordinal s
    = (CurvePlan.ofSection g 0 0 0 s).map fun n => { n with id := id, bench := bench, ordinal := ordinal } := by
  unfold CurvePlan.ofSection
  simp only [map_bind]
  rfl

theorem CurvePlan.ordinal_ofSection {id bench ordinal : Nat} {n : CurvePlan}
    (h : CurvePlan.ofSection g id bench ordinal s = .ok n) : n.ordinal = ordinal := by
  rw [CurvePlan.ofSection_eq] at h
  obtain ⟨_, _, rfl⟩ := map_eq_ok.1 h
  rfl

end Numbers

/-- A graph without its list of benches, and a bench without its list of curves: what their sections ask for. -/
def GraphPlan.childless (n : GraphPlan) : GraphPlan :=
  { n with benches := [] }

def BenchPlan.childless (n : BenchPlan) : BenchPlan :=
  { n with curves := [] }

namespace Plan

/-- The nodes of a plan are what the sections of their kinds ask for, in the order of the sections. -/
structure Follows (g : GlobalSettings) (sections : List Section) (p : Plan) : Prop where
  graphs : List.Forall₂ (fun s n => GraphPlan.ofSection g n.id s = .ok n) (sectionsOf .graph sections)
    (p.graphs.map GraphPlan.childless)
  benches : List.Forall₂ (fun s n => BenchPlan.ofSection g n.id n.graph s = .ok n) (sectionsOf .bench sections)
    (p.benches.map BenchPlan.childless)
  curves : List.Forall₂ (fun s n => CurvePlan.ofSection g n.id n.bench n.ordinal s = .ok n) (sectionsOf .curve sections)
    p.curves

variable {g : GlobalSettings} {p p' : Plan} {ordinal ordinal' : Nat} {s : Section} {sections : List Section}

namespace Follows

theorem length_graphs (h : Follows g sections p) : (sectionsOf .graph sections).length = p.graphs.length := by
  rw [h.graphs.length_eq, List.length_map]

theorem length_benches (h : Follows g sections p) : (sectionsOf .bench sections).length = p.benches.length := by
  rw [h.benches.length_eq, List.length_map]

theorem length_curves (h : Follows g sections p) : (sectionsOf .curve sections).length = p.curves.length :=
  h.curves.length_eq

/-- Each section keeps the nodes in the order of the sections. -/
theorem concat (h : Follows g sections p) (hadds : Adds g p ordinal s p' ordinal') :
    Follows g (sections ++ [s]) p' := by
  obtain ⟨hgraphs, hbenches, hcurves⟩ := h
  cases hadds with
  | settings hkind =>
    refine ⟨?_, ?_, ?_⟩ <;> simp only [sectionsOf_concat, hkind, reduceCtorEq, if_false, List.append_nil]
    · exact hgraphs
    · exact hbenches
    · exact hcurves
  | @graph node hkind hnode =>
    obtain ⟨hid, hnone⟩ := GraphPlan.ofSection_eq_ok hnode
    have hbare : node.childless = node := by rw [GraphPlan.childless, ← hnone]
    refine ⟨?_, ?_, ?_⟩ <;> simp only [sectionsOf_concat, hkind, reduceCtorEq, if_true, if_false, List.append_nil]
    · rw [List.map_append, List.map_singleton, hbare]
      exact List.rel_append hgraphs (.cons (hid ▸ hnode) .nil)
    · exact hbenches
    · exact hcurves
  | @bench graphs parent node hkind hlast hnode =>
    obtain ⟨hid, hgraph, hnone⟩ := BenchPlan.ofSection_eq_ok hnode
    have hbare : node.childless = node := by rw [BenchPlan.childless, ← hnone]
    refine ⟨?_, ?_, ?_⟩ <;> simp only [sectionsOf_concat, hkind, reduceCtorEq, if_true, if_false, List.append_nil]
    · rw [hlast, List.map_append] at hgraphs
      rw [List.map_append]
      exact hgraphs
    · rw [List.map_append, List.map_singleton, hbare]
      refine List.rel_append hbenches (.cons ?_ .nil)
      rwa [hid, hgraph]
    · exact hcurves
  | @curve benches parent node hkind hlast hopen hnode =>
    obtain ⟨hid, hbench, -⟩ := CurvePlan.ofSection_eq_ok hnode
    refine ⟨?_, ?_, ?_⟩ <;> simp only [sectionsOf_concat, hkind, reduceCtorEq, if_true, if_false, List.append_nil]
    · exact hgraphs
    · rw [hlast, List.map_append] at hbenches
      rw [List.map_append]
      exact hbenches
    · refine List.rel_append hcurves (.cons ?_ .nil)
      rwa [hid, hbench, CurvePlan.ordinal_ofSection g s hnode]

end Follows

/-! ## §4 Children in one row -/

/-- The lists of children, one behind the other, count all children. -/
structure ListsAll (p : Plan) : Prop where
  benches : p.graphs.flatMap GraphPlan.benches = List.range p.benches.length
  curves : p.benches.flatMap BenchPlan.curves = List.range p.curves.length

/-- A child that is listed last by the last parent. -/
theorem flatMap_concat_range {β : Type} {children : β → List Nat} {parents : List β} {parent parent' : β} {n : Nat}
    (h : (parents ++ [parent]).flatMap children = List.range n) (hparent : children parent' = children parent ++ [n]) :
    (parents ++ [parent']).flatMap children = List.range (n + 1) := by
  rw [List.flatMap_append, List.flatMap_singleton] at h ⊢
  rw [hparent, ← List.append_assoc, h, List.range_succ]

theorem ListsAll.concat (h : p.ListsAll) (hadds : Adds g p ordinal s p' ordinal') : p'.ListsAll := by
  obtain ⟨hbenches, hcurves⟩ := h
  cases hadds with
  | settings => exact ⟨hbenches, hcurves⟩
  | graph _ hnode =>
    refine ⟨?_, hcurves⟩
    rw [List.flatMap_append, List.flatMap_singleton, (GraphPlan.ofSection_eq_ok hnode).2, List.append_nil]
    exact hbenches
  | bench _ hlast hnode =>
    refine ⟨?_, ?_⟩
    · rw [hlast] at hbenches
      rw [List.length_append, List.length_singleton]
      exact flatMap_concat_range hbenches rfl
    · rw [List.flatMap_append, List.flatMap_singleton, (BenchPlan.ofSection_eq_ok hnode).2.2, List.append_nil]
      exact hcurves
  | curve _ hlast _ hnode =>
    refine ⟨?_, ?_⟩
    · rw [hbenches, hlast, List.length_append, List.length_append]
      rfl
    · rw [hlast] at hcurves
      rw [List.length_append, List.length_singleton]
      exact flatMap_concat_range hcurves rfl

/-! ## §5 Ordinals -/

/-- The number of the graph of a curve. -/
def graphIdOf? (p : Plan) (c : CurvePlan) : Option Nat :=
  (p.benches.map BenchPlan.graph)[c.bench]?

/-- The curves of the graph with a number, across its benches. -/
def curvesUnder (p : Plan) (id : Nat) : List CurvePlan :=
  p.curves.filter fun c => p.graphIdOf? c == some id

/-- The curves of each graph are counted from zero; `ordinal` is the number of those of the last graph. -/
structure CountsCurves (p : Plan) (ordinal : Nat) : Prop where
  ordinals : ∀ id, (p.curvesUnder id).map CurvePlan.ordinal = List.range (p.curvesUnder id).length
  current : ∀ id, p.graphs.length = id + 1 → (p.curvesUnder id).length = ordinal

/-- Further benches change nothing about the curves that there are. -/
theorem curvesUnder_of_append (hp : p.Numbered) (hcurves : p'.curves = p.curves) {later : List Nat}
    (hbenches : p'.benches.map BenchPlan.graph = p.benches.map BenchPlan.graph ++ later) (id : Nat) :
    p'.curvesUnder id = p.curvesUnder id := by
  unfold curvesUnder
  rw [hcurves]
  refine List.filter_congr fun c hc => congrArg (· == some id) ?_
  have hlt : c.bench < (p.benches.map BenchPlan.graph).length := by
    rw [List.length_map]
    exact hp.curves.has_parent c hc
  rw [graphIdOf?, hbenches, List.getElem?_append_left hlt, graphIdOf?]

/-- A further curve is the last one of its graph. -/
theorem curvesUnder_of_concat {node : CurvePlan} {last : Nat} (hcurves : p'.curves = p.curves ++ [node])
    (hbenches : p'.benches.map BenchPlan.graph = p.benches.map BenchPlan.graph) (hnode : p.graphIdOf? node = some last)
    (id : Nat) : p'.curvesUnder id = p.curvesUnder id ++ if last = id then [node] else [] := by
  have hsame : ∀ c, p'.graphIdOf? c = p.graphIdOf? c := by
    intro c
    rw [graphIdOf?, hbenches, graphIdOf?]
  unfold curvesUnder
  simp only [hsame, hcurves, List.filter_append, List.filter_singleton, hnode, Option.some_beq_some, Bool.cond_eq_ite,
    beq_iff_eq]

/-- The last node has the last number. -/
theorem length_eq_of_last {δ : Type} {id : δ → Nat} {l front : List δ} {last : δ} (h : l.map id = List.range l.length)
    (hlast : l = front ++ [last]) : l.length = id last + 1 := by
  rw [hlast, List.map_append, List.length_append, List.map_singleton, List.length_singleton, List.range_succ] at h
  have hid := List.singleton_inj.mp (List.append_inj' h rfl).2
  rw [hlast, List.length_append, List.length_singleton, hid]

theorem graphIdOf?_lt (hp : p.Numbered) {c : CurvePlan} {id : Nat} (h : p.graphIdOf? c = some id) :
    id < p.graphs.length := by
  rw [graphIdOf?, List.getElem?_map] at h
  obtain ⟨b, hb, rfl⟩ := Option.map_eq_some_iff.mp h
  exact hp.benches.has_parent b (List.mem_of_getElem? hb)

/-- A curve that is added to the open bench belongs to the last graph. -/
theorem exists_graphIdOf?_of_open (hp : p.Numbered) {parent : BenchPlan} (hopen : p.openBench? = some parent)
    {node : CurvePlan} (hnode : node.bench = parent.id) :
    ∃ graphs last, p.graphs = graphs ++ [last] ∧ p.graphIdOf? node = some last.id := by
  obtain ⟨graphs, last, hgraphs, hgraph⟩ := graph_of_openBench? hopen
  have hmem : parent ∈ p.benches := List.mem_of_getLast? (Option.filter_eq_some_iff.mp hopen).1
  refine ⟨graphs, last, hgraphs, ?_⟩
  rw [graphIdOf?, hnode, List.getElem?_map, Lists.getElem?_id hp.curves.parentIds hmem, ← hgraph]
  rfl

/-- Each section keeps the count: a curve has the ordinal behind those of the other curves of its graph. -/
theorem CountsCurves.concat (hp : p.Numbered) (h : p.CountsCurves ordinal) (hadds : Adds g p ordinal s p' ordinal') :
    p'.CountsCurves ordinal' := by
  obtain ⟨hordinals, hcurrent⟩ := h
  cases hadds with
  | settings => exact ⟨hordinals, hcurrent⟩
  | graph =>
    refine ⟨hordinals, fun id hid => ?_⟩
    rw [List.length_append, List.length_singleton] at hid
    -- No curve belongs to the graph that was just opened.
    refine List.length_eq_zero_iff.mpr (List.filter_eq_nil_iff.mpr fun c hc hgraph => ?_)
    have hlt := graphIdOf?_lt hp (beq_iff_eq.mp hgraph)
    omega
  | @bench graphs parent node _ hlast hnode =>
    have hsame : ∀ id, curvesUnder { p with
        graphs := graphs ++ [{ parent with benches := parent.benches ++ [p.benches.length] }]
        benches := p.benches ++ [node] } id = p.curvesUnder id := curvesUnder_of_append hp rfl List.map_append
    rw [hlast, List.length_append] at hcurrent
    refine ⟨fun id => ?_, fun id hid => ?_⟩
    · rw [hsame]
      exact hordinals id
    · rw [List.length_append] at hid
      rw [hsame]
      exact hcurrent id hid
  | @curve benches parent node _ hlast hopen hnode =>
    obtain ⟨-, hbench, -⟩ := CurvePlan.ofSection_eq_ok hnode
    obtain ⟨graphs, last, hgraphs, hgraph⟩ := exists_graphIdOf?_of_open hp hopen hbench
    have hgraphs' : (benches ++ [{ parent with curves := parent.curves ++ [p.curves.length] }]).map BenchPlan.graph
        = p.benches.map BenchPlan.graph := by
      rw [hlast, List.map_append, List.map_append]
      rfl
    have hunder : ∀ id, curvesUnder { p with
        benches := benches ++ [{ parent with curves := parent.curves ++ [p.curves.length] }]
        curves := p.curves ++ [node] } id = p.curvesUnder id ++ if last.id = id then [node] else [] :=
      curvesUnder_of_concat rfl hgraphs' hgraph
    have hlength : (p.curvesUnder last.id).length = ordinal :=
      hcurrent last.id (length_eq_of_last hp.benches.parentIds hgraphs)
    refine ⟨fun id => ?_, fun id hid => ?_⟩
    · rw [hunder]
      split
      · rename_i heq
        refine Lists.map_append_range (hordinals id) ?_
        rw [CurvePlan.ordinal_ofSection g s hnode, ← heq, hlength]
      · rw [List.append_nil]
        exact hordinals id
    · obtain rfl : last.id = id := Nat.succ_injective ((length_eq_of_last hp.benches.parentIds hgraphs).symm.trans hid)
      rw [hunder, if_pos rfl, List.length_append, hlength, List.length_singleton]

theorem flatMap_of_filter {β γ : Type} {keep : β → Bool} {f f' : β → List γ} {l : List β}
    (h : ∀ b ∈ l, f' b = if keep b = true then f b else []) : (l.filter keep).flatMap f = l.flatMap f' := by
  induction l with
  | nil => rfl
  | cons b rest ih =>
    have hrest := ih fun c hc => h c (List.mem_cons_of_mem _ hc)
    rw [List.flatMap_cons, h b (List.mem_cons_self ..), ← hrest]
    split
    · rename_i hkeep
      rw [List.filter_cons_of_pos hkeep, List.flatMap_cons]
    · rename_i hkeep
      rw [List.filter_cons_of_neg hkeep, List.nil_append]

/-- The curves of a graph across its benches are those that its benches list. -/
theorem flatMap_curvesOf (hp : p.Numbered) (hlists : p.ListsAll) {n : GraphPlan} (hn : n ∈ p.graphs) :
    (p.benchesOf n).flatMap p.curvesOf = p.curvesUnder n.id := by
  have hall : p.benches.flatMap p.curvesOf = p.curves := by
    have hfound : ∀ c ∈ p.curves, ((fun id => p.curves[id]?) ∘ CurvePlan.id) c = some c :=
      fun c hc => Lists.getElem?_id hp.curves.childIds hc
    unfold curvesOf
    rw [← List.filterMap_flatMap, hlists.curves, ← hp.curves.childIds, List.filterMap_map, List.filterMap_congr hfound,
      List.filterMap_some]
  have hunder : p.curvesUnder n.id = p.benches.flatMap fun b =>
      (p.curvesOf b).filter fun c => p.graphIdOf? c == some n.id := by
    rw [← List.filter_flatMap, hall, curvesUnder]
  rw [hunder, hp.benchesOf_eq hn]
  refine flatMap_of_filter fun b hb => ?_
  -- The curves of a bench all belong to the graph of the bench.
  have hgraph : ∀ c ∈ p.curvesOf b, p.graphIdOf? c = some b.graph := by
    intro c hc
    rw [hp.curvesOf_eq hb] at hc
    rw [graphIdOf?, eq_of_beq (List.mem_filter.mp hc).2, List.getElem?_map, Lists.getElem?_id hp.curves.parentIds hb]
    rfl
  have hsame : ∀ c ∈ p.curvesOf b, (p.graphIdOf? c == some n.id) = (b.graph == n.id) := by
    intro c hc
    rw [hgraph c hc, Option.some_beq_some]
  rw [List.filter_congr hsame]
  cases b.graph == n.id with
  | true => exact List.filter_eq_self.mpr fun _ _ => rfl
  | false => exact List.filter_eq_nil_iff.mpr fun _ _ => Bool.false_ne_true

/-! ## §6 Parents -/

/-- The parents of a bench and of a curve are the last ones in front of its section: as many graphs and benches stand
    there as their numbers say. The ordinal of a curve is the number of curves since the last graph. -/
structure ParentsBehind (sections : List Section) (p : Plan) : Prop where
  benches : ∀ {front s back}, sections = front ++ s :: back → s.kind = .bench →
    ∃ graph, (p.benches.map BenchPlan.graph)[(sectionsOf .bench front).length]? = some graph
      ∧ graph + 1 = (sectionsOf .graph front).length
  curves : ∀ {front s back}, sections = front ++ s :: back → s.kind = .curve →
    ∃ c graph, p.curves[(sectionsOf .curve front).length]? = some c ∧ c.bench + 1 = (sectionsOf .bench front).length
      ∧ p.graphIdOf? c = some graph ∧ graph + 1 = (sectionsOf .graph front).length
      ∧ c.ordinal = (sectionsOf .curve (sinceGraph front)).length

/-- What stands in front of a place in a list with a further element. -/
theorem split_concat {β : Type} {l front back : List β} {a b : β} (h : l ++ [a] = front ++ b :: back) :
    (front = l ∧ b = a) ∨ ∃ back', l = front ++ b :: back' := by
  rcases List.eq_nil_or_concat back with rfl | ⟨back', last, rfl⟩
  · obtain ⟨hfront, hlast⟩ := List.append_inj' h rfl
    exact .inl ⟨hfront.symm, (List.singleton_inj.mp hlast).symm⟩
  · rw [List.concat_eq_append, ← List.cons_append, ← List.append_assoc] at h
    exact .inr ⟨back', (List.append_inj' h rfl).1⟩

/-- A section changes no parent and no curve that there is. -/
theorem Adds.exists_later (hadds : Adds g p ordinal s p' ordinal') :
    (∃ later, p'.benches.map BenchPlan.graph = p.benches.map BenchPlan.graph ++ later)
      ∧ ∃ later, p'.curves = p.curves ++ later := by
  cases hadds with
  | settings => exact ⟨⟨[], (List.append_nil _).symm⟩, [], (List.append_nil _).symm⟩
  | graph => exact ⟨⟨[], (List.append_nil _).symm⟩, [], (List.append_nil _).symm⟩
  | bench => exact ⟨⟨_, List.map_append⟩, [], (List.append_nil _).symm⟩
  | curve _ hlast =>
    refine ⟨⟨[], ?_⟩, _, rfl⟩
    rw [hlast, List.map_append, List.map_append, List.append_nil]
    rfl

theorem getElem?_of_append {β : Type} {l l' later : List β} {n : Nat} {b : β} (h : l[n]? = some b)
    (happend : l' = l ++ later) : l'[n]? = some b := by
  rw [happend, List.getElem?_append_left (List.getElem?_eq_some_iff.mp h).1, h]

/-- Each section keeps the parents, and its own node has the last ones. -/
theorem ParentsBehind.concat (hp : p.Numbered) (hfollows : Follows g sections p)
    (hordinal : ordinal = (sectionsOf .curve (sinceGraph sections)).length) (h : ParentsBehind sections p)
    (hadds : Adds g p ordinal s p' ordinal') : ParentsBehind (sections ++ [s]) p' := by
  obtain ⟨⟨laterBenches, hbenches⟩, laterCurves, hcurves⟩ := hadds.exists_later
  constructor
  · intro front t back hsplit hkind
    rcases split_concat hsplit with ⟨rfl, rfl⟩ | ⟨back', hold⟩
    · cases hadds with
      | settings h => cases h.symm.trans hkind
      | graph h => cases h.symm.trans hkind
      | curve h => cases h.symm.trans hkind
      | @bench graphs parent node _ hlast hnode =>
        refine ⟨parent.id, ?_, ?_⟩
        · rw [hfollows.length_benches, List.map_append, List.getElem?_append_right (by rw [List.length_map]),
            List.length_map, Nat.sub_self, List.map_singleton, (BenchPlan.ofSection_eq_ok hnode).2.1]
          rfl
        · rw [hfollows.length_graphs, length_eq_of_last hp.benches.parentIds hlast]
    · obtain ⟨graph, hgraph, hcount⟩ := h.benches hold hkind
      exact ⟨graph, getElem?_of_append hgraph hbenches, hcount⟩
  · intro front t back hsplit hkind
    rcases split_concat hsplit with ⟨rfl, rfl⟩ | ⟨back', hold⟩
    · cases hadds with
      | settings h => cases h.symm.trans hkind
      | graph h => cases h.symm.trans hkind
      | bench h => cases h.symm.trans hkind
      | @curve benches parent node _ hlast hopen hnode =>
        obtain ⟨-, hbench, -⟩ := CurvePlan.ofSection_eq_ok hnode
        obtain ⟨graphs, last, hgraphs, hgraph⟩ := exists_graphIdOf?_of_open hp hopen hbench
        refine ⟨node, last.id, ?_, ?_, getElem?_of_append hgraph hbenches, ?_, ?_⟩
        · rw [hfollows.length_curves, List.getElem?_concat_length]
        · rw [hfollows.length_benches, hbench, length_eq_of_last hp.curves.parentIds hlast]
        · rw [hfollows.length_graphs, length_eq_of_last hp.benches.parentIds hgraphs]
        · rw [CurvePlan.ordinal_ofSection g _ hnode, hordinal]
    · obtain ⟨c, graph, hc, hbench, hgraph, hrest⟩ := h.curves hold hkind
      exact ⟨c, graph, getElem?_of_append hc hcurves, hbench, getElem?_of_append hgraph hbenches, hrest⟩

/-! ## §7 Growing plans -/

/-- A plan to which sections were added, with the ordinal of the next curve. A bench is open iff there is one since the
    last graph. -/
structure Grows (g : GlobalSettings) (sections : List Section) (p : Plan) (ordinal : Nat) : Prop where
  numbered : p.Numbered
  follows : Follows g sections p
  lists : p.ListsAll
  counts : p.CountsCurves ordinal
  parents : ParentsBehind sections p
  ordinal_eq : ordinal = (sectionsOf .curve (sinceGraph sections)).length
  open_iff : p.openBench? = none ↔ sectionsOf .bench (sinceGraph sections) = []

theorem grows_nil (g : GlobalSettings) : Grows g [] { empty with title := g.title } 0 where
  numbered := ⟨.nil, .nil⟩
  follows := ⟨.nil, .nil, .nil⟩
  lists := ⟨rfl, rfl⟩
  counts := ⟨fun _ => rfl, fun _ _ => rfl⟩
  parents := ⟨fun h => by simp at h, fun h => by simp at h⟩
  ordinal_eq := rfl
  open_iff := iff_of_true rfl rfl

/-- What is open behind a section: nothing behind a graph, and the own bench behind a bench or a curve. -/
theorem Adds.open_iff (hp : p.Numbered) (hopen : p.openBench? = none ↔ sectionsOf .bench (sinceGraph sections) = [])
    (hadds : Adds g p ordinal s p' ordinal') :
    p'.openBench? = none ↔ sectionsOf .bench (sinceGraph (sections ++ [s])) = [] := by
  rw [sinceGraph_concat]
  cases hadds with
  | settings hkind =>
    simp only [hkind, reduceCtorEq, if_false, sectionsOf_cons, List.nil_append]
    exact hopen
  | graph hkind hnode =>
    rw [if_pos hkind]
    refine iff_of_true ?_ rfl
    -- The benches that there are belong to earlier graphs.
    refine Option.filter_eq_none_iff.mpr fun b hb hgraph => ?_
    have hlt := hp.benches.has_parent b (List.mem_of_getLast? hb)
    rw [List.getLast?_concat, Option.map_some, Option.some_beq_some, beq_iff_eq,
      (GraphPlan.ofSection_eq_ok hnode).1] at hgraph
    omega
  | bench hkind _ hnode =>
    simp only [hkind, reduceCtorEq, if_false, if_true, sectionsOf_cons, List.singleton_append]
    refine iff_of_false (fun hnone => ?_) not_false
    refine Option.filter_eq_none_iff.mp hnone _ List.getLast?_concat ?_
    rw [List.getLast?_concat, Option.map_some, (BenchPlan.ofSection_eq_ok hnode).2.1]
    exact beq_self_eq_true _
  | curve hkind _ hparent =>
    simp only [hkind, reduceCtorEq, if_false, sectionsOf_cons, List.nil_append]
    refine iff_of_false (fun hnone => ?_) fun hnil => ?_
    · exact Option.filter_eq_none_iff.mp hnone _ List.getLast?_concat (Option.filter_eq_some_iff.mp hparent).2
    · rw [hopen.mpr hnil] at hparent
      cases hparent

/-- Every section that is accepted lets the plan grow. -/
theorem Grows.concat (h : Grows g sections p ordinal) (hadded : addSection g (p, ordinal) s = .ok (p', ordinal')) :
    Grows g (sections ++ [s]) p' ordinal' := by
  have hadds := adds_of_addSection hadded
  refine ⟨h.numbered.addSection hadded, h.follows.concat hadds, h.lists.concat hadds, h.counts.concat h.numbered hadds,
    h.parents.concat h.numbered h.follows h.ordinal_eq hadds, ?_, hadds.open_iff h.numbered h.open_iff⟩
  rw [sinceGraph_concat]
  cases hadds with
  | settings hkind =>
    simp only [hkind, reduceCtorEq, if_false, sectionsOf_cons, List.nil_append]
    exact h.ordinal_eq
  | graph hkind =>
    rw [if_pos hkind]
    rfl
  | bench hkind =>
    simp only [hkind, reduceCtorEq, if_false, sectionsOf_cons, List.nil_append]
    exact h.ordinal_eq
  | curve hkind =>
    simp only [hkind, reduceCtorEq, if_false, if_true, sectionsOf_cons, List.singleton_append, List.length_cons]
    rw [h.ordinal_eq]

/-- All sections of a document together let the empty plan grow. -/
theorem grows_of_foldlM (h : sections.foldlM (addSection g) ({ empty with title := g.title }, 0) = .ok (p, ordinal)) :
    Grows g sections p ordinal :=
  foldlM_prefix_invariant (fun front (state : Plan × Nat) => Grows g front state.1 state.2)
    (fun _ _ _ _ hgrown hadded => hgrown.concat hadded) [] (grows_nil g) h

/-! ## §8 Forests -/

/-- A plan as a forest over the sections of a document. The nodes of each kind are numbered by their places and follow
    the sections of the kind; the lists of children ascend, hold each child once and hold it where it names its parent;
    the parent of a bench is the last graph in front of it, that of a curve the last bench in front of it, which belongs
    to the last graph; and the curves of a graph are counted from zero across its benches. -/
structure IsForest (g : GlobalSettings) (sections : List Section) (p : Plan) : Prop where
  numbered : p.Numbered
  follows : Follows g sections p
  lists : p.ListsAll
  ascending : (∀ n ∈ p.graphs, n.benches.Pairwise (· < ·)) ∧ ∀ b ∈ p.benches, b.curves.Pairwise (· < ·)
  bench : ∀ {front s back}, sections = front ++ s :: back → s.kind = .bench →
    ∃ b, p.benches[(sectionsOf .bench front).length]? = some b ∧ b.graph + 1 = (sectionsOf .graph front).length
  curve : ∀ {front s back}, sections = front ++ s :: back → s.kind = .curve →
    ∃ c b, p.curves[(sectionsOf .curve front).length]? = some c ∧ p.benches[c.bench]? = some b
      ∧ c.bench + 1 = (sectionsOf .bench front).length ∧ b.graph + 1 = (sectionsOf .graph front).length
      ∧ c.ordinal = (sectionsOf .curve (sinceGraph front)).length
  ordinals : ∀ n ∈ p.graphs, ((p.benchesOf n).flatMap p.curvesOf).map CurvePlan.ordinal
      = List.range ((p.benchesOf n).flatMap p.curvesOf).length
    ∧ ((p.benchesOf n).flatMap p.curvesOf).Pairwise fun c c' => c.id < c'.id

/-- A list of children is a part of the row of all children, so it ascends. -/
theorem pairwise_children {β : Type} {children : β → List Nat} {parents : List β} {count : Nat}
    (h : parents.flatMap children = List.range count) {a : β} (ha : a ∈ parents) : (children a).Pairwise (· < ·) := by
  have hall : (parents.flatMap children).Pairwise (· < ·) := h ▸ List.pairwise_lt_range
  exact (List.pairwise_flatMap.mp hall).1 a ha

/-- A plan that grew is a forest. -/
theorem Grows.isForest (h : Grows g sections p ordinal) : p.IsForest g sections where
  numbered := h.numbered
  follows := h.follows
  lists := h.lists
  ascending := ⟨fun _ => pairwise_children h.lists.benches, fun _ => pairwise_children h.lists.curves⟩
  bench hsplit hkind := by
    obtain ⟨graph, hgraph, hcount⟩ := h.parents.benches hsplit hkind
    rw [List.getElem?_map] at hgraph
    obtain ⟨b, hb, rfl⟩ := Option.map_eq_some_iff.mp hgraph
    exact ⟨b, hb, hcount⟩
  curve hsplit hkind := by
    obtain ⟨c, graph, hc, hbench, hgraph, hcount, hordinal⟩ := h.parents.curves hsplit hkind
    rw [graphIdOf?, List.getElem?_map] at hgraph
    obtain ⟨b, hb, rfl⟩ := Option.map_eq_some_iff.mp hgraph
    exact ⟨c, b, hc, hb, hbench, hcount, hordinal⟩
  ordinals n hn := by
    rw [flatMap_curvesOf h.numbered h.lists hn]
    refine ⟨h.counts.ordinals n.id, ?_⟩
    have hids : (p.curves.map CurvePlan.id).Pairwise (· < ·) := h.numbered.curves.childIds ▸ List.pairwise_lt_range
    exact (List.pairwise_map.mp hids).filter _

end Plan

end BenchPlot
