import BenchPlot.Proofs.Layout.CategoryAxes
import Mathlib.Data.List.Pairwise

/-!
# Groups of bars

Bars that a graph groups along an axis of categories never meet. The bars of a category stand one unit apart, in the
order of their instances and with the middle one at the tick; neighbouring ticks are farther apart than a group is
wide. So each bar keeps to its own category: it stands before every bar of a later one, and nearer to its own tick
than to any other. Positions are compared as whole numbers, and a bar is plotted at the number that its position is.

Main statement: `GraphLayout.groupsBars_ofBound`.
-/

namespace BenchPlot

/-- The one of two things that belongs to the axis along which the instances of a direction group their pairs, the
    first being that of the x axis. -/
def Direction.side {β : Type} (d : Direction) (x y : β) : β :=
  match d with
  | .byX => x
  | .byY => y

/-! ## §1 Numbers and ranks -/

theorem zipIdx_pairwise_lt {β : Type} (l : List β) : l.zipIdx.Pairwise fun a c => a.2 < c.2 := by
  have hnumbers : (l.zipIdx.map Prod.snd).Pairwise (· < ·) := by
    rw [List.zipIdx_map_snd]
    exact List.pairwise_lt_range'
  exact List.pairwise_map.mp hnumbers

/-- An element that is kept stands behind fewer kept ones than the elements behind it. -/
theorem countP_take_lt {β : Type} {keeps : β → Bool} {l : List β} {m n : Nat} {a : β} (ha : l[m]? = some a)
    (hkeeps : keeps a = true) (h : m < n) : (l.take m).countP keeps < (l.take n).countP keeps := by
  have hnext : (l.take (m + 1)).countP keeps = (l.take m).countP keeps + 1 := by
    rw [List.take_add_one, ha, List.countP_append]
    simp [hkeeps]
  have hprefix : (l.take (m + 1)).countP keeps ≤ (l.take n).countP keeps :=
    (List.take_prefix_take_left h).sublist.countP_le
  omega

namespace Instance

variable {α : Type} {grouped : Bool} {isBar : CurveOptions → Bool} {instances : List (Instance α)}

/-- The bars are the instances that are drawn as bars, in their order. -/
theorem bars_pairwise_lt : (bars grouped isBar instances).Pairwise (· < ·) := by
  unfold bars
  split
  · exact List.pairwise_map.mpr ((zipIdx_pairwise_lt instances).filter _)
  · exact .nil

theorem exists_of_mem_bars {member : Nat} (h : member ∈ bars grouped isBar instances) :
    ∃ i, instances[member]? = some i ∧ i.isShown = true := by
  unfold bars at h
  split at h
  · obtain ⟨⟨i, _⟩, hi, rfl⟩ := List.mem_map.mp h
    obtain ⟨hnumbered, hbar⟩ := List.mem_filter.mp hi
    exact ⟨i, List.mem_zipIdx_iff_getElem?.mp hnumbered, (Bool.and_eq_true_iff.mp hbar).1⟩
  · cases h

end Instance

/-! ## §2 Ticks of grouped bars -/

namespace AxisPlacement

variable {plan : AxisPlan} {observed : List Value} {bars : List Nat}

/-- The bar of a rank stands beside its category by its rank, less half of the group. -/
theorem barOffset_of_rank (hbars : bars.Pairwise (· < ·)) {rank member : Nat} (h : bars[rank]? = some member) :
    barOffset bars member = (rank : Int) - ((bars.length / 2 : Nat) : Int) := by
  obtain ⟨hrank, rfl⟩ := List.getElem?_eq_some_iff.mp h
  have hfound : (bars.findIdx? fun bar => bar == bars[rank]) = some rank := by
    -- The numbers ascend, so no bar in front is the member.
    refine List.findIdx?_eq_some_iff_getElem.mpr ⟨hrank, beq_self_eq_true _, fun j hj => ?_⟩
    have hlt : bars[j] < bars[rank] := List.pairwise_iff_getElem.mp hbars j rank _ hrank hj
    simpa using hlt.ne
  rw [barOffset, hfound]

/-- The ticks of an axis with bars are in order, and a group with its padding fits between one and the next. -/
theorem ticks_pairwise_new (h : plan.isCategory = true) (hbars : bars ≠ []) :
    (new plan observed bars).layout.ticks.Pairwise fun t t' =>
      t.position + ((bars.length + groupPadding : Nat) : Int) ≤ t'.position := by
  have hdistance : (new plan observed bars).distance = bars.length + groupPadding := by
    rw [new, if_pos h, List.isEmpty_eq_false_iff.mpr hbars]
    rfl
  refine List.pairwise_map.mpr ((zipIdx_pairwise_lt _).imp fun {c c'} hlt => ?_)
  have hslots : (c.2 + 1) * (bars.length + groupPadding) + (bars.length + groupPadding)
      ≤ (c'.2 + 1) * (bars.length + groupPadding) := by
    rw [← Nat.succ_mul]
    exact Nat.mul_le_mul_right _ (Nat.succ_le_succ hlt)
  show slot _ c.2 + _ ≤ slot _ c'.2
  rw [slot, slot, hdistance]
  exact_mod_cast hslots

end AxisPlacement

/-- Two ticks of an axis are the same or far apart. -/
theorem Tick.gap_of_ne {ticks : List Tick} {gap : Nat}
    (hticks : ticks.Pairwise fun t t' => t.position + (gap : Int) ≤ t'.position) {t t' : Tick} (ht : t ∈ ticks)
    (ht' : t' ∈ ticks) (hne : t ≠ t') : gap ≤ (t.position - t'.position).natAbs := by
  have hsymm : Std.Symm fun t t' : Tick => gap ≤ (t.position - t'.position).natAbs := ⟨fun t t' h => by omega⟩
  have hapart : ticks.Pairwise fun t t' => gap ≤ (t.position - t'.position).natAbs := hticks.imp fun h => by omega
  exact hapart.forall ht ht' hne

/-! ## §3 Bars of a graph -/

namespace BoundGraph

/-- The numbers of the instances of a graph that are drawn as grouped bars along an axis. -/
def bars (b : BoundGraph) (d : Direction) : List Nat :=
  Instance.bars (d.side b.plan.options.xoffset b.plan.options.yoffset) (d.side CurveOptions.bar CurveOptions.hbar)
    (Instance.ofGraph b : List (Instance Float))

/-- The number that a shown instance has as a curve of the layout. -/
def curveOf (b : BoundGraph) (member : Nat) : Nat :=
  ((Instance.ofGraph b : List (Instance Float)).take member).countP Instance.isShown

/-- The position of the bar of a rank in the group around a tick. -/
def barPosition (b : BoundGraph) (d : Direction) (rank : Nat) (t : Tick) : Int :=
  t.position + ((rank : Int) - (((b.bars d).length / 2 : Nat) : Int))

variable {b : BoundGraph} {d : Direction}

/-- Shown instances become curves in their order. -/
theorem curveOf_lt {m n : Nat} {i : Instance Float} (hi : (Instance.ofGraph b : List (Instance Float))[m]? = some i)
    (hshown : i.isShown = true) (h : m < n) : b.curveOf m < b.curveOf n :=
  countP_take_lt hi hshown h

theorem eq_of_curveOf {m n : Nat} {i j : Instance Float}
    (hi : (Instance.ofGraph b : List (Instance Float))[m]? = some i) (hshown : i.isShown = true)
    (hj : (Instance.ofGraph b : List (Instance Float))[n]? = some j) (hshown' : j.isShown = true)
    (h : b.curveOf m = b.curveOf n) : m = n := by
  rcases Nat.lt_trichotomy m n with hlt | heq | hgt
  · exact absurd h (curveOf_lt hi hshown hlt).ne
  · exact heq
  · exact absurd h (curveOf_lt hj hshown' hgt).ne'

/-- Bars become curves in the order of their ranks. -/
theorem curveOf_lt_of_rank {rank rank' member member' : Nat} (h : (b.bars d)[rank]? = some member)
    (h' : (b.bars d)[rank']? = some member') (hlt : rank < rank') : b.curveOf member < b.curveOf member' := by
  obtain ⟨i, hi, hshown⟩ := Instance.exists_of_mem_bars (List.mem_of_getElem? h)
  obtain ⟨hrank, rfl⟩ := List.getElem?_eq_some_iff.mp h
  obtain ⟨hrank', rfl⟩ := List.getElem?_eq_some_iff.mp h'
  exact curveOf_lt hi hshown (List.pairwise_iff_getElem.mp Instance.bars_pairwise_lt rank rank' hrank hrank' hlt)

end BoundGraph

namespace GraphLayout

variable {styles : StyleRegistry} {b : BoundGraph} {d : Direction} {g : GraphLayout Float}

/-- A point is the bar of a rank in the group around a tick: it is a point of the curve that the instance of this
    rank has become, and the tick is the first one with the text of its value. -/
structure IsBar (g : GraphLayout Float) (b : BoundGraph) (d : Direction) (rank : Nat) (t : Tick)
    (p : PlotPoint Float) : Prop where
  point : p ∈ g.points
  curve : (b.bars d)[rank]?.map b.curveOf = some p.curve
  tick : ((d.side g.x g.y).ticks.find? fun t => t.label == (d.side p.rawX p.rawY).display) = some t

/-- Bars are plotted in groups along an axis. -/
structure GroupsBars (g : GraphLayout Float) (b : BoundGraph) (d : Direction) : Prop where
  /-- Every point of an instance that is drawn as bars is a bar of a group, and it is plotted at its position. -/
  plotted : ∀ rank member, (b.bars d)[rank]? = some member → ∀ p ∈ g.points, p.curve = b.curveOf member →
    ∃ t, g.IsBar b d rank t p ∧ d.side p.x p.y = Decimal.ofInteger (b.barPosition d rank t)
  /-- Bars of different curves, or at different categories, have different positions. -/
  distinct : ∀ rank t p, g.IsBar b d rank t p → ∀ rank' t' p', g.IsBar b d rank' t' p' →
    p.curve ≠ p'.curve ∨ (d.side p.rawX p.rawY).display ≠ (d.side p'.rawX p'.rawY).display →
    b.barPosition d rank t ≠ b.barPosition d rank' t'
  /-- Around a tick the bars stand in the order of their curves, one unit from rank to rank. -/
  inOrder : ∀ rank t p, g.IsBar b d rank t p → ∀ rank' p', g.IsBar b d rank' t p' →
    (p.curve < p'.curve ↔ rank < rank') ∧ b.barPosition d rank' t - b.barPosition d rank t = (rank' : Int) - rank
  /-- The ticks stand in their order, and the bars of a tick before every bar of a later one. -/
  ticks : (d.side g.x g.y).ticks.Pairwise fun t t' => t.position < t'.position
  earlier : ∀ rank t p, g.IsBar b d rank t p → ∀ rank' t' p', g.IsBar b d rank' t' p' → t.position < t'.position →
    b.barPosition d rank t < b.barPosition d rank' t'
  /-- A bar is nearer to its own tick than to any other. -/
  nearest : ∀ rank t p, g.IsBar b d rank t p → ∀ t' ∈ (d.side g.x g.y).ticks, t' ≠ t →
    (b.barPosition d rank t - t.position).natAbs < (b.barPosition d rank t - t'.position).natAbs

namespace IsBar

variable {rank rank' : Nat} {t t' : Tick} {p p' : PlotPoint Float}

theorem rank_lt (h : g.IsBar b d rank t p) : rank < (b.bars d).length := by
  obtain ⟨_, hmember, -⟩ := Option.map_eq_some_iff.mp h.curve
  exact (List.getElem?_eq_some_iff.mp hmember).1

theorem mem_ticks (h : g.IsBar b d rank t p) : t ∈ (d.side g.x g.y).ticks :=
  List.mem_of_find?_eq_some h.tick

theorem label_eq (h : g.IsBar b d rank t p) : t.label = (d.side p.rawX p.rawY).display :=
  beq_iff_eq.mp (List.find?_some h.tick :)

/-- Bars of one rank are bars of one curve. -/
theorem curve_eq (h : g.IsBar b d rank t p) (h' : g.IsBar b d rank t' p') : p.curve = p'.curve :=
  Option.some.inj (h.curve.symm.trans h'.curve)

theorem curve_lt_iff (h : g.IsBar b d rank t p) (h' : g.IsBar b d rank' t' p') :
    p.curve < p'.curve ↔ rank < rank' := by
  obtain ⟨member, hmember, hcurve⟩ := Option.map_eq_some_iff.mp h.curve
  obtain ⟨member', hmember', hcurve'⟩ := Option.map_eq_some_iff.mp h'.curve
  rcases Nat.lt_trichotomy rank rank' with hlt | rfl | hgt
  · have hcurves := BoundGraph.curveOf_lt_of_rank hmember hmember' hlt
    omega
  · have hcurves := h.curve_eq h'
    omega
  · have hcurves := BoundGraph.curveOf_lt_of_rank hmember' hmember hgt
    omega

end IsBar

/-- Every point of a layout stands at the category of its value along an axis of categories, beside it by the offset
    of the bar of its instance, unless the values of the instance are summed up. -/
theorem exists_standsAt (h : ofBound styles b = .ok g) (hcategory : (d.side b.plan.x b.plan.y).isCategory = true)
    {p : PlotPoint Float} (hp : p ∈ g.points) : ∃ member i,
      (Instance.ofGraph b : List (Instance Float))[member]? = some i ∧ i.isShown = true ∧ p.curve = b.curveOf member
      ∧ (i.accumulates b.plan = false → (d.side g.x g.y).StandsAt (d.side p.rawX p.rawY)
        (AxisPlacement.barOffset (b.bars d) member) (d.side p.x p.y)) := by
  obtain ⟨hx, hy, -, hpoints⟩ := ofBound_eq_ok h
  rw [hpoints] at hp
  obtain ⟨⟨j, id⟩, hj, hp⟩ := List.mem_flatMap.mp hp
  obtain ⟨q, hq, rfl⟩ := List.mem_map.mp hp
  obtain ⟨member, hmember, hshown, hid⟩ := exists_member_of_shown (List.mem_zipIdx_iff_getElem?.mp hj)
  obtain ⟨i, hi, hbare, -⟩ := Instance.exists_placed_of_finished hmember
  have hisShown : i.isShown = j.isShown := (congrArg Instance.isShown hbare :)
  have hdirection : i.direction = j.direction := (congrArg Instance.direction hbare :)
  refine ⟨member, i, hi, hisShown.trans hshown, hid, fun hstill => ?_⟩
  -- The point has the coordinates of the placed one, which stands at its category.
  obtain ⟨placed, hplaced, houtline, hsame⟩ := exists_placed_point hi hmember hq
  have hstands := Instance.standsAt_placed hplaced
  have hcoordinates := coordinates_eq hdirection (congrArg (fun o => o.2.2.2) houtline) fun hvalue hstill =>
    congrArg PlacedPoint.value (hsame hvalue hstill)
  have hrawX : placed.rawX = q.rawX := congrArg (fun o => o.1) houtline
  have hrawY : placed.rawY = q.rawY := congrArg (fun o => o.2.1) houtline
  cases d with
  | byX =>
    have hplotted := hcoordinates.1 hcategory (.inr hstill)
    show g.x.StandsAt q.rawX (b.offsets member).1 (j.bucketSide q.bucket q.value)
    rw [hx, ← hrawX, ← hplotted]
    exact hstands.1 hcategory
  | byY =>
    have hplotted := hcoordinates.2 hcategory (.inr hstill)
    show g.y.StandsAt q.rawY (b.offsets member).2 (j.bucketSide q.value q.bucket)
    rw [hy, ← hrawY, ← hplotted]
    exact hstands.2 hcategory

/-- Every point of an instance that is drawn as bars is a bar of a group, and it is plotted at its position. -/
theorem exists_isBar (h : ofBound styles b = .ok g) (hcategory : (d.side b.plan.x b.plan.y).isCategory = true)
    (hstill : ∀ member ∈ b.bars d, ∀ i ∈ (Instance.ofGraph b : List (Instance Float))[member]?,
      i.accumulates b.plan = false) {rank member : Nat} (hrank : (b.bars d)[rank]? = some member)
    {p : PlotPoint Float} (hp : p ∈ g.points) (hcurve : p.curve = b.curveOf member) :
    ∃ t, g.IsBar b d rank t p ∧ d.side p.x p.y = Decimal.ofInteger (b.barPosition d rank t) := by
  have hmember := List.mem_of_getElem? hrank
  obtain ⟨i, hi, hshown⟩ := Instance.exists_of_mem_bars hmember
  obtain ⟨member', i', hi', hshown', hcurve', hstands⟩ := exists_standsAt h hcategory hp
  -- No two shown instances are one curve, so the point was placed for the member.
  obtain rfl : member = member' := BoundGraph.eq_of_curveOf hi hshown hi' hshown' (hcurve.symm.trans hcurve')
  obtain rfl : i = i' := Option.some.inj (hi.symm.trans hi')
  obtain ⟨t, ht, hplotted⟩ := hstands (hstill member hmember i hi)
  have hoffset : AxisPlacement.barOffset (b.bars d) member = (rank : Int) - (((b.bars d).length / 2 : Nat) : Int) :=
    AxisPlacement.barOffset_of_rank Instance.bars_pairwise_lt hrank
  refine ⟨t, ⟨hp, ?_, ht⟩, ?_⟩
  · rw [hrank, hcurve]
    rfl
  · rw [hplotted, hoffset, BoundGraph.barPosition]

/-- The ticks of a layout along an axis with grouped bars are farther apart than a group is wide. -/
theorem ticks_pairwise_ofBound (h : ofBound styles b = .ok g)
    (hcategory : (d.side b.plan.x b.plan.y).isCategory = true) (hbars : b.bars d ≠ []) :
    (d.side g.x g.y).ticks.Pairwise fun t t' =>
      t.position + (((b.bars d).length + groupPadding : Nat) : Int) ≤ t'.position := by
  obtain ⟨hx, hy, -, -⟩ := ofBound_eq_ok h
  cases d with
  | byX =>
    show g.x.ticks.Pairwise _
    rw [hx]
    exact AxisPlacement.ticks_pairwise_new hcategory hbars
  | byY =>
    show g.y.ticks.Pairwise _
    rw [hy]
    exact AxisPlacement.ticks_pairwise_new hcategory hbars

/-- Along an axis of categories with grouped bars whose values are not summed up, bars do not meet, stand in the
    order of their instances, one unit apart, and keep to their own categories. -/
theorem groupsBars_ofBound (h : ofBound styles b = .ok g)
    (hcategory : (d.side b.plan.x b.plan.y).isCategory = true) (hbars : b.bars d ≠ [])
    (hstill : ∀ member ∈ b.bars d, ∀ i ∈ (Instance.ofGraph b : List (Instance Float))[member]?,
      i.accumulates b.plan = false) : g.GroupsBars b d := by
  have hticks := ticks_pairwise_ofBound h hcategory hbars
  have hgap : ∀ {t t' : Tick}, t ∈ (d.side g.x g.y).ticks → t' ∈ (d.side g.x g.y).ticks → t ≠ t' →
      (b.bars d).length + groupPadding ≤ (t.position - t'.position).natAbs := fun ht ht' => Tick.gap_of_ne hticks ht ht'
  -- What is left are inequalities of whole numbers: ranks are below the size of a group, ticks more than it apart.
  constructor
  case plotted => exact fun rank member hrank p hp hcurve => exists_isBar h hcategory hstill hrank hp hcurve
  case distinct =>
    intro rank t p hp rank' t' p' hp' hother heq
    have hrank := hp.rank_lt
    have hrank' := hp'.rank_lt
    unfold BoundGraph.barPosition at heq
    by_cases ht : t = t'
    · -- Two bars of one group at one position have the same rank.
      subst ht
      obtain rfl : rank = rank' := by omega
      rcases hother with hcurve | hlabel
      · exact hcurve (hp.curve_eq hp')
      · exact hlabel (hp.label_eq.symm.trans hp'.label_eq)
    · -- Bars of two groups are apart by the gap, less what they stand apart in their groups.
      have hfar := hgap hp.mem_ticks hp'.mem_ticks ht
      omega
  case inOrder =>
    intro rank t p hp rank' p' hp'
    refine ⟨hp.curve_lt_iff hp', ?_⟩
    unfold BoundGraph.barPosition
    omega
  case ticks =>
    have hpositive := List.length_pos_of_ne_nil hbars
    exact hticks.imp fun hlt => by omega
  case earlier =>
    intro rank t p hp rank' t' p' hp' hlt
    have hrank := hp.rank_lt
    have hfar := hgap hp.mem_ticks hp'.mem_ticks fun heq => hlt.ne (congrArg Tick.position heq)
    unfold BoundGraph.barPosition
    omega
  case nearest =>
    intro rank t p hp t' ht' hne
    have hrank := hp.rank_lt
    have hfar := hgap hp.mem_ticks ht' hne.symm
    -- An even group reaches half its width; the padding keeps the first bar off the middle between two ticks.
    unfold groupPadding at hfar
    unfold BoundGraph.barPosition
    omega

end GraphLayout

/-- Bars along the y axis: three of them grouped, a hidden one between them, and a curve that is no bar. -/
def sampleGroups : BoundGraph :=
  let bar := { CurveOptions.none with hbar := true }
  .ofCurves .linear .category { GraphOptions.none with yoffset := true }
    [.ofPairs 0 bar [(.number 1.0, .text "read"), (.number 2.0, .text "write")],
      .ofPairs 1 { bar with skip := true } [(.number 3.0, .text "read")],
      .ofPairs 2 bar [(.number 4.0, .text "read"), (.number 5.0, .text "write")],
      .ofPairs 3 .none [(.number 6.0, .text "write")],
      .ofPairs 4 bar [(.number 7.0, .text "write")]]

theorem groupsBars_sample : ∃ g : GraphLayout Float, GraphLayout.ofBound .empty sampleGroups = .ok g
    ∧ sampleGroups.plan.y.isCategory = true ∧ sampleGroups.bars .byY = [0, 2, 4]
    ∧ (∀ member ∈ sampleGroups.bars .byY, ∀ i ∈ (Instance.ofGraph sampleGroups : List (Instance Float))[member]?,
      i.accumulates sampleGroups.plan = false)
    ∧ g.points.map (fun p => (p.curve, p.rawY.display, p.y)) = [(0, "read", 6.0), (0, "write", 13.0),
      (1, "read", 7.0), (1, "write", 14.0), (2, "write", 14.0), (3, "write", 15.0)]
    ∧ g.GroupsBars sampleGroups .byY := by
  have hrun : (GraphLayout.ofBound (α := Float) .empty sampleGroups).toOption.map (fun g =>
      g.points.map fun p => (p.curve, p.rawY.display, p.y))
      = some [(0, "read", 6.0), (0, "write", 13.0), (1, "read", 7.0), (1, "write", 14.0), (2, "write", 14.0),
        (3, "write", 15.0)] := by
    decide +kernel
  have hbars : sampleGroups.bars .byY = [0, 2, 4] := by decide +kernel
  have hstill : ∀ member ∈ sampleGroups.bars .byY,
      ∀ i ∈ (Instance.ofGraph sampleGroups : List (Instance Float))[member]?,
        i.accumulates sampleGroups.plan = false := by
    decide +kernel
  have hsome : sampleGroups.bars .byY ≠ [] := by
    rw [hbars]
    decide
  obtain ⟨g, hg, hpoints⟩ := exists_eq_ok hrun
  exact ⟨g, hg, rfl, hbars, hstill, hpoints, GraphLayout.groupsBars_ofBound hg rfl hsome hstill⟩

end BenchPlot
