import BenchPlot.Proofs.Layout.Drawing

/-!
# Laying out a part of the instances

Along two axes of numbers an instance is placed without regard to the others. So the passes can be made over a
part of the instances, and give what they give over all of them: at each place where nothing outside the part
raises a stack, in each bench whose divisors come from the part.

Main statements: `Instance.forall₂_alike_stackFrom` and `Instance.forall₂_alike_finished`.
-/

namespace BenchPlot

variable {α : Type}

/-! ## §1 Axes of numbers -/

namespace AxisPlacement

/-- An axis without categories. -/
def ofNumbers (plan : AxisPlan) : AxisPlacement :=
  ⟨plan, [], 1, []⟩

theorem new_of_numbers {plan : AxisPlan} (h : plan.isCategory = false) (observed : List Value) (bars : List Nat) :
    new plan observed bars = ofNumbers plan := by
  rw [new, h, if_neg Bool.false_ne_true]
  rfl

/-- Along an axis of numbers all instances are placed alike. -/
theorem place?_ofNumbers [Coordinate α] {plan : AxisPlan} (h : plan.isCategory = false) (m n : Nat)
    (v : Reduced α) : (ofNumbers plan).place? m v = (ofNumbers plan).place? n v := by
  have hplan : (ofNumbers plan).plan.isCategory = false := h
  rw [place?, place?, hplan, if_neg Bool.false_ne_true, if_neg Bool.false_ne_true]

end AxisPlacement

namespace Instance

variable [Coordinate α] {g : GraphPlan}

theorem axes_of_numbers (hx : g.x.isCategory = false) (hy : g.y.isCategory = false) (instances : List (Instance α)) :
    axes g instances = (.ofNumbers g.x, .ofNumbers g.y) :=
  Prod.ext (AxisPlacement.new_of_numbers hx ..) (AxisPlacement.new_of_numbers hy ..)

/-- An instance of a graph, placed along axes of numbers. -/
def placedAlong (g : GraphPlan) (i : Instance α) : Instance α :=
  i.placed (.ofNumbers g.x) (.ofNumbers g.y) 0

theorem placed_of_numbers (hx : g.x.isCategory = false) (hy : g.y.isCategory = false) (member : Nat)
    (i : Instance α) : i.placed (.ofNumbers g.x) (.ofNumbers g.y) member = i.placedAlong g := by
  have hplace : ∀ c : Value × Triple (Reduced α),
      placePoint? (i.bucketSide (.ofNumbers g.x) (.ofNumbers g.y)) (i.valueSide (.ofNumbers g.x) (.ofNumbers g.y))
          i.direction member c
        = placePoint? (i.bucketSide (.ofNumbers g.x) (.ofNumbers g.y))
            (i.valueSide (.ofNumbers g.x) (.ofNumbers g.y)) i.direction 0 c := by
    -- The number decides about the offset from a category only.
    intro c
    unfold placePoint? valueSide bucketSide
    cases i.direction with
    | byX =>
      dsimp only
      rw [AxisPlacement.place?_ofNumbers hx member 0, AxisPlacement.place?_ofNumbers hy member 0]
    | byY =>
      dsimp only
      rw [AxisPlacement.place?_ofNumbers hx member 0, AxisPlacement.place?_ofNumbers hy member 0]
  rw [placedAlong, placed, placed, funext hplace]

theorem placeAll_of_numbers (hx : g.x.isCategory = false) (hy : g.y.isCategory = false)
    (instances : List (Instance α)) :
    placeAll (.ofNumbers g.x) (.ofNumbers g.y) instances = instances.map (placedAlong g) := by
  refine List.ext_getElem? fun member => ?_
  rw [getElem?_placeAll, List.getElem?_map, funext (placed_of_numbers hx hy member)]

/-! ## §2 Instances before they are stacked -/

/-- The base curve of a bench: the first instance of its first base curve. -/
def base? (instances : List (Instance α)) (bench : Nat) : Option (Instance α) :=
  instances.find? fun i => i.bench == bench && i.curve.options.base && i.first

/-- The divisors that the base curve of a bench has along axes of numbers. -/
def divisorsAlong? (g : GraphPlan) (instances : List (Instance α)) (bench : Nat) : Option (AxisMap α) :=
  (base? instances bench).map fun i => firstValues (i.placedAlong g).points

theorem divisors?_map_placedAlong (instances : List (Instance α)) (bench : Nat) :
    divisors? (instances.map (placedAlong g)) bench = divisorsAlong? g instances bench := by
  rw [divisors?, List.find?_map, Option.map_map]
  rfl

/-- An instance, placed along axes of numbers, normalized by some divisors and accumulated. -/
def summed (g : GraphPlan) (divisors : Option (AxisMap α)) (i : Instance α) : Instance α :=
  accumulated (.ofNumbers g.x) (.ofNumbers g.y)
    (if g.options.normalize then (i.placedAlong g).divided g divisors else i.placedAlong g)

/-- The instances of a graph before they are stacked. Each stands for itself but for the divisors of its bench. -/
def summedAll (g : GraphPlan) (instances : List (Instance α)) : List (Instance α) :=
  instances.map fun i => i.summed g (divisorsAlong? g instances i.bench)

theorem finished_of_numbers (hx : g.x.isCategory = false) (hy : g.y.isCategory = false)
    (instances : List (Instance α)) : finished g instances
      = if g.options.stack then stackFrom (.ofNumbers g.x) (.ofNumbers g.y) [] (summedAll g instances)
        else summedAll g instances := by
  have hsummed : accumulate (.ofNumbers g.x) (.ofNumbers g.y)
      (if g.options.normalize then normalize g (instances.map (placedAlong g)) else instances.map (placedAlong g))
      = summedAll g instances := by
    unfold summedAll summed
    split
    · rw [normalize_eq_map, accumulate_eq_map, List.map_map, List.map_map]
      refine List.map_congr_left fun i _ => ?_
      rw [Function.comp_apply, Function.comp_apply, divisors?_map_placedAlong]
      rfl
    · rw [accumulate_eq_map, List.map_map]
      rfl
  unfold finished
  rw [axes_of_numbers hx hy]
  dsimp only
  rw [placeAll_of_numbers hx hy, hsummed]
  rfl

theorem outline_summed (divisors : Option (AxisMap α)) (i : Instance α) :
    (i.summed g divisors).outline = (i.placedAlong g).outline := by
  unfold summed
  rw [outline_accumulated]
  split
  · exact outline_divided ..
  · rfl

theorem bare_summed (divisors : Option (AxisMap α)) (i : Instance α) : (i.summed g divisors).bare = i.bare :=
  congrArg Prod.fst (outline_summed divisors i)

end Instance

/-! ## §3 Instances that are alike -/

/-- The place where a point of a bench is stacked. -/
def PlacedPoint.place (bench : Nat) (p : PlacedPoint α) : Nat × Int :=
  (bench, Decimal.orderKey p.bucket)

theorem PlacedPoint.place_eq_of_outline {p q : PlacedPoint α} (h : p.outline = q.outline) (bench : Nat) :
    p.place bench = q.place bench :=
  congrArg (fun o : Value × Value × Value × Float => (bench, Decimal.orderKey o.2.2.2)) h

/-- Two points of a bench with the same outline, and the same value and bounds if they are at one of the places
    `own`. -/
def PlacedPoint.Alike (own : Nat × Int → Prop) (bench : Nat) (p q : PlacedPoint α) : Prop :=
  p.outline = q.outline ∧ (own (p.place bench) → p = q)

namespace Instance

/-- Two instances that differ at most in the values and bounds of points that are at none of the places `own`. -/
structure Alike (own : Nat × Int → Prop) (i j : Instance α) : Prop where
  bare : i.bare = j.bare
  points : List.Forall₂ (PlacedPoint.Alike own i.bench) i.points j.points

/-- Instances with the same outline are alike if they are the same where their bench has one of the places. -/
theorem Alike.of_outline {own : Nat × Int → Prop} {i j : Instance α} (h : i.outline = j.outline)
    (hown : (∃ key, own (i.bench, key)) → i = j) : Alike own i j where
  bare := congrArg Prod.fst h
  points := by
    by_cases hbench : ∃ key, own (i.bench, key)
    · rw [← hown hbench]
      exact List.forall₂_same.mpr fun p _ => ⟨rfl, fun _ => rfl⟩
    · have hmapped : List.Forall₂ Eq (i.points.map PlacedPoint.outline) (j.points.map PlacedPoint.outline) :=
        List.forall₂_eq_eq_eq ▸ congrArg Prod.snd h
      have houtlines : List.Forall₂ (fun p q => p.outline = q.outline) i.points j.points :=
        List.forall₂_map_right_iff.mp (List.forall₂_map_left_iff.mp hmapped)
      exact houtlines.imp fun p q hpq => ⟨hpq, fun hplace => absurd ⟨_, hplace⟩ hbench⟩

/-- Instances that are alike at all places of their bench are the same. -/
theorem Alike.eq {own : Nat × Int → Prop} {i j : Instance α} (h : Alike own i j) (hown : ∀ key, own (i.bench, key)) :
    i = j := by
  have hpoints : i.points = j.points := List.forall₂_eq_eq_eq ▸ h.points.imp fun _ _ hpq => hpq.2 (hown _)
  calc i = { i.bare with points := i.points } := rfl
    _ = { j.bare with points := j.points } := by rw [h.bare, hpoints]
    _ = j := rfl

/-! ## §4 Stacking a part -/

variable {own : Nat × Int → Prop} {heights heights' : Heights α}

/-- Two stacks with the same heights at all places `own`. -/
def SameHeights (own : Nat × Int → Prop) (heights heights' : Heights α) : Prop :=
  ∀ place, own place → heights.lookup place = heights'.lookup place

/-- A point that is at none of the places `own` raises no stack there. -/
theorem SameHeights.cons_left (h : SameHeights own heights heights') {place : Nat × Int} (hplace : ¬own place)
    (value : α) : SameHeights own ((place, value) :: heights) heights' := by
  intro place' hown
  have hne : (place' == place) = false := beq_eq_false_iff_ne.mpr fun heq => hplace (heq ▸ hown)
  rw [List.lookup_cons, hne]
  exact h place' hown

/-- Points at the same place raise the stacks alike if they have the same value where the place is one of `own`. -/
theorem SameHeights.cons (h : SameHeights own heights heights') {place : Nat × Int} {value value' : α}
    (hvalue : own place → value = value') :
    SameHeights own ((place, value) :: heights) ((place, value') :: heights') := by
  intro place' hown
  rw [List.lookup_cons, List.lookup_cons]
  cases heq : place' == place with
  | true => exact congrArg some (hvalue (eq_of_beq heq ▸ hown))
  | false => exact h place' hown

variable [Coordinate α]

/-- A point of a bench on top of the stacks. -/
def onTop (bench : Nat) (heights : Heights α) (p : PlacedPoint α) : PlacedPoint α :=
  p.shift ((heights.lookup (p.place bench)).getD (Arithmetic.ofNatural 0))

theorem stackPoints_cons (bench : Nat) (heights : Heights α) (p : PlacedPoint α) (rest : List (PlacedPoint α)) :
    stackPoints bench heights (p :: rest)
      = (onTop bench heights p
          :: (stackPoints bench ((p.place bench, (onTop bench heights p).value) :: heights) rest).1,
        (stackPoints bench ((p.place bench, (onTop bench heights p).value) :: heights) rest).2) :=
  rfl

/-- Points that are alike are alike on top of the stacks, and the stacks with them have the same heights. -/
theorem forall₂_alike_stackPoints {bench : Nat} {points points' : List (PlacedPoint α)}
    (hpoints : List.Forall₂ (PlacedPoint.Alike own bench) points points')
    (hheights : SameHeights own heights heights') :
    List.Forall₂ (PlacedPoint.Alike own bench) (stackPoints bench heights points).1
        (stackPoints bench heights' points').1
      ∧ SameHeights own (stackPoints bench heights points).2 (stackPoints bench heights' points').2 := by
  induction hpoints generalizing heights heights' with
  | nil => exact ⟨.nil, hheights⟩
  | @cons p q points points' hpq _ ih =>
    have hplace : p.place bench = q.place bench := PlacedPoint.place_eq_of_outline hpq.1 bench
    -- Elsewhere the two may come to different heights, which are looked up there only.
    have hraised : own (p.place bench) → onTop bench heights p = onTop bench heights' q := by
      intro hown
      rw [onTop, onTop, hpq.2 hown, ← hplace, hheights _ hown]
    rw [stackPoints_cons, stackPoints_cons, ← hplace]
    obtain ⟨hrest, hend⟩ := ih (hheights.cons fun hown => congrArg PlacedPoint.value (hraised hown))
    exact ⟨.cons ⟨hpq.1, hraised⟩ hrest, hend⟩

/-- Points that are at none of the places `own` leave the heights there. -/
theorem SameHeights.stackPoints_left {bench : Nat} {points : List (PlacedPoint α)}
    (h : SameHeights own heights heights') (hpoints : ∀ p ∈ points, ¬own (p.place bench)) :
    SameHeights own (stackPoints bench heights points).2 heights' := by
  induction points generalizing heights with
  | nil => exact h
  | cons p rest ih =>
    obtain ⟨hp, hrest⟩ := List.forall_mem_cons.mp hpoints
    rw [stackPoints_cons]
    exact ih (h.cons_left hp _) hrest

/-- Instances that are alike are alike on top of the stacks. -/
theorem Alike.raised {x y : AxisPlacement} {i j : Instance α} (hij : Alike own i j)
    (hheights : SameHeights own heights heights') :
    Alike own (i.raised x y heights).1 (j.raised x y heights').1
      ∧ SameHeights own (i.raised x y heights).2 (j.raised x y heights').2 := by
  have hasked : (i.isStacked && !(i.valueSide x y).plan.isCategory)
      = (j.isStacked && !(j.valueSide x y).plan.isCategory) :=
    (congrArg (fun i : Instance α => i.isStacked && !(i.valueSide x y).plan.isCategory) hij.bare :)
  have hbench : i.bench = j.bench := (congrArg bench hij.bare :)
  have hstacked : List.Forall₂ (PlacedPoint.Alike own i.bench) (stackPoints i.bench heights i.points).1
        (stackPoints j.bench heights' j.points).1
      ∧ SameHeights own (stackPoints i.bench heights i.points).2 (stackPoints j.bench heights' j.points).2 := by
    rw [← hbench]
    exact forall₂_alike_stackPoints hij.points hheights
  unfold Instance.raised
  rw [← hasked]
  split
  · exact ⟨⟨hij.bare, hstacked.1⟩, hstacked.2⟩
  · exact ⟨hij, hheights⟩

/-- An instance that is stacked at none of the places `own` leaves the heights there. -/
theorem SameHeights.raised_left {x y : AxisPlacement} {i : Instance α} (h : SameHeights own heights heights')
    (hi : i.isStacked = true → ∀ p ∈ i.points, ¬own (p.place i.bench)) :
    SameHeights own (i.raised x y heights).2 heights' := by
  unfold Instance.raised
  split
  · rename_i hasked
    exact h.stackPoints_left (hi (Bool.and_eq_true_iff.mp hasked).1)
  · exact h

/-- Stacking all instances and stacking those of a part gives alike instances of the part, if the points of the
    others that are stacked are at none of the places `own`. -/
theorem forall₂_alike_stackFrom {x y : AxisPlacement} {keep : Instance α → Bool}
    (hkeep : ∀ i, keep i.bare = keep i) {instances part : List (Instance α)}
    (hpart : List.Forall₂ (Alike own) (instances.filter keep) part) (hheights : SameHeights own heights heights')
    (hothers : ∀ i ∈ instances, keep i = false → i.isStacked = true → ∀ p ∈ i.points, ¬own (p.place i.bench)) :
    List.Forall₂ (Alike own) ((stackFrom x y heights instances).filter keep) (stackFrom x y heights' part) := by
  -- Along all instances; between two of them the stacks have the same heights at the places `own`.
  induction instances generalizing part heights heights' with
  | nil =>
    cases hpart
    exact .nil
  | cons i rest ih =>
    obtain ⟨hi, hrest⟩ := List.forall_mem_cons.mp hothers
    have hkept : keep (i.raised x y heights).1 = keep i := by
      rw [← hkeep, bare_raised, hkeep]
    rw [stackFrom_cons, List.filter_cons, hkept]
    rw [List.filter_cons] at hpart
    cases hkeeps : keep i with
    | true =>
      rw [hkeeps, if_pos rfl] at hpart
      cases hpart with
      | cons hij hpart =>
        obtain ⟨hraised, hend⟩ := hij.raised hheights
        rw [if_pos rfl, stackFrom_cons]
        exact .cons hraised (ih hpart hend hrest)
    | false =>
      rw [hkeeps, if_neg Bool.false_ne_true] at hpart
      rw [if_neg Bool.false_ne_true]
      exact ih hpart (hheights.raised_left (hi hkeeps)) hrest

/-! ## §5 Finishing a part -/

variable {g : GraphPlan} {keep : Instance α → Bool} {instances : List (Instance α)}

/-- A part that keeps the first element with a property finds it. -/
theorem find?_filter_of_keeps {β : Type} {keep found : β → Bool} {l : List β}
    (h : ∀ a, l.find? found = some a → keep a = true) : (l.filter keep).find? found = l.find? found := by
  induction l with
  | nil => rfl
  | cons a rest ih =>
    rw [List.filter_cons]
    cases ha : found a with
    | true =>
      rw [List.find?_cons_of_pos ha] at h ⊢
      rw [h a rfl, if_pos rfl, List.find?_cons_of_pos ha]
    | false =>
      rw [List.find?_cons_of_neg (ne_true_of_eq_false ha)] at h ⊢
      split
      · rw [List.find?_cons_of_neg (ne_true_of_eq_false ha), ih h]
      · exact ih h

/-- A part that has the base curve of a bench has its divisors. -/
theorem divisorsAlong?_filter {bench : Nat} (h : ∀ i, base? instances bench = some i → keep i = true) :
    divisorsAlong? g (instances.filter keep) bench = divisorsAlong? g instances bench := by
  have hbase : base? (instances.filter keep) bench = base? instances bench := find?_filter_of_keeps h
  rw [divisorsAlong?, hbase]
  rfl

/-- Instances that are summed up by themselves are alike if their benches with one of the places `own` have the
    same divisors. -/
theorem forall₂_alike_summed (hkeep : ∀ i, keep i.bare = keep i)
    (hbase : g.options.normalize = true → ∀ bench key, own (bench, key) →
      ∀ i, base? instances bench = some i → keep i = true) :
    List.Forall₂ (Alike own) ((summedAll g instances).filter keep) (summedAll g (instances.filter keep)) := by
  have hkept : ∀ i : Instance α, keep (i.summed g (divisorsAlong? g instances i.bench)) = keep i := by
    intro i
    rw [← hkeep, bare_summed, hkeep]
  rw [summedAll, summedAll, List.filter_map, List.forall₂_map_left_iff, List.forall₂_map_right_iff]
  have hfilter : instances.filter (keep ∘ fun i => i.summed g (divisorsAlong? g instances i.bench))
      = instances.filter keep := congrArg (instances.filter ·) (funext hkept)
  rw [hfilter, List.forall₂_same]
  intro i _
  refine .of_outline ((outline_summed ..).trans (outline_summed ..).symm) ?_
  -- Accumulating carries a value along the whole instance, so all of it has to be the same, at whatever place.
  rintro ⟨key, hown⟩
  have hbench : (i.summed g (divisorsAlong? g instances i.bench)).bench = i.bench :=
    (congrArg bench (bare_summed (divisorsAlong? g instances i.bench) i) :)
  rw [hbench] at hown
  cases hnormalize : g.options.normalize with
  | false => rw [summed, summed, hnormalize, if_neg Bool.false_ne_true, if_neg Bool.false_ne_true]
  | true => rw [divisorsAlong?_filter (hbase hnormalize i.bench key hown)]

/-- What is laid out of a part is alike to what is laid out of it with the others, at all places `own` such that
    the bench has its base curve in the part and none of the others is stacked there. -/
theorem forall₂_alike_finished (hx : g.x.isCategory = false) (hy : g.y.isCategory = false)
    (hkeep : ∀ i, keep i.bare = keep i)
    (hbase : g.options.normalize = true → ∀ bench key, own (bench, key) →
      ∀ i, base? instances bench = some i → keep i = true)
    (hothers : g.options.stack = true → ∀ i ∈ finished g instances, keep i = false → i.isStacked = true →
      ∀ p ∈ i.points, ¬own (p.place i.bench)) :
    List.Forall₂ (Alike own) ((finished g instances).filter keep) (finished g (instances.filter keep)) := by
  have hsummed := forall₂_alike_summed hkeep hbase
  rw [finished_of_numbers hx hy] at hothers ⊢
  rw [finished_of_numbers hx hy]
  cases hstack : g.options.stack with
  | false => exact hsummed
  | true =>
    rw [hstack, if_pos rfl] at hothers
    refine forall₂_alike_stackFrom hkeep hsummed (fun _ _ => rfl) fun i hi hdropped hstacked p hp => ?_
    -- Stacking moves no point to another place, so `p` is where a stacked point is.
    obtain ⟨j, hj, hbare, q, hq, hqp⟩ := exists_of_map_outline_eq (map_outline_stackFrom ..) hi hp
    have hbench : j.bench = i.bench := (congrArg bench hbare :)
    have hstackedJ : j.isStacked = i.isStacked := (congrArg isStacked hbare :)
    have hkeptJ : keep j = keep i := by rw [← hkeep, hbare, hkeep]
    rw [← PlacedPoint.place_eq_of_outline hqp, ← hbench]
    exact hothers rfl j hj (hkeptJ.trans hdropped) (hstackedJ.trans hstacked) q hq

end Instance

end BenchPlot
