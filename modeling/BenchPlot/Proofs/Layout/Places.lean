import BenchPlot.Layout.Instance
import BenchPlot.Proofs.SortedMap
import BenchPlot.Proofs.Value.AxisOrder
import Mathlib.Data.List.Induction

/-!
# Which values have a place along an axis

An axis of categories has a category for each text that its plan lists and for the text of the last value that
was observed at each position; the other texts have none. So two values at one position with different texts,
such as `1` and `1.0`, share the category of the later one, and the earlier one has no place. On every other
axis the numbers have a place, on a logarithmic one unless they are not positive.

Main statements: `AxisPlacement.isSome_place?`, `AxisPlan.exists_rival` and `AxisPlacement.offset_new`.
-/

namespace BenchPlot

/-! ## §1 Labels of observed values -/

/-- The observed values behind which no other one is observed at the same position. -/
def lastAtPlaces : List Value → List Value
  | [] => []
  | v :: rest =>
    if rest.any fun w => w.axisPlace == v.axisPlace then lastAtPlaces rest else v :: lastAtPlaces rest

theorem mem_of_mem_lastAtPlaces {values : List Value} {v : Value} (h : v ∈ lastAtPlaces values) : v ∈ values := by
  induction values with
  | nil => exact h
  | cons w rest ih =>
    unfold lastAtPlaces at h
    split at h
    · exact List.mem_cons_of_mem _ (ih h)
    · exact List.mem_cons.mpr ((List.mem_cons.mp h).imp_right ih)

/-- At each position at which values were observed, there is a last one. -/
theorem exists_lastAtPlaces {values : List Value} {v : Value} (h : v ∈ values) :
    ∃ w ∈ lastAtPlaces values, w.axisPlace = v.axisPlace := by
  induction values generalizing v with
  | nil => cases h
  | cons u rest ih =>
    unfold lastAtPlaces
    split
    · rename_i hlater
      rcases List.mem_cons.mp h with rfl | h
      · obtain ⟨w, hw, hplace⟩ := List.any_eq_true.mp hlater
        obtain ⟨last, hlast, heq⟩ := ih hw
        exact ⟨last, hlast, heq.trans (beq_iff_eq.mp hplace)⟩
      · exact ih h
    · rcases List.mem_cons.mp h with rfl | h
      · exact ⟨_, List.mem_cons_self .., rfl⟩
      · obtain ⟨last, hlast, heq⟩ := ih h
        exact ⟨last, List.mem_cons_of_mem _ hlast, heq⟩

/-- The last values stand at different positions. -/
theorem lastAtPlaces_pairwise (values : List Value) :
    (lastAtPlaces values).Pairwise fun v w => v.axisPlace ≠ w.axisPlace := by
  induction values with
  | nil => exact .nil
  | cons u rest ih =>
    unfold lastAtPlaces
    split
    · exact ih
    · rename_i hnone
      refine List.pairwise_cons.mpr ⟨fun w hw hplace => hnone ?_, ih⟩
      exact List.any_eq_true.mpr ⟨w, mem_of_mem_lastAtPlaces hw, beq_iff_eq.mpr hplace.symm⟩

/-- A further value takes the place of the last one at its position. -/
theorem lastAtPlaces_concat (values : List Value) (v : Value) :
    lastAtPlaces (values ++ [v]) = (lastAtPlaces values).filter (fun w => !(w.axisPlace == v.axisPlace)) ++ [v] := by
  induction values with
  | nil => rfl
  | cons u rest ih =>
    rw [List.cons_append]
    unfold lastAtPlaces
    rw [List.any_append, ih]
    cases hlater : rest.any fun w => w.axisPlace == u.axisPlace with
    | true => simp
    | false =>
      cases hv : u.axisPlace == v.axisPlace with
      | true => simp [beq_iff_eq.mp hv]
      | false =>
        have hne : (v.axisPlace == u.axisPlace) = false := by
          rw [BEq.comm]
          exact hv
        simp [hv, hne]

namespace AxisPlacement

/-- At each position stands the text of the last value that was observed there. -/
theorem find?_observed (values : List Value) (k : AxisKey) :
    (values.foldl (fun (m : AxisMap String) v => m.insert ⟨v⟩ v.display) ∅).find? k
      = ((lastAtPlaces values).find? fun v => v.axisPlace == k.place).map Value.display := by
  induction values using List.reverseRecOn with
  | nil => rfl
  | append_singleton values v ih =>
    rw [List.foldl_append, List.foldl_cons, List.foldl_nil, SortedMap.find?_insert, ih, lastAtPlaces_concat,
      List.find?_append, List.find?_filter]
    by_cases hplace : k.place = v.axisPlace
    · -- No earlier value is the last one at the position of `v`.
      have hnone : ∀ w : Value, decide ((!(w.axisPlace == v.axisPlace)) = true ∧ (w.axisPlace == k.place) = true)
          = false := by
        intro w
        rw [hplace]
        cases w.axisPlace == v.axisPlace <;> rfl
      rw [if_pos (AxisKey.compare_eq_iff.2 hplace), funext hnone,
        List.find?_eq_none.mpr fun _ _ => Bool.false_ne_true, Option.none_or]
      simp [hplace]
    · have hsame : ∀ w : Value, decide ((!(w.axisPlace == v.axisPlace)) = true ∧ (w.axisPlace == k.place) = true)
          = (w.axisPlace == k.place) := by
        intro w
        by_cases hw : w.axisPlace = k.place <;> simp [hw, hplace]
      rw [if_neg fun heq => hplace (AxisKey.compare_eq_iff.1 heq), funext hsame]
      simp [Ne.symm hplace]

/-- The labels of observed values are the texts of the last ones at their positions. -/
theorem mem_observedLabels {values : List Value} {label : String} :
    label ∈ observedLabels values ↔ ∃ v ∈ lastAtPlaces values, v.display = label := by
  have hsorted : (values.foldl (fun (m : AxisMap String) v => m.insert ⟨v⟩ v.display) ∅).Sorted := by
    have hentries : values.foldl (fun (m : AxisMap String) v => m.insert ⟨v⟩ v.display) ∅
        = (values.map fun v => ((⟨v⟩ : AxisKey), v.display)).foldl (fun m entry => m.insert entry.1 entry.2) ∅ := by
      rw [List.foldl_map]
    rw [hentries]
    exact SortedMap.sorted_empty.foldl_insert _
  rw [observedLabels, hsorted.mem_values_iff]
  constructor
  · rintro ⟨k, hk⟩
    rw [find?_observed] at hk
    obtain ⟨v, hfound, hlabel⟩ := Option.map_eq_some_iff.mp hk
    exact ⟨v, List.mem_of_find?_eq_some hfound, hlabel⟩
  · rintro ⟨v, hv, rfl⟩
    obtain ⟨before, after, hsplit⟩ := List.append_of_mem hv
    have hother : before.find? (fun w => w.axisPlace == v.axisPlace) = none := by
      refine List.find?_eq_none.mpr fun w hw => ?_
      have hpairwise := lastAtPlaces_pairwise values
      rw [hsplit] at hpairwise
      have hne := (List.pairwise_append.mp hpairwise).2.2 w hw v (List.mem_cons_self ..)
      simpa using hne
    refine ⟨⟨v⟩, ?_⟩
    rw [find?_observed, hsplit, List.find?_append]
    show ((before.find? fun w => w.axisPlace == v.axisPlace).or _).map Value.display = some v.display
    rw [hother, Option.none_or, List.find?_cons_of_pos (by exact beq_self_eq_true v.axisPlace)]
    rfl

theorem mem_addLabels {categories labels : List String} {label : String} :
    label ∈ addLabels categories labels ↔ label ∈ categories ∨ label ∈ labels := by
  unfold addLabels
  induction labels generalizing categories with
  | nil => simp
  | cons l rest ih =>
    rw [List.foldl_cons, ih, List.mem_cons]
    split
    · rename_i hpresent
      rw [List.contains_iff_mem] at hpresent
      constructor
      · exact fun h => h.imp_right .inr
      · rintro (h | rfl | h)
        · exact .inl h
        · exact .inl hpresent
        · exact .inr h
    · rw [List.mem_append, List.mem_singleton]
      exact or_assoc

end AxisPlacement

/-! ## §2 Places -/

/-- Whether a value has a place along an axis on which the values `observed` occur. -/
def AxisPlan.hasPlace (a : AxisPlan) (observed : List Value) (v : Value) : Bool :=
  if a.isCategory then
    a.categories.contains v.display || (lastAtPlaces observed).any fun w => w.display == v.display
  else
    match v.toNumber? with
    | none => false
    | some x => !(a.scale.scaleKind == .log && decide (x ≤ 0.0))

/-- An observed value has a place along an axis of categories unless another observed value at its position has
    another text. -/
theorem AxisPlan.exists_rival {a : AxisPlan} {observed : List Value} {v : Value} (ha : a.isCategory = true)
    (hv : v ∈ observed) (h : a.hasPlace observed v = false) :
    ∃ w ∈ observed, w.axisPlace = v.axisPlace ∧ w.display ≠ v.display := by
  obtain ⟨w, hw, hplace⟩ := exists_lastAtPlaces hv
  refine ⟨w, mem_of_mem_lastAtPlaces hw, hplace, fun htext => ?_⟩
  have hlabel : ((lastAtPlaces observed).any fun w => w.display == v.display) = true :=
    List.any_eq_true.mpr ⟨w, hw, beq_iff_eq.mpr htext⟩
  rw [hasPlace, if_pos ha, hlabel, Bool.or_true] at h
  cases h

namespace AxisPlacement

variable {plan : AxisPlan} {observed : List Value} {bars : List Nat}

@[simp]
theorem plan_new : (new plan observed bars).plan = plan := by
  unfold new
  split <;> rfl

theorem categories_new (h : plan.isCategory = true) :
    (new plan observed bars).categories = addLabels plan.categories (observedLabels observed) := by
  rw [new, if_pos h]

/-- The categories of an axis are the texts that have a place along it. -/
theorem mem_categories_new (h : plan.isCategory = true) {v : Value} :
    v.display ∈ (new plan observed bars).categories ↔ plan.hasPlace observed v = true := by
  rw [categories_new h, mem_addLabels, mem_observedLabels, AxisPlan.hasPlace, if_pos h, Bool.or_eq_true,
    List.contains_iff_mem, List.any_eq_true]
  simp

theorem isSome_position? (a : AxisPlacement) (member : Nat) (label : String) :
    (a.position? member label).isSome = true ↔ label ∈ a.categories := by
  rw [position?, Option.isSome_map, List.findIdx?_isSome, List.any_eq_true]
  simp

/-- The number that a reduced value is, is that of its value. -/
theorem toNumber?_toValue (v : Reduced Float) : v.toNumber? = v.toValue.toNumber? := by
  cases v with
  | given v => exact Option.map_id' ..
  | computed x => rfl

/-- A reduced value is placed iff its value has a place. -/
theorem isSome_place? (member : Nat) (v : Reduced Float) :
    ((new plan observed bars).place? member v).isSome = plan.hasPlace observed v.toValue := by
  rw [Bool.eq_iff_iff]
  unfold place?
  rw [plan_new]
  cases h : plan.isCategory with
  | true =>
    rw [if_pos rfl, Option.isSome_map, isSome_position?, mem_categories_new h]
  | false =>
    rw [if_neg Bool.false_ne_true, AxisPlan.hasPlace, h, if_neg Bool.false_ne_true, toNumber?_toValue]
    cases v.toValue.toNumber? with
    | none => simp
    | some x => simp [leavesOut, Option.filter, Coordinate.isNonPositive]

/-! ## §3 Positions -/

/-- Where a pass over the numbered elements of a list finds the first one that is `a`. -/
theorem find?_numbered {β : Type} [BEq β] (a : β) (f : Nat → Int) (l : List β) (start : Nat) :
    (((l.zipIdx start).map fun c => (c.1, f c.2)).find? fun c => c.1 == a).map Prod.snd
      = (l.findIdx? fun c => c == a).map fun index => f (start + index) := by
  induction l generalizing start with
  | nil => rfl
  | cons b rest ih =>
    rw [List.zipIdx_cons, List.map_cons, List.find?_cons, List.findIdx?_cons]
    cases b == a with
    | true => rfl
    | false =>
      refine (ih (start + 1)).trans ?_
      cases rest.findIdx? fun c => c == a with
      | none => rfl
      | some index =>
        have hplace : start + 1 + index = start + (index + 1) := by omega
        simp [hplace]

/-- A label stands at its first tick, moved by the offset of the instance. -/
theorem position?_eq (a : AxisPlacement) (member : Nat) (label : String) :
    a.position? member label
      = (a.ticks.find? fun t => t.label == label).map fun t => t.position + a.offset member := by
  have hfirst := find?_numbered label a.slot a.categories 0
  have hticks : a.ticks = (a.categories.zipIdx.map fun c => (c.1, a.slot c.2)).map fun c => Tick.mk c.1 c.2 := by
    rw [List.map_map]
    rfl
  rw [hticks, List.find?_map, Option.map_map]
  simp only [Nat.zero_add] at hfirst
  have hmoved := congrArg (Option.map (· + a.offset member)) hfirst
  rw [Option.map_map, Option.map_map] at hmoved
  exact hmoved.symm

/-- The offset of a bar in its group: one unit from bar to bar, the middle one at the category. An instance that
    is no bar has none. -/
def barOffset (bars : List Nat) (member : Nat) : Int :=
  match bars.findIdx? fun bar => bar == member with
  | some place => (place : Int) - ((bars.length / 2 : Nat) : Int)
  | none => 0

theorem lookup_eq_find? (l : List (Nat × Int)) (a : Nat) : l.lookup a = (l.find? fun e => e.1 == a).map Prod.snd := by
  induction l with
  | nil => rfl
  | cons e rest ih =>
    rw [List.lookup_cons, List.find?_cons, BEq.comm]
    cases e.1 == a with
    | true => rfl
    | false => exact ih

/-- An instance stands beside its categories by the offset of its bar. -/
theorem offset_new (h : plan.isCategory = true) (member : Nat) :
    (new plan observed bars).offset member = barOffset bars member := by
  have hplace := find?_numbered member (fun k => (k : Int) - ((bars.length / 2 : Nat) : Int)) bars 0
  rw [offset, new, if_pos h]
  dsimp only
  rw [barOffsets, lookup_eq_find?, hplace, barOffset]
  cases bars.findIdx? fun bar => bar == member with
  | none => rfl
  | some place => rw [Option.map_some, Option.getD_some, Nat.zero_add]

end AxisPlacement

end BenchPlot
