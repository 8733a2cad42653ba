import BenchPlot.Plan.CurveData
import BenchPlot.Proofs.SortedMap
import BenchPlot.Proofs.Value.AxisOrder
import Mathlib.Data.List.Induction

/-!
# The pairs of an instance

An instance of a curve groups its pairs along either axis. At each position it holds what the pairs with this
position have along the other axis, in the order in which they came, and nothing else.

Main statements: `CurveData.pushAll_eq_grouped` and `CurveData.holds_pushAll`.
-/

namespace BenchPlot.CurveData

/-- What a grouping holds at a position. -/
def bucket (m : AxisMap (List Value)) (k : AxisKey) : List Value :=
  (m.find? k).getD []

/-- What the pairs whose one side is at a position have on their other side. -/
def partners (pairs : List (Value × Value)) (side other : Value × Value → Value) (k : AxisKey) : List Value :=
  (pairs.filter fun p => compare k ⟨side p⟩ == .eq).map other

/-- The instance holds these pairs, along both axes. -/
structure Holds (d : CurveData) (pairs : List (Value × Value)) : Prop where
  byX : ∀ k, bucket d.byX k = partners pairs Prod.fst Prod.snd k
  byY : ∀ k, bucket d.byY k = partners pairs Prod.snd Prod.fst k

/-- A value that is added at a position comes last there. -/
theorem bucket_addAt {m : AxisMap (List Value)} (h : m.Sorted) (key v : Value) (k : AxisKey) :
    bucket (addAt m key v) k = bucket m k ++ if compare k ⟨key⟩ == .eq then [v] else [] := by
  unfold bucket addAt
  rw [h.find?_alter]
  by_cases hk : compare k ⟨key⟩ = .eq
  · rw [if_pos hk, if_pos (beq_iff_eq.mpr hk)]
    rfl
  · rw [if_neg hk, if_neg fun heq => hk (beq_iff_eq.mp heq), List.append_nil]

theorem partners_append (pairs : List (Value × Value)) (p : Value × Value) (side other : Value × Value → Value)
    (k : AxisKey) : partners (pairs ++ [p]) side other k
      = partners pairs side other k ++ if compare k ⟨side p⟩ == .eq then [other p] else [] := by
  rw [partners, List.filter_append, List.map_append]
  congr 1
  cases hk : compare k ⟨side p⟩ == .eq <;> simp [hk]

/-- The grouping of pairs that come one after the other. -/
def grouped (pairs : List (Value × Value)) (side other : Value × Value → Value) : AxisMap (List Value) :=
  pairs.foldl (fun m p => addAt m (side p) (other p)) ∅

theorem grouped_append (pairs : List (Value × Value)) (p : Value × Value) (side other : Value × Value → Value) :
    grouped (pairs ++ [p]) side other = addAt (grouped pairs side other) (side p) (other p) :=
  List.foldl_append

/-- A grouping stays sorted, so that each position has one bucket. -/
theorem sorted_grouped (pairs : List (Value × Value)) (side other : Value × Value → Value) :
    (grouped pairs side other).Sorted := by
  induction pairs using List.reverseRecOn with
  | nil => exact SortedMap.sorted_empty
  | append_singleton pairs p ih =>
    rw [grouped_append]
    exact ih.alter _ _

theorem bucket_grouped (pairs : List (Value × Value)) (side other : Value × Value → Value) (k : AxisKey) :
    bucket (grouped pairs side other) k = partners pairs side other k := by
  induction pairs using List.reverseRecOn with
  | nil => rfl
  | append_singleton pairs p ih =>
    rw [grouped_append, partners_append, ← ih]
    exact bucket_addAt (sorted_grouped pairs side other) (side p) (other p) k

/-- An instance that gets pairs one after the other groups them along both axes. -/
theorem pushAll_eq_grouped (label : String) (markText : Option String) (iteration : List (String × Value))
    (pairs : List (Value × Value)) : (new label markText iteration).pushAll pairs
      = ⟨label, markText, iteration, grouped pairs Prod.fst Prod.snd, grouped pairs Prod.snd Prod.fst⟩ := by
  induction pairs using List.reverseRecOn with
  | nil => rfl
  | append_singleton pairs p ih =>
    have hpush : (new label markText iteration).pushAll (pairs ++ [p])
        = ((new label markText iteration).pushAll pairs).push p.1 p.2 := List.foldl_append
    rw [hpush, ih, grouped_append, grouped_append]
    rfl

/-- An instance that gets pairs one after the other holds them. -/
theorem holds_pushAll (label : String) (markText : Option String) (iteration : List (String × Value))
    (pairs : List (Value × Value)) : ((new label markText iteration).pushAll pairs).Holds pairs := by
  rw [pushAll_eq_grouped]
  exact ⟨bucket_grouped pairs Prod.fst Prod.snd, bucket_grouped pairs Prod.snd Prod.fst⟩

/-- An instance without positions holds no pairs. -/
theorem Holds.eq_nil_of_isEmpty {d : CurveData} {pairs : List (Value × Value)} (h : d.Holds pairs)
    (hempty : d.isEmpty = true) : pairs = [] := by
  refine List.eq_nil_iff_forall_not_mem.mpr fun p hp => ?_
  have hentries : d.byX.entries = [] := List.isEmpty_iff.mp hempty
  have hbucket : bucket d.byX ⟨p.1⟩ = [] := by
    rw [bucket, SortedMap.find?, hentries]
    rfl
  have hself : compare (⟨p.1⟩ : AxisKey) ⟨p.1⟩ = .eq := Std.ReflCmp.compare_self
  have hmem : p.2 ∈ partners pairs Prod.fst Prod.snd ⟨p.1⟩ :=
    List.mem_map_of_mem (List.mem_filter.mpr ⟨hp, beq_iff_eq.mpr hself⟩)
  rw [← h.byX, hbucket] at hmem
  cases hmem

theorem iteration_pushAll (label : String) (markText : Option String) (iteration : List (String × Value))
    (pairs : List (Value × Value)) : ((new label markText iteration).pushAll pairs).iteration = iteration := by
  rw [pushAll_eq_grouped]

end BenchPlot.CurveData
