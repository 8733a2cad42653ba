import BenchPlot.Proofs.Plan.CurveData
import BenchPlot.Proofs.Store.Selecting

/-!
# The groupings of an instance

An instance of a curve keeps its pairs twice, grouped along either axis. In both groupings each pair is found once, at
the position of its value on that axis. Positions ascend, each is known by the value that came first, and values at
one position stay in the order in which they came. The order in which pairs come decides nothing else: it changes the
values by which positions are known, and the order at each of them.

Main statement: `CurveData.groups_pushAll`.
-/

namespace BenchPlot.CurveData

variable {pairs pairs' : List (Value × Value)} {side other : Value × Value → Value}

/-! ## §1 What a grouping holds -/

/-- Whether a value stands at the position of a key. -/
def standsAt (k : AxisKey) (v : Value) : Bool :=
  compare k ⟨v⟩ == .eq

/-- The values of a grouping one after the other, each with the key that it is under. -/
def flattened (m : AxisMap (List Value)) : List (AxisKey × Value) :=
  m.entries.flatMap fun entry => entry.2.map fun v => (entry.1, v)

/-- A grouping has the pairs of a list by one of their sides. -/
structure Groups (m : AxisMap (List Value)) (pairs : List (Value × Value)) (side other : Value × Value → Value) :
    Prop where
  ascending : m.entries.Pairwise fun entry entry' => compare entry.1 entry'.1 = .lt
  /-- A key is the first value that came at its position. -/
  keys : ∀ k ∈ m.keys, k.value ∈ pairs.map side
    ∧ (pairs.map side).find? (standsAt k) = some k.value
  /-- The values under a key are those of the pairs at its position, in the order in which the pairs came. -/
  buckets : ∀ entry ∈ m.entries, entry.2 = (pairs.filter fun p => standsAt entry.1 (side p)).map other
  /-- Each pair is there once, under a key at its position. -/
  once : ∃ order, order.Perm pairs
    ∧ List.Forall₂ (fun kept p => compare kept.1 ⟨side p⟩ = .eq ∧ kept.2 = other p) (flattened m) order

/-- Two groupings have the same positions, and at each of them the same values in some order. -/
def SamePositions (m m' : AxisMap (List Value)) : Prop :=
  List.Forall₂ (fun entry entry' => compare entry.1 entry'.1 = .eq ∧ entry.2.Perm entry'.2) m.entries m'.entries

/-! ## §2 Keys -/

/-- A position that is in no key has no pair. -/
theorem compare_ne_of_find?_grouped {k : AxisKey} (h : (grouped pairs side other).find? k = none) {p : Value × Value}
    (hp : p ∈ pairs) : compare k ⟨side p⟩ ≠ .eq := by
  intro hk
  have hbucket := bucket_grouped pairs side other k
  rw [bucket, h] at hbucket
  have hmem : other p ∈ partners pairs side other k :=
    List.mem_map_of_mem (List.mem_filter.mpr ⟨hp, beq_iff_eq.mpr hk⟩)
  rw [← hbucket] at hmem
  cases hmem

/-- Each pair stands at a position that a key is at. -/
theorem exists_mem_keys_grouped (side other : Value × Value → Value) {p : Value × Value} (hp : p ∈ pairs) :
    ∃ k ∈ (grouped pairs side other).keys, compare k ⟨side p⟩ = .eq := by
  have hself : compare (⟨side p⟩ : AxisKey) ⟨side p⟩ = .eq := Std.ReflCmp.compare_self
  cases hfound : (grouped pairs side other).find? ⟨side p⟩ with
  | none => exact absurd hself (compare_ne_of_find?_grouped hfound hp)
  | some values =>
    obtain ⟨entry, hentry, -⟩ := Option.map_eq_some_iff.mp hfound
    have hequal : compare (⟨side p⟩ : AxisKey) entry.1 = .eq := by simpa using List.find?_some hentry
    exact ⟨entry.1, List.mem_map_of_mem (List.mem_of_find?_eq_some hentry), Std.OrientedCmp.eq_symm hequal⟩

/-- A key is the first value that came at its position. -/
theorem find?_of_mem_keys_grouped {k : AxisKey} (hk : k ∈ (grouped pairs side other).keys) :
    (pairs.map side).find? (standsAt k) = some k.value := by
  induction pairs using List.reverseRecOn with
  | nil => cases hk
  | append_singleton pairs p ih =>
    rw [List.map_append, List.find?_append]
    rw [grouped_append, addAt] at hk
    have hsorted := sorted_grouped pairs side other
    cases hfound : (grouped pairs side other).find? ⟨side p⟩ with
    | some values =>
      -- The position is there already, and the key with it.
      rw [hsorted.keys_alter hfound] at hk
      rw [ih hk, Option.some_or]
    | none =>
      rcases SortedMap.mem_keys_alterEntries hk with rfl | hold
      · have hnone : (pairs.map side).find? (standsAt ⟨side p⟩) = none := by
          refine List.find?_eq_none.mpr fun v hv => ?_
          obtain ⟨q, hq, rfl⟩ := List.mem_map.mp hv
          simpa [standsAt] using compare_ne_of_find?_grouped hfound hq
        simp [hnone, standsAt]
      · rw [ih hold, Option.some_or]

/-- The entries of a grouping follow from its keys. -/
theorem entries_grouped (pairs : List (Value × Value)) (side other : Value × Value → Value) :
    (grouped pairs side other).entries
      = (grouped pairs side other).keys.map fun k => (k, partners pairs side other k) := by
  rw [SortedMap.keys, List.map_map]
  refine (List.map_id _).symm.trans (List.map_congr_left fun entry hentry => ?_)
  have hbucket := bucket_grouped pairs side other entry.1
  rw [bucket, (sorted_grouped pairs side other).find?_of_mem hentry] at hbucket
  exact Prod.ext rfl hbucket

/-! ## §3 Pairs -/

/-- A list in parts, one for each of some classes, where each element is in one class. -/
theorem perm_flatMap_filter {κ α : Type} (has : κ → α → Bool) {classes : List κ} {l : List α}
    (hapart : classes.Pairwise fun k k' => ∀ a ∈ l, has k a = true → has k' a = false)
    (hall : ∀ a ∈ l, ∃ k ∈ classes, has k a = true) : (classes.flatMap fun k => l.filter (has k)).Perm l := by
  -- Along the classes: the first one takes its elements away, and the rest is in the others.
  induction classes generalizing l with
  | nil =>
    have hnil : l = [] := List.eq_nil_iff_forall_not_mem.mpr fun a ha => by simpa using hall a ha
    rw [hnil]
    exact .nil
  | cons k rest ih =>
    obtain ⟨hfirst, hrest⟩ := List.pairwise_cons.mp hapart
    have hothers : (rest.flatMap fun k' => l.filter (has k'))
        = rest.flatMap fun k' => (l.filter fun a => !has k a).filter (has k') := by
      refine List.flatMap_congr fun k' hk' => ?_
      rw [List.filter_filter]
      refine List.filter_congr fun a ha => ?_
      cases hk : has k a with
      | false => simp
      | true => simp [hfirst k' hk' a ha hk]
    have hleft : (rest.flatMap fun k' => (l.filter fun a => !has k a).filter (has k')).Perm
        (l.filter fun a => !has k a) := by
      refine ih (hrest.imp fun h a ha => h a (List.mem_filter.mp ha).1) fun a ha => ?_
      obtain ⟨hmem, hk⟩ := List.mem_filter.mp ha
      obtain ⟨k', hk', hhas⟩ := hall a hmem
      rcases List.mem_cons.mp hk' with rfl | hlater
      · simp [hhas] at hk
      · exact ⟨k', hlater, hhas⟩
    rw [List.flatMap_cons, hothers]
    exact (hleft.append_left _).trans (List.filter_append_perm (has k) l)

/-- No value stands at the positions of two keys of a grouping. -/
theorem pairwise_keys_grouped (pairs : List (Value × Value)) (side other : Value × Value → Value) :
    (grouped pairs side other).keys.Pairwise fun k k' => ∀ v, standsAt k v = true → standsAt k' v = false := by
  refine List.pairwise_map.mpr ((sorted_grouped pairs side other).imp fun {entry entry'} hlt v hv => ?_)
  by_contra hv'
  have hsame : compare entry.1 entry'.1 = .eq :=
    Std.TransCmp.eq_trans (beq_iff_eq.mp hv) (Std.OrientedCmp.eq_symm (beq_iff_eq.mp (eq_true_of_ne_false hv')))
  cases hlt.symm.trans hsame

theorem groups_grouped (pairs : List (Value × Value)) (side other : Value × Value → Value) :
    Groups (grouped pairs side other) pairs side other := by
  have hentries := entries_grouped pairs side other
  refine ⟨sorted_grouped pairs side other, fun k hk => ?_, fun entry hentry => ?_, ?_⟩
  · have hfirst := find?_of_mem_keys_grouped hk
    exact ⟨List.mem_of_find?_eq_some hfirst, hfirst⟩
  · rw [hentries] at hentry
    obtain ⟨k, _, rfl⟩ := List.mem_map.mp hentry
    rfl
  · -- The pairs, position by position.
    refine ⟨(grouped pairs side other).keys.flatMap fun k => pairs.filter fun p => standsAt k (side p), ?_, ?_⟩
    · refine perm_flatMap_filter (fun k p => standsAt k (side p)) ?_ fun p hp => ?_
      · exact (pairwise_keys_grouped pairs side other).imp fun h p _ => h (side p)
      · obtain ⟨k, hk, hequal⟩ := exists_mem_keys_grouped side other hp
        exact ⟨k, hk, beq_iff_eq.mpr hequal⟩
    · rw [flattened, hentries, List.flatMap_map]
      refine List.rel_flatMap (R := Eq) (List.forall₂_same.mpr fun _ _ => rfl) fun k k' hk => ?_
      subst hk
      rw [partners, List.map_map, List.forall₂_map_left_iff]
      exact List.forall₂_same.mpr fun p hp => ⟨beq_iff_eq.mp (List.mem_filter.mp hp).2, rfl⟩

/-! ## §4 Other orders -/

/-- Pairs in another order stand at the same positions. -/
theorem places_subset (h : pairs.Perm pairs') (side other : Value × Value → Value) {place : AxisPlace}
    (hplace : place ∈ (grouped pairs side other).keys.map AxisKey.place) :
    place ∈ (grouped pairs' side other).keys.map AxisKey.place := by
  obtain ⟨k, hk, rfl⟩ := List.mem_map.mp hplace
  obtain ⟨hpushed, _⟩ := (groups_grouped pairs side other).keys k hk
  obtain ⟨p, hp, hvalue⟩ := List.mem_map.mp hpushed
  obtain ⟨k', hk', hequal⟩ := exists_mem_keys_grouped side other (h.mem_iff.mp hp)
  refine List.mem_map.mpr ⟨k', hk', ?_⟩
  rw [AxisKey.compare_eq_iff.mp hequal, hvalue]

theorem pairwise_places (pairs : List (Value × Value)) (side other : Value × Value → Value) :
    ((grouped pairs side other).keys.map AxisKey.place).Pairwise fun a b => a.compare b = .lt :=
  List.pairwise_map.mpr (List.pairwise_map.mpr (sorted_grouped pairs side other))

theorem samePositions_grouped (h : pairs.Perm pairs') (side other : Value × Value → Value) :
    SamePositions (grouped pairs side other) (grouped pairs' side other) := by
  have hplaces : (grouped pairs side other).keys.map AxisKey.place
      = (grouped pairs' side other).keys.map AxisKey.place := by
    refine eq_of_ascending (fun a ha b hb hab hba => ?_) (pairwise_places ..) (pairwise_places ..)
      fun place => ⟨places_subset h side other, places_subset h.symm side other⟩
    obtain ⟨k, _, rfl⟩ := List.mem_map.mp ha
    obtain ⟨k', _, rfl⟩ := List.mem_map.mp hb
    have hlt : compare k k' = .lt := hab
    cases (Std.OrientedCmp.gt_of_lt hlt).symm.trans hba
  have hkeys : List.Forall₂ (fun k k' : AxisKey => k.place = k'.place) (grouped pairs side other).keys
      (grouped pairs' side other).keys := by
    rw [← List.forall₂_eq_eq_eq, List.forall₂_map_left_iff, List.forall₂_map_right_iff] at hplaces
    exact hplaces
  rw [SamePositions, entries_grouped, entries_grouped, List.forall₂_map_left_iff, List.forall₂_map_right_iff]
  refine hkeys.imp fun k k' hk => ?_
  have hequal : compare k k' = .eq := AxisKey.compare_eq_iff.mpr hk
  refine ⟨hequal, ?_⟩
  have hpartners : partners pairs side other k = partners pairs side other k' := by
    unfold partners
    congr 2
    funext p
    rw [Std.TransCmp.congr_left hequal]
  rw [hpartners]
  exact (h.filter _).map _

/-- Behind any sequence of pairs the two groupings of an instance have the same pairs, each of them once; and with the
    pairs in another order they have the same positions. -/
theorem groups_pushAll (label : String) (markText : Option String) (iteration : List (String × Value))
    (pairs : List (Value × Value)) :
    Groups ((new label markText iteration).pushAll pairs).byX pairs Prod.fst Prod.snd
      ∧ Groups ((new label markText iteration).pushAll pairs).byY pairs Prod.snd Prod.fst
      ∧ ∀ pairs', pairs.Perm pairs' →
        SamePositions ((new label markText iteration).pushAll pairs).byX
            ((new label markText iteration).pushAll pairs').byX
          ∧ SamePositions ((new label markText iteration).pushAll pairs).byY
            ((new label markText iteration).pushAll pairs').byY := by
  simp only [pushAll_eq_grouped]
  exact ⟨groups_grouped .., groups_grouped .., fun pairs' h => ⟨samePositions_grouped h .., samePositions_grouped h ..⟩⟩

/-- Pairs of which two stand at one position of the first axis. -/
def samplePairs : List (Value × Value) :=
  [(.text "1.0", .number 2.0), (.number 1.0, .text "a"), (.null, .bool true)]

/-- The sample pairs, the last two in front. -/
def turnedPairs : List (Value × Value) :=
  [(.number 1.0, .text "a"), (.null, .bool true), (.text "1.0", .number 2.0)]

theorem groups_pushAll_sample : samplePairs.Perm turnedPairs
    ∧ Groups ((new "a" none []).pushAll samplePairs).byX samplePairs Prod.fst Prod.snd
    ∧ SamePositions ((new "a" none []).pushAll samplePairs).byX ((new "a" none []).pushAll turnedPairs).byX
    ∧ ((new "a" none []).pushAll samplePairs).byX.keys.map (·.value.display) = ["", "1.0"]
    ∧ ((new "a" none []).pushAll turnedPairs).byX.keys.map (·.value.display) = ["", "1"] := by
  have hperm : samplePairs.Perm turnedPairs := @List.perm_append_comm _ [_] [_, _]
  obtain ⟨hx, _, hsame⟩ := groups_pushAll "a" none [] samplePairs
  exact ⟨hperm, hx, (hsame turnedPairs hperm).1, by decide +kernel, by decide +kernel⟩

end BenchPlot.CurveData
