import BenchPlot.SortedMap
import Mathlib.Data.List.Basic

/-!
# The order of sorted maps

Changes keep the entries of a map in the order of their keys, and bring in no other key. A key above all
others comes last; so a map whose entries are inserted again, one after the other, comes out as it is.

Main statements: `Sorted.find?_alter_self`, `Sorted.foldl_insert`, `mem_keys_foldl_insert`, `find?_ofList` and
`insert_of_above`.
-/

namespace BenchPlot.SortedMap

variable {κ α : Type} [Ord κ] {m : SortedMap κ α} {j k : κ} {a : α}

/-- The keys of a map ascend. -/
def Sorted (m : SortedMap κ α) : Prop :=
  m.entries.Pairwise fun x y => compare x.1 y.1 = .lt

theorem sorted_empty : (empty : SortedMap κ α).Sorted :=
  List.Pairwise.nil

theorem Sorted.nodup_keys [Std.ReflOrd κ] (h : m.Sorted) : m.keys.Nodup := by
  apply List.pairwise_map.mpr
  refine List.Pairwise.imp (fun hlt heq => ?_) h
  rw [heq, Std.ReflOrd.compare_self] at hlt
  cases hlt

/-! ## §1 Insertion -/

theorem mem_keys_alterEntries {f : Option α → α} {entries : List (κ × α)}
    (h : j ∈ (alterEntries k f entries).map (·.1)) : j = k ∨ j ∈ entries.map (·.1) := by
  induction entries with
  | nil => exact .inl (by simpa [alterEntries] using h)
  | cons entry rest ih =>
    unfold alterEntries at h
    split at h
    · exact List.mem_cons.mp h
    · exact .inr h
    · rcases List.mem_cons.mp h with hfirst | hlater
      · exact .inr (List.mem_cons.mpr (.inl hfirst))
      · exact (ih hlater).imp_right (List.mem_cons_of_mem _)

theorem mem_keys_insert (h : j ∈ (m.insert k a).keys) : j = k ∨ j ∈ m.keys :=
  mem_keys_alterEntries h

/-- Which keys a change leaves does not depend on values. -/
theorem keys_alterEntries_congr {f g : Option α → α} {entries entries' : List (κ × α)}
    (h : entries.map (·.1) = entries'.map (·.1)) :
    (alterEntries k f entries).map (·.1) = (alterEntries k g entries').map (·.1) := by
  induction entries generalizing entries' with
  | nil =>
    obtain rfl := List.map_eq_nil_iff.mp h.symm
    rfl
  | cons entry rest ih =>
    cases entries' with
    | nil => cases h
    | cons entry' rest' =>
      have hkey : entry.1 = entry'.1 := (List.cons.inj h).1
      have hrest := (List.cons.inj h).2
      unfold alterEntries
      rw [← hkey]
      split
      · exact congrArg (k :: entry.1 :: ·) hrest
      · exact congrArg (entry.1 :: ·) hrest
      · exact congrArg (entry.1 :: ·) (ih hrest)

/-- Which keys insertions leave does not depend on values. -/
theorem keys_foldl_insert_congr {m' : SortedMap κ α} {l l' : List (κ × α)} (hm : m.keys = m'.keys)
    (h : l.map (·.1) = l'.map (·.1)) :
    (l.foldl (fun m entry => m.insert entry.1 entry.2) m).keys
      = (l'.foldl (fun m entry => m.insert entry.1 entry.2) m').keys := by
  induction l generalizing m m' l' with
  | nil =>
    obtain rfl := List.map_eq_nil_iff.mp h.symm
    exact hm
  | cons entry rest ih =>
    cases l' with
    | nil => cases h
    | cons entry' rest' =>
      have hkey : entry.1 = entry'.1 := (List.cons.inj h).1
      rw [List.foldl_cons, List.foldl_cons]
      refine ih ?_ (List.cons.inj h).2
      rw [hkey]
      exact keys_alterEntries_congr hm

/-- Behind an insertion a key holds the new value, or what it held before. -/
theorem find?_insert_cases [Std.TransOrd κ] [Std.LawfulEqOrd κ] {b : α} (h : (m.insert k a).find? j = some b) :
    b = a ∨ m.find? j = some b := by
  by_cases hkey : compare j k = .eq
  · obtain rfl := Std.LawfulEqOrd.eq_of_compare hkey
    rw [m.find?_insert_self] at h
    exact .inl (Option.some.inj h).symm
  · rw [m.find?_insert_of_ne k j a hkey] at h
    exact .inr h

theorem Sorted.alter [Std.TransOrd κ] (h : m.Sorted) (k : κ) (f : Option α → α) : (m.alter k f).Sorted := by
  obtain ⟨entries⟩ := m
  unfold Sorted at h ⊢
  simp only [SortedMap.alter] at h ⊢
  induction entries with
  | nil => exact List.pairwise_singleton _ _
  | cons entry rest ih =>
    obtain ⟨hfirst, hrest⟩ := List.pairwise_cons.mp h
    unfold alterEntries
    split
    · -- The key stands before all others.
      rename_i hlt
      refine List.pairwise_cons.mpr ⟨fun later hlater => ?_, h⟩
      rcases List.mem_cons.mp hlater with rfl | hlater
      · exact hlt
      · exact Std.TransCmp.lt_trans hlt (hfirst later hlater)
    · -- The key stays and gets another value.
      exact List.pairwise_cons.mpr ⟨hfirst, hrest⟩
    · -- The key stands further back, so the first entry is before it.
      rename_i hgt
      refine List.pairwise_cons.mpr ⟨fun later hlater => ?_, ih hrest⟩
      rcases mem_keys_alterEntries (List.mem_map_of_mem hlater) with heq | hold
      · rw [heq]
        exact Std.OrientedCmp.lt_of_gt hgt
      · obtain ⟨old, hmem, heq⟩ := List.mem_map.mp hold
        rw [← heq]
        exact hfirst old hmem

theorem Sorted.insert [Std.TransOrd κ] (h : m.Sorted) (k : κ) (a : α) : (m.insert k a).Sorted :=
  h.alter k fun _ => a

/-- A key below all others has no value. -/
theorem find?_of_below (h : ∀ j ∈ m.keys, compare k j = .lt) : m.find? k = none := by
  have hnone : m.entries.find? (fun entry => compare k entry.1 == .eq) = none := by
    refine List.find?_eq_none.mpr fun entry hentry => ?_
    simp [h entry.1 (List.mem_map_of_mem hentry)]
  rw [find?, hnone, Option.map_none]

/-- A key below the first one has no value. -/
theorem Sorted.find?_of_lt_first [Std.TransOrd κ] {entry : κ × α} {rest : List (κ × α)}
    (h : (SortedMap.mk (entry :: rest)).Sorted) (hlt : compare k entry.1 = .lt) :
    (SortedMap.mk (entry :: rest)).find? k = none := by
  refine find?_of_below fun j hj => ?_
  rcases List.mem_cons.mp hj with rfl | hj
  · exact hlt
  · obtain ⟨later, hlater, rfl⟩ := List.mem_map.mp hj
    exact Std.TransCmp.lt_trans hlt ((List.pairwise_cons.mp h).1 later hlater)

/-- A change gives the key what it makes of the present value. -/
theorem Sorted.find?_alter_self [Std.TransOrd κ] (h : m.Sorted) (k : κ) (f : Option α → α) :
    (m.alter k f).find? k = some (f (m.find? k)) := by
  obtain ⟨entries⟩ := m
  induction entries with
  | nil => simp [SortedMap.alter, alterEntries, find?]
  | cons entry rest ih =>
    obtain ⟨k', a'⟩ := entry
    have hlater := ih (List.pairwise_cons.mp h).2
    simp only [SortedMap.alter, alterEntries] at hlater ⊢
    split
    · -- The key stands before all others, so it had no value.
      rename_i hlt
      rw [h.find?_of_lt_first hlt]
      simp [find?]
    · rename_i heq
      simp [find?, heq]
    · rename_i hgt
      simpa [find?, hgt] using hlater

/-- Keys that compare as equal have one value. -/
theorem find?_congr [Std.TransOrd κ] (m : SortedMap κ α) (h : compare j k = .eq) : m.find? j = m.find? k := by
  unfold find?
  congr 2
  funext entry
  rw [Std.TransCmp.congr_left h]

/-- What a map holds behind a change. -/
theorem Sorted.find?_alter [Std.TransOrd κ] (h : m.Sorted) (j k : κ) (f : Option α → α) :
    (m.alter k f).find? j = if compare j k = .eq then some (f (m.find? j)) else m.find? j := by
  split
  · rename_i heq
    rw [find?_congr _ heq, h.find?_alter_self, find?_congr m heq]
  · rename_i hne
    exact m.find?_alter_of_ne k j f hne

/-- What a map holds behind an insertion. -/
theorem find?_insert [Std.TransOrd κ] (m : SortedMap κ α) (j k : κ) (a : α) :
    (m.insert k a).find? j = if compare j k = .eq then some a else m.find? j := by
  split
  · rename_i heq
    rw [find?_congr _ heq, find?_insert_self]
  · rename_i hne
    exact m.find?_insert_of_ne k j a hne

/-- A key finds its entry. -/
theorem Sorted.find?_of_mem [Std.TransOrd κ] (h : m.Sorted) {entry : κ × α} (hentry : entry ∈ m.entries) :
    m.find? entry.1 = some entry.2 := by
  obtain ⟨before, after, hsplit⟩ := List.append_of_mem hentry
  -- The entries before it have other keys.
  have hother : before.find? (fun e => compare entry.1 e.1 == .eq) = none := by
    refine List.find?_eq_none.mpr fun e he => ?_
    have hlt : compare e.1 entry.1 = .lt := by
      rw [Sorted, hsplit] at h
      exact (List.pairwise_append.mp h).2.2 e he entry (List.mem_cons_self ..)
    rw [Std.OrientedCmp.gt_of_lt hlt]
    decide
  rw [find?, hsplit, List.find?_append, hother, Option.none_or, List.find?_cons_of_pos (by simp)]
  rfl

/-- The values of a map are what its keys hold. -/
theorem Sorted.mem_values_iff [Std.TransOrd κ] (h : m.Sorted) : a ∈ m.values ↔ ∃ k, m.find? k = some a := by
  constructor
  · intro ha
    obtain ⟨entry, hentry, rfl⟩ := List.mem_map.mp ha
    exact ⟨entry.1, h.find?_of_mem hentry⟩
  · rintro ⟨k, hk⟩
    obtain ⟨entry, hfound, rfl⟩ := Option.map_eq_some_iff.mp hk
    exact List.mem_map_of_mem (List.mem_of_find?_eq_some hfound)

/-- A change under a key that has a value leaves the keys as they are. -/
theorem Sorted.keys_alter [Std.TransOrd κ] (h : m.Sorted) (hk : m.find? k = some a) (f : Option α → α) :
    (m.alter k f).keys = m.keys := by
  obtain ⟨entries⟩ := m
  induction entries with
  | nil => cases hk
  | cons entry rest ih =>
    have hrest : (SortedMap.mk rest).Sorted := (List.pairwise_cons.mp h).2
    simp only [SortedMap.alter, keys, alterEntries] at ih ⊢
    split
    · -- The key stands before all others, so it has no value.
      rename_i hlt
      cases (h.find?_of_lt_first hlt).symm.trans hk
    · rfl
    · rename_i hgt
      have hlater : (SortedMap.mk rest).find? k = some a := by
        simpa [find?, hgt] using hk
      exact congrArg (entry.1 :: ·) (ih hrest hlater)

/-! ## §2 Insertions one after the other -/

theorem Sorted.foldl_insert [Std.TransOrd κ] (h : m.Sorted) (l : List (κ × α)) :
    (l.foldl (fun m entry => m.insert entry.1 entry.2) m).Sorted := by
  induction l generalizing m with
  | nil => exact h
  | cons entry rest ih => exact ih (h.insert entry.1 entry.2)

theorem mem_keys_foldl_insert {l : List (κ × α)}
    (h : j ∈ (l.foldl (fun m entry => m.insert entry.1 entry.2) m).keys) :
    j ∈ m.keys ∨ j ∈ l.map (·.1) := by
  induction l generalizing m with
  | nil => exact .inl h
  | cons entry rest ih =>
    rcases ih h with hold | hlater
    · rcases mem_keys_insert hold with rfl | hold
      · exact .inr (List.mem_cons_self ..)
      · exact .inl hold
    · exact .inr (List.mem_cons_of_mem _ hlater)

/-- Insertions under other keys leave the value under a key alone. -/
theorem find?_foldl_insert [Std.TransOrd κ] [Std.LawfulEqOrd κ] {l : List (κ × α)} (h : j ∉ l.map (·.1)) :
    (l.foldl (fun m entry => m.insert entry.1 entry.2) m).find? j = m.find? j := by
  induction l generalizing m with
  | nil => rfl
  | cons entry rest ih =>
    obtain ⟨hfirst, hrest⟩ := not_or.mp (List.mem_cons.not.mp h)
    have hne : compare j entry.1 ≠ .eq := fun heq => hfirst (Std.LawfulEqCmp.eq_of_compare heq)
    rw [List.foldl_cons, ih hrest, find?_insert_of_ne _ _ _ _ hne]

/-- The last insertion under a key gives it its value. -/
theorem find?_foldl_insert_of_last [Std.TransOrd κ] [Std.LawfulEqOrd κ] {before after : List (κ × α)}
    (h : k ∉ after.map (·.1)) :
    ((before ++ (k, a) :: after).foldl (fun m entry => m.insert entry.1 entry.2) m).find? k = some a := by
  rw [List.foldl_append, List.foldl_cons, find?_foldl_insert h, find?_insert_self]

/-- Behind insertions a key holds one of the new values, or what it held before. -/
theorem find?_foldl_insert_cases [Std.TransOrd κ] [Std.LawfulEqOrd κ] {l : List (κ × α)}
    (h : (l.foldl (fun m entry => m.insert entry.1 entry.2) m).find? j = some a) :
    a ∈ l.map (·.2) ∨ m.find? j = some a := by
  induction l generalizing m with
  | nil => exact .inr h
  | cons entry rest ih =>
    rw [List.map_cons, List.mem_cons]
    rcases ih h with hlater | hbefore
    · exact .inl (.inr hlater)
    · rcases find?_insert_cases hbefore with hfirst | hold
      · exact .inl (.inl hfirst)
      · exact .inr hold

/-- The map of a list with distinct keys holds each of its entries. -/
theorem find?_ofList [Std.TransOrd κ] [Std.LawfulEqOrd κ] {l : List (κ × α)} (h : (l.map (·.1)).Nodup)
    (hk : (k, a) ∈ l) : (ofList l).find? k = some a := by
  obtain ⟨before, after, rfl⟩ := List.append_of_mem hk
  rw [List.map_append, List.map_cons] at h
  exact find?_foldl_insert_of_last (List.nodup_cons.mp (List.nodup_append.mp h).2.1).1

theorem find?_eq_none_iff [Std.LawfulEqOrd κ] : m.find? k = none ↔ k ∉ m.keys := by
  unfold find? keys
  rw [Option.map_eq_none_iff, List.find?_eq_none]
  constructor
  · intro h hk
    obtain ⟨entry, hentry, rfl⟩ := List.mem_map.mp hk
    exact h entry hentry (by simp)
  · intro h entry hentry heq
    have hkey : k = entry.1 := Std.LawfulEqCmp.eq_of_compare (beq_iff_eq.mp heq)
    exact h (hkey ▸ List.mem_map_of_mem hentry)

/-- An insertion keeps the keys that are there. -/
theorem mem_keys_insert_of_mem [Std.TransOrd κ] [Std.LawfulEqOrd κ] (k : κ) (a : α) (h : j ∈ m.keys) :
    j ∈ (m.insert k a).keys := by
  by_contra hnot
  have hnone := find?_eq_none_iff.2 hnot
  rw [find?_insert] at hnone
  split at hnone
  · cases hnone
  · exact find?_eq_none_iff.1 hnone h

/-- The values of the second map win. -/
theorem Sorted.find?_union [Std.TransOrd κ] [Std.LawfulEqOrd κ] {n : SortedMap κ α} (h : n.Sorted) (m : SortedMap κ α)
    (k : κ) : (m.union n).find? k = (n.find? k).or (m.find? k) := by
  unfold union
  cases hk : n.find? k with
  | none =>
    rw [find?_foldl_insert (find?_eq_none_iff.1 hk)]
    rfl
  | some a =>
    obtain ⟨entry, hfound, rfl⟩ := Option.map_eq_some_iff.mp hk
    obtain ⟨before, after, hsplit⟩ := List.append_of_mem (List.mem_of_find?_eq_some hfound)
    have hequal : compare k entry.1 = .eq := by simpa using List.find?_some hfound
    have hkey : k = entry.1 := Std.LawfulEqCmp.eq_of_compare hequal
    rw [hkey]
    -- The entries behind it have greater keys.
    have hlater : entry.1 ∉ after.map (·.1) := by
      intro hmem
      obtain ⟨later, hlater, heq⟩ := List.mem_map.mp hmem
      rw [Sorted, hsplit, List.pairwise_append, List.pairwise_cons] at h
      have hlt := h.2.1.1 later hlater
      rw [heq] at hlt
      simp at hlt
    rw [hsplit]
    exact find?_foldl_insert_of_last hlater

/-- Insertions keep a value under a key that has one, and give one to each of their own keys. -/
theorem isSome_find?_foldl_insert [Std.TransOrd κ] [Std.LawfulEqOrd κ] {l : List (κ × α)}
    (h : j ∈ l.map (·.1) ∨ (m.find? j).isSome = true) :
    ((l.foldl (fun m entry => m.insert entry.1 entry.2) m).find? j).isSome = true := by
  induction l generalizing m with
  | nil => exact h.resolve_left List.not_mem_nil
  | cons entry l ih =>
    rw [List.map_cons, List.mem_cons] at h
    by_cases hfirst : j = entry.1
    · exact ih (.inr (by rw [hfirst, find?_insert_self]; rfl))
    · have hne : compare j entry.1 ≠ .eq := fun heq => hfirst (Std.LawfulEqCmp.eq_of_compare heq)
      refine ih (h.imp (fun hlater => hlater.resolve_left hfirst) fun hbefore => ?_)
      rwa [find?_insert_of_ne _ _ _ _ hne]

/-- The map of a list has a value under each key of the list. -/
theorem isSome_find?_ofList [Std.TransOrd κ] [Std.LawfulEqOrd κ] {l : List (κ × α)} (h : j ∈ l.map (·.1)) :
    ((ofList l).find? j).isSome = true :=
  isSome_find?_foldl_insert (.inl h)

/-! ## §3 Keys above all others -/

/-- A key above all others is not there. -/
theorem contains_of_above (h : ∀ j ∈ m.keys, compare k j = .gt) : m.contains k = false := by
  unfold contains find?
  rw [List.find?_eq_none.mpr fun entry hentry => ?_]
  · rfl
  · simp [h entry.1 (List.mem_map_of_mem hentry)]

/-- A key above all others comes last. -/
theorem insert_of_above (h : ∀ j ∈ m.keys, compare k j = .gt) (a : α) :
    m.insert k a = ⟨m.entries ++ [(k, a)]⟩ := by
  obtain ⟨entries⟩ := m
  simp only [SortedMap.insert, alter]
  congr 1
  induction entries with
  | nil => rfl
  | cons entry rest ih =>
    have hfirst : compare k entry.1 = .gt := h entry.1 (List.mem_cons_self ..)
    unfold alterEntries
    rw [hfirst]
    dsimp only
    rw [ih fun j hj => h j (List.mem_cons_of_mem _ hj)]
    rfl

end BenchPlot.SortedMap
