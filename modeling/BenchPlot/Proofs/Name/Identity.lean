import BenchPlot.Name

/-!
# Identities tell key values apart

The key values of an experiment are escaped and put together with separators. No separator is left in an
escaped value, and an escaped value can be read back; so an identity is that of one list of values only.

Main statement: `identity_injective`.
-/

namespace BenchPlot

/-! ## §1 Escaped values -/

/-- An escaped value as it was before. -/
def unescapeKey : List Char → List Char
  | '\\' :: 'p' :: rest => '|' :: unescapeKey rest
  | '\\' :: c :: rest => c :: unescapeKey rest
  | c :: rest => c :: unescapeKey rest
  | [] => []

theorem unescapeKey_escape (cs : List Char) : unescapeKey (cs.flatMap escapeKeyChar) = cs := by
  induction cs with
  | nil => rfl
  | cons c rest ih =>
    rw [List.flatMap_cons, escapeKeyChar]
    -- Only the two special characters become two, and the first of the two is read off again.
    by_cases hescape : c = '\\'
    · subst hescape
      exact congrArg _ ih
    by_cases hbar : c = '|'
    · subst hbar
      exact congrArg _ ih
    · rw [if_neg (by simpa using hescape), if_neg (by simpa using hbar), List.singleton_append]
      unfold unescapeKey
      split <;> simp_all

theorem bar_not_mem_escape (cs : List Char) : '|' ∉ cs.flatMap escapeKeyChar := by
  intro hmem
  obtain ⟨c, _, hc⟩ := List.mem_flatMap.mp hmem
  unfold escapeKeyChar at hc
  split at hc
  · simp at hc
  · split at hc
    · simp at hc
    · rename_i hbar
      exact hbar (by simpa using (List.mem_singleton.mp hc).symm)

/-! ## §2 Identities -/

theorem toList_identity (values : List String) : (identity values).toList
    = ['|'].intercalate (values.map fun v => v.toList.flatMap escapeKeyChar) := by
  rw [identity, String.toList_intercalate, List.map_map]
  congr 1
  exact List.map_congr_left fun v _ => String.toList_ofList

/-- Two lists of values with one identity are one list. -/
theorem identity_injective {xs ys : List String} (hxs : xs ≠ []) (hys : ys ≠ [])
    (h : identity xs = identity ys) : xs = ys := by
  -- The escaped values are found between the separators, and the values in them.
  have hsplit : ∀ l : List String, l ≠ [] → ((identity l).toList.splitOn '|').map unescapeKey
      = l.map String.toList := by
    intro l hl
    have hbars : ∀ cs ∈ l.map (fun v => v.toList.flatMap escapeKeyChar), '|' ∉ cs := by
      intro cs hcs
      obtain ⟨v, _, rfl⟩ := List.mem_map.mp hcs
      exact bar_not_mem_escape v.toList
    rw [toList_identity, List.splitOn_intercalate '|' hbars (by simpa using hl), List.map_map]
    exact List.map_congr_left fun v _ => unescapeKey_escape v.toList
  have hchars : xs.map String.toList = ys.map String.toList := by
    rw [← hsplit xs hxs, ← hsplit ys hys, h]
  exact (List.map_inj_right fun _ _ => String.toList_inj.mp).mp hchars

end BenchPlot
