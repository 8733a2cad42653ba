import BenchPlot.Style

/-!
# The laws of the style registry

A name that can be configured is a name that is found. A registry grows only: what is registered changes no name that
was found before, and is found under its own name from then on.

Main statements: `StyleRegistry.exists_resolve_iff` and `StyleRegistry.extends_of_register`.
-/

namespace BenchPlot

namespace StyleRegistry

/-! ## §1 Names -/

/-- The form under which a name is kept is its own form. -/
theorem key_key (name : String) : key (key name) = key name := by
  rw [key, key, Text.trim_asciiLower, Text.trim_trim, Text.asciiLower_asciiLower]

/-- A name is found iff the form is found under which it is kept. -/
theorem lookup?_key (r : StyleRegistry) (category : StyleCategory) (name : String) :
    r.lookup? category (key name) = r.lookup? category name := by
  rw [lookup?, lookup?, key_key]

theorem resolve_key (r : StyleRegistry) (category : StyleCategory) {name : String} (h : key name ≠ automaticName)
    {k : StyleKind} (hk : r.lookup? category name = some k) (index : Nat) :
    r.resolve category (some (key name)) index = .ok k := by
  have hnamed : isAutomatic (key name) = false := by
    rw [isAutomatic, key_key]
    exact beq_eq_false_iff_ne.mpr h
  unfold resolve
  dsimp only
  rw [hnamed, lookup?_key, hk]
  rfl

/-- A named kind can be chosen if it is known, and an automatic one always. -/
theorem exists_resolve_iff {r : StyleRegistry} {category : StyleCategory} {name : Option String}
    (index : Nat) : (∃ k, r.resolve category name index = .ok k) ↔ name.all (r.isKnown category) = true := by
  cases name with
  | none => exact ⟨fun _ => rfl, fun _ => ⟨_, rfl⟩⟩
  | some name =>
    unfold resolve isKnown
    cases hautomatic : isAutomatic name with
    | true => simp [hautomatic]
    | false =>
      cases hlookup : r.lookup? category name <;> simp [hautomatic, hlookup]

/-! ## §2 Registering -/

variable {r r' : StyleRegistry} {style : CustomStyle}

/-- A style is registered under a name that is neither empty nor asks for an automatic choice, and was not found
    before. It comes last. -/
theorem register_eq_ok (h : r.register style = .ok r') :
    key style.name ≠ automaticName ∧ r.lookup? style.category style.name = none
      ∧ r'.customs = r.customs ++ [{ style with name := key style.name }] := by
  unfold register at h
  dsimp only at h
  split at h
  · cases h
  · rename_i hname
    split at h
    · cases h
    · rename_i hfree
      cases h
      rw [Bool.or_eq_true, not_or, beq_iff_eq, beq_iff_eq] at hname
      rw [Option.not_isSome_iff_eq_none, lookup?_key] at hfree
      exact ⟨hname.2, hfree, rfl⟩

/-- Every name that is found stands for the same kind as before. -/
theorem lookup?_register (h : r.register style = .ok r') {category : StyleCategory} {name : String} {k : StyleKind}
    (hk : r.lookup? category name = some k) : r'.lookup? category name = some k := by
  obtain ⟨_, _, hcustoms⟩ := register_eq_ok h
  unfold lookup? at hk ⊢
  cases hbuiltin : category.builtins.find? fun k => k.name == key name with
  | some builtin =>
    rw [hbuiltin] at hk
    exact hk
  | none =>
    rw [hbuiltin] at hk
    -- The new style comes behind the one that was found.
    obtain ⟨custom, hcustom, rfl⟩ := Option.map_eq_some_iff.mp hk
    dsimp only
    rw [hcustoms, List.find?_append, hcustom]
    rfl

/-- The registered style is found under its name. -/
theorem lookup?_registered (h : r.register style = .ok r') :
    r'.lookup? style.category style.name = some (.custom { style with name := key style.name }) := by
  obtain ⟨_, hfree, hcustoms⟩ := register_eq_ok h
  unfold lookup? at hfree ⊢
  cases hbuiltin : style.category.builtins.find? fun k => k.name == key style.name with
  | some builtin =>
    rw [hbuiltin] at hfree
    cases hfree
  | none =>
    rw [hbuiltin] at hfree
    dsimp only
    rw [hcustoms, List.find?_append, Option.map_eq_none_iff.mp hfree, List.find?_cons]
    simp

/-- The name of the registered style, in the form under which it is kept, stands for it. -/
theorem resolve_register (h : r.register style = .ok r') (index : Nat) :
    r'.resolve style.category (some (key style.name)) index = .ok (.custom { style with name := key style.name }) :=
  resolve_key r' style.category (register_eq_ok h).1 (lookup?_registered h) index

/-- A registry with a further style: every name that was found stands for the same kind, and the name of the style, in
    the form under which it is kept, stands for its display text and its payload. -/
structure Extends (r r' : StyleRegistry) (style : CustomStyle) : Prop where
  kept : ∀ category name k, r.lookup? category name = some k → r'.lookup? category name = some k
  registered : ∀ index, ∃ k, r'.resolve style.category (some (key style.name)) index = .ok k
    ∧ k.display = style.display ∧ k.payload? = style.payload

theorem extends_of_register (h : r.register style = .ok r') : r.Extends r' style where
  kept _ _ _ hk := lookup?_register h hk
  registered index := ⟨_, resolve_register h index, rfl, rfl⟩

end StyleRegistry

end BenchPlot
