import BenchPlot.Formula.Scope
import BenchPlot.Proofs.SortedMap
import Mathlib

/-!
# Checked scopes

A definition is checked when it is made, and one that fails leaves the scope as it was. So in every scope that
definitions lead to, calculated variables refer to variables only, and the bodies of named functions to no column
and to no identifier but their parameters. A later definition of a calculated variable replaces an earlier one;
the check of the later one is the one that counts then.

Main statements: `Checked.define` and `Reachable.checked`.
-/

namespace BenchPlot

/-! ## §1 Definitions -/

/-- A definition of a description. -/
inductive Definition where
  | default (name value : String)
  | calculated (name source : String)
  | function (name : String) (parameters : List String) (source : String)

namespace Scope

/-- The scope behind a definition: the extended one, or the old one where the definition was refused. -/
def orKeep (s : Scope) (result : Except FormulaError Scope) : Scope :=
  match result with
  | .ok s' => s'
  | .error _ => s

/-- The scope behind a definition. -/
def define (s : Scope) : Definition → Scope
  | .default name value => s.setDefault name value
  | .calculated name source => s.orKeep (s.defineCalculated name source)
  | .function name parameters source => s.orKeep (s.defineFunction name parameters source)

/-- The scope behind several definitions, one after the other. -/
def defineAll (s : Scope) (definitions : List Definition) : Scope :=
  definitions.foldl define s

/-- A scope is reachable iff definitions lead to it from a scope in which nothing is defined. -/
def Reachable (s : Scope) : Prop :=
  ∃ overrides process definitions, s = (new overrides process).defineAll definitions

end Scope

/-! ## §2 What may stand where -/

namespace Expr

/-- Whether a node refers to anything but a variable. -/
def RefersOut : Expr → Prop
  | .column _ | .calculated _ | .parameter _ | .call _ _ => True
  | _ => False

/-- Whether a node may stand in the body of a function with the given parameters. -/
def FitsBody (parameters : List String) : Expr → Prop
  | .column _ => False
  | .parameter name => name ∈ parameters
  | _ => True

end Expr

namespace Scope

theorem not_refersOut_of_calculatedBan? {name : String} {node : Expr} (h : calculatedBan? name node = none) :
    ¬node.RefersOut := by
  cases node <;> first | exact id | cases h

theorem fitsBody_of_functionBan? {name : String} {parameters : List String} {node : Expr}
    (h : functionBan? name parameters node = none) : node.FitsBody parameters := by
  cases node with
  | column => cases h
  | parameter identifier =>
    rw [functionBan?] at h
    split at h
    · rename_i hcontains
      exact List.contains_iff_mem.mp hcontains
    · cases h
  | _ => trivial

/-! ## §3 Checked scopes -/

/-- What the checks of definitions ensure: no node of a calculated variable refers to anything but a variable, and
    every node of a function body fits the parameters. -/
structure Checked (s : Scope) : Prop where
  calculated : ∀ {name e}, s.calculated.find? name = some e → ∀ node ∈ e.nodes, ¬node.RefersOut
  functions : ∀ {name f}, s.functions.find? name = some f → ∀ node ∈ f.body.nodes, node.FitsBody f.parameters

variable {s s' : Scope}

theorem checked_new (overrides process : SortedMap String String) : (new overrides process).Checked := by
  constructor
  · intro name e hfound
    cases hfound
  · intro name f hfound
    cases hfound

theorem defineCalculated_eq_ok {name source : String} (h : s.defineCalculated name source = .ok s') :
    ∃ e, Expr.parse source = .ok e ∧ (∀ node ∈ e.nodes, ¬node.RefersOut)
      ∧ s' = { s with calculated := s.calculated.insert name e } := by
  unfold defineCalculated at h
  split at h
  · cases h
  · rename_i e hparse
    split at h
    · cases h
    · rename_i hban
      cases h
      exact ⟨e, hparse, fun node hnode =>
        not_refersOut_of_calculatedBan? (List.findSome?_eq_none_iff.mp hban node hnode), rfl⟩

theorem defineFunction_eq_ok {name source : String} {parameters : List String}
    (h : s.defineFunction name parameters source = .ok s') :
    s.functions.contains name = false ∧ ∃ body, Expr.parse source = .ok body
      ∧ (∀ node ∈ body.nodes, node.FitsBody parameters)
      ∧ s' = { s with functions := s.functions.insert name ⟨name, parameters, body⟩ } := by
  unfold defineFunction at h
  split at h
  · cases h
  · rename_i hnew
    split at h
    · cases h
    · rename_i body hparse
      split at h
      · cases h
      · rename_i hban
        cases h
        exact ⟨Bool.eq_false_iff.mpr hnew, body, hparse, fun node hnode =>
          fitsBody_of_functionBan? (List.findSome?_eq_none_iff.mp hban node hnode), rfl⟩

/-- A definition keeps a scope checked, whatever it replaces. -/
theorem Checked.define (h : s.Checked) (d : Definition) : (s.define d).Checked := by
  cases d with
  | default name value => exact ⟨h.calculated, h.functions⟩
  | calculated name source =>
    unfold Scope.define orKeep
    dsimp only
    split
    · rename_i s' hdefined
      obtain ⟨e, -, hnodes, rfl⟩ := defineCalculated_eq_ok hdefined
      refine ⟨fun hfound => ?_, h.functions⟩
      rcases SortedMap.find?_insert_cases hfound with rfl | hbefore
      · exact hnodes
      · exact h.calculated hbefore
    · exact h
  | function name parameters source =>
    unfold Scope.define orKeep
    dsimp only
    split
    · rename_i s' hdefined
      obtain ⟨-, body, -, hnodes, rfl⟩ := defineFunction_eq_ok hdefined
      refine ⟨h.calculated, fun hfound => ?_⟩
      rcases SortedMap.find?_insert_cases hfound with rfl | hbefore
      · exact hnodes
      · exact h.functions hbefore
    · exact h

theorem Checked.defineAll (h : s.Checked) (definitions : List Definition) : (s.defineAll definitions).Checked := by
  induction definitions generalizing s with
  | nil => exact h
  | cons d definitions ih => exact ih (h.define d)

/-- Every reachable scope is checked. -/
theorem Reachable.checked (h : s.Reachable) : s.Checked := by
  obtain ⟨overrides, process, definitions, rfl⟩ := h
  exact (checked_new overrides process).defineAll definitions

/-! ## §4 A sample -/

/-- Definitions of a variable, of a calculated variable, twice, and of a function that calls itself. The second
    calculated variable refers to a column and is refused. -/
def sampleDefinitions : List Definition :=
  [.default "d" "1", .calculated "c" "%d", .calculated "c" "$x", .function "f" ["n"] "&f(n+@c)"]

/-- The scope behind the sample definitions. -/
def sample : Scope :=
  (new ∅ ∅).defineAll sampleDefinitions

theorem reachable_sample : sample.Reachable :=
  ⟨∅, ∅, sampleDefinitions, rfl⟩

theorem sample_eq : sample = ⟨∅, ∅, ⟨[("d", "1")]⟩, ⟨[("c", .environment "d")]⟩,
    ⟨[("f", ⟨"f", ["n"], .call "f" [.binary .add (.parameter "n") (.calculated "c")]⟩)]⟩, .empty⟩ := by
  have hvariable : Expr.parse "%d" = .ok (.environment "d") := by cbv
  have hcolumn : Expr.parse "$x" = .ok (.column "x") := by cbv
  have hbody : Expr.parse "&f(n+@c)"
      = .ok (.call "f" [.binary .add (.parameter "n") (.calculated "c")]) := by cbv
  simp only [sample, sampleDefinitions, defineAll, List.foldl, define, defineCalculated, defineFunction, hvariable,
    hcolumn, hbody]
  rfl

end Scope

end BenchPlot
