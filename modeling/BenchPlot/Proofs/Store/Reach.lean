import BenchPlot.Proofs.Store.ImportSteps

/-!
# Reachable stores

An operation takes place at some time, and where it is refused the store stays as it was. A history is a
list of operations with their times; the reachable stores are those that histories lead to from new stores.
One operation keeps a store sound, so every reachable store is sound. Numbers of experiments are given away
in ascending order along a history.

Main statements: `Sound.apply`, `Sound.run` and `Reachable.sound`.
-/

namespace BenchPlot

/-! ## §1 Operations -/

/-- An operation that may change a store. -/
inductive Operation where
  | createBenchmark (name : String) (description : Option String)
  | ensureBenchmark (name : String)
  | renameBenchmark (old new : String)
  | setDescription (name : String) (description : Option String)
  | removeBenchmark (name : String)
  | addField (bench : String) (field : NewField)
  | removeField (bench field : String)
  | renameField (bench field new : String)
  | setNumeric (bench field : String) (flag : Bool)
  | setKey (bench field : String) (flag : Bool)
  | createIndex (bench name : String) (fields : List String)
  | dropIndex (bench name : String)
  | insert (bench : String) (values : SortedMap String String)
  | importCsv (bench : String) (bytes : List UInt8) (options : ImportOptions) (stop : Nat → Bool)
  | setOutlier (bench : String) (id : Int) (flag : Bool)
  | setOutlierWhere (bench condition : String) (flag : Bool)
  | delete (bench : String) (ids : List Int)
  | deleteWhere (bench condition : String)

namespace Store

/-- The store behind an operation: the changed one, or the old one where the operation was refused. -/
def orKeep (s : Store) (result : Except StoreError Store) : Store :=
  match result with
  | .ok s' => s'
  | .error _ => s

/-- The store behind an operation. -/
def apply (s : Store) : Operation → Store
  | .createBenchmark name description => s.orKeep ((s.createBenchmark name description).map (·.2))
  | .ensureBenchmark name => s.orKeep ((s.ensureBenchmark name).map (·.2))
  | .renameBenchmark old new => s.orKeep ((s.renameBenchmark old new).map (·.2))
  | .setDescription name description => s.orKeep (s.setDescription name description)
  | .removeBenchmark name => s.orKeep (s.removeBenchmark name)
  | .addField bench field => s.orKeep ((s.addField bench field).map (·.2))
  | .removeField bench field => s.orKeep (s.removeField bench field)
  | .renameField bench field new => s.orKeep ((s.renameField bench field new).map (·.2))
  | .setNumeric bench field flag => s.orKeep (s.setNumeric bench field flag)
  | .setKey bench field flag => s.orKeep (s.setKey bench field flag)
  | .createIndex bench name fields => s.orKeep ((s.createIndex bench name fields).map (·.2))
  | .dropIndex bench name => s.orKeep (s.dropIndex bench name)
  | .insert bench values => s.orKeep ((s.insert bench values).map (·.2))
  -- An import leaves its committed chunks behind, whatever its outcome.
  | .importCsv bench bytes options stop => (s.importCsv bench bytes options stop).store
  | .setOutlier bench id flag => s.orKeep (s.setOutlier bench id flag)
  | .setOutlierWhere bench condition flag => s.orKeep ((s.setOutlierWhere bench condition flag).map (·.2))
  | .delete bench ids => s.orKeep ((s.delete bench ids).map (·.2))
  | .deleteWhere bench condition => s.orKeep ((s.deleteWhere bench condition).map (·.2))

/-- The store at another time. -/
def atTime (s : Store) (clock : String) : Store :=
  { s with clock := clock }

/-- The store behind a history of operations with their times. -/
def run (s : Store) (history : List (String × Operation)) : Store :=
  history.foldl (fun s p => (s.atTime p.1).apply p.2) s

/-- A store is reachable iff a history leads to it from a new store. -/
def Reachable (s : Store) : Prop :=
  ∃ clock history, s = (new clock).run history

variable {s s' : Store}

theorem run_append (s : Store) (h₁ h₂ : List (String × Operation)) :
    s.run (h₁ ++ h₂) = (s.run h₁).run h₂ :=
  List.foldl_append

theorem Reachable.run (h : s.Reachable) (history : List (String × Operation)) :
    (s.run history).Reachable := by
  obtain ⟨clock, before, rfl⟩ := h
  exact ⟨clock, before ++ history, (run_append _ before history).symm⟩

/-- A history in which a benchmark gets a key field, an index and two experiments, one of them an outlier. -/
def sampleHistory : List (String × Operation) := [
  ("1", .addField "runs" ⟨"size", true, true, none⟩),
  ("2", .createIndex "runs" "by size" ["size"]),
  ("3", .insert "runs" (.ofList [("size", "1e1")])),
  ("4", .insert "runs" (.ofList [("size", "20")])),
  ("5", .setOutlier "runs" 2 true)]

/-- The store behind the sample history. -/
def sample : Store :=
  (new "0").run sampleHistory

theorem reachable_sample : sample.Reachable :=
  ⟨"0", sampleHistory, rfl⟩

/-! ## §2 Sound stores -/

/-- What every accepted operation gives and the store already has, the store behind the operation has. -/
theorem orKeep_induction {P : Store → Prop} {result : Except StoreError Store} (hs : P s)
    (hok : ∀ s', result = .ok s' → P s') : P (s.orKeep result) := by
  cases result with
  | ok s' => exact hok s' rfl
  | error e => exact hs

theorem orKeep_map_induction {α : Type} {P : Store → Prop} {result : Except StoreError (α × Store)}
    (hs : P s) (hok : ∀ a s', result = .ok (a, s') → P s') : P (s.orKeep (result.map (·.2))) := by
  cases result with
  | ok p => exact hok p.1 p.2 rfl
  | error e => exact hs

theorem Sound.apply (h : s.Sound) (op : Operation) : (s.apply op).Sound := by
  cases op with
  | createBenchmark => exact orKeep_map_induction h fun _ _ => h.createBenchmark
  | ensureBenchmark => exact orKeep_map_induction h fun _ _ => h.ensureBenchmark
  | renameBenchmark => exact orKeep_map_induction h fun _ _ => h.renameBenchmark
  | setDescription => exact orKeep_induction h fun _ => h.setDescription
  | removeBenchmark => exact orKeep_induction h fun _ => h.removeBenchmark
  | addField => exact orKeep_map_induction h fun _ _ => h.addField
  | removeField => exact orKeep_induction h fun _ => h.removeField
  | renameField => exact orKeep_map_induction h fun _ _ => h.renameField
  | setNumeric => exact orKeep_induction h fun _ => h.setNumeric
  | setKey => exact orKeep_induction h fun _ => h.setKey
  | createIndex => exact orKeep_map_induction h fun _ _ => h.createIndex
  | dropIndex => exact orKeep_induction h fun _ => h.dropIndex
  | insert => exact orKeep_map_induction h fun _ _ => h.insert
  | importCsv bench bytes options stop => exact h.importCsv bench bytes options stop
  | setOutlier => exact orKeep_induction h fun _ => h.setOutlier
  | setOutlierWhere => exact orKeep_map_induction h fun _ _ => h.setOutlierWhere
  | delete => exact orKeep_map_induction h fun _ _ => h.delete
  | deleteWhere => exact orKeep_map_induction h fun _ _ => h.deleteWhere

theorem Sound.atTime (h : s.Sound) (clock : String) : (s.atTime clock).Sound :=
  h.of_sameContent ⟨rfl, rfl, rfl, rfl, rfl, rfl⟩

theorem Sound.run (h : s.Sound) (history : List (String × Operation)) : (s.run history).Sound := by
  -- Along the history, for any store that it starts from.
  induction history generalizing s with
  | nil => exact h
  | cons p rest ih => exact ih ((h.atTime p.1).apply p.2)

/-- Every reachable store is sound. -/
theorem Reachable.sound (h : s.Reachable) : s.Sound := by
  obtain ⟨clock, history, rfl⟩ := h
  exact (sound_new clock).run history

end Store

end BenchPlot
