import BenchPlot.Command.Arguments
import BenchPlot.Command.Run
import BenchPlot.Proofs.Command.StoreFiles
import BenchPlot.Proofs.Store.BulkChanges

/-!
# Experiments marked in turn

A command that marks experiments by their numbers takes them one after the other, and keeps the store after each. So
where all numbers are known, the listed experiments are marked and nothing else is changed; but where one is unknown,
the command fails and those in front of it stay marked. Marks by a condition and deletions are one step each, and leave
a store as it was if they fail.

Main statement: `markCommand_inTurn`.
-/

namespace BenchPlot

namespace Store

variable {s s' : Store} {b : Benchmark} {written : String} {flag : Bool} {id : Int} {ids : List Int}

/-! ## §1 One experiment -/

/-- A benchmark has an experiment with a number. -/
def HasExperiment (s : Store) (b : Benchmark) (id : Int) : Prop :=
  ∃ e ∈ s.experimentsOf b, (e.id : Int) = id

instance : Decidable (s.HasExperiment b id) :=
  inferInstanceAs (Decidable (∃ e ∈ s.experimentsOf b, (e.id : Int) = id))

theorem listedCount_eq_zero_iff : s.listedCount b [id] = 0 ↔ ¬s.HasExperiment b id := by
  unfold listedCount HasExperiment
  rw [List.countP_eq_zero]
  simp

/-- An experiment that is there is marked. -/
theorem setOutlier_known (hb : s.benchmark written = .ok b) (h : s.HasExperiment b id) (flag : Bool) :
    s.setOutlier written id flag = .ok (s.mark b [id] flag).touch := by
  have hcount : s.listedCount b [id] ≠ 0 := fun hzero => listedCount_eq_zero_iff.mp hzero h
  simp only [setOutlier, hb, hcount, if_false, bind, Except.bind]
  rfl

/-- An experiment that is not there is refused by its name. -/
theorem setOutlier_unknown (hb : s.benchmark written = .ok b) (h : ¬s.HasExperiment b id) (flag : Bool) :
    s.setOutlier written id flag = .error (.notFound .experiment s!"{b.name}#{id}") := by
  have hcount : s.listedCount b [id] = 0 := listedCount_eq_zero_iff.mpr h
  simp only [setOutlier, hb, hcount, if_true, bind, Except.bind]
  rfl

theorem setOutlier_error {e : StoreError} (hb : s.benchmark written = .error e) (id : Int) (flag : Bool) :
    s.setOutlier written id flag = .error e := by
  simp only [setOutlier, hb, bind, Except.bind]

/-- Marking changes neither which experiments there are nor their numbers. -/
theorem hasExperiment_mark : (s.mark b ids flag).HasExperiment b id ↔ s.HasExperiment b id := by
  have hmarked : (s.mark b ids flag).experimentsOf b = (s.experimentsOf b).map (markedExperiment ids flag) :=
    congrArg Holding.experiments (mark_holding s b ids flag)
  have hid : ∀ e : Experiment, (markedExperiment ids flag e).id = e.id := by
    intro e
    unfold markedExperiment
    split <;> rfl
  unfold HasExperiment
  simp only [hmarked, List.mem_map, exists_exists_and_eq_and, hid]

/-! ## §2 One after the other -/

/-- The store behind the marking of experiments one after the other. -/
def markedInTurn (s : Store) (b : Benchmark) (flag : Bool) (ids : List Int) : Store :=
  ids.foldl (fun s id => (s.mark b [id] flag).touch) s

/-- A change of the elements of one kind and then of another is one of the elements of either kind, if no change
    makes a difference to the second kind or to a further change. -/
theorem ite_or_eq {α : Type} {p q : α → Bool} {f : α → α} (hq : ∀ a, q (f a) = q a) (hf : ∀ a, f (f a) = f a)
    (a : α) : (if p a || q a then f a else a)
      = if q (if p a then f a else a) then f (if p a then f a else a) else if p a then f a else a := by
  cases hp : p a <;> cases hqa : q a <;> simp [hqa, hq, hf]

/-- Two lists of numbers are marked one behind the other. -/
theorem mark_append (s : Store) (b : Benchmark) (ids more : List Int) (flag : Bool) :
    s.mark b (ids ++ more) flag = (s.mark b ids flag).mark b more flag := by
  have hexperiment := ite_or_eq (p := fun e : Experiment => e.benchmark == b.id && ids.contains (e.id : Int))
    (q := fun e : Experiment => e.benchmark == b.id && more.contains (e.id : Int))
    (f := fun e => { e with outlier := flag }) (fun _ => rfl) (fun _ => rfl)
  have hrow := ite_or_eq (p := fun r : WideRow => ids.contains (r.experiment : Int))
    (q := fun r : WideRow => more.contains (r.experiment : Int)) (f := fun r => { r with outlier := flag })
    (fun _ => rfl) (fun _ => rfl)
  unfold mark updateTable
  simp only [List.map_map]
  congr 1
  · apply List.map_congr_left
    intro e _
    rw [List.contains_append, Bool.and_or_distrib_left]
    exact hexperiment e
  · apply List.map_congr_left
    intro t _
    rw [Function.comp_apply]
    by_cases hname : t.name == b.table
    · simp only [hname, if_true, List.map_map, List.contains_append]
      congr 1
      exact List.map_congr_left fun r _ => hrow r
    · simp [hname]

/-- What is marked one after the other could as well be marked at once. -/
theorem markedInTurn_eq (s : Store) (b : Benchmark) (flag : Bool) (hids : ids ≠ []) :
    s.markedInTurn b flag ids = (s.mark b ids flag).touch := by
  induction ids generalizing s with
  | nil => exact absurd rfl hids
  | cons id rest ih =>
    cases rest with
    | nil => rfl
    | cons next rest =>
      have hrest : s.markedInTurn b flag (id :: next :: rest)
          = (s.mark b [id] flag).touch.markedInTurn b flag (next :: rest) := rfl
      -- Of the times of change that the steps leave, only the last one stays.
      have htouched : ((s.mark b [id] flag).touch.mark b (next :: rest) flag).touch
          = ((s.mark b [id] flag).mark b (next :: rest) flag).touch :=
        ((s.mark b [id] flag).mark b (next :: rest) flag).touch_touch
      rw [hrest, ih _ (List.cons_ne_nil _ _), htouched, ← mark_append, List.singleton_append]

/-- Marking does not change which benchmarks there are. -/
theorem benchmark_markedInTurn (s : Store) (b : Benchmark) (flag : Bool) (ids : List Int) (written : String) :
    (s.markedInTurn b flag ids).benchmark written = s.benchmark written := by
  induction ids generalizing s with
  | nil => rfl
  | cons id rest ih => exact ih (s.mark b [id] flag).touch

theorem hasExperiment_markedInTurn : (s.markedInTurn b flag ids).HasExperiment b id ↔ s.HasExperiment b id := by
  induction ids generalizing s with
  | nil => exact Iff.rfl
  | cons next rest ih => exact (ih (s := (s.mark b [next] flag).touch)).trans hasExperiment_mark

/-- What a command that marks experiments by their numbers ends with, and the store that it leaves. -/
inductive MarksInTurn (s : Store) (written : String) (flag : Bool) : List Int → CommandResult → Store → Prop
  /-- Without a number the command is refused. -/
  | nothingChosen : MarksInTurn s written flag [] (.error ⟨none, .nothingChosen⟩) s
  /-- If the benchmark is not there, the first number fails. -/
  | unknownBenchmark {e : StoreError} {id : Int} {back : List Int} (hb : s.benchmark written = .error e) :
      MarksInTurn s written flag (id :: back) (.error ⟨some (.updateExperiment id written), .store e⟩) s
  /-- If all numbers are known, exactly the listed experiments are marked. -/
  | marked {b : Benchmark} {ids : List Int} {s' : Store} (hb : s.benchmark written = .ok b) (hids : ids ≠ [])
      (hknown : ∀ id ∈ ids, s.HasExperiment b id) (hflags : Flags s s' b (s.listed b ids) flag) :
      MarksInTurn s written flag ids (.ok "") s'
  /-- If the first number is unknown, nothing is changed. -/
  | unknownFirst {b : Benchmark} {id : Int} {back : List Int} (hb : s.benchmark written = .ok b)
      (hunknown : ¬s.HasExperiment b id) :
      MarksInTurn s written flag (id :: back)
        (.error ⟨some (.updateExperiment id written), .store (.notFound .experiment s!"{b.name}#{id}")⟩) s
  /-- If a later number is unknown, exactly the experiments listed in front of it are marked. -/
  | unknownLater {b : Benchmark} {front : List Int} {id : Int} {back : List Int} {s' : Store}
      (hb : s.benchmark written = .ok b) (hfront : front ≠ []) (hknown : ∀ i ∈ front, s.HasExperiment b i)
      (hunknown : ¬s.HasExperiment b id) (hflags : Flags s s' b (s.listed b front) flag) :
      MarksInTurn s written flag (front ++ id :: back)
        (.error ⟨some (.updateExperiment id written), .store (.notFound .experiment s!"{b.name}#{id}")⟩) s'

end Store

/-! ## §3 The command -/

/-- The command that marks experiments by their numbers, or takes the marks off them. -/
def markCommand (path written : String) (ids : List Int) (flag : Bool) : Command :=
  ⟨path, .outlier (.mark written ⟨ids, none⟩ flag)⟩

namespace Workspace

open Store

variable {w : Workspace} {path written : String} {s : Store} {b : Benchmark} {flag : Bool} {id : Int} {ids : List Int}

/-- The command opens the store and goes through the numbers. -/
theorem runIn_markCommand (hs : w.storeAt? path = some s) (hids : ids ≠ []) :
    (markCommand path written ids flag).runIn w
      = (do markEach path written flag ids s; pure "" : Session String).run (w.keeping path s) := by
  obtain ⟨id, rest, rfl⟩ := List.exists_cons_of_ne_nil hids
  exact Session.run_bind_ok (openStore_of_storeAt? hs)

theorem runIn_markCommand_nil (hs : w.storeAt? path = some s) :
    (markCommand path written [] flag).runIn w = (.error ⟨none, .nothingChosen⟩, w.keeping path s) :=
  Session.run_bind_ok (openStore_of_storeAt? hs)

/-- A number that is refused ends the command, and the files stay as they are. -/
theorem markEach_error {e : StoreError} (h : s.setOutlier written id flag = .error e) (back : List Int) :
    (markEach path written flag (id :: back) s).run w = (.error ⟨some (.updateExperiment id written), .store e⟩, w) := by
  unfold markEach
  rw [h]
  rfl

/-- A number that is known is marked in the file, and the next ones follow. -/
theorem markEach_known (hb : s.benchmark written = .ok b) (h : s.HasExperiment b id) (rest : List Int) :
    (markEach path written flag (id :: rest) s).run w
      = (markEach path written flag rest (s.mark b [id] flag).touch).run
          (w.keeping path (s.mark b [id] flag).touch) := by
  rw [markEach, setOutlier_known hb h flag]
  exact Session.run_bind_ok (saveStore_run w path _)

/-- Numbers that are known are marked in the file one after the other. -/
theorem Holds.markEach_front (hw : w.Holds path s) (hb : s.benchmark written = .ok b) {front : List Int}
    (hfront : ∀ id ∈ front, s.HasExperiment b id) (flag : Bool) :
    ∃ w' : Workspace, w'.Holds path (s.markedInTurn b flag front)
      ∧ ∀ rest, (markEach path written flag (front ++ rest) s).run w
          = (markEach path written flag rest (s.markedInTurn b flag front)).run w' := by
  -- Along the numbers, for any workspace and the store that it holds.
  induction front generalizing s w with
  | nil => exact ⟨w, hw, fun _ => rfl⟩
  | cons id front ih =>
    obtain ⟨hid, hmore⟩ := List.forall_mem_cons.mp hfront
    have hsound := (hw.sound.mark (mem_of_benchmark_eq_ok hb) [id] flag).touch
    have hpresent : (s.mark b [id] flag).touch.IsPresent := (hw.present.congr rfl).touch
    obtain ⟨w', hw', hrest⟩ := ih (hw.keeping hsound hpresent rfl) (s := (s.mark b [id] flag).touch) hb
      fun i hi => hasExperiment_mark.mpr (hmore i hi)
    exact ⟨w', hw', fun rest => (markEach_known hb hid (front ++ rest)).trans (hrest rest)⟩

/-- The command on numbers that are all known. -/
theorem Holds.runIn_known (hw : (w.keeping path s).Holds path s) (hs : w.storeAt? path = some s)
    (hb : s.benchmark written = .ok b) (hids : ids ≠ []) (hknown : ∀ id ∈ ids, s.HasExperiment b id) (flag : Bool) :
    ∃ w' : Workspace, (markCommand path written ids flag).runIn w = (.ok "", w')
      ∧ w'.Holds path (s.markedInTurn b flag ids) := by
  obtain ⟨w', hw', hrest⟩ := hw.markEach_front hb hknown flag
  have hall : (markEach path written flag ids s).run (w.keeping path s) = (.ok (), w') := by
    have hnil := hrest []
    rw [List.append_nil] at hnil
    exact hnil
  exact ⟨w', (runIn_markCommand hs hids).trans (Session.run_bind_ok hall), hw'⟩

/-- The command on numbers of which one is unknown and those in front of it are known. -/
theorem Holds.runIn_unknown (hw : (w.keeping path s).Holds path s) (hs : w.storeAt? path = some s)
    (hb : s.benchmark written = .ok b) {front : List Int} (hknown : ∀ i ∈ front, s.HasExperiment b i)
    (hunknown : ¬s.HasExperiment b id) (back : List Int) (flag : Bool) :
    ∃ w' : Workspace, (markCommand path written (front ++ id :: back) flag).runIn w
        = (.error ⟨some (.updateExperiment id written), .store (.notFound .experiment s!"{b.name}#{id}")⟩, w')
      ∧ w'.Holds path (s.markedInTurn b flag front) := by
  obtain ⟨w', hw', hrest⟩ := hw.markEach_front hb hknown flag
  have hbench : (s.markedInTurn b flag front).benchmark written = .ok b := (benchmark_markedInTurn ..).trans hb
  have hrefused := setOutlier_unknown hbench (hasExperiment_markedInTurn.not.mpr hunknown) flag
  have hfailed := (hrest (id :: back)).trans (markEach_error hrefused back)
  exact ⟨w', (runIn_markCommand hs (by simp)).trans (Session.run_bind_error hfailed), hw'⟩

/-- A store that has a benchmark is kept in a file. -/
theorem kept_of_benchmark (hs : w.storeAt? path = some s) (hb : b ∈ s.benchmarks) : path ≠ Session.memoryPath := by
  rintro rfl
  obtain rfl := Option.some.inj (hs.symm.trans w.storeAt?_memoryPath)
  exact absurd hb List.not_mem_nil

/-- A command that leaves the store as it was, leaves the store that it got. -/
theorem storeAt?_keeping (hs : w.storeAt? path = some s) (hsound : s.Sound) :
    (w.keeping path s).storeAt? path = some s := by
  by_cases hkept : path = Session.memoryPath
  · rw [keeping, if_pos hkept]
    exact hs
  · exact (holds_of_storeAt? hkept hs hsound).storeAt?

/-- In a workspace with a store that a history leads to, a command marks experiments by their numbers one after the
    other, and the next command gets what is marked by then, whether this one failed or not. -/
theorem markCommand_inTurn (h : s.Reachable) (hs : w.storeAt? path = some s) (written : String) (ids : List Int)
    (flag : Bool) : ∃ s', ((markCommand path written ids flag).runIn w).2.storeAt? path = some s'
      ∧ s.MarksInTurn written flag ids ((markCommand path written ids flag).runIn w).1 s' := by
  have hsound := h.sound
  have hunchanged := storeAt?_keeping hs hsound
  cases ids with
  | nil =>
    rw [runIn_markCommand_nil hs]
    exact ⟨s, hunchanged, .nothingChosen⟩
  | cons first rest =>
    cases hb : s.benchmark written with
    | error e =>
      have hrun := (runIn_markCommand hs (List.cons_ne_nil first rest)).trans
        (Session.run_bind_error (markEach_error (setOutlier_error hb first flag) rest))
      rw [hrun]
      exact ⟨s, hunchanged, .unknownBenchmark hb⟩
    | ok b =>
      have hmem := mem_of_benchmark_eq_ok hb
      have hw := holds_of_storeAt? (kept_of_benchmark hs hmem) hs hsound
      have hflags : ∀ numbers, numbers ≠ [] →
          Flags s (s.markedInTurn b flag numbers) b (s.listed b numbers) flag := by
        intro numbers hnumbers
        rw [markedInTurn_eq s b flag hnumbers]
        exact hsound.flags hmem numbers flag
      -- The list is cut at the first number that is unknown, if there is one.
      cases hfind : (first :: rest).find? fun id => !decide (s.HasExperiment b id) with
      | none =>
        have hknown : ∀ id ∈ first :: rest, s.HasExperiment b id := by simpa using List.find?_eq_none.mp hfind
        obtain ⟨w', hrun, hw'⟩ := hw.runIn_known hs hb (List.cons_ne_nil first rest) hknown flag
        rw [hrun]
        exact ⟨_, hw'.storeAt?, .marked hb (List.cons_ne_nil _ _) hknown (hflags _ (List.cons_ne_nil _ _))⟩
      | some id =>
        obtain ⟨hid, front, back, hids, hfront⟩ := List.find?_eq_some_iff_append.mp hfind
        have hunknown : ¬s.HasExperiment b id := by simpa using hid
        have hknown : ∀ i ∈ front, s.HasExperiment b i := by simpa using hfront
        obtain ⟨w', hrun, hw'⟩ := hw.runIn_unknown hs hb hknown hunknown back flag
        rw [hids, hrun]
        refine ⟨_, hw'.storeAt?, ?_⟩
        cases front with
        | nil => exact .unknownFirst hb hunknown
        | cons i front =>
          exact .unknownLater hb (List.cons_ne_nil _ _) hknown hunknown (hflags _ (List.cons_ne_nil _ _))

/-! ## §4 A workspace with two experiments -/

/-- A workspace whose only file is the sample store. -/
def sampleWorkspace : Workspace :=
  keeping ⟨⟨[], ∅⟩, ∅, sample.clock⟩ defaultStorePath sample

theorem holds_sampleWorkspace : sampleWorkspace.Holds defaultStorePath sample :=
  holds_keeping (by decide) (by decide) reachable_sample.sound (by unfold IsPresent; decide +kernel) rfl

theorem markCommand_inTurn_sample : sample.Reachable ∧ sampleWorkspace.storeAt? defaultStorePath = some sample
    ∧ ∃ s', ((markCommand defaultStorePath "runs" [2, 1, 2] false).runIn sampleWorkspace).2.storeAt? defaultStorePath
        = some s'
      ∧ sample.MarksInTurn "runs" false [2, 1, 2]
          ((markCommand defaultStorePath "runs" [2, 1, 2] false).runIn sampleWorkspace).1 s' :=
  ⟨reachable_sample, holds_sampleWorkspace.storeAt?,
    markCommand_inTurn reachable_sample holds_sampleWorkspace.storeAt? "runs" [2, 1, 2] false⟩

/-- The first experiment is no outlier; a command fails that marks it and one that is not there; then it is one. -/
theorem halfMarked_sample : Command.parse ["outlier", "set", "runs", "--id", "1", "--id", "9"]
      = .ok (markCommand defaultStorePath "runs" [1, 9] true)
    ∧ (sampleWorkspace.storeAt? defaultStorePath).map (·.isOutlier "runs" 1) = some (.ok false)
    ∧ ∃ failure w', (markCommand defaultStorePath "runs" [1, 9] true).runIn sampleWorkspace = (.error failure, w')
      ∧ (w'.storeAt? defaultStorePath).map (·.isOutlier "runs" 1) = some (.ok true) := by
  have hs := holds_sampleWorkspace.storeAt?
  have hw := holds_of_storeAt? holds_sampleWorkspace.kept hs reachable_sample.sound
  have hb : sample.benchmark "runs" = .ok ⟨1, "RUNS", none⟩ := by decide +kernel
  have hknown : ∀ i ∈ [1], sample.HasExperiment ⟨1, "RUNS", none⟩ i := by decide +kernel
  have hunknown : ¬sample.HasExperiment ⟨1, "RUNS", none⟩ 9 := by decide +kernel
  have hbefore : sample.isOutlier "runs" 1 = .ok false := by decide +kernel
  have hafter : (sample.markedInTurn ⟨1, "RUNS", none⟩ true [1]).isOutlier "runs" 1 = .ok true := by decide +kernel
  obtain ⟨w', hrun, hw'⟩ := hw.runIn_unknown hs hb hknown hunknown [] true
  refine ⟨rfl, ?_, _, w', hrun, ?_⟩
  · rw [hs, Option.map_some, hbefore]
  · rw [hw'.storeAt?, Option.map_some, hafter]

end Workspace

end BenchPlot
