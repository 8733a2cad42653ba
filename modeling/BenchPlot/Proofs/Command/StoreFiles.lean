import BenchPlot.Command.Session
import BenchPlot.Proofs.Store.Archived

/-!
# Stores in their files

A command works on the store in the file at a path. Opening a store puts it into the file as it is used, and what a
step keeps in the file is what the next command opens.

Main statements: `Workspace.openStore_run`, `Workspace.Holds.openStore` and `Workspace.Holds.keeping`.
-/

namespace BenchPlot

/-! ## §1 Opened stores -/

namespace Store

variable {s s' : Store}

theorem find?_putEntry (key value other : String) (l : List (String × String)) :
    ((putEntry key value l).find? (·.1 == other)).map (·.2)
      = if key = other then some value else (l.find? (·.1 == other)).map (·.2) := by
  induction l with
  | nil => by_cases h : key = other <;> simp [putEntry, h]
  | cons e rest ih =>
    obtain ⟨k, v⟩ := e
    by_cases hk : k = key
    · subst hk
      by_cases h : k = other <;> simp [putEntry, h]
    · by_cases h : k = other
      · subst h
        simp [putEntry, hk, Ne.symm hk]
      · simpa [putEntry, hk, h] using ih

theorem metadata?_putMetadata (s : Store) (key value other : String) :
    (s.putMetadata key value).metadata? other = if key = other then some value else s.metadata? other :=
  find?_putEntry key value other s.metadata

/-- A store has the present version. -/
def IsPresent (s : Store) : Prop :=
  (s.metadata? "schema_version_major").getD "" ++ "." ++ (s.metadata? "schema_version_minor").getD ""
    = schemaVersionText

theorem IsPresent.congr (h : s.IsPresent) (hsame : s'.metadata = s.metadata) : s'.IsPresent := by
  unfold IsPresent metadata? at h ⊢
  rwa [hsame]

theorem IsPresent.touch (h : s.IsPresent) : s.touch.IsPresent := by
  rw [IsPresent, Store.touch, metadata?_putMetadata, metadata?_putMetadata, if_neg (by decide), if_neg (by decide)]
  exact h

/-- A store of the present version is used as it is. -/
theorem IsPresent.opened (h : s.IsPresent) : s.opened = .ok s := by
  unfold IsPresent at h
  unfold Store.opened
  split
  · rename_i hmajor hminor
    rw [hmajor, hminor] at h
    exact absurd h (by decide)
  · exact if_pos h

/-- What is used has the present version, and the time at which it is used. -/
theorem of_opened (h : s.opened = .ok s') : s'.IsPresent ∧ s'.clock = s.clock := by
  unfold Store.opened at h
  split at h
  · -- A new store gets the version, and the times that it gets as well stand under other keys.
    obtain rfl := Except.ok.inj h
    refine ⟨?_, rfl⟩
    simp only [IsPresent, metadata?_putMetadata, String.reduceEq, if_true, if_false, Option.getD_some]
    decide
  · rcases ite_eq_iff.mp h with ⟨hversion, hok⟩ | ⟨-, herror⟩
    · obtain rfl := Except.ok.inj hok
      exact ⟨hversion, rfl⟩
    · cases herror

end Store

/-! ## §2 Steps of a session -/

namespace Session

variable {α β : Type} {x : Session α} {f : α → Session β} {a : α} {e : CommandFailure} {w w' : Workspace}

theorem run_bind (x : Session α) (f : α → Session β) (w : Workspace) :
    (x >>= f).run w = ExceptT.bindCont f (x.run w).1 (x.run w).2 :=
  rfl

/-- A step that goes well is followed by the next one, in the workspace that it leaves. -/
theorem run_bind_ok (h : x.run w = (.ok a, w')) : (x >>= f).run w = (f a).run w' := by
  rw [run_bind, h]
  rfl

/-- A step that fails is the last one. -/
theorem run_bind_error (h : x.run w = (.error e, w')) : (x >>= f).run w = (.error e, w') := by
  rw [run_bind, h]
  rfl

end Session

/-! ## §3 Workspaces -/

theorem FileTree.node?_put {α : Type} (t : FileTree α) {place : List String} (h : place ≠ []) (node : FileNode α) :
    (t.put place node).node? place = some node := by
  unfold node?
  rw [if_neg (by simpa using h)]
  exact SortedMap.find?_insert_self ..

namespace Workspace

variable {w : Workspace} {path : String} {s s' : Store}

/-- The workspace with a store in the file at a path, if stores at this path are kept in a file. -/
def keeping (w : Workspace) (path : String) (s : Store) : Workspace :=
  if path = Session.memoryPath then w
  else { w with files := w.files.put (w.files.plainPlace path) (.file s.toBytes) }

/-- The store that a command finds at a path. -/
def found? (w : Workspace) (path : String) : Option Store :=
  if path = Session.memoryPath then some (.blank w.clock)
  else Session.archived? w.files (w.files.plainPlace path) w.clock

theorem saveStore_run (w : Workspace) (path : String) (s : Store) :
    (Session.saveStore path s).run w = (.ok (), w.keeping path s) := by
  unfold Session.saveStore keeping
  by_cases h : path = Session.memoryPath
  · rw [if_neg (not_not.mpr h), if_pos h]
    rfl
  · rw [if_pos h, if_neg h]
    rfl

/-- A store is opened if there is one of the present version, and is put into its file. -/
theorem openStore_run (w : Workspace) (path : String) : (Session.openStore path).run w =
    match w.found? path with
    | none => (.error ⟨some (.openStore path), .store .query⟩, w)
    | some s => match s.opened with
      | .error e => (.error ⟨some (.openStore path), .store e⟩, w)
      | .ok s => (.ok s, w.keeping path s) := by
  have hfound : (Session.openStore path).run w = (match w.found? path with
    | none => Session.fail (some (.openStore path)) (.store .query)
    | some s => do
      let s ← Session.ofExcept (some (.openStore path)) .store s.opened
      Session.saveStore path s
      pure s : Session Store).run w := rfl
  rw [hfound]
  cases w.found? path with
  | none => rfl
  | some s =>
    cases hopened : s.opened with
    | error e =>
      simp only [hopened]
      rfl
    | ok s' =>
      simp only [hopened]
      exact Session.run_bind_ok (saveStore_run w path s')

/-- The store at a path, as a command gets it. -/
def storeAt? (w : Workspace) (path : String) : Option Store :=
  ((Session.openStore path).run w).1.toOption

theorem storeAt?_eq_some_iff :
    w.storeAt? path = some s ↔ ∃ found, w.found? path = some found ∧ found.opened = .ok s := by
  unfold storeAt?
  rw [openStore_run]
  cases w.found? path with
  | none => simp [Except.toOption]
  | some found => cases hopened : found.opened <;> simp [Except.toOption, hopened]

/-- A command that gets a store has put it into its file. -/
theorem openStore_of_storeAt? (h : w.storeAt? path = some s) :
    (Session.openStore path).run w = (.ok s, w.keeping path s) := by
  obtain ⟨found, hfound, hopened⟩ := storeAt?_eq_some_iff.mp h
  rw [openStore_run, hfound]
  simp only [hopened]

/-- The file at a path holds a store as it is used. -/
structure Holds (w : Workspace) (path : String) (s : Store) : Prop where
  kept : path ≠ Session.memoryPath
  place : w.files.plainPlace path ≠ []
  file : w.files.node? (w.files.plainPlace path) = some (.file s.toBytes)
  sound : s.Sound
  present : s.IsPresent
  clock : s.clock = w.clock

theorem archived?_of_file {t : FileTree (List UInt8)} {place : List String} {bytes : List UInt8}
    (hfile : t.node? place = some (.file bytes)) (hbytes : bytes ≠ []) (clock : String) :
    Session.archived? t place clock = Store.ofBytes? clock bytes := by
  unfold Session.archived?
  rw [hfile]
  cases bytes with
  | nil => exact absurd rfl hbytes
  | cons first rest => rfl

/-- What the file holds is what a command gets. -/
theorem Holds.storeAt? (h : w.Holds path s) : w.storeAt? path = some s := by
  have hread : Store.ofBytes? w.clock s.toBytes = some s := by
    rw [h.sound.ofBytes?_toBytes, ← h.clock]
    rfl
  -- An archive has a title, so the file is not taken for that of a new store.
  have hfound : w.found? path = some s := by
    rw [found?, if_neg h.kept, archived?_of_file h.file s.toBytes_ne_nil, hread]
  exact storeAt?_eq_some_iff.mpr ⟨s, hfound, h.present.opened⟩

/-- What is found at a path has the time of the workspace. -/
theorem clock_of_found? (h : w.found? path = some s) : s.clock = w.clock := by
  unfold found? at h
  split at h
  · obtain rfl := Option.some.inj h
    rfl
  · unfold Session.archived? at h
    split at h
    · obtain rfl := Option.some.inj h
      rfl
    · exact Store.clock_of_ofBytes? h
    · obtain rfl := Option.some.inj h
      rfl
    · cases h

/-- No store is found at the root of all files. -/
theorem plainPlace_of_found? (hkept : path ≠ Session.memoryPath) (h : w.found? path = some s) :
    w.files.plainPlace path ≠ [] := by
  intro hroot
  rw [found?, if_neg hkept, hroot] at h
  cases h

/-- What a step keeps in the file, the file holds. -/
theorem holds_keeping (hkept : path ≠ Session.memoryPath) (hplace : w.files.plainPlace path ≠ []) (hsound : s.Sound)
    (hpresent : s.IsPresent) (hclock : s.clock = w.clock) : (w.keeping path s).Holds path s := by
  unfold keeping
  rw [if_neg hkept]
  exact ⟨hkept, hplace, FileTree.node?_put _ hplace _, hsound, hpresent, hclock⟩

theorem Holds.keeping (h : w.Holds path s) (hsound : s'.Sound) (hpresent : s'.IsPresent)
    (hclock : s'.clock = s.clock) : (w.keeping path s').Holds path s' :=
  holds_keeping h.kept h.place hsound hpresent (hclock.trans h.clock)

/-- The file holds the store that a command got. -/
theorem holds_of_storeAt? (hkept : path ≠ Session.memoryPath) (h : w.storeAt? path = some s) (hsound : s.Sound) :
    (w.keeping path s).Holds path s := by
  obtain ⟨found, hfound, hopened⟩ := storeAt?_eq_some_iff.mp h
  obtain ⟨hpresent, hclock⟩ := Store.of_opened hopened
  exact holds_keeping hkept (plainPlace_of_found? hkept hfound) hsound hpresent (hclock.trans (clock_of_found? hfound))

/-- A store that is kept in no file is a new one each time. -/
theorem storeAt?_memoryPath (w : Workspace) : w.storeAt? Session.memoryPath = some (.new w.clock) :=
  storeAt?_eq_some_iff.mpr ⟨.blank w.clock, if_pos rfl, rfl⟩

end Workspace

end BenchPlot
