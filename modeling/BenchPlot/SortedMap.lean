/-!
# Sorted maps

Finite maps kept as lists of entries in the order of their keys. Two keys are the same iff they
compare as equal; an insertion under a key that is present keeps the old key and takes the new value.

Main statements: `find?_insert_self` and `find?_insert_of_ne` say what a map holds after an insertion,
for keys that are lawfully ordered.
-/

namespace BenchPlot

/-- A finite map from `κ` to `α`, its entries in ascending order of the keys. -/
structure SortedMap (κ α : Type) where
  entries : List (κ × α)
  deriving Repr, DecidableEq

namespace SortedMap

variable {κ α β : Type} [Ord κ]

/-! ## §1 Operations -/

/-- The map without entries. -/
def empty : SortedMap κ α := ⟨[]⟩

instance : EmptyCollection (SortedMap κ α) := ⟨empty⟩

instance : Inhabited (SortedMap κ α) := ⟨empty⟩

/-- Changes the value under a key, in a list of entries: `f` gets the present value, if any. -/
def alterEntries (k : κ) (f : Option α → α) : List (κ × α) → List (κ × α)
  | [] => [(k, f none)]
  | (k', a) :: rest =>
    match compare k k' with
    | .lt => (k, f none) :: (k', a) :: rest
    | .eq => (k', f (some a)) :: rest
    | .gt => (k', a) :: alterEntries k f rest

/-- Puts a value under a key that depends on the value that is there, if any. -/
def alter (m : SortedMap κ α) (k : κ) (f : Option α → α) : SortedMap κ α :=
  ⟨alterEntries k f m.entries⟩

/-- Puts a value under a key. -/
def insert (m : SortedMap κ α) (k : κ) (a : α) : SortedMap κ α :=
  m.alter k fun _ => a

/-- The value under a key, if there is one. -/
def find? (m : SortedMap κ α) (k : κ) : Option α :=
  (m.entries.find? fun entry => compare k entry.1 == .eq).map (·.2)

/-- Whether there is a value under a key. -/
def contains (m : SortedMap κ α) (k : κ) : Bool :=
  (m.find? k).isSome

/-- The keys in ascending order. -/
def keys (m : SortedMap κ α) : List κ :=
  m.entries.map (·.1)

/-- The values in the order of their keys. -/
def values (m : SortedMap κ α) : List α :=
  m.entries.map (·.2)

/-- Whether the map has no entries. -/
def isEmpty (m : SortedMap κ α) : Bool :=
  m.entries.isEmpty

/-- The map of a list of entries; of two entries under one key the later wins. -/
def ofList (l : List (κ × α)) : SortedMap κ α :=
  l.foldl (fun m entry => m.insert entry.1 entry.2) empty

/-- All entries of `n` put into `m`. -/
def union (m n : SortedMap κ α) : SortedMap κ α :=
  n.entries.foldl (fun m entry => m.insert entry.1 entry.2) m

/-! ## §2 Laws -/

/-- After an insertion the key holds the new value. -/
theorem find?_insert_self [Std.ReflOrd κ] (m : SortedMap κ α) (k : κ) (a : α) :
    (m.insert k a).find? k = some a := by
  obtain ⟨entries⟩ := m
  simp only [insert, alter, find?]
  induction entries with
  | nil => simp [alterEntries]
  | cons entry rest ih =>
    obtain ⟨k', a'⟩ := entry
    simp only [alterEntries]
    split
    · -- The key stands before all others.
      simp
    · -- The key is there: the old key holds the new value.
      rename_i h
      simp [h]
    · -- The key stands further back.
      rename_i h
      simpa [h] using ih

/-- A change leaves the values under other keys alone. -/
theorem find?_alter_of_ne [Std.TransOrd κ] (m : SortedMap κ α) (k j : κ) (f : Option α → α)
    (h : compare j k ≠ .eq) : (m.alter k f).find? j = m.find? j := by
  obtain ⟨entries⟩ := m
  simp only [alter, find?]
  induction entries with
  | nil =>
    have : (compare j k == .eq) = false := by simpa using h
    simp [alterEntries, this]
  | cons entry rest ih =>
    obtain ⟨k', a'⟩ := entry
    simp only [alterEntries]
    have hjk : (compare j k == .eq) = false := by simpa using h
    split
    · simp [hjk]
    · -- The entry that changes has a key equal to `k`, and so not to `j`.
      rename_i hk
      have : (compare j k' == .eq) = false := by
        have hne : compare j k' ≠ .eq := by
          intro hj
          exact h (Std.TransCmp.eq_trans hj (Std.OrientedCmp.eq_symm hk))
        simpa using hne
      simp [this]
    · cases hj : compare j k' == .eq with
      | true => simp [hj]
      | false => simpa [hj] using ih

/-- An insertion leaves the values under other keys alone. -/
theorem find?_insert_of_ne [Std.TransOrd κ] (m : SortedMap κ α) (k j : κ) (a : α)
    (h : compare j k ≠ .eq) : (m.insert k a).find? j = m.find? j :=
  m.find?_alter_of_ne k j _ h

end SortedMap

end BenchPlot
