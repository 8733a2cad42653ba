import BenchPlot.Proofs.Store.ImportChunks
import BenchPlot.Proofs.Store.RowValues
import BenchPlot.Proofs.Store.Timeless

/-!
# Imports row by row

An import that comes to its end does what the insertions of its records do, one after the other. It leaves the
same store, in times apart, and counts the outcomes; the size of its chunks shows in the number of chunks only.
A second import finds every record that the first one left.

Main statement: `reachable_importedByRow`.
-/

namespace BenchPlot

/-! ## §1 Rows one after the other -/

/-- The insertion of some rows, one after the other: the outcome of each, and the store behind them. -/
inductive ImportPlan.Inserts (plan : ImportPlan) :
    Store → List CsvRecord → List InsertOutcome → Store → Prop where
  | nil (s : Store) : Inserts plan s [] [] s
  | cons {s t u : Store} {row : CsvRecord} {rows : List CsvRecord} {outcome : InsertOutcome}
      {outcomes : List InsertOutcome}
      (hrow : s.insertValues plan.benchmark plan.fields (plan.valuesOf row.fields) = .ok (outcome, t))
      (hrows : Inserts plan t rows outcomes u) : Inserts plan s (row :: rows) (outcome :: outcomes) u

namespace ImportPlan

variable {plan : ImportPlan} {s s' t u : Store} {rows : List CsvRecord} {outcomes : List InsertOutcome}

theorem insertRows_iff :
    plan.insertRows s rows = .ok t ↔ ∃ outcomes, plan.Inserts s rows outcomes t := by
  constructor
  · intro h
    induction rows generalizing s with
    | nil =>
      cases h
      exact ⟨[], .nil t⟩
    | cons row rest ih =>
      rw [insertRows_cons] at h
      rcases hrow : s.insertValues plan.benchmark plan.fields (plan.valuesOf row.fields) with e | ⟨outcome, s₁⟩
      · rw [hrow] at h
        cases h
      · rw [hrow] at h
        obtain ⟨outcomes, hrest⟩ := ih h
        exact ⟨outcome :: outcomes, .cons hrow hrest⟩
  · rintro ⟨outcomes, h⟩
    induction h with
    | nil s => rfl
    | cons hrow _ ih =>
      rw [insertRows_cons, hrow]
      exact ih

namespace Inserts

theorem length_eq (h : plan.Inserts s rows outcomes t) : outcomes.length = rows.length := by
  induction h with
  | nil => rfl
  | cons _ _ ih => simp [ih]

/-- Insertions leave the benchmarks and their fields alone. -/
theorem schema (h : plan.Inserts s rows outcomes t) : t.benchmarks = s.benchmarks ∧ t.fields = s.fields := by
  induction h with
  | nil => exact ⟨rfl, rfl⟩
  | cons hrow _ ih =>
    obtain ⟨_, _, ⟨_, _, _, rfl⟩ | ⟨_, _, rfl⟩⟩ := Store.insertValues_eq_ok hrow
    · exact ih
    · exact ih

end Inserts

end ImportPlan

/-! ## §2 Progress -/

/-- An import on its way behind some outcomes. In times apart, the store with the open chunk is the one that
    insertions leave; the rows so far are those of full chunks and those of the open one. -/
structure ImportProgress.Reached (p : ImportProgress) (size : Nat) (t : Store)
    (outcomes : List InsertOutcome) : Prop where
  current : p.current.timeless = t.timeless
  committed : p.openRows = 0 → p.committed.timeless = t.timeless
  openRows : p.openRows < size
  lines : p.lines.length = outcomes.length
  chunks : outcomes.length = size * p.totals.length + p.openRows
  inserted : p.inserted + p.openInserted = outcomes.countP (·.isInserted)
  existing : p.existing + p.openExisting = outcomes.countP (!·.isInserted)

/-- The number of chunks in which rows come, the last of which may be open. -/
def chunkCount (size rows : Nat) : Nat :=
  (rows + size - 1) / size

theorem chunkCount_eq {size opened : Nat} (hopen : opened < size) (chunks : Nat) :
    chunkCount size (size * chunks + opened) = if opened = 0 then chunks else chunks + 1 := by
  have hsize : 0 < size := by omega
  unfold chunkCount
  split
  · rename_i hnone
    have hsum : size * chunks + opened + size - 1 = size * chunks + (size - 1) := by omega
    rw [hsum, Nat.mul_add_div hsize, Nat.div_eq_of_lt (by omega), Nat.add_zero]
  · -- The open chunk makes one chunk more.
    have hsum : size * chunks + opened + size - 1 = size * (chunks + 1) + (opened - 1) := by
      rw [Nat.mul_succ]
      omega
    rw [hsum, Nat.mul_add_div hsize, Nat.div_eq_of_lt (by omega), Nat.add_zero]

namespace ImportProgress.Reached

variable {p : ImportProgress} {plan : ImportPlan} {size : Nat} {s t u : Store} {outcomes : List InsertOutcome}
  {stop : Nat → Bool}

theorem start (hsize : 0 < size) (h : s.timeless = t.timeless) : (ImportProgress.start s).Reached size t [] :=
  ⟨h, fun _ => h, hsize, rfl, rfl, rfl, rfl⟩

/-- A row that insertions accept is accepted, and one outcome more is reached. -/
theorem step (h : p.Reached size t outcomes) (hgo : stop outcomes.length = false) {row : CsvRecord}
    {outcome : InsertOutcome}
    (hrow : t.insertValues plan.benchmark plan.fields (plan.valuesOf row.fields) = .ok (outcome, u)) :
    ∃ next, plan.step size stop p (.ok row) = .ok next ∧ next.Reached size u (outcomes ++ [outcome]) := by
  obtain ⟨v, hv, hvu⟩ := Store.insertValues_congr h.current hrow
  refine ⟨(p.addRow row.position.line outcome v).commitIfFull size, ?_, ?_⟩
  · unfold ImportPlan.step
    rw [h.lines, hgo]
    simp only [Bool.false_eq_true, if_false, hv]
  -- The row counts for the open chunk, whether it is committed then or not.
  have hinserted : p.inserted + (p.openInserted + if outcome.isInserted then 1 else 0)
      = (outcomes ++ [outcome]).countP (·.isInserted) := by
    rw [List.countP_append, List.countP_singleton, ← h.inserted, Nat.add_assoc]
  have hexisting : p.existing + (p.openExisting + if outcome.isInserted then 0 else 1)
      = (outcomes ++ [outcome]).countP (!·.isInserted) := by
    rw [List.countP_append, List.countP_singleton, ← h.existing, Nat.add_assoc]
    cases outcome <;> rfl
  have hlines : (p.lines ++ [row.position.line]).length = (outcomes ++ [outcome]).length := by
    simp [h.lines]
  have hchunks : (outcomes ++ [outcome]).length = size * p.totals.length + (p.openRows + 1) := by
    simp [h.chunks, Nat.add_assoc]
  have hlt := h.openRows
  unfold commitIfFull
  rw [openRows_addRow]
  split
  · -- The chunk is full. Its commit changes the time of the last change only.
    have hcommitted : v.touch.timeless = u.timeless := by rw [Store.timeless_touch, hvu]
    have hfull : p.openRows + 1 = size := by omega
    refine ⟨hcommitted, fun _ => hcommitted, ?_, hlines, ?_, hinserted, hexisting⟩
    · show 0 < size
      omega
    · rw [hchunks, hfull]
      simp [commit, addRow, ImportProgress.openRows, Nat.mul_succ]
  · -- The chunk stays open, and has a row at least.
    refine ⟨hvu, fun hnone => ?_, ?_, hlines, ?_, hinserted, hexisting⟩
    · rw [openRows_addRow] at hnone
      omega
    · rw [openRows_addRow]
      omega
    · rw [openRows_addRow]
      exact hchunks

/-- At the end of the input the open chunk is committed. -/
theorem finish (h : p.Reached size t outcomes) :
    p.finish.committed.timeless = t.timeless
      ∧ p.finish.lines.length = outcomes.length
      ∧ p.finish.inserted = outcomes.countP (·.isInserted)
      ∧ p.finish.existing = outcomes.countP (!·.isInserted)
      ∧ p.finish.totals.length = chunkCount size outcomes.length := by
  have hinserted := h.inserted
  have hexisting := h.existing
  rw [h.chunks, chunkCount_eq h.openRows]
  unfold ImportProgress.finish
  split
  · rename_i hnone
    have hopened : p.openInserted = 0 ∧ p.openExisting = 0 := by
      unfold ImportProgress.openRows at hnone
      omega
    exact ⟨h.committed hnone, by rw [h.lines, h.chunks], by omega, by omega, rfl⟩
  · have hcommitted : p.current.touch.timeless = t.timeless := by rw [Store.timeless_touch, h.current]
    exact ⟨hcommitted, by rw [← h.chunks]; exact h.lines, hinserted, hexisting, by simp [commit]⟩

end ImportProgress.Reached

namespace ImportPlan

variable {plan : ImportPlan} {stop : Nat → Bool} {size : Nat} {first s t u : Store} {rows : List CsvRecord}
  {outcomes : List InsertOutcome}

/-- A run goes on through rows that insertions accept, to its end. -/
theorem Inserts.run (h : plan.Inserts t rows outcomes u) {p : ImportProgress} {before : List InsertOutcome}
    (hp : p.Reached size t before) (hgo : ∀ n < rows.length, stop (before.length + n) = false) :
    ∃ q : ImportProgress, plan.run size stop p (rows.map .ok) = (q.finish, none)
      ∧ q.Reached size u (before ++ outcomes) := by
  -- Along the rows, from any progress that is behind the rows before.
  induction h generalizing p before with
  | nil s => exact ⟨p, rfl, by rwa [List.append_nil]⟩
  | @cons s t u row rest outcome outcomes hrow _ ih =>
    obtain ⟨next, hstep, hnext⟩ := hp.step (hgo 0 (Nat.succ_pos _)) hrow
    have hlater : ∀ n < rest.length, stop ((before ++ [outcome]).length + n) = false := by
      intro n hlt
      rw [List.length_append, List.length_singleton, Nat.add_assoc, Nat.add_comm 1]
      exact hgo (n + 1) (Nat.succ_lt_succ hlt)
    obtain ⟨q, hrun, hq⟩ := ih hnext hlater
    refine ⟨q, ?_, by rwa [List.append_assoc] at hq⟩
    rw [List.map_cons, ImportPlan.run, hstep]
    exact hrun

/-- An import of rows that insertions accept counts their outcomes and leaves their store, in times apart. -/
theorem Inserts.runImport (h : plan.Inserts t rows outcomes u) (hfirst : first.timeless = t.timeless)
    {o : ImportOptions} (hsize : 1 ≤ o.chunkSize) (hgo : ∀ n < rows.length, stop n = false)
    {reader : CsvReader} (hrecords : reader.records = rows.map .ok) (skipped : List String) :
    (first.runImport o stop plan skipped reader).outcome
        = .ok ⟨rows.length, outcomes.countP (·.isInserted), outcomes.countP (!·.isInserted),
          chunkCount o.chunkSize rows.length, skipped⟩
      ∧ (first.runImport o stop plan skipped reader).store.timeless = u.timeless := by
  have hstart : (ImportProgress.start first).Reached o.chunkSize t [] := .start hsize hfirst
  obtain ⟨q, hrun, hq⟩ := h.run hstart fun n hlt => by simpa using hgo n hlt
  rw [List.nil_append] at hq
  obtain ⟨hstore, hlines, hinserted, hexisting, hchunks⟩ := hq.finish
  unfold Store.runImport
  rw [hrecords, hrun]
  rw [h.length_eq] at hlines hchunks
  exact ⟨by simp only [hlines, hinserted, hexisting, hchunks], hstore⟩

end ImportPlan

/-! ## §3 Insertions of the same rows -/

namespace Store

/-- Inserts experiments one after the other, each at its own time. -/
def insertEach (s : Store) (bench : String) :
    List (String × SortedMap String String) → Except StoreError (List InsertOutcome × Store)
  | [] => .ok ([], s)
  | (time, values) :: rest => do
    let (outcome, s) ← (s.atTime time).insert bench values
    let (outcomes, s) ← s.insertEach bench rest
    pure (outcome :: outcomes, s)

variable {s t u v : Store} {bench : String} {bytes : List UInt8} {o : ImportOptions} {p : Preparation}
  {rows : List CsvRecord} {outcomes : List InsertOutcome} {stop : Nat → Bool} {summary : ImportSummary}

theorem schema_of_timeless_eq (h : t.timeless = s.timeless) :
    t.benchmarks = s.benchmarks ∧ t.fields = s.fields := by
  have hbenchmarks : t.timeless.benchmarks = s.timeless.benchmarks := by rw [h]
  have hfields : t.timeless.fields = s.timeless.fields := by rw [h]
  exact ⟨hbenchmarks, hfields⟩

namespace Prepares

/-- Whoever inserts the values of the rows, one after the other and at any times, has the outcomes of the
    import, and leaves its store in times apart. -/
theorem insertEach (h : s.Prepares bench bytes o p) (hs : s.Sound)
    (hrows : p.plan.Inserts t rows outcomes u) (hbenchmarks : t.benchmarks = p.first.benchmarks)
    (hfields : t.fields = p.first.fields) (hv : v.timeless = t.timeless)
    {calls : List (String × SortedMap String String)}
    (hcalls : calls.map (·.2) = rows.map fun row => p.plan.valuesOf row.fields) :
    ∃ final, v.insertEach bench calls = .ok (outcomes, final) ∧ final.timeless = u.timeless := by
  -- Along the rows, from any store that is the one of the import in times apart.
  induction hrows generalizing v calls with
  | nil s =>
    cases List.map_eq_nil_iff.mp hcalls
    exact ⟨v, rfl, hv⟩
  | @cons s t u row rest outcome outcomes hrow hrest ih =>
    obtain ⟨⟨time, values⟩, later, rfl, hvalues, hlater⟩ := List.map_eq_cons_iff.mp hcalls
    obtain rfl : values = p.plan.valuesOf row.fields := hvalues
    obtain ⟨w, hw, hwt⟩ := insertValues_congr ((timeless_atTime v time).trans hv) hrow
    obtain ⟨hvbenchmarks, hvfields⟩ := schema_of_timeless_eq hv
    have hinserted := h.insert_valuesOf hs (u := v.atTime time) (hvbenchmarks.trans hbenchmarks)
      (hvfields.trans hfields) row.fields hw
    -- A new experiment sets the time of the last change, which is left out.
    have hnext : (if outcome.isInserted then w.touch else w).timeless = t.timeless := by
      split
      · rw [timeless_touch, hwt]
      · exact hwt
    obtain ⟨htbenchmarks, htfields⟩ := (ImportPlan.Inserts.cons hrow (.nil t)).schema
    obtain ⟨final, hfinal, hsame⟩ := ih (htbenchmarks.trans hbenchmarks) (htfields.trans hfields) hnext hlater
    refine ⟨final, ?_, hsame⟩
    unfold Store.insertEach
    simp only [hinserted, bind, Except.bind, hfinal]
    rfl

end Prepares

/-! ## §4 A second import -/

/-- Insertions take no experiment away. -/
theorem experiment?_insertValues {b c : Benchmark} {fields : List Field} {values : SortedMap String String}
    {outcome : InsertOutcome} (hok : s.insertValues b fields values = .ok (outcome, t)) {identity : String}
    (h : (s.experiment? c identity).isSome) : (t.experiment? c identity).isSome := by
  obtain ⟨typed, _, ⟨_, _, _, rfl⟩ | ⟨_, _, rfl⟩⟩ := insertValues_eq_ok hok
  · exact h
  · -- A new experiment comes last, behind the one that is found.
    unfold experiment? at h ⊢
    show ((s.experiments ++ [_]).find? _).isSome
    rw [List.find?_append, Option.isSome_or, h, Bool.true_or]

/-- The experiment of an inserted row is there. -/
theorem experiment?_of_insertValues {b : Benchmark} {fields : List Field} {values : SortedMap String String}
    {outcome : InsertOutcome} (hok : s.insertValues b fields values = .ok (outcome, t)) :
    ∃ typed, fields.mapM (Field.typed values) = .ok typed
      ∧ (t.experiment? b (identityOf fields typed)).isSome := by
  obtain ⟨typed, htyped, ⟨e, he, _, rfl⟩ | ⟨_, _, rfl⟩⟩ := insertValues_eq_ok hok
  · exact ⟨typed, htyped, Option.isSome_iff_exists.mpr ⟨e, he⟩⟩
  · refine ⟨typed, htyped, ?_⟩
    unfold experiment?
    show ((s.experiments ++ [_]).find? _).isSome
    rw [List.find?_append, Option.isSome_or]
    simp

/-- The store that gave away some more numbers of experiments. -/
def skipNumbers (s : Store) (n : Nat) : Store :=
  { s with last := { s.last with experiment := s.last.experiment + n } }

end Store

namespace ImportPlan.Inserts

variable {plan : ImportPlan} {s t u : Store} {rows : List CsvRecord} {outcomes : List InsertOutcome}

theorem experiment? (h : plan.Inserts s rows outcomes t) {b : Benchmark} {identity : String}
    (hs : (s.experiment? b identity).isSome) : (t.experiment? b identity).isSome := by
  induction h with
  | nil => exact hs
  | cons hrow _ ih => exact ih (Store.experiment?_insertValues hrow hs)

/-- Rows that were inserted are all there, so that a second insertion only uses up numbers. -/
theorem again (h : plan.Inserts s rows outcomes t) (hu : u.experiments = t.experiments) :
    ∃ found, plan.Inserts u rows found (u.skipNumbers rows.length) ∧ ∀ o ∈ found, o.isInserted = false := by
  -- Along the rows, from any store with the experiments that are there at the end.
  induction h generalizing u with
  | nil s => exact ⟨[], .nil u, by simp⟩
  | @cons s s₁ t row rest outcome outcomes hrow hrest ih =>
    obtain ⟨typed, htyped, hthere⟩ := Store.experiment?_of_insertValues hrow
    obtain ⟨e, he⟩ := Option.isSome_iff_exists.mp (hrest.experiment? hthere)
    have hue : u.experiment? plan.benchmark (identityOf plan.fields typed) = some e := by
      unfold Store.experiment?
      rw [hu]
      exact he
    -- No later insertion took the experiment away, so this row finds it.
    have hfound : u.insertValues plan.benchmark plan.fields (plan.valuesOf row.fields)
        = .ok (.existing e.id, u.skipNumbers 1) := by
      unfold Store.insertValues
      simp only [htyped, bind, Except.bind, hue]
      rfl
    obtain ⟨found, hlater, hnone⟩ := ih (u := u.skipNumbers 1) hu
    refine ⟨.existing e.id :: found, .cons hfound ?_, ?_⟩
    · have hsum : (u.skipNumbers 1).skipNumbers rest.length = u.skipNumbers (row :: rest).length := by
        simp [Store.skipNumbers, Nat.add_assoc, Nat.add_comm 1]
      rwa [← hsum]
    · intro o ho
      rcases List.mem_cons.mp ho with rfl | hlater
      · rfl
      · exact hnone o hlater

end ImportPlan.Inserts

/-! ## §5 The import -/

namespace Store

variable {s t u v : Store} {bench : String} {bytes : List UInt8} {o : ImportOptions} {p : Preparation}
  {rows : List CsvRecord} {stop : Nat → Bool} {summary : ImportSummary}

namespace Prepares

/-- An import comes to its first record alike at another time and with chunks of another size. -/
theorem atTime (h : s.Prepares bench bytes o p) (time : String) {size : Nat} (hsize : 1 ≤ size) :
    ∃ first, (s.atTime time).Prepares bench bytes { o with chunkSize := size } { p with first := first }
      ∧ first.timeless = p.first.timeless := by
  obtain ⟨first, hfirst, hsame⟩ := prepareAutoKey_congr (timeless_atTime s time) h.first
  -- Neither times nor the size of chunks are asked for on the way.
  obtain ⟨hbenchmarks, hfields⟩ := schema_of_timeless_eq hsame
  have hplan := importPlan_congr hbenchmarks hfields p.name bytes { o with chunkSize := size } p.autoKey
  exact ⟨first, ⟨hsize, h.name, hfirst, hplan.trans h.plan⟩, hsame⟩

/-- It comes there once more, without a change, in a store that has the benchmarks and the fields. -/
theorem again (h : s.Prepares bench bytes o p) (hs : s.Sound) (hbenchmarks : u.benchmarks = p.first.benchmarks)
    (hfields : u.fields = p.first.fields) : u.Prepares bench bytes o { p with first := u } := by
  have hplan := importPlan_congr hbenchmarks hfields p.name bytes o p.autoKey
  refine ⟨h.size, h.name, ?_, hplan.trans h.plan⟩
  rcases prepareAutoKey_eq_ok h.first with ⟨hnone, hfound, _⟩ | ⟨key, column, hkey, hfound, hensured⟩
  · rw [hnone, hfound]
    rfl
  · -- The key field is there, so there is nothing to make.
    obtain ⟨hcolumn, b, f, hb, hf, htext⟩ :=
      hs.ensureAutoKey_eq_ok (isCanonical_of_canonical h.name) hensured
    have hthere : u.HasTextKey p.name column := by
      refine ⟨b, f, ?_, ?_, htext⟩
      · unfold benchmark?
        rw [hbenchmarks]
        exact hb
      · unfold fieldsOf
        rw [hfields]
        exact hf
    rw [hkey, hfound]
    unfold prepareAutoKey
    dsimp only
    rw [ensureAutoKey_of_hasTextKey hthere hcolumn]
    rfl

end Prepares

/-- What an import did that came to its end behind some rows. -/
structure ImportedByRow (s : Store) (bench : String) (bytes : List UInt8) (o : ImportOptions)
    (stop : Nat → Bool) (summary : ImportSummary) (p : Preparation) (rows : List CsvRecord) : Prop where
  rowsRead : summary.rowsRead = rows.length
  chunksCommitted : summary.chunksCommitted = chunkCount o.chunkSize summary.rowsRead
  /-- At any time, with chunks of any size, it counts the same rows and leaves the same store. -/
  chunks : ∀ time size, 1 ≤ size →
    ((s.atTime time).importCsv bench bytes { o with chunkSize := size } stop).outcome
        = .ok { summary with chunksCommitted := chunkCount size summary.rowsRead }
      ∧ ((s.atTime time).importCsv bench bytes { o with chunkSize := size } stop).store.timeless
        = (s.importCsv bench bytes o stop).store.timeless
  /-- Insertions of the values of the rows, from the store with the key field on, do what it did. -/
  insertions : ∀ calls : List (String × SortedMap String String),
    calls.map (·.2) = rows.map (fun row => p.plan.valuesOf row.fields) →
      ∃ outcomes final, p.first.insertEach bench calls = .ok (outcomes, final)
        ∧ final.timeless = (s.importCsv bench bytes o stop).store.timeless
        ∧ summary.inserted = outcomes.countP (·.isInserted)
        ∧ summary.existing = outcomes.countP (!·.isInserted)
  /-- A second import inserts nothing: it uses up numbers and sets the time of the last change. -/
  again : ∀ time second, second = (s.importCsv bench bytes o stop).store.atTime time →
    (second.importCsv bench bytes o stop).outcome
        = .ok { summary with inserted := 0, existing := summary.rowsRead }
      ∧ (second.importCsv bench bytes o stop).store
        = if rows = [] then second else (second.skipNumbers rows.length).touch

theorem exists_prepares (hok : (s.importCsv bench bytes o stop).outcome = .ok summary) :
    ∃ p, s.Prepares bench bytes o p := by
  rcases s.importCsv_cases bench bytes o stop with ⟨e, heq⟩ | ⟨_, e, _, heq⟩ | hp
  · rw [heq] at hok
    cases hok
  · rw [heq] at hok
    cases hok
  · exact hp

theorem Prepares.ends (h : s.Prepares bench bytes o p)
    (hok : (s.importCsv bench bytes o stop).outcome = .ok summary) :
    ∃ rows, p.plan.Ends stop p.first p.reader.records rows := by
  rcases p.plan.stops_or_ends stop p.first p.reader.records with ⟨rows, reason, hstops⟩ | hends
  · -- An import that stops at a record ends in an error.
    have hkept := hstops.keptChunks o h.size rfl p.skipped
    rw [h.importCsv_eq, hkept.outcome] at hok
    cases hok
  · exact hends

/-- An import that comes to its end leaves the store behind the insertion of its rows. -/
theorem Prepares.importCsv_store (h : s.Prepares bench bytes o p) {outcomes : List InsertOutcome}
    (hends : p.plan.Ends stop p.first p.reader.records rows)
    (hrows : p.plan.Inserts p.first rows outcomes t) :
    (s.importCsv bench bytes o stop).store = if rows = [] then t else t.touch := by
  obtain ⟨u, hu, hstore⟩ := (hends.keptAll o h.size rfl p.skipped).store
  have heq : u = t := Except.ok.inj (hu.symm.trans (ImportPlan.insertRows_iff.2 ⟨outcomes, hrows⟩))
  rw [h.importCsv_eq, hstore, heq]

/-- A second import, in a store with the schema and the experiments that the first one left, finds all rows. -/
theorem Prepares.importCsv_again (h : s.Prepares bench bytes o p) (hs : s.Sound)
    {outcomes : List InsertOutcome} (hends : p.plan.Ends stop p.first p.reader.records rows)
    (hrows : p.plan.Inserts p.first rows outcomes t) (hbenchmarks : u.benchmarks = t.benchmarks)
    (hfields : u.fields = t.fields) (hexperiments : u.experiments = t.experiments) :
    (u.importCsv bench bytes o stop).outcome
        = .ok ⟨rows.length, 0, rows.length, chunkCount o.chunkSize rows.length, p.skipped⟩
      ∧ (u.importCsv bench bytes o stop).store
        = if rows = [] then u else (u.skipNumbers rows.length).touch := by
  obtain ⟨hrecords, _, hpasses⟩ := hends
  obtain ⟨hschema, hschema'⟩ := hrows.schema
  have hprepares := h.again hs (hbenchmarks.trans hschema) (hfields.trans hschema')
  obtain ⟨found, hagain, hnone⟩ := hrows.again hexperiments
  have hends : p.plan.Ends stop u p.reader.records rows :=
    ⟨hrecords, _, hpasses.goes, ImportPlan.insertRows_iff.2 ⟨found, hagain⟩⟩
  -- No row is new, so all of them are counted as those that were there.
  have hinserted : found.countP (·.isInserted) = 0 := by
    simpa [List.countP_eq_zero] using hnone
  have hexisting : found.countP (!·.isInserted) = rows.length := by
    rw [← hagain.length_eq, List.countP_eq_length]
    simpa using hnone
  constructor
  · obtain ⟨houtcome, _⟩ := hagain.runImport (Eq.refl u.timeless) h.size hpasses.goes hrecords p.skipped
    rw [hprepares.importCsv_eq stop, houtcome, hinserted, hexisting]
  · rw [hprepares.importCsv_store hends hagain]
    split
    · rename_i hnil
      rw [hnil]
      rfl
    · rfl

/-- In every reachable store, an import that comes to its end does what the insertions of its rows do, whatever
    the size of its chunks, and a second one finds all rows. -/
theorem reachable_importedByRow (h : s.Reachable)
    (hok : (s.importCsv bench bytes o stop).outcome = .ok summary) :
    ∃ p rows, s.Prepares bench bytes o p ∧ p.reader.records = rows.map .ok
      ∧ s.ImportedByRow bench bytes o stop summary p rows := by
  obtain ⟨p, hp⟩ := exists_prepares hok
  obtain ⟨rows, hends⟩ := hp.ends hok
  obtain ⟨hrecords, t, hpasses⟩ := id hends
  obtain ⟨outcomes, hrows⟩ := ImportPlan.insertRows_iff.1 hpasses.inserted
  obtain ⟨houtcome, hstore⟩ := hrows.runImport (Eq.refl p.first.timeless) hp.size hpasses.goes hrecords
    p.skipped
  rw [← hp.importCsv_eq stop] at houtcome hstore
  obtain rfl := Except.ok.inj (hok.symm.trans houtcome)
  refine ⟨p, rows, hp, hrecords, rfl, rfl, ?_, ?_, ?_⟩
  · -- The same rows are inserted whatever the chunks are.
    intro time size hsize
    obtain ⟨first, hfirst, hsame⟩ := hp.atTime time hsize
    obtain ⟨hagain, hleft⟩ := hrows.runImport (o := { o with chunkSize := size }) hsame hsize hpasses.goes
      hrecords p.skipped
    rw [hfirst.importCsv_eq stop]
    exact ⟨hagain, hleft.trans hstore.symm⟩
  · intro calls hcalls
    obtain ⟨final, hfinal, hsame⟩ := hp.insertEach h.sound hrows rfl rfl rfl hcalls
    exact ⟨outcomes, final, hfinal, hsame.trans hstore.symm, rfl, rfl⟩
  · rintro time second rfl
    have hfound := hp.importCsv_store hends hrows
    -- Between the imports only times have changed.
    apply hp.importCsv_again h.sound hends hrows
    all_goals
      rw [hfound]
      split <;> rfl

/-- A header, a new row, the same one in another spelling, and a row that is there. -/
def sampleRepeats : List UInt8 :=
  [115, 105, 122, 101, 10, 51, 48, 10, 51, 48, 46, 48, 10, 49, 48, 10]

theorem prepares_sample : sample.Prepares "runs" sampleRepeats ⟨2, 44, ∅, none⟩
    ⟨"RUNS", none, sample, samplePlan, [], ⟨44, sampleRepeats.drop 5, ⟨1, 2, 5⟩, some 1⟩⟩ :=
  ⟨by decide, by decide +kernel, rfl, by decide +kernel⟩

theorem importedByRow_sample :
    (sample.importCsv "runs" sampleRepeats ⟨2, 44, ∅, none⟩ fun _ => false).outcome = .ok ⟨3, 1, 2, 2, []⟩
      ∧ ∃ p rows, sample.ImportedByRow "runs" sampleRepeats ⟨2, 44, ∅, none⟩ (fun _ => false)
        ⟨3, 1, 2, 2, []⟩ p rows := by
  have hrecords : CsvReader.records ⟨44, sampleRepeats.drop 5, ⟨1, 2, 5⟩, some 1⟩
      = [.ok ⟨⟨1, 2, 5⟩, ["30"]⟩, .ok ⟨⟨2, 3, 8⟩, ["30.0"]⟩, .ok ⟨⟨3, 4, 13⟩, ["10"]⟩] := by
    cbv
  have hok : (sample.importCsv "runs" sampleRepeats ⟨2, 44, ∅, none⟩ fun _ => false).outcome
      = .ok ⟨3, 1, 2, 2, []⟩ := by
    rw [prepares_sample.importCsv_eq]
    unfold runImport
    rw [hrecords]
    decide +kernel
  obtain ⟨p, rows, _, _, himported⟩ := reachable_importedByRow reachable_sample hok
  exact ⟨hok, p, rows, himported⟩

end Store

end BenchPlot
