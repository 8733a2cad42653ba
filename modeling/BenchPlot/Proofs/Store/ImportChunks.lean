import BenchPlot.Command.Manifest
import BenchPlot.Proofs.Store.Reach
import Mathlib

/-!
# Chunks of imports

An import goes through its records, inserts each, and commits after every chunk. On its way the rows so far
are in two parts: those of the chunks that were committed, and those of the open chunk, which are fewer than
a chunk has. Where the import stops at a record, the first part stays and the second is given up; at the end
of the input the second part is committed as well.

Main statement: `importCsv_keepsChunks`.
-/

namespace BenchPlot

/-! ## §1 Rows in a row -/

/-- The store behind the insertion of some rows, one after the other. -/
def ImportPlan.insertRows (plan : ImportPlan) (s : Store) (rows : List CsvRecord) :
    Except Rejection Store :=
  rows.foldlM (fun s row =>
    (s.insertValues plan.benchmark plan.fields (plan.valuesOf row.fields)).map (·.2)) s

theorem putEntry_putEntry (key value : String) (l : List (String × String)) :
    Store.putEntry key value (Store.putEntry key value l) = Store.putEntry key value l := by
  induction l with
  | nil => simp [Store.putEntry]
  | cons entry rest ih =>
    obtain ⟨k, v⟩ := entry
    by_cases hk : k = key
    · simp [Store.putEntry, hk]
    · simp [Store.putEntry, hk, ih]

theorem Store.touch_touch (s : Store) : s.touch.touch = s.touch :=
  congrArg (fun l => { s with metadata := l }) (putEntry_putEntry _ _ _)

/-- Insertions do not see the time of the last change. -/
theorem Store.insertValues_touch (s : Store) (b : Benchmark) (fields : List Field)
    (values : SortedMap String String) :
    s.touch.insertValues b fields values
      = (s.insertValues b fields values).map fun p => (p.1, p.2.touch) := by
  unfold Store.insertValues
  cases fields.mapM (Field.typed values) with
  | error e => rfl
  | ok typed =>
    have hsame : s.touch.experiment? b (identityOf fields typed)
        = s.experiment? b (identityOf fields typed) := rfl
    simp only [bind, Except.bind, hsame]
    cases s.experiment? b (identityOf fields typed) <;> rfl

namespace ImportPlan

variable {plan : ImportPlan} {s t : Store} {rows rows' : List CsvRecord}

theorem insertRows_append (plan : ImportPlan) (s : Store) (rows rows' : List CsvRecord) :
    plan.insertRows s (rows ++ rows') = plan.insertRows s rows >>= fun t => plan.insertRows t rows' :=
  List.foldlM_append

theorem insertRows_cons (plan : ImportPlan) (s : Store) (row : CsvRecord) (rows : List CsvRecord) :
    plan.insertRows s (row :: rows)
      = (s.insertValues plan.benchmark plan.fields (plan.valuesOf row.fields)).map (·.2)
        >>= fun t => plan.insertRows t rows :=
  List.foldlM_cons

theorem insertRows_touch (plan : ImportPlan) (s : Store) (rows : List CsvRecord) :
    plan.insertRows s.touch rows = (plan.insertRows s rows).map Store.touch := by
  induction rows generalizing s with
  | nil => rfl
  | cons row rest ih =>
    rw [insertRows_cons, insertRows_cons, Store.insertValues_touch]
    cases s.insertValues plan.benchmark plan.fields (plan.valuesOf row.fields) with
    | error e => rfl
    | ok p => exact ih p.2

/-! ## §2 Where imports stop -/

/-- Why an import stops at a record. -/
inductive StopReason where
  | canceled
  | fault (found : CsvFault)
  | rejected (line : Nat) (rejection : Rejection)

/-- What is told of an import that stopped, with the number of rows that it committed. -/
def StopReason.error (committed : Nat) : StopReason → StoreError
  | .canceled => .canceled committed
  | .fault found => .data found.position.line (.csv found)
  | .rejected line rejection => .data line (.value rejection)

/-- An import stops at a record, with the rows before it in the store. It is asked to stop before it looks at
    the record. -/
inductive StopsAt (plan : ImportPlan) (stop : Nat → Bool) (s : Store) (number : Nat) :
    Except CsvFault CsvRecord → StopReason → Prop where
  | canceled {record : Except CsvFault CsvRecord} (hstop : stop number = true) :
      StopsAt plan stop s number record .canceled
  | fault {found : CsvFault} (hgo : stop number = false) :
      StopsAt plan stop s number (.error found) (.fault found)
  | rejected {row : CsvRecord} {rejection : Rejection} (hgo : stop number = false)
      (hrejected : s.insertValues plan.benchmark plan.fields (plan.valuesOf row.fields) = .error rejection) :
      StopsAt plan stop s number (.ok row) (.rejected row.position.line rejection)

/-- An import goes on through some rows, each of which is accepted. -/
structure Passes (plan : ImportPlan) (stop : Nat → Bool) (s : Store) (rows : List CsvRecord) (t : Store) :
    Prop where
  goes : ∀ number < rows.length, stop number = false
  inserted : plan.insertRows s rows = .ok t

/-- An import of some records stops behind some rows. -/
def Stops (plan : ImportPlan) (stop : Nat → Bool) (s : Store) (records : List (Except CsvFault CsvRecord))
    (rows : List CsvRecord) (reason : StopReason) : Prop :=
  ∃ t record rest, records = rows.map .ok ++ record :: rest ∧ plan.Passes stop s rows t
    ∧ plan.StopsAt stop t rows.length record reason

/-- An import of some records comes to its end: all of them are rows that it goes on through. -/
def Ends (plan : ImportPlan) (stop : Nat → Bool) (s : Store) (records : List (Except CsvFault CsvRecord))
    (rows : List CsvRecord) : Prop :=
  records = rows.map .ok ∧ ∃ t, plan.Passes stop s rows t

end ImportPlan

/-! ## §3 Committed and open rows -/

/-- The rows of an import on its way are in two parts: those of committed chunks of the full size, and those
    of the open chunk. -/
structure ImportProgress.Parts (p : ImportProgress) (plan : ImportPlan) (size : Nat) (s : Store)
    (closed opened : List CsvRecord) : Prop where
  chunks : closed.length = size * p.totals.length
  totals : p.totals = (List.range p.totals.length).map fun i => size * (i + 1)
  lines : p.lines = (closed ++ opened).map (·.position.line)
  openRows : p.openRows = opened.length
  committedRows : p.committedRows = closed.length
  committed : ∃ t, plan.insertRows s closed = .ok t ∧ p.committed = if closed = [] then t else t.touch
  current : plan.insertRows p.committed opened = .ok p.current

theorem ImportProgress.openRows_addRow (p : ImportProgress) (line : Nat) (outcome : InsertOutcome)
    (s : Store) : (p.addRow line outcome s).openRows = p.openRows + 1 := by
  cases outcome <;> simp [addRow, openRows, InsertOutcome.isInserted] <;> omega

namespace ImportProgress.Parts

variable {p : ImportProgress} {plan : ImportPlan} {size : Nat} {s t : Store} {closed opened : List CsvRecord}

theorem start (plan : ImportPlan) (size : Nat) (s : Store) :
    (ImportProgress.start s).Parts plan size s [] [] :=
  ⟨rfl, rfl, rfl, rfl, rfl, ⟨s, rfl, rfl⟩, rfl⟩

/-- All rows so far are in the store with the open chunk, whose time of the last change may be another. -/
theorem inserted (h : p.Parts plan size s closed opened) :
    ∃ t, plan.insertRows s (closed ++ opened) = .ok t ∧ (p.current = t ∨ p.current = t.touch) := by
  obtain ⟨t, ht, hcommitted⟩ := h.committed
  have hcurrent := h.current
  rw [ImportPlan.insertRows_append, ht]
  show ∃ t', plan.insertRows t opened = .ok t' ∧ _
  split at hcommitted
  · rw [hcommitted] at hcurrent
    exact ⟨p.current, hcurrent, .inl rfl⟩
  · rw [hcommitted, ImportPlan.insertRows_touch] at hcurrent
    cases hopened : plan.insertRows t opened with
    | error e => rw [hopened] at hcurrent; cases hcurrent
    | ok t' =>
      rw [hopened] at hcurrent
      exact ⟨t', rfl, .inr (Except.ok.inj hcurrent).symm⟩

/-- A commit leaves all rows so far in the store. -/
theorem commit_store (h : p.Parts plan size s closed opened) :
    ∃ t, plan.insertRows s (closed ++ opened) = .ok t ∧ p.commit.committed = t.touch := by
  obtain ⟨t, ht, hcurrent⟩ := h.inserted
  refine ⟨t, ht, ?_⟩
  show p.current.touch = t.touch
  rcases hcurrent with hcurrent | hcurrent
  · rw [hcurrent]
  · rw [hcurrent, Store.touch_touch]

theorem addRow (h : p.Parts plan size s closed opened) {row : CsvRecord} {outcome : InsertOutcome}
    (hok : p.current.insertValues plan.benchmark plan.fields (plan.valuesOf row.fields) = .ok (outcome, t)) :
    (p.addRow row.position.line outcome t).Parts plan size s closed (opened ++ [row]) := by
  refine ⟨h.chunks, h.totals, ?_, ?_, h.committedRows, h.committed, ?_⟩
  · show p.lines ++ [row.position.line] = _
    simp only [h.lines, List.map_append, List.map_singleton, List.append_assoc]
  · rw [openRows_addRow, h.openRows, List.length_append, List.length_singleton]
  · show plan.insertRows p.committed (opened ++ [row]) = .ok t
    rw [ImportPlan.insertRows_append, h.current]
    show plan.insertRows p.current [row] = .ok t
    rw [ImportPlan.insertRows_cons, hok]
    rfl

/-- A commit of a chunk of the full size moves its rows from the one part to the other. -/
theorem commit (h : p.Parts plan size s closed opened) (hfull : opened.length = size) (hsize : 0 < size) :
    p.commit.Parts plan size s (closed ++ opened) [] := by
  have hrows : p.committedRows + p.openRows = size * (p.totals.length + 1) := by
    rw [h.committedRows, h.openRows, h.chunks, hfull, Nat.mul_succ]
  have hnonempty : closed ++ opened ≠ [] := by
    intro hnil
    rw [(List.append_eq_nil_iff.mp hnil).2] at hfull
    exact absurd hfull (by simp; omega)
  have htotals : p.commit.totals = p.totals ++ [size * (p.totals.length + 1)] :=
    congrArg (fun n => p.totals ++ [n]) hrows
  refine ⟨?_, ?_, ?_, rfl, ?_, ?_, rfl⟩
  · rw [htotals, List.length_append, List.length_append, h.chunks, hfull, List.length_singleton,
      Nat.mul_succ]
  · rw [htotals, List.length_append, List.length_singleton, List.range_succ, List.map_append, ← h.totals]
    rfl
  · rw [List.append_nil]
    exact h.lines
  · rw [List.length_append, ← h.committedRows, ← h.openRows]
    show p.inserted + p.openInserted + (p.existing + p.openExisting)
      = p.inserted + p.existing + (p.openInserted + p.openExisting)
    omega
  · obtain ⟨t, ht, hstore⟩ := h.commit_store
    exact ⟨t, ht, hstore.trans (if_neg hnonempty).symm⟩

/-- The number of rows tells how many chunks were committed, and which rows are in them. -/
theorem closed_eq (h : p.Parts plan size s closed opened) (hopen : opened.length < size) :
    p.totals.length = (closed ++ opened).length / size
      ∧ closed = (closed ++ opened).take (size * ((closed ++ opened).length / size)) := by
  have hchunks : (closed ++ opened).length / size = p.totals.length := by
    rw [List.length_append, h.chunks, Nat.mul_add_div (by omega), Nat.div_eq_of_lt hopen, Nat.add_zero]
  rw [hchunks, ← h.chunks, List.take_left]
  exact ⟨rfl, rfl⟩

end ImportProgress.Parts

/-! ## §4 Runs -/

namespace ImportPlan

variable {p : ImportProgress} {plan : ImportPlan} {stop : Nat → Bool} {size : Nat} {s t : Store}
  {closed opened : List CsvRecord}

/-- An accepted row is added to the open chunk, which is committed once it is full. -/
theorem step_passes (h : p.Parts plan size s closed opened) (hopen : opened.length < size)
    (hgo : stop (closed ++ opened).length = false) {row : CsvRecord} {outcome : InsertOutcome}
    (hok : p.current.insertValues plan.benchmark plan.fields (plan.valuesOf row.fields) = .ok (outcome, t)) :
    ∃ next closed' opened', plan.step size stop p (.ok row) = .ok next
      ∧ next.Parts plan size s closed' opened' ∧ opened'.length < size
      ∧ closed' ++ opened' = closed ++ opened ++ [row] ∧ (next.current = t ∨ next.current = t.touch) := by
  have hstep : plan.step size stop p (.ok row)
      = .ok ((p.addRow row.position.line outcome t).commitIfFull size) := by
    have hnumber : p.lines.length = (closed ++ opened).length := by rw [h.lines, List.length_map]
    unfold ImportPlan.step
    rw [hnumber, hgo]
    simp only [Bool.false_eq_true, if_false, hok]
  -- The row makes the open chunk full, or leaves it open.
  have hadded := h.addRow hok
  have hrows := hadded.openRows
  rw [List.length_append, List.length_singleton] at hrows
  rw [hstep]
  unfold ImportProgress.commitIfFull
  by_cases hfull : opened.length + 1 = size
  · have hlength : (opened ++ [row]).length = size := by simpa using hfull
    rw [if_pos (by omega)]
    exact ⟨_, closed ++ (opened ++ [row]), [], rfl, hadded.commit hlength (by omega), by simp; omega,
      by simp, .inr rfl⟩
  · rw [if_neg (by omega)]
    exact ⟨_, closed, opened ++ [row], rfl, hadded, by simp; omega, by simp, .inl rfl⟩

/-- A run goes on through rows that are accepted. -/
theorem run_passes (rest : List (Except CsvFault CsvRecord)) (h : p.Parts plan size s closed opened)
    (hopen : opened.length < size) {rows : List CsvRecord}
    (hgo : ∀ number < rows.length, stop ((closed ++ opened).length + number) = false)
    (hrows : plan.insertRows p.current rows = .ok t) :
    ∃ q closed' opened', plan.run size stop p (rows.map .ok ++ rest) = plan.run size stop q rest
      ∧ q.Parts plan size s closed' opened' ∧ opened'.length < size
      ∧ closed' ++ opened' = closed ++ opened ++ rows := by
  -- Along the rows; the two parts of the rows before them are the invariant.
  induction rows generalizing p closed opened t with
  | nil => exact ⟨p, closed, opened, rfl, h, hopen, (List.append_nil _).symm⟩
  | cons row rows ih =>
    rw [insertRows_cons] at hrows
    cases hrow : p.current.insertValues plan.benchmark plan.fields (plan.valuesOf row.fields) with
    | error e => rw [hrow] at hrows; cases hrows
    | ok result =>
      rw [hrow] at hrows
      obtain ⟨next, closed₁, opened₁, hstep, hnext, hopen₁, hparts, hcurrent⟩ :=
        step_passes h hopen (hgo 0 (Nat.succ_pos _)) hrow
      have hlength : (closed₁ ++ opened₁).length = (closed ++ opened).length + 1 := by
        rw [hparts, List.length_append, List.length_singleton]
      -- A commit changes the time of the last change only, which the later rows do not see.
      have hrest : ∃ t', plan.insertRows next.current rows = .ok t' := by
        rcases hcurrent with hcurrent | hcurrent
        · exact ⟨t, hcurrent ▸ hrows⟩
        · exact ⟨t.touch, by rw [hcurrent, insertRows_touch]; exact congrArg (Except.map Store.touch) hrows⟩
      obtain ⟨t', ht'⟩ := hrest
      obtain ⟨q, closed', opened', hrun, hq, hopen', hall⟩ := ih hnext hopen₁ (fun number hlt => by
        rw [hlength, Nat.add_assoc, Nat.add_comm 1]
        exact hgo (number + 1) (Nat.succ_lt_succ hlt)) ht'
      refine ⟨q, closed', opened', ?_, hq, hopen', by rw [hall, hparts]; simp⟩
      rw [← hrun, List.map_cons, List.cons_append, ImportPlan.run, hstep]

/-- A run stops at a record where an import with its rows stops. -/
theorem run_stops (size : Nat) (h : p.Parts plan size s closed opened) {number : Nat}
    (hnumber : p.lines.length = number) (hcurrent : p.current = t ∨ p.current = t.touch)
    {record : Except CsvFault CsvRecord} {reason : StopReason}
    (hstops : plan.StopsAt stop t number record reason)
    (rest : List (Except CsvFault CsvRecord)) :
    plan.run size stop p (record :: rest) = (p, some (reason.error closed.length)) := by
  have hstep : plan.step size stop p record = .error (reason.error closed.length) := by
    unfold ImportPlan.step
    rw [hnumber]
    cases hstops with
    | canceled hstop =>
      rw [if_pos hstop, h.committedRows]
      rfl
    | fault hgo =>
      rw [hgo]
      rfl
    | @rejected row rejection hgo hrejected =>
      have hcause : p.current.insertValues plan.benchmark plan.fields (plan.valuesOf row.fields)
          = .error rejection := by
        rcases hcurrent with hcurrent | hcurrent
        · exact hcurrent ▸ hrejected
        · rw [hcurrent, Store.insertValues_touch, hrejected]
          rfl
      rw [hgo]
      simp only [Bool.false_eq_true, if_false, hcause]
      rfl
  rw [ImportPlan.run, hstep]

/-- A run commits the open chunk at the end of its records. -/
theorem run_ends (stop : Nat → Bool) (h : p.Parts plan size s closed opened) {rows : List CsvRecord}
    (hrows : closed ++ opened = rows) (hopen : opened.length < size) :
    (plan.run size stop p []).2 = none
      ∧ (plan.run size stop p []).1.lines.length = rows.length
      ∧ (plan.run size stop p []).1.committedRows = rows.length
      ∧ (plan.run size stop p []).1.totals.getLast? = (if rows = [] then none else some rows.length)
      ∧ ∃ t, plan.insertRows s rows = .ok t
        ∧ (plan.run size stop p []).1.committed = if rows = [] then t else t.touch := by
  subst hrows
  have hlines : p.lines.length = (closed ++ opened).length := by rw [h.lines, List.length_map]
  unfold ImportPlan.run ImportProgress.finish
  by_cases hnone : p.openRows = 0
  · -- The last chunk is committed already, if there is one.
    have hopened : opened = [] := List.length_eq_zero_iff.mp (h.openRows ▸ hnone)
    subst hopened
    rw [if_pos hnone, List.append_nil] at *
    refine ⟨rfl, hlines, h.committedRows, ?_, h.committed⟩
    have htotals := h.totals
    cases hlast : p.totals.length with
    | zero =>
      have hclosed : closed = [] := by
        rw [← List.length_eq_zero_iff, h.chunks, hlast, Nat.mul_zero]
      rw [if_pos hclosed, List.length_eq_zero_iff.mp hlast]
      rfl
    | succ n =>
      have hclosed : closed ≠ [] := by
        rw [← List.length_pos_iff, h.chunks, hlast]
        exact Nat.mul_pos (by omega) (Nat.succ_pos n)
      rw [htotals, hlast, List.range_succ, List.map_append, List.map_singleton, List.getLast?_concat,
        if_neg hclosed, h.chunks, hlast]
  · -- The open chunk is committed, and its total is that of all rows.
    have hnonempty : closed ++ opened ≠ [] := by
      intro hnil
      rw [h.openRows, (List.append_eq_nil_iff.mp hnil).2] at hnone
      exact hnone rfl
    have hrows : p.committedRows + p.openRows = (closed ++ opened).length := by
      rw [h.committedRows, h.openRows, List.length_append]
    rw [if_neg hnone]
    obtain ⟨t, ht, hstore⟩ := h.commit_store
    refine ⟨rfl, hlines, ?_, ?_, t, ht, hstore.trans (if_neg hnonempty).symm⟩
    · rw [← hrows]
      show p.inserted + p.openInserted + (p.existing + p.openExisting)
        = p.inserted + p.existing + (p.openInserted + p.openExisting)
      omega
    · rw [if_neg hnonempty, ← hrows]
      exact List.getLast?_concat

/-- An import stops behind some rows or comes to its end. -/
theorem stops_or_ends (plan : ImportPlan) (stop : Nat → Bool) (s : Store)
    (records : List (Except CsvFault CsvRecord)) :
    (∃ rows reason, plan.Stops stop s records rows reason) ∨ ∃ rows, plan.Ends stop s records rows := by
  -- Along the records: at the first one the import stops, or it goes on with the store behind its row.
  induction records generalizing stop s with
  | nil => exact .inr ⟨[], rfl, s, by simp, rfl⟩
  | cons record rest ih =>
    have hfirst : plan.Passes stop s [] s := ⟨by simp, rfl⟩
    cases hstop : stop 0 with
    | true => exact .inl ⟨[], .canceled, s, record, rest, rfl, hfirst, .canceled hstop⟩
    | false =>
      cases record with
      | error found => exact .inl ⟨[], .fault found, s, _, rest, rfl, hfirst, .fault hstop⟩
      | ok row =>
        cases hrow : s.insertValues plan.benchmark plan.fields (plan.valuesOf row.fields) with
        | error rejection => exact .inl ⟨[], _, s, _, rest, rfl, hfirst, .rejected hstop hrow⟩
        | ok result =>
          obtain ⟨outcome, t⟩ := result
          -- The later records are asked for with numbers that are greater by one.
          have hlater : ∀ {rows t'}, plan.Passes (stop ∘ Nat.succ) t rows t' →
              plan.Passes stop s (row :: rows) t' := by
            intro rows t' hpasses
            refine ⟨fun number hlt => ?_, by rw [insertRows_cons, hrow]; exact hpasses.inserted⟩
            cases number with
            | zero => exact hstop
            | succ n => exact hpasses.goes n (Nat.lt_of_succ_lt_succ hlt)
          rcases ih (stop ∘ Nat.succ) t with ⟨rows, reason, t', later, rest', hrecords, hpasses, hstops⟩
            | ⟨rows, hrecords, t', hpasses⟩
          · refine .inl ⟨row :: rows, reason, t', later, rest', by rw [hrecords]; rfl, hlater hpasses, ?_⟩
            cases hstops with
            | canceled h => exact .canceled h
            | fault h => exact .fault h
            | rejected h hrejected => exact .rejected h hrejected
          · exact .inr ⟨row :: rows, by rw [hrecords]; rfl, t', hlater hpasses⟩

end ImportPlan

/-! ## §5 The import -/

/-- An import gets to its first record: nothing before refuses it. The plan is made with the store behind the
    preparation of the key field. -/
structure Store.Starts (s : Store) (bench : String) (bytes : List UInt8) (o : ImportOptions)
    (plan : ImportPlan) (first : Store) (records : List (Except CsvFault CsvRecord)) : Prop where
  size : 1 ≤ o.chunkSize
  planned : ∃ name autoKey skipped reader, Store.canonical bench = .ok name
    ∧ s.prepareAutoKey name o.autoKey = (.ok autoKey, first)
    ∧ first.importPlan name bytes o autoKey = .ok (plan, skipped, reader) ∧ reader.records = records

/-- The number of rows in full chunks. -/
def chunkedRows (size rows : Nat) : Nat :=
  size * (rows / size)

/-- A run that stopped behind some rows kept those in full chunks, and tells so. -/
structure ImportRun.KeptChunks (run : ImportRun) (plan : ImportPlan) (first : Store) (size : Nat)
    (rows : List CsvRecord) (reason : ImportPlan.StopReason) : Prop where
  store : ∃ t, plan.insertRows first (rows.take (chunkedRows size rows.length)) = .ok t
    ∧ run.store = if chunkedRows size rows.length = 0 then t else t.touch
  totals : run.totals = (List.range (rows.length / size)).map fun i => size * (i + 1)
  outcome : run.outcome = .error (reason.error (chunkedRows size rows.length))
  account : ∀ a : ImportAccount, a.run = run → a.committedRows = chunkedRows size rows.length

/-- A run that came to its end kept all rows, and tells so. -/
structure ImportRun.KeptAll (run : ImportRun) (plan : ImportPlan) (first : Store) (rows : List CsvRecord) :
    Prop where
  store : ∃ t, plan.insertRows first rows = .ok t ∧ run.store = if rows = [] then t else t.touch
  outcome : ∃ summary, run.outcome = .ok summary ∧ summary.rowsRead = rows.length
    ∧ summary.inserted + summary.existing = summary.rowsRead
    ∧ run.totals.getLast? = if rows = [] then none else some summary.rowsRead
  account : ∀ a : ImportAccount, a.run = run → a.committedRows = rows.length

namespace ImportPlan

variable {plan : ImportPlan} {stop : Nat → Bool} {first : Store} {rows : List CsvRecord}

/-- The progress of an import behind rows that it passes. -/
theorem Passes.parts {t : Store} (h : plan.Passes stop first rows t) {size : Nat} (hsize : 1 ≤ size)
    (rest : List (Except CsvFault CsvRecord)) :
    ∃ p closed opened, plan.run size stop (.start first) (rows.map .ok ++ rest) = plan.run size stop p rest
      ∧ p.Parts plan size first closed opened ∧ opened.length < size ∧ closed ++ opened = rows := by
  obtain ⟨p, closed, opened, hrun, hparts, hopen, hrows⟩ :=
    run_passes rest (.start plan size first) hsize (fun number hlt => by simpa using h.goes number hlt)
      h.inserted
  exact ⟨p, closed, opened, hrun, hparts, hopen, hrows⟩

theorem getLast_totals (size chunks : Nat) :
    ((List.range chunks).map fun i => size * (i + 1)).getLast?.getD 0 = size * chunks := by
  cases chunks with
  | zero => rfl
  | succ n => rw [List.range_succ, List.map_append, List.map_singleton, List.getLast?_concat]; rfl

theorem Stops.keptChunks {records : List (Except CsvFault CsvRecord)} {reason : StopReason}
    (h : plan.Stops stop first records rows reason) (o : ImportOptions) (hsize : 1 ≤ o.chunkSize)
    {reader : CsvReader} (hrecords : reader.records = records) (skipped : List String) :
    (first.runImport o stop plan skipped reader).KeptChunks plan first o.chunkSize rows reason := by
  obtain ⟨t, record, rest, rfl, hpasses, hstops⟩ := h
  obtain ⟨p, closed, opened, hrun, hparts, hopen, hrows⟩ := hpasses.parts hsize (record :: rest)
  -- The store of the open chunk is the one behind all rows, so the record stops the run as well.
  obtain ⟨t', ht', hcurrent⟩ := hparts.inserted
  obtain ⟨hchunks, hclosed⟩ := hparts.closed_eq hopen
  have hcount : closed.length = chunkedRows o.chunkSize rows.length := by
    rw [hparts.chunks, hchunks, hrows]
    rfl
  have hlines : p.lines.length = rows.length := by rw [hparts.lines, List.length_map, hrows]
  have hstore : t' = t := by
    rw [hrows, hpasses.inserted] at ht'
    exact (Except.ok.inj ht').symm
  rw [hstore] at hcurrent
  have hstopped := run_stops o.chunkSize hparts hlines hcurrent hstops rest
  have hresult : first.runImport o stop plan skipped reader
      = ⟨p.committed, p.lines, p.totals, .error (reason.error (chunkedRows o.chunkSize rows.length))⟩ := by
    unfold Store.runImport
    rw [hrecords, hrun, hstopped, hcount]
  have htotals : p.totals = (List.range (rows.length / o.chunkSize)).map fun i => o.chunkSize * (i + 1) := by
    rw [← hrows, ← hchunks]
    exact hparts.totals
  rw [hresult]
  refine ⟨?_, htotals, rfl, fun a ha => ?_⟩
  · obtain ⟨u, hu, hcommitted⟩ := hparts.committed
    refine ⟨u, ?_, ?_⟩
    · rw [hclosed, hrows] at hu
      exact hu
    · show p.committed = _
      rw [hcommitted, ← hcount]
      simp only [List.length_eq_zero_iff]
  · unfold ImportAccount.committedRows
    rw [ha]
    -- The account of a cancellation has the number in the outcome, all others have it from the last total.
    cases reason with
    | canceled => rfl
    | fault found =>
      show p.totals.getLast?.getD 0 = _
      rw [htotals, getLast_totals]
      rfl
    | rejected line rejection =>
      show p.totals.getLast?.getD 0 = _
      rw [htotals, getLast_totals]
      rfl

theorem Ends.keptAll {records : List (Except CsvFault CsvRecord)} (h : plan.Ends stop first records rows)
    (o : ImportOptions) (hsize : 1 ≤ o.chunkSize) {reader : CsvReader} (hrecords : reader.records = records)
    (skipped : List String) : (first.runImport o stop plan skipped reader).KeptAll plan first rows := by
  obtain ⟨rfl, t, hpasses⟩ := h
  obtain ⟨p, closed, opened, hrun, hparts, hopen, hrows⟩ := hpasses.parts hsize []
  obtain ⟨hnone, hlines, hcommitted, hlast, hstore⟩ := run_ends stop hparts hrows hopen
  rw [List.append_nil, ← hrecords] at hrun
  rcases hresult : plan.run o.chunkSize stop (.start first) reader.records with ⟨q, error⟩
  rw [← hrun, hresult] at hnone hlines hcommitted hlast hstore
  obtain rfl : error = none := hnone
  unfold Store.runImport
  rw [hresult]
  dsimp only at hlines hcommitted hlast hstore ⊢
  refine ⟨hstore, ⟨_, rfl, hlines, hcommitted.trans hlines.symm, ?_⟩, fun a ha => ?_⟩
  · dsimp only
    rw [hlines]
    exact hlast
  · unfold ImportAccount.committedRows
    rw [ha]
    exact hcommitted

end ImportPlan

namespace Store

variable {s first : Store} {bench : String} {bytes : List UInt8} {o : ImportOptions} {plan : ImportPlan}
  {records : List (Except CsvFault CsvRecord)}

theorem Starts.importCsv_eq (h : s.Starts bench bytes o plan first records) (stop : Nat → Bool) :
    ∃ skipped reader, reader.records = records
      ∧ s.importCsv bench bytes o stop = first.runImport o stop plan skipped reader := by
  obtain ⟨hsize, name, autoKey, skipped, reader, hname, hprepared, hplan, hrecords⟩ := h
  have hprepares : s.Prepares bench bytes o ⟨name, autoKey, first, plan, skipped, reader⟩ :=
    ⟨hsize, hname, hprepared, hplan⟩
  exact ⟨skipped, reader, hrecords, hprepares.importCsv_eq stop⟩

/-- An import that stops at a record keeps the rows before it that are in full chunks, and no others; one that
    comes to its end keeps all. What it tells are the numbers of the rows that it kept. -/
theorem importCsv_keepsChunks (h : s.Starts bench bytes o plan first records) (stop : Nat → Bool) :
    (∀ rows reason, plan.Stops stop first records rows reason →
        (s.importCsv bench bytes o stop).KeptChunks plan first o.chunkSize rows reason)
      ∧ (∀ rows, plan.Ends stop first records rows →
        (s.importCsv bench bytes o stop).KeptAll plan first rows)
      ∧ ((∃ rows reason, plan.Stops stop first records rows reason)
        ∨ ∃ rows, plan.Ends stop first records rows) := by
  obtain ⟨skipped, reader, hrecords, himport⟩ := h.importCsv_eq stop
  rw [himport]
  exact ⟨fun rows reason hstops => hstops.keptChunks o h.size hrecords skipped,
    fun rows hends => hends.keptAll o h.size hrecords skipped, plan.stops_or_ends stop first records⟩

/-- A header and four rows. -/
def sampleBytes : List UInt8 :=
  [115, 105, 122, 101, 10, 51, 48, 10, 52, 48, 10, 53, 48, 10, 54, 48, 10]

/-- One of the rows. -/
def sampleRow (number : Nat) (text : String) : CsvRecord :=
  ⟨⟨number, number + 1, 3 * number + 2⟩, [text]⟩

/-- The plan of their import into the sample store. -/
def samplePlan : ImportPlan :=
  ⟨⟨1, "RUNS", none⟩, [⟨1, 1, "SIZE", true, true, 1⟩], [some "SIZE"], ∅, none⟩

deriving instance DecidableEq for CsvReader, ImportPlan

theorem starts_sample : sample.Starts "runs" sampleBytes ⟨2, 44, ∅, none⟩ samplePlan sample
    [.ok (sampleRow 1 "30"), .ok (sampleRow 2 "40"), .ok (sampleRow 3 "50"), .ok (sampleRow 4 "60")] :=
  ⟨by decide, "RUNS", none, [], ⟨44, sampleBytes.drop 5, ⟨1, 2, 5⟩, some 1⟩, by decide +kernel, rfl,
    by decide +kernel, by cbv⟩

/-- Of four rows the first two are kept where chunks have two rows and the import is canceled at the fourth
    one. -/
theorem keepsChunks_sample : ∃ rows, rows.map (·.fields) = [["30"], ["40"], ["50"]]
    ∧ (sample.importCsv "runs" sampleBytes ⟨2, 44, ∅, none⟩ (· == 3)).KeptChunks samplePlan sample 2 rows
      .canceled := by
  obtain ⟨hstops, _⟩ := importCsv_keepsChunks starts_sample (· == 3)
  obtain ⟨t, ht, _⟩ := exists_eq_ok
    (x := samplePlan.insertRows sample [sampleRow 1 "30", sampleRow 2 "40", sampleRow 3 "50"])
    (f := (·.experiments.length)) (b := 5) (by decide +kernel)
  have hpasses : samplePlan.Passes (· == 3) sample
      [sampleRow 1 "30", sampleRow 2 "40", sampleRow 3 "50"] t :=
    ⟨by decide, ht⟩
  exact ⟨_, rfl, hstops _ _ ⟨t, .ok (sampleRow 4 "60"), [], rfl, hpasses, .canceled rfl⟩⟩

end Store

end BenchPlot
