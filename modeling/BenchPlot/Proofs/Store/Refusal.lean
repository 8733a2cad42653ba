import BenchPlot.Proofs.Store.AutoKey
import BenchPlot.Proofs.Store.ImportChunks

/-!
# Refused operations

An operation that is refused leaves the store as it was, with one exception. An import that asks for a key
field of digests has the benchmark and the field made before it looks at anything else; where it is refused
afterwards they stay. An import counts as refused here if it ends in an error before a chunk is committed.

Main statements: `refused_leaves`, and `refusedImport_sample` for the exception.
-/

namespace BenchPlot

/-- The error of a result. -/
def errorOf {α : Type} : Except StoreError α → Option StoreError
  | .ok _ => none
  | .error e => some e

/-- What an import is refused for, with no row of it in the store. -/
def ImportRun.refusal? (run : ImportRun) : Option StoreError :=
  if run.totals.isEmpty then errorOf run.outcome else none

namespace Store

/-! ## §1 Refusals -/

/-- What an operation is refused for. -/
def refusal? (s : Store) : Operation → Option StoreError
  | .createBenchmark name description => errorOf (s.createBenchmark name description)
  | .ensureBenchmark name => errorOf (s.ensureBenchmark name)
  | .renameBenchmark old new => errorOf (s.renameBenchmark old new)
  | .setDescription name description => errorOf (s.setDescription name description)
  | .removeBenchmark name => errorOf (s.removeBenchmark name)
  | .addField bench field => errorOf (s.addField bench field)
  | .removeField bench field => errorOf (s.removeField bench field)
  | .renameField bench field new => errorOf (s.renameField bench field new)
  | .setNumeric bench field flag => errorOf (s.setNumeric bench field flag)
  | .setKey bench field flag => errorOf (s.setKey bench field flag)
  | .createIndex bench name fields => errorOf (s.createIndex bench name fields)
  | .dropIndex bench name => errorOf (s.dropIndex bench name)
  | .insert bench values => errorOf (s.insert bench values)
  | .importCsv bench bytes options stop => (s.importCsv bench bytes options stop).refusal?
  | .setOutlier bench id flag => errorOf (s.setOutlier bench id flag)
  | .setOutlierWhere bench condition flag => errorOf (s.setOutlierWhere bench condition flag)
  | .delete bench ids => errorOf (s.delete bench ids)
  | .deleteWhere bench condition => errorOf (s.deleteWhere bench condition)

/-- What an import that asks for a key field may leave behind: the benchmark, if it was missing, and the
    field, if it could be added. -/
inductive LeftByImport (s : Store) : Operation → Store → Prop where
  | benchmark {written name key : String} {bytes : List UInt8} {o : ImportOptions} {stop : Nat → Bool}
      (hname : canonical written = .ok name) (hkey : o.autoKey = some key)
      (hmissing : s.benchmark? name = none) :
      LeftByImport s (.importCsv written bytes o stop) (s.insertBenchmark name none).2
  | keyField {written name key column : String} {bytes : List UInt8} {o : ImportOptions}
      {stop : Nat → Bool} {f : Field} {t : Store} (hname : canonical written = .ok name)
      (hkey : o.autoKey = some key) (hcolumn : canonical key = .ok column)
      (hadded : s.addField name ⟨column, false, true, none⟩ = .ok (f, t)) :
      LeftByImport s (.importCsv written bytes o stop) t

variable {s s' t : Store} {b : Benchmark}

theorem orKeep_of_errorOf {result : Except StoreError Store} {e : StoreError} (h : errorOf result = some e) :
    s.orKeep result = s := by
  cases result with
  | ok => cases h
  | error => rfl

theorem orKeep_map_of_errorOf {α : Type} {result : Except StoreError (α × Store)} {e : StoreError}
    (h : errorOf result = some e) : s.orKeep (result.map (·.2)) = s := by
  cases result with
  | ok => cases h
  | error => rfl

/-! ## §2 Refused imports -/

/-- A refused import leaves the store behind the preparation of the key field, if it gets there. -/
theorem importCsv_of_refusal {written : String} {bytes : List UInt8} {o : ImportOptions}
    {stop : Nat → Bool} {e : StoreError} (hrefused : (s.importCsv written bytes o stop).refusal? = some e) :
    (s.importCsv written bytes o stop).store = s
      ∨ ∃ name, canonical written = .ok name
        ∧ (s.importCsv written bytes o stop).store = (s.prepareAutoKey name o.autoKey).2 := by
  unfold ImportRun.refusal? at hrefused
  rcases s.importCsv_cases written bytes o stop with ⟨_, heq⟩ | ⟨name, _, hname, heq⟩ | ⟨p, hp⟩
  · rw [heq]
    exact .inl rfl
  · rw [heq]
    exact .inr ⟨name, hname, rfl⟩
  · rw [hp.importCsv_eq] at hrefused ⊢
    refine .inr ⟨p.name, hp.name, ?_⟩
    rw [hp.first]
    split at hrefused
    · rename_i hnone
      -- The run has no committed chunk, so the rows that it kept are none.
      rcases p.plan.stops_or_ends stop p.first p.reader.records with ⟨rows, reason, hstops⟩ | ⟨rows, hends⟩
      · obtain ⟨⟨t, ht, hstore⟩, htotals, _, _⟩ := hstops.keptChunks o hp.size rfl p.skipped
        have hchunks : chunkedRows o.chunkSize rows.length = 0 := by
          rw [List.isEmpty_iff, htotals, List.map_eq_nil_iff, List.range_eq_nil] at hnone
          unfold chunkedRows
          rw [hnone, Nat.mul_zero]
        rw [hchunks] at ht
        rw [hstore, if_pos hchunks]
        exact (Except.ok.inj ht).symm
      · obtain ⟨_, ⟨summary, houtcome, _⟩, _⟩ := hends.keptAll o hp.size rfl p.skipped
        rw [houtcome] at hrefused
        cases hrefused
    · cases hrefused

theorem importCsv_left {written : String} {bytes : List UInt8} {o : ImportOptions} {stop : Nat → Bool}
    {e : StoreError} (hrefused : (s.importCsv written bytes o stop).refusal? = some e) :
    (s.importCsv written bytes o stop).store = s
      ∨ s.LeftByImport (.importCsv written bytes o stop) (s.importCsv written bytes o stop).store := by
  rcases importCsv_of_refusal hrefused with hsame | ⟨name, hname, hstore⟩
  · exact .inl hsame
  rw [hstore]
  -- What stays is what the asking for a key field left.
  cases hkey : o.autoKey with
  | none => exact .inl rfl
  | some key =>
    show (s.ensureAutoKey name key).2 = s ∨ _
    rcases ensureAutoKey_cases (isCanonical_of_canonical hname) key with
      hsame | ⟨hmissing, hmade⟩ | ⟨column, f, hcolumn, hadded⟩
    · exact .inl hsame
    · refine .inr ?_
      show s.LeftByImport _ (s.ensureAutoKey name key).2
      rw [hmade]
      exact .benchmark hname hkey hmissing
    · exact .inr (.keyField hname hkey hcolumn hadded)

theorem LeftByImport.records {op : Operation} (h : s.LeftByImport op t) :
    t.experiments = s.experiments ∧ t.indices = s.indices := by
  cases h with
  | benchmark => exact ⟨rfl, rfl⟩
  | keyField _ _ _ hadded => exact addField_records hadded

/-! ## §3 All operations -/

/-- A refused operation leaves the store as it was, or it was an import that asked for a key field: then the
    benchmark and the field may have come in. No experiment and no index has changed even so. -/
theorem refused_leaves (s : Store) {op : Operation} {e : StoreError} (hrefused : s.refusal? op = some e) :
    (s.apply op = s ∨ s.LeftByImport op (s.apply op))
      ∧ (s.apply op).experiments = s.experiments ∧ (s.apply op).indices = s.indices := by
  have hleft : s.apply op = s ∨ s.LeftByImport op (s.apply op) := by
    cases op with
    | createBenchmark => exact .inl (orKeep_map_of_errorOf hrefused)
    | ensureBenchmark => exact .inl (orKeep_map_of_errorOf hrefused)
    | renameBenchmark => exact .inl (orKeep_map_of_errorOf hrefused)
    | setDescription => exact .inl (orKeep_of_errorOf hrefused)
    | removeBenchmark => exact .inl (orKeep_of_errorOf hrefused)
    | addField => exact .inl (orKeep_map_of_errorOf hrefused)
    | removeField => exact .inl (orKeep_of_errorOf hrefused)
    | renameField => exact .inl (orKeep_map_of_errorOf hrefused)
    | setNumeric => exact .inl (orKeep_of_errorOf hrefused)
    | setKey => exact .inl (orKeep_of_errorOf hrefused)
    | createIndex => exact .inl (orKeep_map_of_errorOf hrefused)
    | dropIndex => exact .inl (orKeep_of_errorOf hrefused)
    | insert => exact .inl (orKeep_map_of_errorOf hrefused)
    | importCsv => exact importCsv_left hrefused
    | setOutlier => exact .inl (orKeep_of_errorOf hrefused)
    | setOutlierWhere => exact .inl (orKeep_map_of_errorOf hrefused)
    | delete => exact .inl (orKeep_map_of_errorOf hrefused)
    | deleteWhere => exact .inl (orKeep_map_of_errorOf hrefused)
  refine ⟨hleft, ?_⟩
  rcases hleft with hsame | hleft
  · rw [hsame]
    exact ⟨rfl, rfl⟩
  · exact hleft.records

/-- An import of some rows with a value for a field that may not be there. -/
def sampleImport (autoKey : Option String) : Operation :=
  .importCsv "runs" sampleBytes ⟨2, 44, .ofList [("nope", "1")], autoKey⟩ fun _ => false

/-- Without a key field of digests nothing is left of a refused import. -/
theorem refusedLeaves_sample : sample.refusal? (sampleImport none) = some (.notFound .field "RUNS.NOPE")
    ∧ sample.apply (sampleImport none) = sample := by
  have hrefused : sample.refusal? (sampleImport none) = some (.notFound .field "RUNS.NOPE") := by
    decide +kernel
  refine ⟨hrefused, ?_⟩
  obtain ⟨hsame | hleft, _⟩ := refused_leaves sample hrefused
  · exact hsame
  · generalize sample.apply (sampleImport none) = t at hleft
    cases hleft with
    | benchmark _ hkey => cases hkey
    | keyField _ hkey => cases hkey

/-- With one, the same import leaves a benchmark and a field in a store that had neither. -/
theorem refusedImport_sample : (new "0").Reachable
    ∧ (new "0").refusal? (sampleImport (some "hash")) = some (.notFound .field "RUNS.NOPE")
    ∧ (new "0").benchmarks = [] ∧ (new "0").fields = []
    ∧ ((new "0").apply (sampleImport (some "hash"))).benchmarks.map (·.name) = ["RUNS"]
    ∧ ((new "0").apply (sampleImport (some "hash"))).fields.map (·.name) = ["HASH"] :=
  ⟨⟨"0", [], rfl⟩, by decide +kernel, rfl, rfl, by decide +kernel, by decide +kernel⟩

end Store

end BenchPlot
