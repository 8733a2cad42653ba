import BenchPlot.Csv.Basic
import BenchPlot.Proofs.Store.Accepted

/-!
# The width of records

The first record of some bytes sets the number of fields of all that follow: a record with more or with fewer
fields is a fault. So every record that is read behind a header has a field for each column.

Main statement: `CsvReader.length_fields_of_header`.
-/

namespace BenchPlot

theorem Csv.length_of_decodeFields {position : CsvPosition} {index : Nat} {fields : List (List UInt8)}
    {texts : List String} (h : decodeFields position index fields = .ok texts) : texts.length = fields.length := by
  induction fields generalizing index texts with
  | nil =>
    cases h
    rfl
  | cons field rest ih =>
    unfold decodeFields at h
    split at h
    · cases h
    · obtain ⟨later, hlater, rfl⟩ := map_eq_ok.1 h
      rw [List.length_cons, List.length_cons, ih hlater]

namespace CsvReader

variable {r next : CsvReader}

/-- Behind a record there is a width: the one that was there, or that of the record. An accepted record has it. -/
theorem width_of_nextRaw? {a : Except CsvFault (List (List UInt8))} (h : r.nextRaw? = some (a, next)) :
    (∀ width, r.width = some width → next.width = some width)
      ∧ ∀ fields, a = .ok fields → next.width = some fields.length := by
  unfold nextRaw? at h
  dsimp only at h
  split at h
  · cases h
  · cases h
    refine ⟨fun width hwidth => ?_, fun fields hfields => ?_⟩
    · rw [hwidth]
      rfl
    · split at hfields
      · rename_i hcount
        cases hfields
        exact congrArg some hcount.symm
      · cases hfields

/-- A record of text has the width that there is before it, and the width stays. -/
theorem width_of_next? {a : Except CsvFault CsvRecord} {width : Nat} (hwidth : r.width = some width)
    (h : r.next? = some (a, next)) :
    next.width = some width ∧ ∀ record, a = .ok record → record.fields.length = width := by
  unfold next? at h
  split at h
  · cases h
  · rename_i hraw
    cases h
    exact ⟨(width_of_nextRaw? hraw).1 width hwidth, fun record hrecord => nomatch hrecord⟩
  · rename_i fields _ hraw
    cases h
    obtain ⟨hkept, hfields⟩ := width_of_nextRaw? hraw
    refine ⟨hkept width hwidth, fun record hrecord => ?_⟩
    obtain ⟨texts, htexts, rfl⟩ := map_eq_ok.1 hrecord
    have hlength : fields.length = width :=
      Option.some.inj ((hfields fields rfl).symm.trans (hkept width hwidth))
    show texts.length = width
    rw [Csv.length_of_decodeFields htexts, List.length_map, hlength]

theorem records_of_none (h : r.next? = none) : r.records = [] := by
  rw [records]
  split
  · rfl
  · rename_i hsome
    rw [h] at hsome
    cases hsome

theorem records_of_next? {a : Except CsvFault CsvRecord} (h : r.next? = some (a, next)) :
    r.records = a :: next.records := by
  rw [records]
  split
  · rename_i hnone
    rw [h] at hnone
    cases hnone
  · rename_i hsome
    rw [h] at hsome
    cases hsome
    rfl

/-- All records behind a reader that has a width have this width. -/
theorem length_fields_of_mem_records {width : Nat} (hwidth : r.width = some width) {record : CsvRecord}
    (h : .ok record ∈ r.records) : record.fields.length = width := by
  -- Along the records: the reader behind each of them has the width again.
  induction r using records.induct with
  | case1 r hnone =>
    rw [records_of_none hnone] at h
    cases h
  | case2 r first next hnext _ ih =>
    obtain ⟨hkept, hfirst⟩ := width_of_next? hwidth hnext
    rw [records_of_next? hnext] at h
    rcases List.mem_cons.mp h with heq | hlater
    · exact hfirst record heq.symm
    · exact ih hkept hlater

/-- A record that is read behind the header has a field for each column. -/
theorem length_fields_of_header {headers : List String} (hheader : r.header = .ok (headers, next))
    {record : CsvRecord} (h : .ok record ∈ next.records) : record.fields.length = headers.length := by
  unfold header at hheader
  split at hheader
  · -- Without a header there is no record either.
    rename_i hnone
    cases hheader
    have hend : r.next? = none := by
      unfold next?
      rw [hnone]
    rw [records_of_none hend] at h
    cases h
  · cases hheader
  · rename_i fields next' hraw
    obtain ⟨texts, htexts, heq⟩ := map_eq_ok.1 hheader
    cases heq
    rw [Csv.length_of_decodeFields htexts]
    exact length_fields_of_mem_records ((width_of_nextRaw? hraw).2 fields rfl) h

end CsvReader

end BenchPlot
