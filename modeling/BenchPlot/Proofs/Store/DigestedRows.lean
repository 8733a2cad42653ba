import BenchPlot.Proofs.Store.ImportedCells
import BenchPlot.Proofs.Store.RowDigest

/-!
# Rows under digests

An import that fills a key field with digests puts each row under the digest of its other values. A row that is
not new has the digest of an experiment that was there before the import, or of an earlier row. The rows of a file
give values to the same fields, so two of them with different values are told apart by the bytes that their digests
are taken of, unless both have values that can stand for several.

Main statements: `typedValue?_contentKey`, `Store.ImportsRows.standUnderDigests` and `Store.digests_tell_rows_apart`.
-/

namespace BenchPlot

/-! ## §1 Digests as values -/

theorem Sha256.length_digest (bytes : List UInt8) : (digest bytes).length = 32 := by
  simp [digest, bytesOfNat]

theorem Sha256.length_digestText (bytes : List UInt8) : (digestText bytes).toList.length = 64 := by
  have hpairs : (digest bytes).map (fun b => (hexDigits b).length) = List.replicate 32 2 := by
    rw [← length_digest bytes]
    simp [hexDigits]
  rw [digestText, String.toList_ofList, List.length_flatMap, hpairs]
  rfl

/-- A digest has no blanks. -/
theorem Sha256.not_blank_of_mem {bytes : List UInt8} {c : Char} (h : c ∈ (digestText bytes).toList) :
    Text.isBlank c = false := by
  have hdigits : ∀ n < 16, Text.isBlank (Nat.digitChar n) = false := by decide
  rw [digestText, String.toList_ofList] at h
  obtain ⟨b, _, hc⟩ := List.mem_flatMap.mp h
  have hb : b.toNat < 256 := b.toNat_lt
  rcases List.mem_cons.mp hc with rfl | hc
  · exact hdigits _ (by omega)
  · rw [List.mem_singleton.mp hc]
    exact hdigits _ (by omega)

/-- The digest of a row is stored as it is. -/
theorem typedValue?_contentKey (values : SortedMap String String) :
    typedValue? false (contentKey values) = some (.text (contentKey values)) := by
  rw [contentKey_eq]
  generalize hdigits : (Sha256.digestText (contentBytes values)).toList.take 16 = digits
  have hlength : digits.length = 16 := by
    rw [← hdigits, List.length_take, Sha256.length_digestText]
    rfl
  have htrim : Text.trim (String.ofList digits) = String.ofList digits := by
    unfold Text.trim
    rw [String.toList_ofList, Text.trimChars_of_not_blank]
    intro c hc
    rw [← hdigits] at hc
    exact Sha256.not_blank_of_mem (List.mem_of_mem_take hc)
  have hnonempty : (String.ofList digits).isEmpty = false := by
    cases digits with
    | nil => cases hlength
    | cons => simp
  unfold typedValue?
  simp only [htrim, hnonempty, Bool.false_eq_true, if_false]

/-! ## §2 The values of a row that its digest is taken of -/

namespace ImportPlan

variable {plan : ImportPlan} {record record' : List String} {column k : String}

/-- The values of a record that its digest is taken of. -/
def contentOf (plan : ImportPlan) (record : List String) : SortedMap String String :=
  (SortedMap.ofList (namedCells plan.columns record)).union plan.fixed

theorem contentOf_sorted (plan : ImportPlan) (record : List String) : (plan.contentOf record).Sorted :=
  (SortedMap.sorted_empty.foldl_insert (namedCells plan.columns record)).foldl_insert plan.fixed.entries

theorem valuesOf_of_autoKey (h : plan.autoKey = some column) (record : List String) :
    plan.valuesOf record = (plan.contentOf record).insert column (contentKey (plan.contentOf record)) := by
  unfold valuesOf
  rw [h]
  rfl

theorem map_fst_namedCells {columns : List (Option String)} (h : record.length = record'.length) :
    (namedCells columns record).map (·.1) = (namedCells columns record').map (·.1) := by
  induction columns generalizing record record' with
  | nil => rfl
  | cons column columns ih =>
    cases record with
    | nil =>
      obtain rfl := List.length_eq_zero_iff.mp h.symm
      rfl
    | cons cell record =>
      cases record' with
      | nil => cases h
      | cons cell' record' =>
        have hlater := ih (Nat.succ.inj h)
        unfold namedCells at hlater ⊢
        rw [List.zip_cons_cons, List.zip_cons_cons, List.filterMap_cons, List.filterMap_cons]
        cases column with
        | none => exact hlater
        | some name => exact congrArg (name :: ·) hlater

/-- Records of one width give values to the same fields. -/
theorem keys_contentOf (h : record.length = record'.length) :
    (plan.contentOf record).keys = (plan.contentOf record').keys :=
  SortedMap.keys_foldl_insert_congr (SortedMap.keys_foldl_insert_congr rfl (map_fst_namedCells h)) rfl

/-- What a row has under the field for digests is the digest of its other values. -/
theorem given?_of_autoKey {f : Field} (h : plan.autoKey = some f.name) (hnumeric : f.numeric = false)
    (record : List String) : f.given? (plan.valuesOf record) = some (.text (contentKey (plan.contentOf record))) := by
  unfold Field.given?
  rw [valuesOf_of_autoKey h, hnumeric, SortedMap.find?_insert_self, Option.getD_some, typedValue?_contentKey]
  rfl

namespace Inserts

variable {s t : Store} {rows : List CsvRecord} {outcomes : List InsertOutcome} {k id : Nat} {row : CsvRecord}
  {f : Field}

/-- A new row has its digest under the field. -/
theorem value?_digest (h : plan.Inserts s rows outcomes t) (hs : plan.Fits s) (hauto : plan.autoKey = some f.name)
    (hf : f ∈ plan.fields) (hnumeric : f.numeric = false) (hrow : rows[k]? = some row)
    (houtcome : outcomes[k]? = some (.inserted id)) :
    (t.holding plan.benchmark).value? f id = some (.text (contentKey (plan.contentOf row.fields))) := by
  obtain ⟨v, hv, hstored⟩ := h.value?_inserted hs hrow houtcome hf
  rw [given?_of_autoKey hauto hnumeric] at hv
  rw [hstored, ← hv]

/-- The digest of a row that is not new is that of an experiment which was there before all rows, or of an earlier
    row that was new. -/
theorem digest_existing (h : plan.Inserts s rows outcomes t) (hs : plan.Fits s) (hauto : plan.autoKey = some f.name)
    (hf : f ∈ plan.fields) (hkey : f.key = true) (hnumeric : f.numeric = false) (hrow : rows[k]? = some row)
    (houtcome : outcomes[k]? = some (.existing id)) :
    (∃ e ∈ s.experimentsOf plan.benchmark, e.id = id
      ∧ (s.holding plan.benchmark).value? f id = some (.text (contentKey (plan.contentOf row.fields))))
    ∨ ∃ (j : Nat) (earlier : CsvRecord), j < k ∧ rows[j]? = some earlier ∧ outcomes[j]? = some (.inserted id)
      ∧ contentKey (plan.contentOf earlier.fields) = contentKey (plan.contentOf row.fields) := by
  obtain ⟨u, hbefore, ⟨e, he, rfl⟩, v, hv, hstored⟩ := h.value?_existing hs hrow houtcome hf hkey
  have hdigest : v = .text (contentKey (plan.contentOf row.fields)) := by
    rw [given?_of_autoKey hauto hnumeric] at hv
    cases v with
    | text => exact (Option.some.inj hv).symm
    | _ => cases hv
  obtain ⟨hmem, hbench⟩ := List.mem_filter.mp he
  rcases hbefore.exists_inserted hmem with hthere | ⟨j, hj⟩
  · -- The experiment was there before all rows, with the value that it has in the end.
    have he : e ∈ s.experimentsOf plan.benchmark := List.mem_filter.mpr ⟨hthere, hbench⟩
    have hown : f ∈ (s.holding plan.benchmark).fields := by
      rw [← hs.fields, hs.sound.fieldsOf_eq hs.benchmark] at hf
      exact hf
    obtain ⟨w, hw⟩ := (hs.sound.holdings _ hs.benchmark).exists_value hown he
    have hsame := (h.value? hw).symm.trans hstored
    exact .inl ⟨e, he, rfl, by rw [hw, hsame, hdigest]⟩
  · -- An earlier row brought the experiment.
    rw [List.getElem?_take] at hj
    split at hj
    · rename_i hlt
      obtain ⟨earlier, hearlier⟩ : ∃ earlier, rows[j]? = some earlier := by
        have hjlt : j < rows.length := hlt.trans (List.getElem?_eq_some_iff.mp hrow).1
        exact ⟨_, List.getElem?_eq_getElem hjlt⟩
      have hbrought := h.value?_digest hs hauto hf hnumeric hearlier hj
      rw [hstored, hdigest] at hbrought
      have hdigests := Value.text.inj (Option.some.inj hbrought)
      exact .inr ⟨j, earlier, hlt, hearlier, hj, hdigests.symm⟩
    · cases hj

end Inserts

end ImportPlan

/-! ## §3 Rows that imports find -/

/-- Two rows have the same values, blanks around them aside. -/
def SameValues (values values' : SortedMap String String) : Prop :=
  ∀ name, (values.find? name).map Text.trim = (values'.find? name).map Text.trim

/-- What tells the rows of an import apart that stand under their digests in a field. -/
structure StandUnderDigests (before final : Store) (plan : ImportPlan) (rows : List CsvRecord)
    (outcomes : List InsertOutcome) (f : Field) : Prop where
  /-- A new row has its digest under the field. -/
  inserted : ∀ (k : Nat) row id, rows[k]? = some row → outcomes[k]? = some (.inserted id) →
    (final.holding plan.benchmark).value? f id = some (.text (contentKey (plan.contentOf row.fields)))
  /-- A row that is not new has the digest of an experiment that was there, or of an earlier new row. -/
  existing : ∀ (k : Nat) row id, rows[k]? = some row → outcomes[k]? = some (.existing id) →
    (∃ e ∈ before.experimentsOf plan.benchmark, e.id = id
      ∧ (before.holding plan.benchmark).value? f id = some (.text (contentKey (plan.contentOf row.fields))))
    ∨ ∃ (j : Nat) (earlier : CsvRecord), j < k ∧ rows[j]? = some earlier ∧ outcomes[j]? = some (.inserted id)
      ∧ contentKey (plan.contentOf earlier.fields) = contentKey (plan.contentOf row.fields)
  /-- Digests of different rows are taken of different bytes, unless both rows have values that can stand for
      several. -/
  apart : ∀ row ∈ rows, ∀ other ∈ rows,
    contentBytes (plan.contentOf row.fields) = contentBytes (plan.contentOf other.fields) →
    WithoutMarks (plan.contentOf row.fields).keys (plan.contentOf row.fields).values →
    SameValues (plan.contentOf row.fields) (plan.contentOf other.fields)

namespace Store

variable {s : Store} {bench : String} {bytes : List UInt8} {o : ImportOptions} {stop : Nat → Bool}
  {summary : ImportSummary} {p : Preparation} {column : String}

theorem Prepares.isLineName (h : s.Prepares bench bytes o p) (hs : s.Sound) (hauto : p.plan.autoKey = some column)
    {record : List String} {k : String} (hk : k ∈ (p.plan.contentOf record).keys) : IsLineName k := by
  have hvalues : k ∈ (p.plan.valuesOf record).keys := by
    rw [ImportPlan.valuesOf_of_autoKey hauto]
    exact SortedMap.mem_keys_insert_of_mem _ _ hk
  obtain ⟨f, hf, rfl⟩ := h.known hs hvalues
  obtain ⟨hfound, hown, _⟩ := h.benchmark
  have hsound := h.sound hs
  obtain ⟨hb, _⟩ := of_benchmark?_eq_some hfound
  rw [← hown, hsound.fieldsOf_eq hb] at hf
  exact ((hsound.holdings _ hb).fieldCanonical f hf).isLineName

/-- The rows of an import that fills a key field with digests stand under their digests. -/
theorem ImportsRows.standUnderDigests {rows : List CsvRecord} {outcomes : List InsertOutcome}
    (h : s.ImportsRows bench bytes o stop p rows outcomes) (hs : s.Sound) (hauto : p.autoKey = some column) :
    ∃ f ∈ p.plan.fields, f.name = column ∧ f.key = true ∧ f.numeric = false
      ∧ StandUnderDigests p.first (s.importCsv bench bytes o stop).store p.plan rows outcomes f := by
  obtain ⟨headers, hheader, _, hplan, _, _⟩ := h.prepares.columns
  have hcolumn : p.plan.autoKey = some column := hplan.trans hauto
  have hfits := h.prepares.fits hs
  obtain ⟨hfound, hown, _⟩ := h.prepares.benchmark
  obtain ⟨b, f, hb, hfield, hkey, hnumeric⟩ := h.prepares.hasTextKey hs hauto
  obtain rfl := Option.some.inj (hfound.symm.trans hb)
  have hf : f ∈ p.plan.fields := hown ▸ List.mem_of_find?_eq_some hfield
  have hname : f.name = column := by simpa using List.find?_some hfield
  obtain ⟨_, t, hrows, hholding⟩ := h.store hs
  rw [← hname] at hcolumn
  refine ⟨f, hf, hname, hkey, hnumeric, fun k row id hrow houtcome => ?_, fun k row id hrow houtcome => ?_, ?_⟩
  · rw [hholding]
    exact hrows.value?_digest hfits hcolumn hf hnumeric hrow houtcome
  · exact hrows.digest_existing hfits hcolumn hf hkey hnumeric hrow houtcome
  · intro row hrow other hother hsame hmarks
    have hwidth : ∀ r ∈ rows, r.fields.length = headers.length := by
      intro r hr
      apply CsvReader.length_fields_of_header hheader
      rw [h.records]
      exact List.mem_map_of_mem hr
    exact find?_of_contentBytes (p.plan.contentOf_sorted _)
      (ImportPlan.keys_contentOf ((hwidth row hrow).trans (hwidth other hother).symm))
      (fun name hname => h.prepares.isLineName hs hcolumn hname) hmarks hsame

/-- Two rows of the same fields whose digests are taken of the same bytes have the same values, blanks around them
    aside, or both have a value that can stand for several. In every reachable store, the rows of an import that
    comes to its end and fills a key field with digests stand under their digests: one that was not new has the
    digest of an experiment that was there, or of an earlier row. -/
theorem digests_tell_rows_apart {key : String} (h : s.Reachable)
    (hok : (s.importCsv bench bytes o stop).outcome = .ok summary) (hkey : o.autoKey = some key) :
    (∀ values values' : SortedMap String String, values.Sorted → values.keys = values'.keys →
        (∀ name ∈ values.keys, IsCanonical name) → WithoutMarks values.keys values.values →
        contentBytes values = contentBytes values' → SameValues values values')
      ∧ ∃ p rows outcomes f, s.ImportsRows bench bytes o stop p rows outcomes ∧ canonicalName key = .ok f.name
        ∧ f ∈ p.plan.fields ∧ f.key = true ∧ f.numeric = false
        ∧ StandUnderDigests p.first (s.importCsv bench bytes o stop).store p.plan rows outcomes f := by
  constructor
  · intro values values' hsorted hkeys hnames hmarks hsame
    exact find?_of_contentBytes hsorted hkeys (fun name hname => (hnames name hname).isLineName) hmarks hsame
  · obtain ⟨p, rows, outcomes, himports, _, _⟩ := exists_importsRows hok
    rcases prepareAutoKey_eq_ok himports.prepares.first with ⟨hnone, _⟩ | ⟨found, column, hfound, hauto, hensured⟩
    · rw [hnone] at hkey
      cases hkey
    · obtain rfl := Option.some.inj (hfound.symm.trans hkey)
      obtain ⟨hcolumn, _⟩ := h.sound.ensureAutoKey_eq_ok (isCanonical_of_canonical himports.prepares.name) hensured
      obtain ⟨f, hf, rfl, hiskey, hnumeric, hstand⟩ := himports.standUnderDigests h.sound hauto
      exact ⟨p, rows, outcomes, f, himports, mapError_eq_ok.1 hcolumn, hf, hiskey, hnumeric, hstand⟩

/-- A store with a benchmark that has a key field for digests and a field for texts. -/
def sampleDigests : Store :=
  (new "0").run [
    ("1", .addField "runs" ⟨"hash", false, true, none⟩),
    ("2", .addField "runs" ⟨"a", false, false, none⟩)]

theorem reachable_sampleDigests : sampleDigests.Reachable :=
  ⟨"0", _, rfl⟩

/-- What is settled for an import that fills the key field with digests of one column. -/
def sampleDigestsPlan : ImportPlan :=
  ⟨⟨1, "RUNS", none⟩, [⟨1, 1, "HASH", false, true, 1⟩, ⟨2, 1, "A", false, false, 2⟩], [some "A"], ∅, some "HASH"⟩

theorem fieldsOf_sampleDigests : sampleDigests.fieldsOf sampleDigestsPlan.benchmark = sampleDigestsPlan.fields := by
  rw [reachable_sampleDigests.sound.fieldsOf_eq (by decide +kernel)]
  decide +kernel

theorem prepares_sampleDigests {bytes : List UInt8} {reader : CsvReader}
    (hheader : (CsvReader.new 44 bytes).header = .ok (["a"], reader)) :
    sampleDigests.Prepares "runs" bytes ⟨2, 44, ∅, some "hash"⟩
      ⟨"RUNS", some "HASH", sampleDigests, sampleDigestsPlan, [], reader⟩ := by
  have hfound : sampleDigests.benchmark? "RUNS" = some sampleDigestsPlan.benchmark := by decide +kernel
  have hname : canonical "runs" = .ok "RUNS" := by decide
  refine ⟨by decide, hname, ?_, ?_⟩
  · -- The key field is there already.
    have hkey : sampleDigests.HasTextKey "RUNS" "HASH" := by
      refine ⟨sampleDigestsPlan.benchmark, ⟨1, 1, "HASH", false, true, 1⟩, hfound, ?_, rfl, rfl⟩
      rw [fieldsOf_sampleDigests]
      decide +kernel
    unfold prepareAutoKey
    dsimp only
    rw [ensureAutoKey_of_hasTextKey hkey (by decide +kernel)]
    rfl
  · have hfields : sampleDigests.insertFields sampleDigestsPlan.benchmark = .ok sampleDigestsPlan.fields := by
      unfold insertFields
      rw [fieldsOf_sampleDigests]
      rfl
    have hcolumn : importColumn? sampleDigestsPlan.fields (some "HASH") "a" = some "A" := by decide +kernel
    have hfixed : canonicalValues ∅ = .ok ∅ := rfl
    have hknown : requireKnown sampleDigestsPlan.benchmark sampleDigestsPlan.fields ∅ = .ok () := rfl
    unfold importPlan
    simp only [bind, Except.bind, require_eq_ok.2 hfound, hfields, hfixed, hknown, hheader, List.map_cons, List.map_nil,
      hcolumn, List.filter_cons, Option.isNone_some, Bool.false_eq_true, if_false, List.filter_nil]
    rfl

/-- A header, a row that comes twice, and another one. -/
def sampleTwice : List UInt8 :=
  [97, 10, 120, 10, 120, 10, 121, 10]

theorem digests_tell_rows_apart_sample :
    SameValues (.ofList [("A", "x"), ("B", "y")]) (.ofList [("A", " x"), ("B", "y ")])
      ∧ ∃ p rows outcomes f,
        sampleDigests.ImportsRows "runs" sampleTwice ⟨2, 44, ∅, some "hash"⟩ (fun _ => false) p rows outcomes
        ∧ canonicalName "hash" = .ok f.name ∧ f ∈ p.plan.fields ∧ f.key = true ∧ f.numeric = false
        ∧ StandUnderDigests p.first
          (sampleDigests.importCsv "runs" sampleTwice ⟨2, 44, ∅, some "hash"⟩ fun _ => false).store p.plan rows
          outcomes f := by
  have hheader : (CsvReader.new 44 sampleTwice).header
      = .ok (["a"], ⟨44, sampleTwice.drop 2, ⟨1, 2, 2⟩, some 1⟩) := by
    decide +kernel
  have hrecords : CsvReader.records ⟨44, sampleTwice.drop 2, ⟨1, 2, 2⟩, some 1⟩
      = [⟨⟨1, 2, 2⟩, ["x"]⟩, ⟨⟨2, 3, 4⟩, ["x"]⟩, ⟨⟨3, 4, 6⟩, ["y"]⟩].map .ok := by
    cbv
  have hok : (sampleDigests.importCsv "runs" sampleTwice ⟨2, 44, ∅, some "hash"⟩ fun _ => false).outcome
      = .ok ⟨3, 2, 1, 2, []⟩ := by
    rw [(prepares_sampleDigests hheader).importCsv_eq]
    unfold runImport
    rw [hrecords]
    decide +kernel
  have hnames : ∀ name ∈ (SortedMap.ofList [("A", "x"), ("B", "y")]).keys, IsCanonical name := by
    intro name hname
    have hkeys : (SortedMap.ofList [("A", "x"), ("B", "y")]).keys = ["A", "B"] := by decide +kernel
    rw [hkeys] at hname
    rcases List.mem_cons.mp hname with rfl | hname
    · show canonicalName "A" = .ok "A"
      decide
    · rw [List.mem_singleton.mp hname]
      show canonicalName "B" = .ok "B"
      decide
  have hmarks : WithoutMarks (SortedMap.ofList [("A", "x"), ("B", "y")]).keys
      (SortedMap.ofList [("A", "x"), ("B", "y")]).values := by
    unfold WithoutMarks
    decide +kernel
  obtain ⟨hsame, himported⟩ := digests_tell_rows_apart reachable_sampleDigests hok rfl
  exact ⟨hsame _ _ (SortedMap.sorted_empty.foldl_insert _) (by decide +kernel) hnames hmarks (by decide +kernel),
    himported⟩

/-- A header with two columns, and two rows with a line of the second field in a value. -/
def sampleClash : List UInt8 :=
  [97, 44, 98, 10, 34, 120, 10, 66, 61, 121, 34, 44, 122, 10, 120, 44, 34, 121, 10, 66, 61, 122, 34, 10]

/-- Rows of one file whose values differ have digests of the same bytes, so that they have the same value under the
    key field of digests. -/
theorem clash_sample : ∃ reader : CsvReader, (CsvReader.new 44 sampleClash).header = .ok (["a", "b"], reader)
    ∧ ∃ row other : CsvRecord, reader.records = [.ok row, .ok other]
      ∧ ∃ plan : ImportPlan, plan.columns = [some "A", some "B"] ∧ plan.autoKey = some "HASH"
        ∧ (plan.contentOf row.fields).keys = ["A", "B"] ∧ (plan.contentOf other.fields).keys = ["A", "B"]
        ∧ ¬SameValues (plan.contentOf row.fields) (plan.contentOf other.fields)
        ∧ contentBytes (plan.contentOf row.fields) = contentBytes (plan.contentOf other.fields)
        ∧ (plan.valuesOf row.fields).find? "HASH" = (plan.valuesOf other.fields).find? "HASH" := by
  obtain ⟨plan, hplan⟩ : ∃ plan : ImportPlan, plan = ⟨⟨1, "RUNS", none⟩, [], [some "A", some "B"], ∅, some "HASH"⟩ :=
    ⟨_, rfl⟩
  have hsame : contentBytes (plan.contentOf ["x\nB=y", "z"]) = contentBytes (plan.contentOf ["x", "y\nB=z"]) := by
    rw [hplan]
    decide +kernel
  have hauto : plan.autoKey = some "HASH" := by rw [hplan]
  refine ⟨⟨44, sampleClash.drop 4, ⟨1, 2, 4⟩, some 2⟩, by decide +kernel, ⟨⟨1, 2, 4⟩, ["x\nB=y", "z"]⟩,
    ⟨⟨2, 4, 14⟩, ["x", "y\nB=z"]⟩, by cbv, plan, by rw [hplan], hauto, ?_, ?_, ?_, hsame, ?_⟩
  · rw [hplan]
    decide +kernel
  · rw [hplan]
    decide +kernel
  · intro h
    have hfirst := h "B"
    rw [hplan] at hfirst
    revert hfirst
    decide +kernel
  · rw [ImportPlan.valuesOf_of_autoKey hauto, ImportPlan.valuesOf_of_autoKey hauto, SortedMap.find?_insert_self,
      SortedMap.find?_insert_self, contentKey_eq, contentKey_eq, hsame]

end Store

end BenchPlot
