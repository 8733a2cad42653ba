import BenchPlot.Proofs.Store.ExperimentSteps
import BenchPlot.Proofs.Store.FieldSteps

/-!
# Imports keep stores sound

An import goes through stores of two kinds, the one behind the last committed chunk and the one with the
open chunk. A record is inserted into the latter as any experiment is, and the benchmark and its fields stay
those that the plan was made with; so both stores are sound all along, and so is the one that the import
leaves, whatever its outcome.

Main statement: `Sound.importCsv`.
-/

namespace BenchPlot

variable {s s' : Store} {plan : ImportPlan}

/-! ## §1 Plans -/

/-- A plan fits a sound store that has its benchmark with its fields, a key among them. -/
structure ImportPlan.Fits (plan : ImportPlan) (s : Store) : Prop where
  sound : s.Sound
  benchmark : plan.benchmark ∈ s.benchmarks
  fields : s.fieldsOf plan.benchmark = plan.fields
  nonempty : plan.fields ≠ []

namespace ImportPlan.Fits

theorem touch (h : plan.Fits s) : plan.Fits s.touch :=
  ⟨h.sound.touch, h.benchmark, h.fields, h.nonempty⟩

/-- Insertions leave the benchmarks and their fields alone. -/
theorem insertValues (h : plan.Fits s) {values : SortedMap String String} {outcome : InsertOutcome}
    (hok : s.insertValues plan.benchmark plan.fields values = .ok (outcome, s')) : plan.Fits s' := by
  have hsound : s'.Sound := by
    rw [← h.fields] at hok
    exact h.sound.insertValues h.benchmark (h.fields ▸ h.nonempty) hok
  obtain ⟨typed, _, ⟨e, _, _, rfl⟩ | ⟨_, _, rfl⟩⟩ := Store.insertValues_eq_ok hok
  · exact ⟨hsound, h.benchmark, h.fields, h.nonempty⟩
  · exact ⟨hsound, h.benchmark, h.fields, h.nonempty⟩

end ImportPlan.Fits

/-! ## §2 Progress -/

/-- What insertions with a plan and commits keep. -/
structure ImportPlan.Keeps (plan : ImportPlan) (P : Store → Prop) : Prop where
  touch : ∀ {s}, P s → P s.touch
  insertValues : ∀ {s s' values outcome}, P s →
    s.insertValues plan.benchmark plan.fields values = .ok (outcome, s') → P s'

/-- Both stores of an import on its way have a property. -/
structure ImportProgress.Both (P : Store → Prop) (p : ImportProgress) : Prop where
  committed : P p.committed
  current : P p.current

namespace ImportPlan.Keeps

variable {P : Store → Prop} {p p' : ImportProgress}

theorem commit (hP : plan.Keeps P) (h : p.Both P) : p.commit.Both P :=
  ⟨hP.touch h.current, hP.touch h.current⟩

theorem step (hP : plan.Keeps P) (h : p.Both P) {size : Nat} {stop : Nat → Bool}
    {record : Except CsvFault CsvRecord} (hok : plan.step size stop p record = .ok p') : p'.Both P := by
  unfold ImportPlan.step at hok
  split at hok
  · cases hok
  cases record with
  | error fault => cases hok
  | ok record =>
    dsimp only at hok
    split at hok
    · cases hok
    · rename_i outcome t ht
      cases hok
      have hadded : (p.addRow record.position.line outcome t).Both P :=
        ⟨h.committed, hP.insertValues h.current ht⟩
      unfold ImportProgress.commitIfFull
      split
      · exact hP.commit hadded
      · exact hadded

theorem run (hP : plan.Keeps P) (h : p.Both P) (size : Nat) (stop : Nat → Bool)
    (records : List (Except CsvFault CsvRecord)) : (plan.run size stop p records).1.Both P := by
  -- Along the records: the last chunk is committed at their end, and a stop leaves the progress as it is.
  induction records generalizing p with
  | nil =>
    unfold ImportPlan.run ImportProgress.finish
    split
    · exact h
    · exact hP.commit h
  | cons record rest ih =>
    unfold ImportPlan.run
    split
    · rename_i next hnext
      exact ih (hP.step h hnext)
    · exact h

end ImportPlan.Keeps

theorem ImportPlan.keeps_fits (plan : ImportPlan) : plan.Keeps plan.Fits :=
  ⟨fun h => h.touch, fun h hok => h.insertValues hok⟩

/-! ## §3 The import -/

namespace Store

/-- The preparation of the key field leaves the store that it found, the one with the benchmark, or the one
    with a further field. -/
theorem prepareAutoKey_induction {P : Store → Prop} {bench : String} (autoKey : Option String) (hs : P s)
    (hensure : ∀ b s₁, s.ensure bench = (b, s₁) → P s₁)
    (hadd : ∀ s₁ s₂ f new, P s₁ → s₁.addField bench new = .ok (f, s₂) → P s₂) :
    P (s.prepareAutoKey bench autoKey).2 := by
  cases autoKey with
  | none => exact hs
  | some written =>
    show P (s.ensureAutoKey bench written).2
    unfold ensureAutoKey
    split
    · exact hs
    · rcases heq : s.ensure bench with ⟨b, s₁⟩
      have h₁ : P s₁ := hensure b s₁ heq
      dsimp only
      split
      · split <;> exact h₁
      · split
        · rename_i hok
          exact hadd s₁ _ _ _ h₁ hok
        · exact h₁

theorem Sound.prepareAutoKey (h : s.Sound) {bench : String} (hbench : IsCanonical bench)
    (autoKey : Option String) : (s.prepareAutoKey bench autoKey).2.Sound := by
  refine prepareAutoKey_induction autoKey h (fun b s₁ heq => ?_) fun s₁ s₂ f new h₁ hok => ?_
  · exact (h.ensure hbench heq).1
  · exact h₁.addField hok

/-- What a plan is made of: the benchmark and its fields, the header of the input, and the options. -/
theorem importPlan_eq_ok {bench : String} {bytes : List UInt8} {o : ImportOptions} {autoKey : Option String}
    {skipped : List String} {reader : CsvReader}
    (hok : s.importPlan bench bytes o autoKey = .ok (plan, skipped, reader)) :
    ∃ b fixed headers, s.benchmark? bench = some b ∧ (∃ f ∈ s.fieldsOf b, f.key = true)
      ∧ canonicalValues o.fixed = .ok fixed ∧ requireKnown b (s.fieldsOf b) fixed = .ok ()
      ∧ (CsvReader.new o.delimiter bytes).header = .ok (headers, reader)
      ∧ plan = ⟨b, s.fieldsOf b, headers.map (importColumn? (s.fieldsOf b) autoKey), fixed, autoKey⟩
      ∧ skipped = headers.filter fun h => (importColumn? (s.fieldsOf b) autoKey h).isNone := by
  unfold importPlan at hok
  obtain ⟨b, hb, hok⟩ := bind_eq_ok.1 hok
  obtain ⟨fields, hfields, hok⟩ := bind_eq_ok.1 hok
  obtain ⟨rfl, hkey⟩ := insertFields_eq_ok hfields
  obtain ⟨fixed, hfixed, hok⟩ := bind_eq_ok.1 hok
  obtain ⟨_, hknown, hok⟩ := bind_eq_ok.1 hok
  split at hok
  · cases hok
  · rename_i headers reader' hheader
    cases hok
    exact ⟨b, fixed, headers, require_eq_ok.1 hb, hkey, hfixed, hknown, hheader, rfl, rfl⟩

theorem Sound.fits_importPlan (h : s.Sound) {bench : String} {bytes : List UInt8} {o : ImportOptions}
    {autoKey : Option String} {skipped : List String} {reader : CsvReader}
    (hok : s.importPlan bench bytes o autoKey = .ok (plan, skipped, reader)) : plan.Fits s := by
  obtain ⟨b, _, _, hfound, ⟨f, hf, _⟩, _, _, _, rfl, _⟩ := importPlan_eq_ok hok
  exact ⟨h, (of_benchmark?_eq_some hfound).1, rfl, List.ne_nil_of_mem hf⟩

/-- What an import has settled when it comes to its first record. -/
structure Preparation where
  name : String
  autoKey : Option String
  first : Store
  plan : ImportPlan
  skipped : List String
  reader : CsvReader

/-- An import comes to its first record: nothing before refuses it. -/
structure Prepares (s : Store) (bench : String) (bytes : List UInt8) (o : ImportOptions) (p : Preparation) :
    Prop where
  size : 1 ≤ o.chunkSize
  name : canonical bench = .ok p.name
  first : s.prepareAutoKey p.name o.autoKey = (.ok p.autoKey, p.first)
  plan : p.first.importPlan p.name bytes o p.autoKey = .ok (p.plan, p.skipped, p.reader)

theorem Prepares.importCsv_eq {bench : String} {bytes : List UInt8} {o : ImportOptions} {p : Preparation}
    (h : s.Prepares bench bytes o p) (stop : Nat → Bool) :
    s.importCsv bench bytes o stop = p.first.runImport o stop p.plan p.skipped p.reader := by
  obtain ⟨hsize, hname, hfirst, hplan⟩ := h
  unfold Store.importCsv
  rw [if_neg (by omega), hname]
  dsimp only
  rw [hfirst]
  dsimp only
  rw [hplan]

/-- An import is refused with the store as it was, or behind the preparation of the key field, or it comes to
    its first record. -/
theorem importCsv_cases (s : Store) (bench : String) (bytes : List UInt8) (o : ImportOptions)
    (stop : Nat → Bool) :
    (∃ e, s.importCsv bench bytes o stop = ⟨s, [], [], .error e⟩)
      ∨ (∃ name e, canonical bench = .ok name
        ∧ s.importCsv bench bytes o stop = ⟨(s.prepareAutoKey name o.autoKey).2, [], [], .error e⟩)
      ∨ ∃ p, s.Prepares bench bytes o p := by
  unfold Store.importCsv
  dsimp only
  split
  · exact .inl ⟨_, rfl⟩
  rename_i hsize
  cases hname : canonical bench with
  | error e => exact .inl ⟨e, rfl⟩
  | ok name =>
    refine .inr ?_
    dsimp only
    rcases hfirst : s.prepareAutoKey name o.autoKey with ⟨e | autoKey, first⟩
    · exact .inl ⟨name, e, rfl, by rw [hfirst]⟩
    dsimp only
    cases hplan : first.importPlan name bytes o autoKey with
    | error e => exact .inl ⟨name, e, rfl, by rw [hfirst]⟩
    | ok planned =>
      obtain ⟨plan, skipped, reader⟩ := planned
      exact .inr ⟨⟨name, autoKey, first, plan, skipped, reader⟩, Nat.pos_of_ne_zero hsize, hname, hfirst,
        hplan⟩

/-- An import leaves the store that it found, the one that the preparation of the key field left, or the
    one behind the last committed chunk. -/
theorem importCsv_induction {P : Store → Prop} {bench : String} {bytes : List UInt8} {o : ImportOptions}
    (stop : Nat → Bool) (hs : P s)
    (hprepare : ∀ name, canonical bench = .ok name → P (s.prepareAutoKey name o.autoKey).2)
    (hrun : ∀ s₁ plan skipped reader name autoKey, canonical bench = .ok name → P s₁ →
      s₁.importPlan name bytes o autoKey = .ok (plan, skipped, reader) →
      P (plan.run o.chunkSize stop (.start s₁) reader.records).1.committed) :
    P (s.importCsv bench bytes o stop).store := by
  rcases s.importCsv_cases bench bytes o stop with ⟨e, heq⟩ | ⟨name, e, hname, heq⟩ | ⟨p, hp⟩
  · rw [heq]
    exact hs
  · rw [heq]
    exact hprepare name hname
  · have hfirst : P p.first := by
      have hleft := hprepare p.name hp.name
      rwa [hp.first] at hleft
    rw [hp.importCsv_eq]
    exact hrun p.first p.plan p.skipped p.reader p.name p.autoKey hp.name hfirst hp.plan

theorem Sound.importCsv (h : s.Sound) (bench : String) (bytes : List UInt8) (o : ImportOptions)
    (stop : Nat → Bool) : (s.importCsv bench bytes o stop).store.Sound := by
  refine importCsv_induction stop h (fun name hname => ?_)
    fun s₁ plan skipped reader name autoKey _ h₁ hplan => ?_
  · exact h.prepareAutoKey (isCanonical_of_canonical hname) o.autoKey
  · have hfits : plan.Fits s₁ := h₁.fits_importPlan hplan
    exact (plan.keeps_fits.run ⟨hfits, hfits⟩ o.chunkSize stop reader.records).committed.sound

end Store

end BenchPlot
