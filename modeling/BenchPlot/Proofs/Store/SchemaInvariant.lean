import BenchPlot.Proofs.Store.Later

/-!
# The schema of reachable stores

The schema of a benchmark is kept three times over: as the list of its fields, as the field lists of its
indices, and as the columns of its wide table. In every reachable store the three agree, all names are
canonical and told apart, and the fields stand in the order in which they came in.

Main statement: `reachable_schemaFits`.
-/

namespace BenchPlot.Store

/-- The columns of the wide table for some fields. -/
def schemaColumns (fields : List Field) : List Sql.TableColumn :=
  [⟨"BENCH", .integer⟩, ⟨"EXP", .integer⟩, ⟨"OUT", .integer⟩]
    ++ fields.map fun f => ⟨"_" ++ f.name, if f.numeric then .real else .text⟩

/-- The schema of a benchmark fits together.

    A field precedes another one if there was a store behind some part of the history in which the one was
    there and the other was not; fields are known by their numbers. -/
structure SchemaFits (s : Store) (b : Benchmark) : Prop where
  canonical : canonicalName b.name = .ok b.name
  fieldCanonical : ∀ f ∈ s.fieldsOf b, canonicalName f.name = .ok f.name
  fieldNames : ((s.fieldsOf b).map (·.name)).Nodup
  indexCanonical : ∀ i ∈ s.indicesOf b, canonicalName i.name = .ok i.name
  indexNames : ((s.indicesOf b).map (·.name)).Nodup
  positions : ((s.fieldsOf b).map (·.position)).Nodup
  listed : (s.fieldsOf b).Pairwise fun f g => f.position < g.position
  created : ∀ earlier : Store, earlier.Reachable → ∀ history, earlier.run history = s →
    ∀ f ∈ s.fieldsOf b, ∀ g ∈ s.fieldsOf b, f.id ∈ earlier.fields.map (·.id) →
      g.id ∉ earlier.fields.map (·.id) → f.position < g.position
  table : (s.table? (b.name ++ "_VIEW")).isSome ↔ s.fieldsOf b ≠ []
  columns : ∀ t, s.table? (b.name ++ "_VIEW") = some t → t.queryColumns = schemaColumns (s.fieldsOf b)
  indices : ∀ i ∈ s.indicesOf b, i.fields ≠ [] ∧ i.fields.Nodup
    ∧ ∀ name ∈ i.fields, name ∈ (s.fieldsOf b).map (·.name)

variable {s : Store} {b : Benchmark}

/-- The fields of a benchmark stand in the order of their numbers and of their positions at once. -/
theorem Sound.position_lt_of_id_lt (h : s.Sound) (hb : b ∈ s.benchmarks) {f g : Field}
    (hf : f ∈ s.ownFields b) (hg : g ∈ s.ownFields b) (hid : f.id < g.id) : f.position < g.position := by
  have hboth : (s.ownFields b).Pairwise fun f g => f.id < g.id ∧ f.position < g.position :=
    (h.numbers.fields.filter _).pairwise.and (h.holdings b hb).positions
  -- Of two fields the first has the smaller number, so the other order is out of the question.
  refine List.Pairwise.forall_of_forall_of_flip
    (R := fun f g : Field => f.id < g.id → f.position < g.position)
    (fun f _ hlt => absurd hlt (Nat.lt_irrefl _)) (hboth.imp fun hlt _ => hlt.2)
    (hboth.imp fun hlt hgt => absurd hgt (Nat.lt_asymm hlt.1)) hf hg hid

theorem queryColumns_of_fits {fields : List Field} {experiments : List Experiment} {t : WideTable}
    (h : TableFits b fields experiments (some t)) : t.queryColumns = schemaColumns fields := by
  rw [WideTable.queryColumns, h.2.1, List.map_map]
  rfl

/-- In every reachable store the names of the benchmarks are distinct, and the schema of each one fits
    together. -/
theorem reachable_schemaFits (h : s.Reachable) :
    (s.benchmarks.map (·.name)).Nodup ∧ ∀ b ∈ s.benchmarks, s.SchemaFits b := by
  have hsound := h.sound
  refine ⟨hsound.benchmarkNames, fun b hb => ?_⟩
  have hheld := hsound.holdings b hb
  have hfields := hsound.fieldsOf_eq hb
  have hperm := s.indicesOf_perm b
  have htable : TableFits b (s.ownFields b) (s.experimentsOf b) (s.table? (b.name ++ "_VIEW")) := hheld.table
  refine ⟨hheld.canonical, ?_, ?_, fun i hi => (hheld.indices i (hperm.mem_iff.mp hi)).canonical,
    ((hperm.map _).nodup_iff).mpr hheld.indexNames, ?_, ?_, ?_, ?_, fun t ht => ?_, fun i hi => ?_⟩
  all_goals rw [hfields]
  · exact hheld.fieldCanonical
  · exact hheld.fieldNames
  · exact List.pairwise_map.mpr (hheld.positions.imp Nat.ne_of_lt)
  · exact hheld.positions
  · -- The newer field has the greater number, and so the greater position.
    rintro earlier hearlier history rfl f hf g hg hold hnew
    have hlater : Later earlier (earlier.run history) := .run earlier history
    have hid := hlater.number_lt hearlier.sound hold (List.mem_of_mem_filter hg) hnew
    exact hsound.position_lt_of_id_lt hb hf hg hid
  · exact isSome_of_fits htable
  · exact queryColumns_of_fits (ht ▸ htable)
  · have hfits := hheld.indices i (hperm.mem_iff.mp hi)
    exact ⟨hfits.nonempty, hfits.nodup, hfits.known⟩

theorem schemaFits_sample : sample.benchmarks.map (·.name) = ["RUNS"]
    ∧ ∀ b ∈ sample.benchmarks, sample.SchemaFits b :=
  ⟨by decide +kernel, (reachable_schemaFits reachable_sample).2⟩

end BenchPlot.Store
