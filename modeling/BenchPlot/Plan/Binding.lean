import BenchPlot.Formula.Reference
import BenchPlot.Plan.CurveData
import BenchPlot.Plan.Error
import BenchPlot.Store.Selection

/-!
# Binding plans to stored data

A plan is bound by running the queries of its benches and curves. A filter becomes a predicate over the
wide table: a column reference becomes the column, and a reference to a variable or a calculated variable
becomes a literal. A curve has one instance for each combination of values of the fields that it iterates
over; the rows of an instance are those with exactly these values, and the formulas of the curve are
evaluated at each of them.

Main definition: `Plan.bind`.
-/

namespace BenchPlot

/-! ## §1 Fields and predicates -/

/-- The field that a written name refers to, which the benchmark has to define. -/
def resolveField (location : Location) (b : Benchmark) (fields : List Field) (name : String) :
    Except PlanError Field :=
  let unknown : PlanError := ⟨location, .unknownField b.name name⟩
  match canonicalName name with
  | .error _ => .error unknown
  | .ok canonical =>
    match fields.find? (·.name == canonical) with
    | some f => .ok f
    | none => .error unknown

/-- The part of a predicate that a segment of a filter becomes. -/
def predicatePart (s : Scope) (location : Location) (b : Benchmark) (fields : List Field) :
    Segment → Except PlanError String
  | .literal text => .ok text
  | .reference .column name => (resolveField location b fields name).map Field.column
  | .reference .environment name =>
    match s.environment? name with
    | some text => .ok (Value.text text).toLiteral
    | none => .error ⟨location, .formula (.unknownVariable name)⟩
  | .reference .calculated name =>
    match s.calculatedValue name with
    | .ok v => .ok v.toLiteral
    | .error e => .error ⟨location, .formula e⟩
  | .reference .function name => .error ⟨location, .invalid (.functionInFilter name)⟩

/-- The predicate that a filter becomes. -/
def Filter.predicate (s : Scope) (b : Benchmark) (fields : List Field) (f : Filter) :
    Except PlanError String :=
  ((scanQueryReferences f.text).mapM (predicatePart s f.location b fields)).map String.join

/-- A query with the predicates of further filters. -/
def RowQuery.withFilters (s : Scope) (b : Benchmark) (fields : List Field) (q : RowQuery)
    (filters : List Filter) : Except PlanError RowQuery :=
  (filters.mapM (Filter.predicate s b fields)).map fun predicates =>
    predicates.foldl RowQuery.with_ q

/-- The predicate that a field has a value. -/
def equalityPredicate (f : Field) (v : Value) : String :=
  match v with
  | .null => f.column ++ " IS NULL"
  | .text text =>
    f.column ++ " = " ++ if f.numeric then v.toLiteral else Value.quoted text
  | v => f.column ++ " = " ++ v.toLiteral

/-! ## §2 Combinations -/

/-- All combinations of one value from each set; the last set varies fastest. -/
def combinations {α β : Type} : List (α × List β) → List (List (α × β))
  | [] => [[]]
  | (a, values) :: rest => values.flatMap fun v => (combinations rest).map ((a, v) :: ·)

/-- The label of an instance of a curve without a label of its own: the label of the bench or the number
    of the curve, and the values of the combination. -/
def defaultLabel (curve : CurvePlan) (bench : BenchPlan) (iteration : List (String × Value)) : String :=
  let front := bench.label.getD s!"curve {curve.ordinal + 1}"
  front ++ String.join (iteration.map fun p => " " ++ p.2.display)

/-! ## §3 Curves -/

/-- What the curves of a bench have in common. -/
structure BenchBinding where
  store : Store
  scope : Scope
  plan : BenchPlan
  benchmark : Benchmark
  fields : List Field
  query : RowQuery

namespace BenchBinding

/-- A failure of the store, at the place of a curve. -/
def atCurve {α : Type} (curve : CurvePlan) (r : Except StoreError α) : Except PlanError α :=
  r.mapError fun e => ⟨curve.location, .store e⟩

/-- The value of a formula of a curve at a row. -/
def evaluate (b : BenchBinding) (curve : CurvePlan) (row : StoredRow) (f : Formula) :
    Except PlanError Value :=
  (f.evaluate (b.scope.site (some row.values) true)).mapError fun e => ⟨curve.location, .formula e⟩

/-- The text of an optional formula of a curve at the first of some rows. -/
def textAtFirst (b : BenchBinding) (curve : CurvePlan) (rows : List StoredRow) (f : Option Formula) :
    Except PlanError (Option String) :=
  match rows, f with
  | first :: _, some f => (b.evaluate curve first f).map fun v => some v.display
  | _, _ => .ok none

/-- The pair that a row contributes to a curve. -/
def pairOf (b : BenchBinding) (curve : CurvePlan) (row : StoredRow) :
    Except PlanError (Value × Value) := do
  let x ← b.evaluate curve row curve.xval
  let y ← b.evaluate curve row curve.yval
  pure (x, y)

/-- The instance of a curve with the given rows. -/
def instanceOf (b : BenchBinding) (curve : CurvePlan) (iteration : List (String × Value))
    (rows : List StoredRow) : Except PlanError CurveData := do
  let label ← b.textAtFirst curve rows curve.label
  let markText ← b.textAtFirst curve rows curve.markText
  let pairs ← rows.mapM (b.pairOf curve)
  let label := label.getD (defaultLabel curve b.plan iteration)
  pure ((CurveData.new label markText iteration).pushAll pairs)

/-- The instance of a curve for a combination of values. -/
def bindInstance (b : BenchBinding) (curve : CurvePlan) (query : RowQuery)
    (combination : List (Field × Value)) : Except PlanError CurveData := do
  let query := combination.foldl (fun q p => q.with_ (equalityPredicate p.1 p.2)) query
  let rows ← atCurve curve (b.store.selectRows b.benchmark.name query)
  b.instanceOf curve (combination.map fun p => (p.1.name, p.2)) rows

/-- A field that a curve iterates over, with its distinct values. -/
def iteratedField (b : BenchBinding) (curve : CurvePlan) (query : RowQuery) (name : String) :
    Except PlanError (Field × List Value) := do
  let field ← resolveField curve.location b.benchmark b.fields name
  let values ← atCurve curve (b.store.distinctValues b.benchmark.name field.name query)
  pure (field, values)

/-- The columns that the formulas of a curve refer to. -/
def formulaColumns (curve : CurvePlan) : List String :=
  ([some curve.xval, some curve.yval, curve.label, curve.markText].filterMap id).flatMap
    Formula.columns

/-- A curve with its instances. Where no combination has values there is one empty instance. -/
def bindCurve (b : BenchBinding) (curve : CurvePlan) : Except PlanError BoundCurve := do
  -- The columns are resolved first, so that an unknown one is a fault even where there are no rows.
  let _ ← (formulaColumns curve).mapM (resolveField curve.location b.benchmark b.fields)
  let query ← b.query.withFilters b.scope b.benchmark b.fields curve.filters
  let iterated ← curve.iterate.mapM (b.iteratedField curve query)
  let instances ← (combinations iterated).mapM (b.bindInstance curve query)
  let instances :=
    if instances.isEmpty then [CurveData.new (defaultLabel curve b.plan []) none []] else instances
  pure ⟨curve, instances⟩

end BenchBinding

/-! ## §4 Plans -/

/-- What the curves of a bench have in common, from the store. -/
def BenchPlan.binding (store : Store) (scope : Scope) (bench : BenchPlan) :
    Except PlanError BenchBinding := do
  let atBench {α : Type} (r : Except StoreError α) : Except PlanError α :=
    r.mapError fun e => ⟨bench.location, .store e⟩
  match ← atBench (store.findBenchmark bench.name) with
  | none => throw ⟨bench.location, .unknownBenchmark bench.name⟩
  | some b =>
    let fields := store.fieldsOf b
    let query ← RowQuery.withFilters scope b fields ⟨[], bench.includeOutliers⟩ bench.filters
    pure ⟨store, scope, bench, b, fields, bench.selects.foldl RowQuery.with_ query⟩

namespace Plan

/-- A bench with its curves, bound. -/
def bindBench (p : Plan) (store : Store) (scope : Scope) (bench : BenchPlan) :
    Except PlanError BoundBench := do
  let binding ← bench.binding store scope
  let curves ← (p.curvesOf bench).mapM binding.bindCurve
  pure ⟨bench, binding.benchmark.name, curves⟩

/-- A graph with its benches, bound. -/
def bindGraph (p : Plan) (store : Store) (scope : Scope) (graph : GraphPlan) :
    Except PlanError BoundGraph := do
  pure ⟨graph, ← (p.benchesOf graph).mapM (p.bindBench store scope)⟩

/-- The graphs of a plan with the data that a store has for them. -/
def bind (p : Plan) (store : Store) (scope : Scope) : Except PlanError (List BoundGraph) :=
  p.graphs.mapM (p.bindGraph store scope)

end Plan

end BenchPlot
