import BenchPlot.Plan.Binding
import BenchPlot.Proofs.Formula.Definitions
import BenchPlot.Proofs.Formula.Sites
import BenchPlot.Proofs.Store.Columns
import BenchPlot.Proofs.Value.Literal

/-!
# Values cannot change what a filter says

A variable stands in a filter for the literal of its text. A text that is no number is one quoted region, whatever
characters are in it; so two such texts give predicates that differ inside quoted regions only. What is put in is
not read for references again.

A calculated variable may make another number of another text, or fail for it. So what it gives has to be of one kind
as well: the same literal, or some text that is no number.

Main definitions: `Segment.Apart`, `Scope.DiffersInTexts` and `ResultsAlike`. Main statements: `kept_join` and
`Filter.predicate_keepsRegions`.
-/

namespace BenchPlot

open QuoteState

/-! ## §1 Filters and scopes -/

/-- Whether a reference that a segment or the next one is has no quote and no other reference right beside it. -/
def Segment.Apart : Segment → Segment → Prop
  | .reference _ _, .reference _ _ => False
  | .literal text, .reference _ _ => text.toList.getLast? ≠ some '\''
  | .reference _ _, .literal text => text.toList.head? ≠ some '\''
  | .literal _, .literal _ => True

instance (segment next : Segment) : Decidable (segment.Apart next) :=
  match segment, next with
  | .reference _ _, .reference _ _ => .isFalse id
  | .literal text, .reference _ _ => inferInstanceAs (Decidable (text.toList.getLast? ≠ some '\''))
  | .reference _ _, .literal text => inferInstanceAs (Decidable (text.toList.head? ≠ some '\''))
  | .literal _, .literal _ => .isTrue trivial

/-- Whether no reference of a filter has a quote or another reference right beside it. -/
def Filter.IsApart (f : Filter) : Prop :=
  (scanQueryReferences f.text).IsChain Segment.Apart

/-- A text that is no number. -/
def IsPlainText (t : String) : Prop :=
  readNumber? t = none

/-- Whether two scopes have the same variables, except for texts that are no numbers in both. -/
def Scope.DiffersInTexts (s s' : Scope) : Prop :=
  ∀ name, s.environment? name = s'.environment? name
    ∨ ∃ t t', s.environment? name = some t ∧ s'.environment? name = some t' ∧ IsPlainText t ∧ IsPlainText t'

/-- Whether two results are of one kind: failures, values with the same literal, or texts that are no numbers. -/
inductive ResultsAlike : Except FormulaError Value → Except FormulaError Value → Prop
  | failed (e e' : FormulaError) : ResultsAlike (.error e) (.error e')
  | same {v v' : Value} (h : v.toLiteral = v'.toLiteral) : ResultsAlike (.ok v) (.ok v')
  | texts {t t' : String} (h : IsPlainText t) (h' : IsPlainText t') : ResultsAlike (.ok (.text t)) (.ok (.text t'))

/-! ## §2 Parts of a predicate -/

/-- Whether two parts of a predicate are the same outside their quoted regions, and close the regions that they
    open if they stand for a reference. -/
structure PartsAlike (segment : Segment) (part part' : String) : Prop where
  kept : outside.kept part.toList = outside.kept part'.toList
  behind : outside.behind part.toList = outside.behind part'.toList
  closed : ∀ sigil name, segment = .reference sigil name → outside.behind part.toList ≠ .inside
  literal : ∀ text, segment = .literal text → part = text ∧ part' = text

theorem partsAlike_literal (text : String) : PartsAlike (.literal text) text text where
  kept := rfl
  behind := rfl
  closed _ _ h := nomatch h
  literal _ h := by
    cases h
    exact ⟨rfl, rfl⟩

theorem partsAlike_reference {sigil : Sigil} {name part : String} (h : outside.behind part.toList ≠ .inside) :
    PartsAlike (.reference sigil name) part part where
  kept := rfl
  behind := rfl
  closed _ _ _ := h
  literal _ h := nomatch h

/-- Two texts between quotes differ inside them only. -/
theorem partsAlike_quoted {sigil : Sigil} {name : String} (t t' : String) :
    PartsAlike (.reference sigil name) (Value.quoted t) (Value.quoted t') where
  kept := (quoted t).2.trans (quoted t').2.symm
  behind := (quoted t).1.trans (quoted t').1.symm
  closed _ _ _ := by
    rw [(quoted t).1]
    decide
  literal _ h := nomatch h

theorem IsPlainText.toLiteral {t : String} (h : IsPlainText t) : (Value.text t).toLiteral = Value.quoted t :=
  toLiteral_text h

/-- The name of a column has no quotes. -/
theorem notMem_quote_column {location : Location} {b : Benchmark} {fields : List Field} {name : String} {f : Field}
    (h : resolveField location b fields name = .ok f) : '\'' ∉ f.column.toList := by
  unfold resolveField at h
  split at h
  · cases h
  · rename_i canonical hcanonical
    split at h
    · rename_i found hfound
      cases h
      have hname : f.name = canonical := by simpa using List.find?_some hfound
      have hword : IsCanonical f.name := hname ▸ canonicalName_canonicalName hcanonical
      rw [Field.column, toList_columnName]
      intro hquote
      rcases List.mem_cons.mp hquote with hline | hinside
      · cases hline
      · -- A quote is no character of a word.
        obtain ⟨d, hd⟩ := hword.exists_foldChar hinside
        have hchar := isWordChar_foldChar d
        rw [← hd] at hchar
        cases hchar
    · cases h

variable {s s' : Scope} {location : Location} {b : Benchmark} {fields : List Field}

/-- The parts that a segment becomes in two scopes fail both, or are alike. -/
theorem predicatePart_alike (location : Location) (b : Benchmark) (fields : List Field)
    (hvariables : s.DiffersInTexts s') (segment : Segment)
    (hcalculated : ∀ name, segment = .reference .calculated name →
      ResultsAlike (s.calculatedValue name) (s'.calculatedValue name)) :
    (∃ e e', predicatePart s location b fields segment = .error e
      ∧ predicatePart s' location b fields segment = .error e')
    ∨ ∃ part part', predicatePart s location b fields segment = .ok part
      ∧ predicatePart s' location b fields segment = .ok part' ∧ PartsAlike segment part part' := by
  match segment with
  | .literal text => exact .inr ⟨text, text, rfl, rfl, partsAlike_literal text⟩
  | .reference .column name =>
    dsimp only [predicatePart]
    cases hfield : resolveField location b fields name with
    | error e => exact .inl ⟨e, e, rfl, rfl⟩
    | ok f =>
      refine .inr ⟨f.column, f.column, rfl, rfl, partsAlike_reference ?_⟩
      rw [(outside_of_notMem (notMem_quote_column hfield)).1]
      decide
  | .reference .environment name =>
    dsimp only [predicatePart]
    rcases hvariables name with hsame | ⟨t, t', ht, ht', hplain, hplain'⟩
    · rw [hsame]
      cases s'.environment? name with
      | none => exact .inl ⟨_, _, rfl, rfl⟩
      | some t => exact .inr ⟨_, _, rfl, rfl, partsAlike_reference (behind_toLiteral _)⟩
    · rw [ht, ht']
      refine .inr ⟨_, _, rfl, rfl, ?_⟩
      rw [hplain.toLiteral, hplain'.toLiteral]
      exact partsAlike_quoted t t'
  | .reference .calculated name =>
    have hresults := hcalculated name rfl
    dsimp only [predicatePart]
    generalize s.calculatedValue name = r at hresults ⊢
    generalize s'.calculatedValue name = r' at hresults ⊢
    cases hresults with
    | failed e e' => exact .inl ⟨_, _, rfl, rfl⟩
    | @same v v' h => exact .inr ⟨_, _, rfl, rfl, h ▸ partsAlike_reference (behind_toLiteral v)⟩
    | @texts t t' h h' =>
      refine .inr ⟨_, _, rfl, rfl, ?_⟩
      rw [h.toLiteral, h'.toLiteral]
      exact partsAlike_quoted t t'
  | .reference .function name => exact .inl ⟨_, _, rfl, rfl⟩

/-! ## §3 Predicates -/

/-- The parts of two predicates, each alike as parts of its segment. -/
inductive AllAlike : List Segment → List String → List String → Prop
  | nil : AllAlike [] [] []
  | cons {segment : Segment} {part part' : String} {segments : List Segment} {parts parts' : List String}
    (h : PartsAlike segment part part') (hrest : AllAlike segments parts parts') :
    AllAlike (segment :: segments) (part :: parts) (part' :: parts')

/-- The segments of a filter fail in both scopes, or their parts are alike. -/
theorem mapM_alike (hvariables : s.DiffersInTexts s') {segments : List Segment}
    (hcalculated : ∀ name, .reference .calculated name ∈ segments →
      ResultsAlike (s.calculatedValue name) (s'.calculatedValue name)) :
    (∃ e e', segments.mapM (predicatePart s location b fields) = .error e
      ∧ segments.mapM (predicatePart s' location b fields) = .error e')
    ∨ ∃ parts parts', segments.mapM (predicatePart s location b fields) = .ok parts
      ∧ segments.mapM (predicatePart s' location b fields) = .ok parts' ∧ AllAlike segments parts parts' := by
  induction segments with
  | nil => exact .inr ⟨[], [], rfl, rfl, .nil⟩
  | cons segment segments ih =>
    rw [List.mapM_cons, List.mapM_cons]
    rcases predicatePart_alike location b fields hvariables segment
        fun name hname => hcalculated name (hname ▸ List.mem_cons_self ..) with
      ⟨e, e', he, he'⟩ | ⟨part, part', hpart, hpart', halike⟩
    · rw [he, he']
      exact .inl ⟨e, e', rfl, rfl⟩
    · rw [hpart, hpart']
      rcases ih fun name hname => hcalculated name (List.mem_cons_of_mem _ hname) with
        ⟨e, e', he, he'⟩ | ⟨parts, parts', hparts, hparts', hall⟩
      · rw [he, he']
        exact .inl ⟨e, e', rfl, rfl⟩
      · rw [hparts, hparts']
        exact .inr ⟨_, _, rfl, rfl, .cons halike hall⟩

/-- What follows a reference begins with no quote. -/
theorem AllAlike.head?_join {segments : List Segment} {parts parts' : List String} (h : AllAlike segments parts parts')
    {sigil : Sigil} {name : String} (hfull : ∀ segment ∈ segments, segment.IsFull)
    (hapart : ∀ next ∈ segments.head?, (Segment.reference sigil name).Apart next) :
    (String.join parts).toList.head? ≠ some '\'' ∧ (String.join parts').toList.head? ≠ some '\'' := by
  cases h with
  | nil => simp
  | @cons segment part part' segments parts parts' halike hrest =>
    have hnext := hapart segment rfl
    cases segment with
    | reference => exact hnext.elim
    | literal text =>
      obtain ⟨hpart, hpart'⟩ := halike.literal text rfl
      have htext : text.toList ≠ [] := String.toList_eq_nil_iff.not.mpr (hfull _ (List.mem_cons_self ..))
      rw [hpart, hpart', String.join_cons, String.join_cons, String.toList_append, String.toList_append,
        List.head?_append_of_ne_nil _ htext, List.head?_append_of_ne_nil _ htext]
      exact ⟨hnext, hnext⟩

/-- Predicates whose parts are alike are the same outside their quoted regions. The reader is outside all regions in
    front of each segment, except that it may stand right behind a quote in front of a literal that begins with
    none. -/
theorem AllAlike.kept_join {segments : List Segment} {parts parts' : List String} (h : AllAlike segments parts parts')
    (hsegments : IsSegmentation segments) (hcloses : segments.IsChain Segment.ClosesBefore)
    (hapart : segments.IsChain Segment.Apart) :
    outside.kept (String.join parts).toList = outside.kept (String.join parts').toList := by
  induction h with
  | nil => rfl
  | @cons segment part part' segments parts parts' halike hrest ih =>
    obtain ⟨-, hneighbour, hlater⟩ := isSegmentation_cons.mp hsegments
    obtain ⟨hclosed, hclosesRest⟩ := List.isChain_cons.mp hcloses
    obtain ⟨hbeside, hapartRest⟩ := List.isChain_cons.mp hapart
    have hsame := ih hlater hclosesRest hapartRest
    rw [String.join_cons, String.join_cons, String.toList_append, String.toList_append, kept_append, kept_append,
      halike.kept, halike.behind]
    refine congrArg _ ?_
    cases segment with
    | literal text =>
      obtain ⟨-, hpart⟩ := halike.literal text rfl
      rw [hpart]
      match segments, hrest with
      | [], .nil => rfl
      | .literal _ :: _, _ => exact (hneighbour _ rfl).elim
      | .reference sigil name :: _, _ =>
        -- The literal closes its regions and does not end in a quote.
        have hstate : outside.behind text.toList = .outside := by
          have hinside : outside.behind text.toList ≠ .inside := hclosed _ rfl
          have hlast : text.toList.getLast? ≠ some '\'' := hbeside _ rfl
          cases hcase : outside.behind text.toList with
          | outside => rfl
          | inside => exact absurd hcase hinside
          | closing => exact absurd (getLast?_of_behind hcase) hlast
        rw [hstate]
        exact hsame
    | reference sigil name =>
      obtain ⟨hhead, hhead'⟩ := hrest.head?_join hlater.full hbeside
      have hinside : outside.behind part'.toList ≠ .inside := halike.behind ▸ halike.closed sigil name rfl
      cases hcase : outside.behind part'.toList with
      | outside => exact hsame
      | inside => exact absurd hcase hinside
      | closing => rw [kept_closing hhead, kept_closing hhead', hsame]

/-- Only what a filter refers to by name matters for its predicate, whatever the values are. -/
theorem Filter.predicate_congr {f : Filter}
    (hvariables : ∀ name, .reference .environment name ∈ scanQueryReferences f.text →
      s.environment? name = s'.environment? name)
    (hcalculated : ∀ name, .reference .calculated name ∈ scanQueryReferences f.text →
      s.calculatedValue name = s'.calculatedValue name) :
    f.predicate s b fields = f.predicate s' b fields := by
  have hparts : ∀ segment ∈ scanQueryReferences f.text,
      predicatePart s f.location b fields segment = predicatePart s' f.location b fields segment := by
    intro segment hmem
    match segment with
    | .reference .environment name =>
      dsimp only [predicatePart]
      rw [hvariables name hmem]
    | .reference .calculated name =>
      dsimp only [predicatePart]
      rw [hcalculated name hmem]
    | .literal _ | .reference .column _ | .reference .function _ => rfl
  have hmap : ∀ segments : List Segment, (∀ segment ∈ segments, segment ∈ scanQueryReferences f.text) →
      segments.mapM (predicatePart s f.location b fields) = segments.mapM (predicatePart s' f.location b fields) := by
    intro segments hsub
    induction segments with
    | nil => rfl
    | cons segment rest ih =>
      obtain ⟨hfirst, hlater⟩ := List.forall_mem_cons.mp hsub
      rw [List.mapM_cons, List.mapM_cons, hparts segment hfirst, ih hlater]
  rw [predicate, predicate, hmap _ fun _ hmem => hmem]

/-- A text that is no number becomes one quoted region that is read back as the text, and a finite number digits with
    one point at most behind a sign, if any. In a filter whose references have no quotes and no other references
    beside them, texts of variables that are no numbers matter inside quoted regions only, provided that the calculated
    variables it refers to give results of one kind; and nothing matters that the filter does not refer to itself. -/
theorem Filter.predicate_keepsRegions :
    (∀ t, IsPlainText t → ∃ inside, (Value.text t).toLiteral.toList = '\'' :: (inside ++ ['\''])
      ∧ undoubled inside = t.toList
      ∧ ∀ more, more.head? ≠ some '\'' → takeQuoted (inside ++ '\'' :: more) = (inside ++ ['\''], more))
    ∧ (∀ x, Decimal.isFinite x = true → ∃ negative body,
      (Value.number x).toLiteral = Decimal.withSign negative body ∧ IsPlainNumeral body.toList)
    ∧ (∀ (s s' : Scope) (b : Benchmark) (fields : List Field) (f : Filter), f.IsApart → s.DiffersInTexts s' →
      (∀ name, .reference .calculated name ∈ scanQueryReferences f.text →
        ResultsAlike (s.calculatedValue name) (s'.calculatedValue name)) →
      (∃ e e', f.predicate s b fields = .error e ∧ f.predicate s' b fields = .error e')
      ∨ ∃ p p', f.predicate s b fields = .ok p ∧ f.predicate s' b fields = .ok p'
        ∧ outsideQuotes p.toList = outsideQuotes p'.toList)
    ∧ ∀ (s s' : Scope) (b : Benchmark) (fields : List Field) (f : Filter),
      (∀ name, .reference .environment name ∈ scanQueryReferences f.text →
        s.environment? name = s'.environment? name) →
      (∀ name, .reference .calculated name ∈ scanQueryReferences f.text →
        s.calculatedValue name = s'.calculatedValue name) →
      f.predicate s b fields = f.predicate s' b fields := by
  refine ⟨fun t ht => ?_, fun x hx => exists_isPlainNumeral_numberText hx, ?_,
    fun s s' b fields f => Filter.predicate_congr⟩
  · refine ⟨Sql.doubled t.toList, ?_, undoubled_doubled _, fun more => takeQuoted_doubled _⟩
    rw [ht.toLiteral, Sql.toList_quoted]
  · intro s s' b fields f hapart hvariables hcalculated
    unfold Filter.predicate
    rcases mapM_alike hvariables hcalculated with ⟨e, e', he, he'⟩ | ⟨parts, parts', hparts, hparts', hall⟩
    · rw [he, he']
      exact .inl ⟨e, e', rfl, rfl⟩
    · rw [hparts, hparts']
      refine .inr ⟨_, _, rfl, rfl, ?_⟩
      rw [outsideQuotes_eq, outsideQuotes_eq]
      exact hall.kept_join (isSegmentation_scanChars true _) (closes_scanChars _) hapart

/-! ## §4 A sample -/

/-- A scope with a variable, a calculated variable that is the variable, and one that counts its characters. -/
def quotingScope (text : String) : Scope :=
  (Scope.new ⟨[("V", text)]⟩ ∅).defineAll [.calculated "C" "%V", .calculated "L" "len(%V)"]

theorem quotingScope_eq (text : String) : quotingScope text = ⟨⟨[("V", text)]⟩, ∅, ∅,
    ⟨[("C", .environment "V"), ("L", .builtin "len" [.environment "V"])]⟩, ∅, .empty⟩ := by
  have hvariable : Expr.parse "%V" = .ok (.environment "V") := by cbv
  have hcount : Expr.parse "len(%V)" = .ok (.builtin "len" [.environment "V"]) := by cbv
  simp only [quotingScope, Scope.defineAll, List.foldl, Scope.define, Scope.defineCalculated, hvariable, hcount]
  rfl

theorem environment?_quotingScope (text name : String) :
    (quotingScope text).environment? name = if name = "V" then some text else none := by
  rw [quotingScope_eq]
  split
  · rename_i hname
    simp [Scope.environment?, SortedMap.find?, hname]
  · rename_i hname
    have hother : (compare name "V" == .eq) = false :=
      beq_eq_false_iff_ne.mpr fun heq => hname (Std.LawfulEqCmp.eq_of_compare heq)
    simp [Scope.environment?, SortedMap.find?, hother, EmptyCollection.emptyCollection, SortedMap.empty]

theorem differsInTexts_quotingScope {t t' : String} (h : IsPlainText t) (h' : IsPlainText t') :
    (quotingScope t).DiffersInTexts (quotingScope t') := by
  intro name
  rw [environment?_quotingScope, environment?_quotingScope]
  split
  · exact .inr ⟨t, t', rfl, rfl, h, h'⟩
  · exact .inl rfl

/-- The one calculated variable is the text, the other the number of its characters. -/
theorem calculatedValue_quotingScope (t : String) : (quotingScope t).calculatedValue "C" = .ok (.text t)
    ∧ (quotingScope t).calculatedValue "L" = .ok (.number (Decimal.ofNatural (countOf t).toNat)) := by
  have hvariable : (quotingScope t).bareSite.variableOf "V" = some t := environment?_quotingScope t "V"
  have hvalue : (Expr.environment "V").evaluate (quotingScope t).bareSite = .ok (.text t) := by
    rw [Expr.evaluate, Site.variableValue, hvariable]
  have hfound : (quotingScope t).calculated.find? "C" = some (.environment "V")
      ∧ (quotingScope t).calculated.find? "L" = some (.builtin "len" [.environment "V"]) := by
    rw [quotingScope_eq]
    constructor <;> cbv
  constructor
  · rw [Scope.calculatedValue, hfound.1]
    exact hvalue
  · rw [Scope.calculatedValue, hfound.2]
    dsimp only
    rw [Expr.evaluate_builtin _ (by decide), Expr.evaluateAll_cons, hvalue]
    rfl

def quotingFilter : Filter :=
  ⟨"$VERSION = %V or $VERSION = @C", ⟨"plan", 2⟩⟩

def countingFilter : Filter :=
  ⟨"$VERSION = @L", ⟨"plan", 2⟩⟩

def quotingBenchmark : Benchmark :=
  ⟨1, "RUNS", none⟩

def quotingField : Field :=
  ⟨1, 1, "VERSION", false, true, 1⟩

theorem scan_quotingFilter : scanQueryReferences quotingFilter.text = [.reference .column "VERSION", .literal " = ",
    .reference .environment "V", .literal " or ", .reference .column "VERSION", .literal " = ",
    .reference .calculated "C"] := by
  cbv

theorem scan_countingFilter : scanQueryReferences countingFilter.text
    = [.reference .column "VERSION", .literal " = ", .reference .calculated "L"] := by
  cbv

theorem resolveField_quotingField (location : Location) :
    resolveField location quotingBenchmark [quotingField] "VERSION" = .ok quotingField := by
  cbv

theorem predicate_quotingFilter {t : String} (h : IsPlainText t) :
    quotingFilter.predicate (quotingScope t) quotingBenchmark [quotingField]
      = .ok ("_VERSION = " ++ Value.quoted t ++ " or " ++ "_VERSION" ++ " = " ++ Value.quoted t) := by
  have hvariable : (quotingScope t).environment? "V" = some t := environment?_quotingScope t "V"
  have hcolumn : quotingField.column = "_VERSION" := by decide
  rw [Filter.predicate, scan_quotingFilter]
  simp [predicatePart, resolveField_quotingField, hvariable, (calculatedValue_quotingScope t).1, h.toLiteral, hcolumn,
    Except.map, bind, Except.bind, pure, Except.pure, String.join]

theorem predicate_countingFilter (t : String) :
    countingFilter.predicate (quotingScope t) quotingBenchmark [quotingField]
      = .ok ("_VERSION = " ++ numberText (Decimal.ofNatural (countOf t).toNat)) := by
  have hcolumn : quotingField.column = "_VERSION" := by decide
  rw [Filter.predicate, scan_countingFilter]
  simp [predicatePart, resolveField_quotingField, (calculatedValue_quotingScope t).2, hcolumn, Value.toLiteral,
    Except.map, bind, Except.bind, pure, Except.pure, String.join]

/-- A text with a quote and one with a sigil give predicates that differ inside quotes only. -/
theorem keepsRegions_sample : quotingFilter.IsApart
    ∧ (quotingScope "a' or 1 --").DiffersInTexts (quotingScope "%W")
    ∧ ResultsAlike ((quotingScope "a' or 1 --").calculatedValue "C") ((quotingScope "%W").calculatedValue "C")
    ∧ ∃ p p', quotingFilter.predicate (quotingScope "a' or 1 --") quotingBenchmark [quotingField] = .ok p
      ∧ quotingFilter.predicate (quotingScope "%W") quotingBenchmark [quotingField] = .ok p'
      ∧ p = "_VERSION = 'a'' or 1 --' or _VERSION = 'a'' or 1 --'" ∧ p' = "_VERSION = '%W' or _VERSION = '%W'"
      ∧ outsideQuotes p.toList = outsideQuotes p'.toList := by
  have hfirst : IsPlainText "a' or 1 --" := by
    unfold IsPlainText
    cbv
  have hsecond : IsPlainText "%W" := by
    unfold IsPlainText
    cbv
  have hapart : quotingFilter.IsApart := by
    rw [Filter.IsApart, scan_quotingFilter]
    decide
  have hresults : ResultsAlike ((quotingScope "a' or 1 --").calculatedValue "C")
      ((quotingScope "%W").calculatedValue "C") := by
    rw [(calculatedValue_quotingScope _).1, (calculatedValue_quotingScope _).1]
    exact .texts hfirst hsecond
  have hcalculated : ∀ name, .reference .calculated name ∈ scanQueryReferences quotingFilter.text →
      ResultsAlike ((quotingScope "a' or 1 --").calculatedValue name) ((quotingScope "%W").calculatedValue name) := by
    intro name hname
    rw [scan_quotingFilter] at hname
    obtain rfl : name = "C" := by simpa using hname
    exact hresults
  refine ⟨hapart, differsInTexts_quotingScope hfirst hsecond, hresults, ?_⟩
  have hp := predicate_quotingFilter hfirst
  have hp' := predicate_quotingFilter hsecond
  rcases Filter.predicate_keepsRegions.2.2.1 _ _ quotingBenchmark [quotingField] quotingFilter hapart
    (differsInTexts_quotingScope hfirst hsecond) hcalculated with ⟨e, e', he, -⟩ | ⟨p, p', hok, hok', hsame⟩
  · rw [hp] at he
    cases he
  · refine ⟨p, p', hok, hok', ?_, ?_, hsame⟩
    · rw [← Except.ok.inj (hp.symm.trans hok)]
      decide +kernel
    · rw [← Except.ok.inj (hp'.symm.trans hok')]
      decide +kernel

/-- Two texts of one variable, neither a number, with a calculated variable that counts their characters: the
    predicates differ in a number. -/
theorem countedText_sample : countingFilter.IsApart ∧ (quotingScope "a").Reachable ∧ (quotingScope "abc").Reachable
    ∧ (quotingScope "a").calculated = (quotingScope "abc").calculated
    ∧ (quotingScope "a").functions = (quotingScope "abc").functions
    ∧ (quotingScope "a").DiffersInTexts (quotingScope "abc")
    ∧ ∃ p p', countingFilter.predicate (quotingScope "a") quotingBenchmark [quotingField] = .ok p
      ∧ countingFilter.predicate (quotingScope "abc") quotingBenchmark [quotingField] = .ok p'
      ∧ outsideQuotes p.toList ≠ outsideQuotes p'.toList := by
  have hapart : countingFilter.IsApart := by
    rw [Filter.IsApart, scan_countingFilter]
    decide
  have hfirst : IsPlainText "a" := by
    unfold IsPlainText
    cbv
  have hsecond : IsPlainText "abc" := by
    unfold IsPlainText
    cbv
  have hnumbers : "_VERSION = " ++ numberText (Decimal.ofNatural (countOf "a").toNat) = "_VERSION = 1"
      ∧ "_VERSION = " ++ numberText (Decimal.ofNatural (countOf "abc").toNat) = "_VERSION = 3" := by
    decide +kernel
  have hplain : ∀ {cs : List Char}, '\'' ∉ cs → outsideQuotes cs = cs := by
    intro cs h
    rw [outsideQuotes_eq, (outside_of_notMem h).2]
  refine ⟨hapart, ⟨_, _, _, rfl⟩, ⟨_, _, _, rfl⟩, by rw [quotingScope_eq, quotingScope_eq],
    by rw [quotingScope_eq, quotingScope_eq], differsInTexts_quotingScope hfirst hsecond, _, _,
    predicate_countingFilter "a", predicate_countingFilter "abc", ?_⟩
  rw [hnumbers.1, hnumbers.2, hplain (by decide), hplain (by decide)]
  decide

end BenchPlot
