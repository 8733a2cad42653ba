import BenchPlot.Plan.Binding
import BenchPlot.Proofs.Sql.Literal
import BenchPlot.Proofs.Store.Selecting

/-!
# Equality predicates

The predicate that a field has a value is an expression, and its condition holds exactly at the rows whose cell
is the value: nothing is asked for as such, a text is quoted, and a number is written as its text. For a number
this rests on its text being read back; the text of a large whole number may be read as another integer.

Main statements: `exists_isPredicate_equality`, `equalityPredicate_cut` and `Sound.exists_equality`.
-/

namespace BenchPlot

/-! ## §1 Numbers that are read back -/

/-- A datum is the number: the float, or an integer of the same value. -/
def Sql.Datum.IsNumber (d : Sql.Datum) (x : Float) : Prop :=
  d = .real x ∨ ∃ i, d = .integer i ∧ Sql.Datum.compareExact i x = .eq

/-- The text of a number is read back: as an expression of a query it has the value of the number. -/
def ReadsBack (x : Float) : Prop :=
  ∃ d, Sql.valueOf? (numberText x) = some d ∧ d.IsNumber x

/-- Whether a number is whole and of a magnitude below `10 ^ 15`. -/
def isSmallWhole (x : Float) : Bool :=
  match Decimal.Parts.ofFloat x with
  | .finite _ m => m.isWhole && decide (m.whole < wholeBound)
  | _ => false

/-- Whole numbers below `10 ^ 15` are read back. -/
theorem readsBack_of_isSmallWhole {x : Float} (h : isSmallWhole x = true) : ReadsBack x := by
  unfold isSmallWhole at h
  split at h
  · rename_i negative m hparts
    obtain ⟨hwhole, hlt⟩ := Bool.and_eq_true_iff.mp h
    refine ⟨_, Sql.valueOf?_whole hparts hwhole (of_decide_eq_true hlt), .inr ⟨_, rfl, ?_⟩⟩
    have hmod : m.ratio.1 % m.ratio.2 = 0 := by simpa [Decimal.Magnitude.isWhole] using hwhole
    have hvalue : m.whole * m.ratio.2 = m.ratio.1 := Nat.div_mul_cancel (Nat.dvd_of_mod_eq_zero hmod)
    have hsigned : Decimal.signed negative m.whole * m.ratio.2 = Decimal.signed negative m.ratio.1 := by
      rw [← hvalue]
      cases negative <;> simp [Decimal.signed]
    rw [Sql.Datum.compareExact, hparts]
    dsimp only
    rw [hsigned]
    exact Std.ReflCmp.compare_self
  · cases h

namespace Decimal

/-- The place of a finite number that has the value of an integer. -/
theorem place_of_compareExact {i : Int} {x : Float} (hx : isFinite x = true)
    (h : Sql.Datum.compareExact i x = .eq) : place x = signed (decide (i < 0)) (Digits.bits ⟨i.natAbs, 0⟩) := by
  obtain ⟨hlt, hparts⟩ := parts_of_isFinite hx
  have hbits := nearestBits_ratio hlt
  rw [Sql.Datum.compareExact, hparts] at h
  unfold place
  generalize unsignedBits x = bits at hbits h ⊢
  generalize decide (signBit ≤ x.toBits.toNat) = negative at h ⊢
  generalize Magnitude.ofBits bits = m at hbits h
  have hden : m.ratio.2 ≠ 0 := by
    rw [ratio_eq]
    exact Nat.ne_of_gt (Nat.two_pow_pos _)
  have hcompare : compare (i * m.ratio.2) (signed negative m.ratio.1) = .eq := h
  have hvalue : i * m.ratio.2 = signed negative m.ratio.1 := Std.LawfulEqCmp.eq_of_compare hcompare
  have hpos : (0 : Int) < m.ratio.2 := Int.natCast_pos.mpr (Nat.pos_of_ne_zero hden)
  have habs : i.natAbs * m.ratio.2 = m.ratio.1 := by
    have hboth := congrArg Int.natAbs hvalue
    rw [Int.natAbs_mul, Int.natAbs_natCast] at hboth
    rw [hboth]
    cases negative <;> simp [signed]
  have hsame : Digits.bits ⟨i.natAbs, 0⟩ = bits := by
    refine (nearestBits_congr (decimalRatio_den_ne_zero _ _) hden ?_).trans hbits
    simpa [decimalRatio] using habs
  rw [hsame]
  -- The sign of a value that is not zero is that of the integer.
  rcases Int.lt_trichotomy i 0 with hminus | rfl | hplus
  · have hproduct := Int.mul_neg_of_neg_of_pos hminus hpos
    cases negative with
    | true => simp [hminus]
    | false =>
      rw [hvalue, signed] at hproduct
      exact absurd hproduct (by simp)
  · have hzero : bits = 0 := by
      have hnone : ∀ {num den : Nat}, num = 0 → nearestBits num den = 0 := fun h => if_pos h
      rw [← hsame]
      exact hnone (Nat.zero_mul _)
    cases negative <;> simp [signed, hzero]
  · have hproduct := Int.mul_pos hplus hpos
    cases negative with
    | true =>
      rw [hvalue, signed] at hproduct
      exact absurd hproduct (by simp)
    | false => simp [Int.not_lt.mpr (Int.le_of_lt hplus)]

end Decimal

/-- A datum that is a number compares as equal with this number only. -/
theorem Sql.Datum.IsNumber.order_eq_iff {d : Sql.Datum} {x z : Float} (h : d.IsNumber x)
    (hx : (Value.number x).Stored) (hz : (Value.number z).Stored) :
    (Sql.Datum.real z).order d = .eq ↔ z = x := by
  rcases h with rfl | ⟨i, rfl, hi⟩
  · rw [Sql.Datum.order, Decimal.compare?_eq hz.1 hx.1, Option.getD_some]
    constructor
    · intro heq
      exact Decimal.eq_of_place_eq hz.2 hx.2 (Std.LawfulEqCmp.eq_of_compare heq)
    · rintro rfl
      exact Std.ReflCmp.compare_self
  · have hswap : (Sql.Datum.real z).order (.integer i) = .eq ↔ Sql.Datum.compareExact i z = .eq := by
      rw [Sql.Datum.order]
      cases Sql.Datum.compareExact i z <;> decide
    rw [hswap]
    constructor
    · intro heq
      exact Decimal.eq_of_place_eq hz.2 hx.2
        ((Decimal.place_of_compareExact hz.1 heq).trans (Decimal.place_of_compareExact hx.1 hi).symm)
    · rintro rfl
      exact hi

/-! ## §2 Conditions -/

namespace Sql

variable {i : Nat} {a : Affinity} {cells : List Datum}

theorem resolve?_binary {ν μ : Type} {find? : ν → Option (Term μ)} (op : BinaryOp) {l r : Term ν} {l' r' : Term μ}
    (hl : l.resolve? find? = some l') (hr : r.resolve? find? = some r') :
    (Term.binary op l r).resolve? find? = some (.binary op l' r') := by
  rw [Term.resolve?, hl, hr]

/-- What a comparison for equality gives. -/
theorem truth?_equals (x y : Datum) : (Comparison.eq.apply x y).truth? = some true ↔
    x.isNull = false ∧ y.isNull = false ∧ x.order y = .eq := by
  unfold Comparison.apply
  cases hx : x.isNull with
  | true => simp [Datum.truth?, Datum.toNumber]
  | false =>
    cases hy : y.isNull with
    | true => simp [Datum.truth?, Datum.toNumber]
    | false => simp [truth?_ofTruth, Comparison.accepts]

end Sql

namespace Field

variable {f : Field} {w : Value} {i : Nat} {cells : List Sql.Datum}

theorem holds_isNull (hw : f.Admits w)
    (hcell : (Sql.Term.name ⟨i, f.affinity⟩ : Sql.Term Sql.Column).evaluate cells = .ofValue w) :
    (Sql.Term.binary .is (.name ⟨i, f.affinity⟩) (.literal .null)).holds cells = true ↔ w = .null := by
  have hvalue : ((Sql.Term.binary .is (.name ⟨i, f.affinity⟩) (.literal .null)).evaluate cells).truth?
      = some ((Sql.alignSides f.affinity .none (.ofValue w) .null).1.order
        (Sql.alignSides f.affinity .none (.ofValue w) .null).2 == .eq) := by
    rw [Sql.Term.evaluate, hcell]
    exact Sql.truth?_ofTruth _
  rw [Sql.Term.holds, hvalue]
  cases w with
  | null =>
    rw [Field.affinity]
    cases f.numeric <;> exact iff_of_true rfl rfl
  | number x =>
    have hreal : Sql.Datum.ofValue (.number x) = .real x := by
      rw [Sql.Datum.ofValue, Sql.Datum.ofFloat, Decimal.isNaN_of_isFinite hw.2.1]
      rfl
    rw [hreal, Field.affinity, if_pos hw.1]
    simp [Sql.alignSides, Sql.Affinity.isNumeric, Sql.Datum.preferNumber, Sql.Datum.order, Sql.Datum.rank]
  | text s =>
    simp [Sql.Datum.ofValue, Field.affinity, hw.1, Sql.alignSides, Sql.Affinity.isNumeric, Sql.Datum.preferText,
      Sql.Datum.order, Sql.Datum.rank]
  | bool b => exact hw.elim

theorem holds_equals {t : Sql.Term Sql.Column} (ht : t.affinity = .none)
    (hcell : (Sql.Term.name ⟨i, f.affinity⟩ : Sql.Term Sql.Column).evaluate cells = .ofValue w) :
    (Sql.Term.binary (.compare .eq) (.name ⟨i, f.affinity⟩) t).holds cells = true ↔
      (Sql.alignSides f.affinity .none (.ofValue w) (t.evaluate cells)).1.isNull = false
      ∧ (Sql.alignSides f.affinity .none (.ofValue w) (t.evaluate cells)).2.isNull = false
      ∧ (Sql.alignSides f.affinity .none (.ofValue w) (t.evaluate cells)).1.order
        (Sql.alignSides f.affinity .none (.ofValue w) (t.evaluate cells)).2 = .eq := by
  rw [← Sql.truth?_equals, Sql.Term.holds, beq_iff_eq, Sql.Term.evaluate, hcell, ht]
  rfl

/-- A text field is compared with the text of the other side. -/
theorem holds_equalsText (hw : f.Admits w) (hf : f.numeric = false)
    (hcell : (Sql.Term.name ⟨i, f.affinity⟩ : Sql.Term Sql.Column).evaluate cells = .ofValue w)
    {t : Sql.Term Sql.Column} (ht : t.affinity = .none) :
    (Sql.Term.binary (.compare .eq) (.name ⟨i, f.affinity⟩) t).holds cells = true
      ↔ ∃ s, (t.evaluate cells).preferText = .text s ∧ w = .text s := by
  have haligned : Sql.alignSides .text .none (.ofValue w) (t.evaluate cells)
      = ((Sql.Datum.ofValue w).preferText, (t.evaluate cells).preferText) := rfl
  rw [holds_equals ht hcell, Field.affinity, hf, if_neg Bool.false_ne_true, haligned]
  cases w with
  | null => simp [Sql.Datum.ofValue, Sql.Datum.preferText, Sql.Datum.isNull]
  | number x =>
    rw [hw.1] at hf
    cases hf
  | text s =>
    cases (t.evaluate cells).preferText with
    | text s' =>
      have hsame : compare s s' = .eq ↔ s' = s := Std.LawfulEqCmp.compare_eq_iff_eq.trans eq_comm
      simp [Sql.Datum.ofValue, Sql.Datum.preferText, Sql.Datum.isNull, Sql.Datum.order, hsame, eq_comm]
    | null => simp [Sql.Datum.isNull]
    | _ =>
      -- A text is neither a number nor a blob.
      refine iff_of_false (fun h => ?_) fun h => ?_
      · cases h.2.2
      · obtain ⟨_, h, -⟩ := h
        cases h
  | bool b => exact hw.elim

theorem holds_equalsNumber (hw : f.Admits w) (hf : f.numeric = true)
    (hcell : (Sql.Term.name ⟨i, f.affinity⟩ : Sql.Term Sql.Column).evaluate cells = .ofValue w)
    {t : Sql.Term Sql.Column} (ht : t.affinity = .none) {x : Float} (hx : (Value.number x).Stored)
    (hnumber : (t.evaluate cells).IsNumber x) :
    (Sql.Term.binary (.compare .eq) (.name ⟨i, f.affinity⟩) t).holds cells = true ↔ w = .number x := by
  have hkept : (t.evaluate cells).preferNumber = t.evaluate cells ∧ (t.evaluate cells).isNull = false := by
    rcases hnumber with h | ⟨i, h, -⟩ <;> rw [h] <;> exact ⟨rfl, rfl⟩
  rw [holds_equals ht hcell, Field.affinity, hf]
  cases w with
  | null => simp [Sql.Datum.ofValue, Sql.alignSides, Sql.Affinity.isNumeric, Sql.Datum.preferNumber, Sql.Datum.isNull]
  | number z =>
    have hreal : Sql.Datum.ofValue (.number z) = .real z := by
      rw [Sql.Datum.ofValue, Sql.Datum.ofFloat, Decimal.isNaN_of_isFinite hw.2.1]
      rfl
    have haligned : Sql.alignSides .real .none (.real z) (t.evaluate cells) = (.real z, t.evaluate cells) :=
      congrArg (Prod.mk _) hkept.1
    rw [hreal, if_pos rfl, haligned, hnumber.order_eq_iff hx hw.2, Value.number.injEq]
    exact ⟨fun h => h.2.2, fun h => ⟨rfl, hkept.2, h⟩⟩
  | text s =>
    rw [hw.1] at hf
    cases hf
  | bool b => exact hw.elim

end Field

/-! ## §3 Predicates -/

theorem trimChars_eq_self {c d : Char} {cs : List Char} (hc : Text.isBlank c = false) (hd : Text.isBlank d = false) :
    Text.trimChars (c :: (cs ++ [d])) = c :: (cs ++ [d]) := by
  have hstart : Text.trimStartChars (c :: (cs ++ [d])) = c :: (cs ++ [d]) :=
    List.dropWhile_cons_of_neg (by simp [hc])
  have hreverse : (c :: (cs ++ [d])).reverse = d :: (cs.reverse ++ [c]) := by simp
  rw [Text.trimChars, hstart, Text.trimEndChars, hreverse, List.dropWhile_cons_of_neg (by simp [hd]), ← hreverse,
    List.reverse_reverse]

/-- The last character of a text is no blank. -/
def EndsPlain (p : String) : Prop :=
  ∃ front last, p.toList = front ++ [last] ∧ Text.isBlank last = false

theorem endsPlain_quoted (s : String) : EndsPlain (Value.quoted s) :=
  ⟨'\'' :: Sql.doubled s.toList, '\'', Sql.toList_quoted s, rfl⟩

/-- A text that starts with a column and ends in no blank has no blanks around it. -/
theorem trim_column (f : Field) {p : String} (hp : EndsPlain p) : Text.trim (f.column ++ p) = f.column ++ p := by
  obtain ⟨front, last, htext, hlast⟩ := hp
  have hcolumn : f.column.toList = '_' :: f.name.toList := toList_columnName f.name
  have hall : (f.column ++ p).toList = '_' :: (f.name.toList ++ front ++ [last]) := by
    rw [String.toList_append, hcolumn, htext]
    simp
  rw [Text.trim, hall, trimChars_eq_self rfl hlast, ← hall, String.ofList_toList]

/-- A predicate states a term: it is an expression, of which nothing is trimmed. -/
structure IsPredicate (p : String) (t : Sql.WrittenTerm) : Prop where
  expression : Sql.IsExpression p.toList t
  trimmed : Text.trim p = p

namespace IsPredicate

variable {p : String} {t : Sql.WrittenTerm}

theorem isComplete (h : IsPredicate p t) : IsComplete p := by
  refine .inr ⟨t, ?_⟩
  rw [h.trimmed]
  exact h.expression

theorem isEmpty_eq_false (h : IsPredicate p t) : p.isEmpty = false := by
  cases hblank : p.isEmpty with
  | false => rfl
  | true =>
    -- The empty text is no expression.
    obtain ⟨ls, hlexes, -, hterm⟩ := h.expression.reads
    rw [String.isEmpty_iff.mp hblank, String.toList_empty, Sql.lexemes?_nil] at hlexes
    cases hlexes
    cases hterm

/-- The condition of a query with one predicate is the term, with the columns of the table for its names. -/
theorem conditions?_eq (h : IsPredicate p t) (table : WideTable) (includeOutliers : Bool) :
    (RowQuery.mk [p] includeOutliers).conditions? table
      = (t.resolve? (table.names []).find?).map fun condition => [condition] := by
  have hfragments : (RowQuery.mk [p] includeOutliers).fragments = [p] := by
    simp [RowQuery.fragments, h.trimmed, h.isEmpty_eq_false]
  rw [RowQuery.conditions?, hfragments, List.mapM_cons, List.mapM_nil, WideTable.condition?, h.expression.expression?,
    Option.bind_some]
  cases t.resolve? (table.names []).find? <;> rfl

end IsPredicate

theorem isPredicate_isNull {f : Field} (hf : IsCanonical f.name) :
    IsPredicate (f.column ++ " IS NULL") (.binary .is (.name ⟨.bare, f.column⟩) (.literal .null)) := by
  refine ⟨?_, trim_column f ⟨" IS NUL".toList, 'L', rfl, rfl⟩⟩
  rw [String.toList_append]
  exact Sql.isExpression_isNull (isColumnWord_columnName hf)

/-- A column is compared with an operand. -/
theorem isPredicate_equals {f : Field} (hf : IsCanonical f.name) {p : String} {u : Sql.WrittenTerm}
    (hp : Sql.IsOperand p.toList u) (hlast : EndsPlain p) :
    IsPredicate (f.column ++ " = " ++ p) (.binary (.compare .eq) (.name ⟨.bare, f.column⟩) u) := by
  constructor
  · rw [String.toList_append, String.toList_append]
    exact hp.isExpression_equals (isColumnWord_columnName hf)
  · obtain ⟨front, last, htext, hplain⟩ := hlast
    rw [String.append_assoc]
    exact trim_column f ⟨" = ".toList ++ front, last, by rw [String.toList_append, htext, List.append_assoc], hplain⟩

/-- A value is written out in a query: its text has no null character, and its number is read back. -/
def Value.IsWritten : Value → Prop
  | .text s => '\x00' ∉ s.toList
  | .number x => ReadsBack x
  | _ => True

theorem equalityPredicate_text {f : Field} (hf : f.numeric = false) (s : String) :
    equalityPredicate f (.text s) = f.column ++ " = " ++ Value.quoted s := by
  simp [equalityPredicate, hf]

/-- The predicate that a field has a value. -/
theorem exists_isPredicate_equality {f : Field} (hf : IsCanonical f.name) {v : Value} (hv : f.Admits v)
    (hwritten : v.IsWritten) : ∃ t, IsPredicate (equalityPredicate f v) t ∧
      match v with
      | .null => t = .binary .is (.name ⟨.bare, f.column⟩) (.literal .null)
      | .text s => t = .binary (.compare .eq) (.name ⟨.bare, f.column⟩) (.literal (.text s))
      | .number x => ∃ negative d, Sql.IsOperand (numberText x).toList (Sql.signedLiteral negative d)
          ∧ t = .binary (.compare .eq) (.name ⟨.bare, f.column⟩) (Sql.signedLiteral negative d)
      | .bool _ => True := by
  cases v with
  | null => exact ⟨_, isPredicate_isNull hf, rfl⟩
  | text s =>
    rw [equalityPredicate_text hv.1]
    exact ⟨_, isPredicate_equals hf (.quoted hwritten) (endsPlain_quoted s), rfl⟩
  | number x =>
    obtain ⟨negative, d, hd⟩ := Sql.exists_isOperand_number hv.2.1
    exact ⟨_, isPredicate_equals hf hd (Sql.exists_last_numberText hv.2.1), negative, d, hd, rfl⟩
  | bool b => exact hv.elim

/-- The predicate for a text with a null character is cut off inside of the text. -/
theorem equalityPredicate_cut {f : Field} (hf : IsCanonical f.name) (htext : f.numeric = false) {x : String}
    (hx : '\x00' ∈ x.toList) : ∃ front back,
      (Text.trim (equalityPredicate f (.text x))).toList = front ++ '\x00' :: back ∧ '\x00' ∉ front
        ∧ Sql.lexemes? ('(' :: front) = none := by
  have hword : Sql.IsColumnWord f.column := isColumnWord_columnName hf
  obtain ⟨inside, later, hsplit, hplain⟩ := List.eq_append_cons_of_mem hx
  have hlast : EndsPlain (" = " ++ Value.quoted x) := by
    obtain ⟨front, last, hquoted, hlast⟩ := endsPlain_quoted x
    exact ⟨" = ".toList ++ front, last, by rw [String.toList_append, hquoted, List.append_assoc], hlast⟩
  have hdoubled : Sql.doubled x.toList = Sql.doubled inside ++ '\x00' :: Sql.doubled later := by
    rw [hsplit, Sql.doubled, List.flatMap_append]
    rfl
  refine ⟨f.column.toList ++ " = ".toList ++ '\'' :: Sql.doubled inside, Sql.doubled later ++ ['\''], ?_, ?_, ?_⟩
  · rw [equalityPredicate_text htext, String.append_assoc, trim_column f hlast, String.toList_append,
      String.toList_append, Sql.toList_quoted, hdoubled]
    simp
  · have hinside : '\x00' ∉ Sql.doubled inside := Sql.notMem_doubled hplain
    simp [hword.plain, hinside]
  · rw [Sql.lexemes?_openParen, hword.lexemes?_equals, Sql.lexemes?_openText]
    rfl

namespace Store

variable {s : Store} {b : Benchmark} {t : WideTable}

/-- The name of a field's column is the column, in every query. -/
theorem Sound.exists_column (h : s.Sound) (hb : b ∈ s.benchmarks) (ht : s.table? b.table = some t) {f : Field}
    (hf : f ∈ s.fieldsOf b) : ∃ i, ReadsCells t f i t.rows
      ∧ (Sql.Term.name ⟨.bare, f.column⟩).resolve? (t.names []).find? = some (.name ⟨i, f.affinity⟩) := by
  obtain ⟨i, hplace, hreads⟩ := h.exists_readsCells hb ht hf []
  refine ⟨i, hreads, ?_⟩
  rw [Sql.Term.resolve?, Sql.Names.find?, hplace]
  rfl

/-- The predicate that a field has a value is a condition that holds at the rows whose cell is the value. -/
theorem Sound.exists_equality (h : s.Sound) (hb : b ∈ s.benchmarks) (ht : s.table? b.table = some t)
    {f : Field} (hf : f ∈ s.fieldsOf b) {v : Value} (hv : f.Admits v) (hwritten : v.IsWritten)
    (includeOutliers : Bool) : ∃ c,
      (RowQuery.mk [equalityPredicate f v] includeOutliers).conditions? t = some [c]
        ∧ ∀ r ∈ t.rows, c.holds r.data = true ↔ t.cell r f.column = v := by
  obtain ⟨i, hreads, hname⟩ := h.exists_column hb ht hf
  have hadmits := h.admits_cell hb ht hf
  obtain ⟨u, hu, hform⟩ := exists_isPredicate_equality (h.fieldCanonical hb hf) hv hwritten
  rw [hu.conditions?_eq]
  cases v with
  | null =>
    subst hform
    rw [Sql.resolve?_binary _ hname rfl]
    exact ⟨_, rfl, fun r hr => Field.holds_isNull (hadmits r hr) (hreads.evaluate r hr)⟩
  | text x =>
    subst hform
    rw [Sql.resolve?_binary _ hname rfl]
    refine ⟨_, rfl, fun r hr => ?_⟩
    rw [Field.holds_equalsText (hadmits r hr) hv.1 (hreads.evaluate r hr) rfl]
    simp [Sql.Term.evaluate, Sql.Datum.preferText]
  | number x =>
    obtain ⟨negative, d, hd, rfl⟩ := hform
    obtain ⟨value, hvalue, hnumber⟩ := hwritten
    have hconstant := Sql.isConstant_signed negative d
    rw [hd.valueOf?_eq hconstant] at hvalue
    obtain ⟨w, hresolved, haffinity, hevaluate⟩ := hconstant (t.names []).find?
    rw [Sql.resolve?_binary _ hname hresolved]
    refine ⟨_, rfl, fun r hr => ?_⟩
    refine Field.holds_equalsNumber (hadmits r hr) hv.1 (hreads.evaluate r hr) haffinity hv.2 ?_
    rwa [hevaluate, Option.some.inj hvalue]
  | bool x => exact hv.elim

/-- A query that asks for a text with a null character is refused. -/
theorem Sound.selectRows_cut (h : s.Sound) {written : String} (hname : s.benchmark written = .ok b)
    (hb : b ∈ s.benchmarks) {f : Field} (hf : f ∈ s.fieldsOf b) (htext : f.numeric = false) {x : String}
    (hx : '\x00' ∈ x.toList) {before : List String} (hbefore : ∀ p ∈ before, IsComplete p) (after : List String)
    (includeOutliers : Bool) :
    s.selectRows written ⟨before ++ equalityPredicate f (.text x) :: after, includeOutliers⟩ = .error .query := by
  obtain ⟨t, ht⟩ := h.exists_table hb hf
  obtain ⟨front, back, hcut, hplain, hfault⟩ := equalityPredicate_cut (h.fieldCanonical hb hf) htext hx
  rw [Store.selectRows_eq hname ht, RowQuery.rows, RowQuery.selection?_cut hbefore hcut hplain hfault]
  rfl

end Store

end BenchPlot
