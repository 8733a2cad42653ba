import BenchPlot.Proofs.Store.Columns

/-!
# The conditions of a query

The predicates of a query are put together as one text. If each of them is an expression on its own, the text
is read as their conjunction: a row is taken exactly if the condition of each predicate holds at it, and it is
no outlier where outliers are left out. There is no selection exactly if some predicate has a name that nothing
bears.

Main statements: `RowQuery.selection?_eq` and `RowQuery.rows_eq`.
-/

namespace BenchPlot

/-! ## §1 Conjunctions -/

namespace Sql

/-- The conjunction of terms; without any there is no condition. -/
def allOf {ν : Type} : List (Term ν) → Option (Term ν)
  | [] => none
  | t :: ts => some (ts.foldl (.binary .and) t)

theorem truth?_ofTruth (b : Option Bool) : (Datum.ofTruth b).truth? = b := by
  cases b with
  | none => rfl
  | some b => cases b <;> rfl

theorem Term.holds_and (l r : Term Column) (cells : List Datum) :
    (Term.binary .and l r).holds cells = (l.holds cells && r.holds cells) := by
  have htruth : ((Term.binary .and l r).evaluate cells).truth?
      = conjunction (l.evaluate cells).truth? (r.evaluate cells).truth? := truth?_ofTruth _
  simp only [Term.holds, htruth]
  -- A conjunction holds only if both sides do; one that is open is not taken.
  rcases (l.evaluate cells).truth? with _ | _ | _ <;> rcases (r.evaluate cells).truth? with _ | _ | _ <;> rfl

theorem satisfies_allOf (ts : List (Term Column)) (cells : List Datum) :
    satisfies (allOf ts) cells = ts.all (·.holds cells) := by
  cases ts with
  | nil => rfl
  | cons t ts =>
    show (ts.foldl (.binary .and) t).holds cells = _
    induction ts generalizing t with
    | nil => simp
    | cons u ts ih => simp [ih, Term.holds_and, Bool.and_assoc]

theorem resolve?_foldl_and {ν μ : Type} (find? : ν → Option (Term μ)) (t : Term ν) (ts : List (Term ν)) :
    (ts.foldl (.binary .and) t).resolve? find? = (t.resolve? find?).bind fun t' =>
      (ts.mapM (Term.resolve? find?)).map fun ts' => ts'.foldl (.binary .and) t' := by
  induction ts generalizing t with
  | nil => simp
  | cons u ts ih =>
    rw [List.foldl_cons, ih, Term.resolve?, List.mapM_cons]
    cases t.resolve? find? with
    | none => rfl
    | some t' =>
      cases u.resolve? find? with
      | none => rfl
      | some u' => cases ts.mapM (Term.resolve? find?) <;> simp

/-- The names of a conjunction are found exactly if those of each term are found. -/
theorem resolveCondition?_allOf (n : Names) (ts : List WrittenTerm) :
    resolveCondition? n (allOf ts) = (ts.mapM (Term.resolve? n.find?)).map allOf := by
  cases ts with
  | nil => rfl
  | cons t ts =>
    show ((ts.foldl (.binary .and) t).resolve? n.find?).map some = _
    rw [resolve?_foldl_and, List.mapM_cons]
    cases t.resolve? n.find? with
    | none => rfl
    | some t' => cases ts.mapM (Term.resolve? n.find?) <;> simp [allOf]

end Sql

/-! ## §2 Predicates -/

/-- A predicate is complete iff it is blank or an expression on its own. -/
def IsComplete (predicate : String) : Prop :=
  (Text.trim predicate).isEmpty = true ∨ ∃ t, Sql.IsExpression (Text.trim predicate).toList t

/-- The condition that a predicate states about the rows of a table. -/
def WideTable.condition? (t : WideTable) (predicate : String) : Option (Sql.Term Sql.Column) :=
  (Sql.expression? predicate.toList).bind (Sql.Term.resolve? (t.names []).find?)

theorem WideTable.find?_names (t : WideTable) (columns : List String) :
    (t.names columns).find? = (t.names []).find? := by
  funext name
  rw [Sql.Names.find?, Sql.Names.find?, Store.output?_names, Store.output?_names]
  rfl

namespace RowQuery

/-- Every predicate of the query is complete. -/
def Complete (q : RowQuery) : Prop :=
  ∀ p ∈ q.predicates, IsComplete p

/-- The predicates that are not blank, without the blanks around them. -/
def fragments (q : RowQuery) : List String :=
  (q.predicates.map Text.trim).filter fun p => !p.isEmpty

/-- The conditions that the predicates of a query state about the rows of a table. -/
def conditions? (q : RowQuery) (t : WideTable) : Option (List (Sql.Term Sql.Column)) :=
  q.fragments.mapM t.condition?

/-- Whether a row is taken: all conditions hold at it, and it is no outlier or outliers are asked for. -/
def takes (q : RowQuery) (conditions : List (Sql.Term Sql.Column)) (r : WideRow) : Bool :=
  conditions.all (·.holds r.data) && (q.includeOutliers || !r.outlier)

/-- The condition about outliers, as it is written. -/
def kept (q : RowQuery) : List Sql.WrittenTerm :=
  if q.includeOutliers then [] else [Sql.keptCondition]

variable {q : RowQuery} {t : WideTable} {columns : List String} {orderBy : String}

theorem Complete.exists_terms (h : q.Complete) :
    ∃ terms, List.Forall₂ (fun p t => Sql.IsExpression p.toList t) q.fragments terms := by
  obtain ⟨predicates, includeOutliers⟩ := q
  unfold fragments
  induction predicates with
  | nil => exact ⟨[], .nil⟩
  | cons p rest ih =>
    obtain ⟨terms, hterms⟩ := ih fun p hp => h p (List.mem_cons_of_mem _ hp)
    cases hblank : (Text.trim p).isEmpty with
    | true => exact ⟨terms, by simpa [hblank] using hterms⟩
    | false =>
      rcases h p (List.mem_cons_self ..) with htrue | ⟨t, ht⟩
      · rw [hblank] at htrue
        cases htrue
      · have hall : List.Forall₂ (fun p t => Sql.IsExpression p.toList t) (Text.trim p :: _) (t :: terms) :=
          .cons ht hterms
        exact ⟨t :: terms, by simpa [hblank] using hall⟩

theorem conditions?_eq {terms : List Sql.WrittenTerm}
    (h : List.Forall₂ (fun p t => Sql.IsExpression p.toList t) q.fragments terms) :
    q.conditions? t = terms.mapM (Sql.Term.resolve? (t.names []).find?) := by
  unfold conditions?
  generalize q.fragments = fragments at h
  induction h with
  | nil => rfl
  | cons hp _ ih =>
    rw [List.mapM_cons, List.mapM_cons, ih, WideTable.condition?, hp.expression?]
    rfl

/-- What a query writes behind `WHERE` is read as the conjunction of its predicates. -/
theorem written_eq {terms : List Sql.WrittenTerm}
    (h : List.Forall₂ (fun p t => Sql.IsExpression p.toList t) q.fragments terms)
    (hword : Sql.IsColumnWord orderBy) :
    (if q.clauses.isEmpty then some ⟨none, [⟨.name ⟨.bare, orderBy⟩, false⟩]⟩
      else Sql.Selection.parse? (" AND ".intercalate q.clauses ++ " ORDER BY " ++ orderBy))
      = some ⟨Sql.allOf (terms ++ q.kept), [⟨.name ⟨.bare, orderBy⟩, false⟩]⟩ := by
  -- Each clause is read as its term, in front of all others and behind `AND`.
  have hreads : List.Forall₂ (fun clause t => ∀ frames,
      (∀ u, Sql.closeFrames Sql.equalityLevel u frames = (u, frames)) → Sql.ReadsAs frames clause t)
      (q.clauses.map String.toList) (terms ++ q.kept) := by
    rw [clauses, List.map_append]
    refine List.rel_append ?_ ?_
    · rw [List.map_map, List.forall₂_map_left_iff]
      refine h.imp fun p t hp frames _ => ?_
      simpa using hp.group frames
    · unfold kept
      split
      · exact .nil
      · exact .cons (fun frames hframes => Sql.readsAs_kept hframes) .nil
  cases hclauses : q.clauses with
  | nil =>
    rw [hclauses] at hreads
    cases hterms : terms ++ q.kept with
    | nil => rfl
    | cons t ts =>
      rw [hterms] at hreads
      cases hreads
  | cons c cs =>
    rw [hclauses] at hreads
    obtain ⟨t, ts, hfirst, hrest, hterms⟩ := List.forall₂_cons_left_iff.mp hreads
    have hall : Sql.ReadsAs [] (" AND ".toList.intercalate ((c :: cs).map String.toList))
        (ts.foldl (.binary .and) t) :=
      (hfirst [] fun _ => rfl).intercalate_and (hrest.imp fun b u hb left => hb _ fun _ => rfl)
    have htext : " AND ".intercalate (c :: cs) ++ " ORDER BY " ++ orderBy
        = String.ofList (" AND ".toList.intercalate ((c :: cs).map String.toList)
          ++ " ORDER BY ".toList ++ orderBy.toList) := by
      refine String.toList_inj.mp ?_
      rw [String.toList_append, String.toList_append, String.toList_intercalate]
      exact String.toList_ofList.symm
    rw [hterms, htext, hall.parse? hword]
    rfl

/-- The selection of a query is the conjunction of the conditions of its predicates. -/
theorem selection?_eq (h : q.Complete) (hword : Sql.IsColumnWord orderBy) {key : Sql.Term Sql.Column}
    (hkey : (t.names columns).column? orderBy = some key) :
    q.selection? t columns orderBy = (q.conditions? t).map fun conditions =>
      ⟨Sql.allOf (conditions ++ if q.includeOutliers then [] else [Store.isKept]), [(key, false)]⟩ := by
  obtain ⟨terms, hterms⟩ := h.exists_terms
  have horder : Sql.OrderKey.resolve? (t.names columns) ⟨.name ⟨.bare, orderBy⟩, false⟩ = some (key, false) := by
    simp [Sql.OrderKey.resolve?, Store.output?_names, Sql.Names.find?, hkey]
  have hkept : q.kept.mapM (Sql.Term.resolve? (t.names []).find?)
      = some (if q.includeOutliers then [] else [Store.isKept]) := by
    have hout : (t.names []).find? ⟨.bare, "OUT"⟩ = some (.name ⟨2, .integer⟩) := by
      simp [Sql.Names.find?, Store.column?_out]
    unfold kept
    split
    · rfl
    · simp [Sql.keptCondition, Sql.Term.resolve?, hout, Store.isKept]
  rw [selection?, written_eq hterms hword, conditions?_eq hterms]
  simp only [Option.bind_some, Sql.Selection.resolve?, Sql.resolveCondition?_allOf, t.find?_names columns,
    List.mapM_append, hkept, List.mapM_cons, List.mapM_nil, horder]
  cases terms.mapM (Sql.Term.resolve? (t.names []).find?) <;> rfl

theorem satisfies_takes (conditions : List (Sql.Term Sql.Column)) (r : WideRow) :
    Sql.satisfies (Sql.allOf (conditions ++ if q.includeOutliers then [] else [Store.isKept])) r.data
      = q.takes conditions r := by
  rw [Sql.satisfies_allOf, List.all_append, takes]
  cases q.includeOutliers <;> simp [Store.holds_isKept]

/-- The rows that a query selects are those that it takes, in the order of a column. -/
theorem rows_eq (h : q.Complete) (hword : Sql.IsColumnWord orderBy) {key : Sql.Term Sql.Column}
    (hkey : (t.names columns).column? orderBy = some key) :
    q.rows t columns orderBy = match q.conditions? t with
      | some conditions => .ok <| (t.rows.filter (q.takes conditions)).mergeSort fun a b =>
          Sql.mayPrecede [(key, false)] a.data b.data
      | none => .error .query := by
  rw [rows, selection?_eq h hword hkey]
  cases q.conditions? t with
  | none => rfl
  | some conditions =>
    simp only [Option.map_some, Sql.ResolvedSelection.apply, satisfies_takes]
    rfl

/-! ## §3 Texts that are cut off -/

/-- The texts in front of one are those before it, each with what separates them behind it. -/
theorem exists_intercalate_eq (sep : List Char) (before : List (List Char)) (c : List Char)
    (after : List (List Char)) : ∃ more,
      sep.intercalate (before ++ c :: after) = before.flatMap (· ++ sep) ++ (c ++ more) := by
  induction before with
  | nil =>
    cases after with
    | nil => exact ⟨[], by simp⟩
    | cons d after => exact ⟨sep ++ sep.intercalate (d :: after), by simp [List.intercalate_cons_cons]⟩
  | cons a before ih =>
    obtain ⟨more, hmore⟩ := ih
    refine ⟨more, ?_⟩
    obtain ⟨d, rest, hrest⟩ := List.exists_cons_of_ne_nil (l := before ++ c :: after) (by simp)
    rw [List.cons_append, hrest, List.intercalate_cons_cons, ← hrest, hmore]
    simp

/-- Behind clauses that are read, a fault is a fault. -/
theorem lexemes?_fault_behind {clauses : List (List Char)} (h : ∀ c ∈ clauses, ∃ t, Sql.ReadsAs [] c t)
    {rest : List Char} (hfault : Sql.lexemes? rest = none) :
    Sql.lexemes? (clauses.flatMap (· ++ " AND ".toList) ++ rest) = none := by
  induction clauses with
  | nil => exact hfault
  | cons c clauses ih =>
    obtain ⟨t, ht⟩ := h c (List.mem_cons_self ..)
    obtain ⟨ls, _, hscan⟩ := ht.clause
    have hlater := ih fun d hd => h d (List.mem_cons_of_mem _ hd)
    have htext : (c :: clauses).flatMap (· ++ " AND ".toList) ++ rest
        = c ++ ' ' :: 'A' :: 'N' :: 'D' :: ' ' :: (clauses.flatMap (· ++ " AND ".toList) ++ rest) := by simp
    rw [htext, hscan, Sql.lexemes?_and, hlater]
    rfl

/-- A null character ends the text of a query; where what stands before it has no tokens, it has none. -/
theorem scan?_cut {text : String} {front back : List Char} (htext : text.toList = front ++ '\x00' :: back)
    (hplain : '\x00' ∉ front) (hfault : Sql.lexemes? front = none) : Sql.Token.scan? text = none := by
  have hclean : ∀ c ∈ front, (c != '\x00') = true := by
    intro c hc
    refine bne_iff_ne.mpr ?_
    rintro rfl
    exact hplain hc
  rw [Sql.Token.scan?, htext, List.takeWhile_append_of_pos hclean, List.takeWhile_cons_of_neg (by decide),
    List.append_nil]
  exact Option.map_eq_none_iff.mp hfault

/-- Where a clause has a null character and what stands before it has no tokens, nothing is selected. -/
theorem selection?_cut {ps rest : List String} {p : String} {front back : List Char} {includeOutliers : Bool}
    (hps : ∀ x ∈ ps, IsComplete x) (hp : (Text.trim p).toList = front ++ '\x00' :: back) (hplain : '\x00' ∉ front)
    (hfault : Sql.lexemes? ('(' :: front) = none) :
    (RowQuery.mk (ps ++ p :: rest) includeOutliers).selection? t columns orderBy = none := by
  have hfull : (Text.trim p).isEmpty = false := by
    cases hblank : (Text.trim p).isEmpty with
    | false => rfl
    | true =>
      rw [String.isEmpty_iff.mp hblank] at hp
      simp at hp
  obtain ⟨terms, hterms⟩ := Complete.exists_terms (q := ⟨ps, includeOutliers⟩) hps
  generalize hbefore : (RowQuery.mk ps includeOutliers).fragments.map (fun p => '(' :: (p.toList ++ [')'])) = before
  have hreads : ∀ c ∈ before, ∃ t, Sql.ReadsAs [] c t := by
    intro c hc
    rw [← hbefore] at hc
    obtain ⟨p, hp, rfl⟩ := List.mem_map.mp hc
    obtain ⟨t, -, ht⟩ := exists_mem_of_forall₂ hterms hp
    exact ⟨t, ht.group []⟩
  obtain ⟨after, hafter⟩ : ∃ after, (RowQuery.mk (ps ++ p :: rest) includeOutliers).clauses.map String.toList
      = before ++ ('(' :: (front ++ '\x00' :: back ++ [')'])) :: after := by
    refine ⟨(((rest.map Text.trim).filter fun p => !p.isEmpty).map (fun p => "(" ++ p ++ ")")
      ++ if includeOutliers then [] else ["OUT = 0"]).map String.toList, ?_⟩
    rw [← hbefore]
    simp [clauses, fragments, hfull, hp, Function.comp_def]
  obtain ⟨more, hmore⟩ :=
    exists_intercalate_eq " AND ".toList before ('(' :: (front ++ '\x00' :: back ++ [')'])) after
  have hfront : '\x00' ∉ before.flatMap (· ++ " AND ".toList) ++ '(' :: front := by
    have hclauses : ∀ c ∈ before, '\x00' ∉ c := by
      intro c hc
      obtain ⟨t, ht⟩ := hreads c hc
      exact ht.plain
    simpa [hplain] using hclauses
  have hscan : Sql.Token.scan? (" AND ".intercalate (RowQuery.mk (ps ++ p :: rest) includeOutliers).clauses
      ++ " ORDER BY " ++ orderBy) = none := by
    have htext : (" AND ".intercalate (RowQuery.mk (ps ++ p :: rest) includeOutliers).clauses
        ++ " ORDER BY " ++ orderBy).toList = before.flatMap (· ++ " AND ".toList) ++ '(' :: front
          ++ '\x00' :: (back ++ [')'] ++ more ++ " ORDER BY ".toList ++ orderBy.toList) := by
      rw [String.toList_append, String.toList_append, String.toList_intercalate, hafter, hmore]
      simp
    exact scan?_cut htext hfront (lexemes?_fault_behind hreads hfault)
  have hclauses : (RowQuery.mk (ps ++ p :: rest) includeOutliers).clauses.isEmpty = false := by
    cases hnil : (RowQuery.mk (ps ++ p :: rest) includeOutliers).clauses with
    | nil =>
      rw [hnil] at hafter
      simp at hafter
    | cons => rfl
  rw [selection?, hclauses, if_neg Bool.false_ne_true, Sql.Selection.parse?, hscan]
  rfl

end RowQuery

end BenchPlot
