import BenchPlot.Proofs.Formula.Reading

/-!
# The reader of formulas reads what the grammar derives

A row of tokens is read as formulas iff the grammar derives the whole of it, and then the formulas are the
meaning of its only derivation. One direction is an induction over derivations: a phrase is read from the
front of a row if it may end before what follows it. The other one follows the reader, by the same measure
by which it ends.

Main statements: `Derivation.reads`, `derived_formulas` and `Expr.ofTokens_iff_derivation`.
-/

namespace BenchPlot

open Token
open Parsed (read?)

/-! ## §1 Everything derived is read -/

/-- A phrase is read from the front of `ts`, with a meaning, and `rest` is left. -/
def Phrase.Reads : (p : Phrase) → p.Meaning → List Token → List Token → Prop
  | .chain level, e, ts, rest => read? (parseChain level ts) = some (e, rest)
  | .operand level, e, ts, rest => read? (parseOperand level ts) = some (e, rest)
  | .more level, f, ts, rest => ∀ left, readMore? level left ts = some (f left, rest)
  | .comparison, e, ts, rest => read? (parseComparison ts) = some (e, rest)
  | .unary, e, ts, rest => read? (parseUnary ts) = some (e, rest)
  | .power, e, ts, rest => read? (parsePower ts) = some (e, rest)
  | .primary, e, ts, rest => read? (parsePrimary ts) = some (e, rest)
  | .arguments, es, ts, rest => read? (parseArguments ts) = some (es, rest)
  -- A list stands alone, or between the parentheses of a call.
  | .formulas, es, ts, rest => (parseFormulas ts).toOption = some (es, rest)
      ∧ ∀ after, rest = .symbol .closeParen :: after → read? (parseArgumentList ts) = some (es, after)

theorem symbolFront?_of_endsBefore {α : Type} {f : Symbol → Option α} {p : Phrase} {ts : List Token}
    (hp : p.EndsBefore ts) (hf : ∀ s a, f s = some a → s.height ≤ p.height) :
    symbolFront? f ts = none := by
  refine symbolFront?_eq_none fun s rest hts => Option.eq_none_iff_forall_ne_some.mpr fun a ha => ?_
  rw [hts] at hp
  exact Phrase.not_endsBefore (hf s a ha) hp

/-- What is derived as a phrase is read as the phrase, with the meaning of its derivation. -/
theorem Derivation.reads {p : Phrase} (d : Derivation p) {rest : List Token} (h : p.EndsBefore rest) :
    p.Reads d.meaning (d.yield ++ rest) rest := by
  induction d generalizing rest with
  | @chain level first others ihFirst ihOthers =>
    show read? (parseChain level (first.yield ++ others.yield ++ rest)) = _
    have hfirst : read? _ = _ := ihFirst (others.endsBefore_more h)
    rw [List.append_assoc, read?_chain, hfirst]
    exact ihOthers h first.meaning
  | conjunction t ih | comparison t ih | product t ih | unary t ih =>
    have ht : read? _ = _ := ih (h.mono (by decide))
    show read? (parseOperand _ (t.yield ++ rest)) = _
    rw [parseOperand]
    exact ht
  | @noMore level =>
    intro left
    show readMore? level left rest = _
    rw [readMore?_eq, symbolFront?_of_endsBefore h fun s op hs => Nat.le_of_eq (Chain.operator?_height hs)]
    rfl
  | @more level s op hs operand others ihOperand ihOthers =>
    intro left
    show readMore? level left (.symbol s :: (operand.yield ++ others.yield ++ rest)) = _
    have hoperand : read? _ = _ := ihOperand (others.endsBefore_more h)
    rw [readMore?_eq, symbolFront?_symbol hs, List.append_assoc]
    dsimp only
    rw [hoperand]
    exact ihOthers h _
  | sum t ih =>
    show read? (parseComparison (t.yield ++ rest)) = _
    have ht : read? _ = _ := ih (h.mono (by decide))
    rw [read?_comparison, ht, Option.bind_some,
      symbolFront?_of_endsBefore h fun s op hs => Nat.le_of_eq (comparison?_height hs)]
    rfl
  | compared s op hs left right ihLeft ihRight =>
    show read? (parseComparison (left.yield ++ .symbol s :: right.yield ++ rest)) = _
    have hleft : read? _ = _ := ihLeft (endsBefore_comparison hs (right.yield ++ rest))
    have hright : read? _ = _ := ihRight (h.mono (by decide))
    rw [List.append_assoc, List.cons_append, read?_comparison, hleft, Option.bind_some,
      symbolFront?_symbol hs]
    dsimp only
    rw [hright]
    rfl
  | signed s op hs operand ih =>
    show read? (parseUnary (.symbol s :: (operand.yield ++ rest))) = _
    have hoperand : read? _ = _ := ih h
    rw [read?_unary, symbolFront?_symbol hs]
    dsimp only
    rw [hoperand]
    rfl
  | unsigned t ih =>
    show read? (parseUnary (t.yield ++ rest)) = _
    have ht : read? _ = _ := ih (h.mono (by decide))
    rw [read?_unary, symbolFront?_eq_none fun s ts hts => unary?_of_power_yield _ hts]
    exact ht
  | base t ih =>
    show read? (parsePower (t.yield ++ rest)) = _
    have ht : read? _ = _ := ih (h.mono (by decide))
    rw [read?_power, ht, Option.bind_some,
      behind?_of_endsBefore h (by decide)]
    rfl
  | raised left exponent ihLeft ihExponent =>
    show read? (parsePower (left.yield ++ .symbol .power :: exponent.yield ++ rest)) = _
    have hleft : read? _ = _ := ihLeft (Phrase.endsBefore_symbol.2 (by decide) : Phrase.primary.EndsBefore
      (.symbol .power :: (exponent.yield ++ rest)))
    have hexponent : read? _ = _ := ihExponent (h.mono (by decide))
    rw [List.append_assoc, List.cons_append, read?_power, hleft, Option.bind_some, behind?_symbol]
    dsimp only
    rw [hexponent]
    rfl
  | number | text | column | environment | calculated =>
    show read? (parsePrimary (_ :: rest)) = _
    rw [parsePrimary]
    rfl
  | word name =>
    refine read?_word fun _ more (hmore : rest = _) => ?_
    rw [hmore] at h
    exact Phrase.not_endsBefore (by decide) h
  | call name args ih =>
    show read? (parsePrimary (.reference .function name :: (args.yield ++ rest))) = _
    have hargs : read? _ = _ := ih (h.mono (by decide))
    rw [read?_call, hargs]
    rfl
  | builtin name hname args ih =>
    show read? (parsePrimary (.word name :: (args.yield ++ rest))) = _
    have hargs : read? _ = _ := ih (h.mono (by decide))
    obtain ⟨ts, hts⟩ := args.exists_arguments_yield
    rw [hts, List.cons_append] at hargs ⊢
    rw [read?_builtin hname, hargs]
    rfl
  | group inner ih =>
    show read? (parsePrimary (.symbol .openParen :: (inner.yield ++ [.symbol .closeParen] ++ rest))) = _
    have hinner : read? _ = _ := ih (Phrase.endsBefore_symbol.2 (by decide) :
      (Phrase.chain .disjunction).EndsBefore (.symbol .closeParen :: rest))
    rw [List.append_assoc, read?_group, List.singleton_append, hinner]
    rfl
  | noArguments =>
    show read? (parseArguments (.symbol .openParen :: .symbol .closeParen :: rest)) = _
    rw [read?_arguments]
    rfl
  | listed list ih =>
    show read? (parseArguments (.symbol .openParen :: (list.yield ++ [.symbol .closeParen] ++ rest))) = _
    have hlist := (ih (Phrase.endsBefore_symbol.2 (by decide) :
      Phrase.formulas.EndsBefore (.symbol .closeParen :: rest))).2 rest rfl
    -- The list does not start with the parenthesis that would end the arguments.
    have hopen : behind? .closeParen (list.yield ++ .symbol .closeParen :: rest) = none :=
      behind?_eq_none fun ts => list.yield_append_ne_closeParen (by simp)
    rw [List.append_assoc, List.singleton_append, read?_arguments, behind?_symbol, Option.bind_some, hopen]
    exact hlist
  | single f ih =>
    have hf : read? _ = _ := ih (h.mono (by decide))
    refine ⟨?_, fun after hafter => ?_⟩
    · show (parseFormulas (f.yield ++ rest)).toOption = _
      rw [parseFormulas_eq, hf, Option.bind_some, behind?_of_endsBefore h (by decide)]
      rfl
    · show read? (parseArgumentList (f.yield ++ rest)) = _
      rw [read?_argumentList, hf, Option.bind_some, hafter]
      rfl
  | comma first others ihFirst ihOthers =>
    have hfirst : read? _ = _ := ihFirst (Phrase.endsBefore_symbol.2 (by decide) :
      (Phrase.chain .disjunction).EndsBefore (.symbol .comma :: (others.yield ++ rest)))
    obtain ⟨hothers, hlist⟩ := ihOthers h
    refine ⟨?_, fun after hafter => ?_⟩
    · show (parseFormulas (first.yield ++ .symbol .comma :: others.yield ++ rest)).toOption = _
      rw [List.append_assoc, List.cons_append, parseFormulas_eq, hfirst, Option.bind_some, behind?_symbol]
      dsimp only
      rw [hothers]
      rfl
    · show read? (parseArgumentList (first.yield ++ .symbol .comma :: others.yield ++ rest)) = _
      rw [List.append_assoc, List.cons_append, read?_argumentList, hfirst, Option.bind_some,
        behind?_symbol, behind?_eq_none fun ts hts => by cases hts]
      dsimp only
      rw [Option.bind_some, hlist after hafter]
      rfl

/-! ## §2 Everything read is derived -/

mutual

theorem derived_chain (level : Chain) (ts : List Token) {e : Expr} {rest : List Token}
    (h : read? (parseChain level ts) = some (e, rest)) :
    ∃ d : Derivation (.chain level), d.meaning = e ∧ d.yield ++ rest = ts := by
  rw [read?_chain, Option.bind_eq_some_iff] at h
  obtain ⟨⟨left, mid⟩, hleft, hmore⟩ := h
  have := length_lt_of_read? hleft
  obtain ⟨first, hfirst, hfront⟩ := derived_operand level ts hleft
  obtain ⟨others, hothers, hback⟩ := derived_more level left mid hmore
  refine ⟨.chain first others, ?_, ?_⟩
  · rw [Derivation.meaning, hfirst, hothers]
  · rw [Derivation.yield, List.append_assoc, hback, hfront]
termination_by (ts.length, level.height, 1)

theorem derived_operand (level : Chain) (ts : List Token) {e : Expr} {rest : List Token}
    (h : read? (parseOperand level ts) = some (e, rest)) :
    ∃ d : Derivation (.operand level), d.meaning = e ∧ d.yield ++ rest = ts := by
  rw [parseOperand.eq_def] at h
  cases level with
  | disjunction =>
    obtain ⟨d, hd⟩ := derived_chain .conjunction ts h
    exact ⟨.conjunction d, hd⟩
  | conjunction =>
    obtain ⟨d, hd⟩ := derived_comparison ts h
    exact ⟨.comparison d, hd⟩
  | sum =>
    obtain ⟨d, hd⟩ := derived_chain .product ts h
    exact ⟨.product d, hd⟩
  | product =>
    obtain ⟨d, hd⟩ := derived_unary ts h
    exact ⟨.unary d, hd⟩
termination_by (ts.length, level.height, 0)

theorem derived_more (level : Chain) (left : Expr) (ts : List Token) {e : Expr} {rest : List Token}
    (h : readMore? level left ts = some (e, rest)) :
    ∃ d : Derivation (.more level), d.meaning left = e ∧ d.yield ++ rest = ts := by
  rw [readMore?_eq] at h
  split at h
  · cases h
    exact ⟨.noMore, rfl, rfl⟩
  · rename_i op behind hfront
    obtain ⟨s, hs, hts⟩ := of_symbolFront?_eq_some hfront
    obtain ⟨⟨right, mid⟩, hright, hmore⟩ := Option.bind_eq_some_iff.mp h
    have := length_lt_of_read? hright
    obtain ⟨operand, hoperand, hmid⟩ := derived_operand level behind hright
    obtain ⟨others, hothers, hback⟩ := derived_more level (.binary op left right) mid hmore
    refine ⟨.more s op hs operand others, ?_, ?_⟩
    · rw [Derivation.meaning, hoperand]
      exact hothers
    · rw [Derivation.yield, List.cons_append, List.append_assoc, hback, hmid, hts]
termination_by (ts.length, 0, 0)

theorem derived_comparison (ts : List Token) {e : Expr} {rest : List Token}
    (h : read? (parseComparison ts) = some (e, rest)) :
    ∃ d : Derivation .comparison, d.meaning = e ∧ d.yield ++ rest = ts := by
  rw [read?_comparison, Option.bind_eq_some_iff] at h
  obtain ⟨⟨left, mid⟩, hleft, h⟩ := h
  have := length_lt_of_read? hleft
  obtain ⟨l, hl, hlts⟩ := derived_chain .sum ts hleft
  split at h
  · cases h
    exact ⟨.sum l, hl, hlts⟩
  · rename_i op behind hfront
    obtain ⟨s, hs, hmid⟩ := of_symbolFront?_eq_some hfront
    obtain ⟨⟨right, after⟩, hright, heq⟩ := Option.map_eq_some_iff.mp h
    cases heq
    have : behind.length < mid.length := length_lt_of_symbolFront? hfront
    obtain ⟨r, hr, hrts⟩ := derived_chain .sum behind hright
    refine ⟨.compared s op hs l r, ?_, ?_⟩
    · rw [Derivation.meaning, hl, hr]
    · rw [Derivation.yield, List.append_assoc, List.cons_append, hrts, ← hmid, hlts]
termination_by (ts.length, 6, 0)

theorem derived_unary (ts : List Token) {e : Expr} {rest : List Token}
    (h : read? (parseUnary ts) = some (e, rest)) :
    ∃ d : Derivation .unary, d.meaning = e ∧ d.yield ++ rest = ts := by
  rw [read?_unary] at h
  split at h
  · obtain ⟨d, hd⟩ := derived_power ts h
    exact ⟨.unsigned d, hd⟩
  · rename_i op behind hfront
    obtain ⟨s, hs, hts⟩ := of_symbolFront?_eq_some hfront
    obtain ⟨⟨operand, after⟩, hoperand, heq⟩ := Option.map_eq_some_iff.mp h
    cases heq
    have := length_lt_of_symbolFront? hfront
    obtain ⟨d, hd, hyield⟩ := derived_unary behind hoperand
    refine ⟨.signed s op hs d, ?_, ?_⟩
    · rw [Derivation.meaning, hd]
    · rw [Derivation.yield, List.cons_append, hyield, hts]
termination_by (ts.length, 3, 0)

theorem derived_power (ts : List Token) {e : Expr} {rest : List Token}
    (h : read? (parsePower ts) = some (e, rest)) :
    ∃ d : Derivation .power, d.meaning = e ∧ d.yield ++ rest = ts := by
  rw [read?_power, Option.bind_eq_some_iff] at h
  obtain ⟨⟨base, mid⟩, hbase, h⟩ := h
  have := length_lt_of_read? hbase
  obtain ⟨b, hb, hbts⟩ := derived_primary ts hbase
  split at h
  · cases h
    exact ⟨.base b, hb, hbts⟩
  · rename_i behind hpower
    have hmid := of_behind?_eq_some hpower
    obtain ⟨⟨exponent, after⟩, hexponent, heq⟩ := Option.map_eq_some_iff.mp h
    cases heq
    have : behind.length < mid.length := length_lt_of_behind? hpower
    obtain ⟨d, hd, hyield⟩ := derived_unary behind hexponent
    refine ⟨.raised b d, ?_, ?_⟩
    · rw [Derivation.meaning, hb, hd]
    · rw [Derivation.yield, List.append_assoc, List.cons_append, hyield, ← hmid, hbts]
termination_by (ts.length, 2, 0)

theorem derived_primary (ts : List Token) {e : Expr} {rest : List Token}
    (h : read? (parsePrimary ts) = some (e, rest)) :
    ∃ d : Derivation .primary, d.meaning = e ∧ d.yield ++ rest = ts := by
  cases ts with
  | nil =>
    rw [read?_primary_nil] at h
    cases h
  | cons t behind =>
    cases t with
    | number x =>
      rw [parsePrimary] at h
      cases h
      exact ⟨.number x, rfl, rfl⟩
    | text s =>
      rw [parsePrimary] at h
      cases h
      exact ⟨.text s, rfl, rfl⟩
    | word name =>
      by_cases hcall : isLiteralWord name = false ∧ ∃ more, behind = .symbol .openParen :: more
      · obtain ⟨hname, more, hbehind⟩ := hcall
        rw [hbehind, read?_builtin hname, ← hbehind] at h
        obtain ⟨⟨args, after⟩, hargs, heq⟩ := Option.map_eq_some_iff.mp h
        cases heq
        obtain ⟨d, hd, hyield⟩ := derived_arguments behind hargs
        refine ⟨.builtin name hname d, ?_, ?_⟩
        · rw [Derivation.meaning, hd]
        · rw [Derivation.yield, List.cons_append, hyield]
      · rw [read?_word fun hname more hmore => hcall ⟨hname, more, hmore⟩] at h
        cases h
        exact ⟨.word name, rfl, rfl⟩
    | reference sigil name =>
      cases sigil with
      | column =>
        rw [parsePrimary] at h
        cases h
        exact ⟨.column name, rfl, rfl⟩
      | environment =>
        rw [parsePrimary] at h
        cases h
        exact ⟨.environment name, rfl, rfl⟩
      | calculated =>
        rw [parsePrimary] at h
        cases h
        exact ⟨.calculated name, rfl, rfl⟩
      | function =>
        rw [read?_call] at h
        obtain ⟨⟨args, after⟩, hargs, heq⟩ := Option.map_eq_some_iff.mp h
        cases heq
        obtain ⟨d, hd, hyield⟩ := derived_arguments behind hargs
        refine ⟨.call name d, ?_, ?_⟩
        · rw [Derivation.meaning, hd]
        · rw [Derivation.yield, List.cons_append, hyield]
    | symbol s =>
      by_cases hs : s = .openParen
      · rw [hs, read?_group, Option.bind_eq_some_iff] at h
        obtain ⟨⟨inner, mid⟩, hinner, h⟩ := h
        obtain ⟨after, hafter, heq⟩ := Option.map_eq_some_iff.mp h
        cases heq
        obtain ⟨d, hd, hyield⟩ := derived_chain .disjunction behind hinner
        refine ⟨.group d, hd, ?_⟩
        rw [Derivation.yield, List.cons_append, List.append_assoc, List.singleton_append,
          ← of_behind?_eq_some hafter, hyield, hs]
      · rw [read?_primary_symbol hs] at h
        cases h
termination_by (ts.length, 1, 0)

theorem derived_arguments (ts : List Token) {es : List Expr} {rest : List Token}
    (h : read? (parseArguments ts) = some (es, rest)) :
    ∃ d : Derivation .arguments, d.meaning = es ∧ d.yield ++ rest = ts := by
  rw [read?_arguments, Option.bind_eq_some_iff] at h
  obtain ⟨behind, hopen, h⟩ := h
  have hts := of_behind?_eq_some hopen
  split at h
  · rename_i after hclose
    cases h
    exact ⟨.noArguments, rfl, by rw [hts, of_behind?_eq_some hclose]; rfl⟩
  · have := length_lt_of_behind? hopen
    obtain ⟨d, hd, hyield⟩ := derived_argumentList behind h
    refine ⟨.listed d, hd, ?_⟩
    rw [Derivation.yield, List.cons_append, List.append_assoc, List.singleton_append, hyield, hts]
termination_by (ts.length, 0, 1)

theorem derived_argumentList (ts : List Token) {es : List Expr} {rest : List Token}
    (h : read? (parseArgumentList ts) = some (es, rest)) :
    ∃ d : Derivation .formulas, d.meaning = es ∧ d.yield ++ .symbol .closeParen :: rest = ts := by
  rw [read?_argumentList, Option.bind_eq_some_iff] at h
  obtain ⟨⟨first, mid⟩, hfirst, h⟩ := h
  have := length_lt_of_read? hfirst
  obtain ⟨f, hf, hfts⟩ := derived_chain .disjunction ts hfirst
  split at h
  · rename_i after hclose
    cases h
    refine ⟨.single f, ?_, ?_⟩
    · rw [Derivation.meaning, hf]
    · rw [Derivation.yield, ← of_behind?_eq_some hclose, hfts]
  · obtain ⟨more, hcomma, h⟩ := Option.bind_eq_some_iff.mp h
    obtain ⟨⟨others, after⟩, hothers, heq⟩ := Option.map_eq_some_iff.mp h
    cases heq
    have hmid := of_behind?_eq_some hcomma
    have : more.length < mid.length := length_lt_of_behind? hcomma
    obtain ⟨d, hd, hyield⟩ := derived_argumentList more hothers
    refine ⟨.comma f d, ?_, ?_⟩
    · rw [Derivation.meaning, hf, hd]
    · rw [Derivation.yield, List.append_assoc, List.cons_append, hyield, ← hmid, hfts]
termination_by (ts.length, 9, 0)

end

theorem derived_formulas (ts : List Token) {es : List Expr} {rest : List Token}
    (h : parseFormulas ts = .ok (es, rest)) :
    ∃ d : Derivation .formulas, d.meaning = es ∧ d.yield ++ rest = ts := by
  have hread : (parseFormulas ts).toOption = some (es, rest) := by rw [h]; rfl
  rw [parseFormulas_eq, Option.bind_eq_some_iff] at hread
  obtain ⟨⟨first, mid⟩, hfirst, hread⟩ := hread
  have := length_lt_of_read? hfirst
  obtain ⟨f, hf, hfts⟩ := derived_chain .disjunction ts hfirst
  split at hread
  · rename_i more hcomma
    obtain ⟨⟨others, after⟩, hothers, heq⟩ := Option.map_eq_some_iff.mp hread
    cases heq
    have : more.length < mid.length := length_lt_of_behind? hcomma
    have hmore : parseFormulas more = .ok (others, after) := by
      cases hp : parseFormulas more with
      | ok p => rw [hp] at hothers; exact congrArg Except.ok (Option.some.inj hothers)
      | error e => rw [hp] at hothers; cases hothers
    obtain ⟨d, hd, hyield⟩ := derived_formulas more hmore
    refine ⟨.comma f d, ?_, ?_⟩
    · rw [Derivation.meaning, hf, hd]
    · rw [Derivation.yield, List.append_assoc, List.cons_append, hyield, ← of_behind?_eq_some hcomma, hfts]
  · cases hread
    refine ⟨.single f, ?_, hfts⟩
    rw [Derivation.meaning, hf]
termination_by ts.length

/-! ## §3 Formulas of rows of tokens -/

namespace Expr

/-- The formulas of a row of tokens are what its derivation means. -/
theorem ofTokens_eq_ok_iff {source : String} {ts : List Token} {es : List Expr} :
    ofTokens source ts = .ok es ↔ ∃ d : Derivation .formulas, d.yield = ts ∧ d.meaning = es := by
  constructor
  · intro h
    unfold ofTokens at h
    split at h
    · cases h
    · split at h
      · cases h
      · rename_i formulas hparse
        cases h
        obtain ⟨d, hd, hyield⟩ := derived_formulas ts hparse
        exact ⟨d, by simpa using hyield, hd⟩
      · cases h
  · rintro ⟨d, rfl, rfl⟩
    obtain ⟨t, rest, hyield, _⟩ := d.exists_yield_eq_cons (by simp)
    have hend : Phrase.formulas.EndsBefore [] := trivial
    have hread : (parseFormulas (d.yield ++ [])).toOption = some (d.meaning, []) := (d.reads hend).1
    rw [List.append_nil] at hread
    have hparse : parseFormulas d.yield = .ok (d.meaning, []) := by
      cases hp : parseFormulas d.yield with
      | ok p => rw [hp] at hread; exact congrArg Except.ok (Option.some.inj hread)
      | error e => rw [hp] at hread; cases hread
    have hfull : d.yield.isEmpty = false := by rw [hyield]; rfl
    rw [ofTokens, hfull, hparse]
    rfl

/-- A row of tokens is read iff the grammar derives the whole of it. The formulas that are read are the
    meaning of its derivation, and there is no other derivation. Every other row is refused. -/
theorem ofTokens_iff_derivation (source : String) (ts : List Token) :
    (∀ es, ofTokens source ts = .ok es ↔
      ∃ d : Derivation .formulas, d.yield = ts ∧ d.meaning = es ∧ ∀ d', d'.yield = ts → d' = d)
    ∧ ((∃ e, ofTokens source ts = .error e) ↔ ∀ d : Derivation .formulas, d.yield ≠ ts) := by
  refine ⟨fun es => ?_, ?_⟩
  · rw [ofTokens_eq_ok_iff]
    constructor
    · rintro ⟨d, hyield, hmeaning⟩
      exact ⟨d, hyield, hmeaning, fun d' hd' => Derivation.unique (hd'.trans hyield.symm)⟩
    · rintro ⟨d, hyield, hmeaning, _⟩
      exact ⟨d, hyield, hmeaning⟩
  · constructor
    · rintro ⟨e, he⟩ d hd
      have hok : ofTokens source ts = .ok d.meaning := ofTokens_eq_ok_iff.2 ⟨d, hd, rfl⟩
      rw [he] at hok
      cases hok
    · intro hnone
      cases h : ofTokens source ts with
      | ok es =>
        obtain ⟨d, hd, _⟩ := ofTokens_eq_ok_iff.1 h
        exact absurd hd (hnone d)
      | error e => exact ⟨e, rfl⟩

/-- The formulas of a text are those of its tokens. -/
theorem parseList_eq_ok_iff {text : String} {es : List Expr} : parseList text = .ok es ↔
    ∃ ts, lex text = .ok ts ∧ ∃ d : Derivation .formulas, d.yield = ts ∧ d.meaning = es := by
  unfold parseList
  cases lex text with
  | error e => simp
  | ok ts => simp only [ofTokens_eq_ok_iff, Except.ok.injEq, exists_eq_left']

example : (ofTokens "" [.symbol .minus, .number 2, .symbol .power, .symbol .minus, .number 3, .symbol .power,
      .number 4]).toOption
    = some [.unary .neg (.binary .pow (.literal (.number 2))
      (.unary .neg (.binary .pow (.literal (.number 3)) (.literal (.number 4)))))] := by
  cbv

end Expr

end BenchPlot
