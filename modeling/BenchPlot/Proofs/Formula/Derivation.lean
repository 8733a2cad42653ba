import BenchPlot.Formula.Parser

/-!
# The grammar of formulas

The grammar is given by its derivation trees, apart from any reader of it:

* list = or { `,` or };
* or = and { `||` and }; and = comparison { `&&` comparison };
* comparison = sum [ (`==` | `!=` | `<` | `<=` | `>` | `>=`) sum ];
* sum = product { (`+` | `-`) product }; product = unary { (`*` | `/`) unary };
* unary = (`-` | `!`) unary | power; power = primary [ `**` unary ];
* primary = number | text | reference | `&` name arguments | word arguments | word | `(` or `)`;
* arguments = `(` `)` | `(` list `)`, and a word that is a literal has none.

A derivation has a yield, the row of tokens that it derives, and a meaning, the formula that the grammar
assigns to them. A symbol that a phrase would take in may not stand behind it; under this condition a row of
tokens has one derivation only.

Main definitions: `Phrase`, `Derivation`, `Derivation.yield` and `Derivation.meaning`.
Main statement: `Derivation.unique_of_append`.
-/

namespace BenchPlot

/-! ## §1 Phrases -/

/-- The kinds of phrases. A phrase of a level that groups to the left is an operand and, behind it, the
    operators of the level with their operands. -/
inductive Phrase where
  | chain (level : Chain)
  | operand (level : Chain)
  | more (level : Chain)
  | comparison
  | unary
  | power
  | primary
  | arguments
  | formulas
  deriving DecidableEq, Repr

/-- What a phrase means: one formula or several, or what operators make of a formula in front of them. -/
abbrev Phrase.Meaning : Phrase → Type
  | .more _ => Expr → Expr
  | .arguments | .formulas => List Expr
  | _ => Expr

/-- The derivation trees of a phrase. -/
inductive Derivation : Phrase → Type where
  | chain {level : Chain} (first : Derivation (.operand level)) (others : Derivation (.more level)) :
      Derivation (.chain level)
  | conjunction (t : Derivation (.chain .conjunction)) : Derivation (.operand .disjunction)
  | comparison (t : Derivation .comparison) : Derivation (.operand .conjunction)
  | product (t : Derivation (.chain .product)) : Derivation (.operand .sum)
  | unary (t : Derivation .unary) : Derivation (.operand .product)
  | noMore {level : Chain} : Derivation (.more level)
  | more {level : Chain} (s : Symbol) (op : BinaryOp) (hs : level.operator? s = some op)
      (operand : Derivation (.operand level)) (others : Derivation (.more level)) :
      Derivation (.more level)
  | sum (t : Derivation (.chain .sum)) : Derivation .comparison
  | compared (s : Symbol) (op : BinaryOp) (hs : comparison? s = some op)
      (left right : Derivation (.chain .sum)) : Derivation .comparison
  | signed (s : Symbol) (op : UnaryOp) (hs : unary? s = some op) (operand : Derivation .unary) :
      Derivation .unary
  | unsigned (t : Derivation .power) : Derivation .unary
  | base (t : Derivation .primary) : Derivation .power
  | raised (left : Derivation .primary) (exponent : Derivation .unary) : Derivation .power
  | number (x : Float) : Derivation .primary
  | text (s : String) : Derivation .primary
  | column (name : String) : Derivation .primary
  | environment (name : String) : Derivation .primary
  | calculated (name : String) : Derivation .primary
  | word (name : String) : Derivation .primary
  | call (name : String) (args : Derivation .arguments) : Derivation .primary
  | builtin (name : String) (hname : isLiteralWord name = false) (args : Derivation .arguments) :
      Derivation .primary
  | group (inner : Derivation (.chain .disjunction)) : Derivation .primary
  | noArguments : Derivation .arguments
  | listed (list : Derivation .formulas) : Derivation .arguments
  | single (f : Derivation (.chain .disjunction)) : Derivation .formulas
  | comma (first : Derivation (.chain .disjunction)) (others : Derivation .formulas) :
      Derivation .formulas

namespace Derivation

/-- The row of tokens that is derived. -/
def yield {p : Phrase} : Derivation p → List Token
  | .chain first others => first.yield ++ others.yield
  | .conjunction t => t.yield
  | .comparison t => t.yield
  | .product t => t.yield
  | .unary t => t.yield
  | .noMore => []
  | .more s _ _ operand others => .symbol s :: (operand.yield ++ others.yield)
  | .sum t => t.yield
  | .compared s _ _ left right => left.yield ++ .symbol s :: right.yield
  | .signed s _ _ operand => .symbol s :: operand.yield
  | .unsigned t => t.yield
  | .base t => t.yield
  | .raised left exponent => left.yield ++ .symbol .power :: exponent.yield
  | .number x => [.number x]
  | .text s => [.text s]
  | .column name => [.reference .column name]
  | .environment name => [.reference .environment name]
  | .calculated name => [.reference .calculated name]
  | .word name => [.word name]
  | .call name args => .reference .function name :: args.yield
  | .builtin name _ args => .word name :: args.yield
  | .group inner => .symbol .openParen :: (inner.yield ++ [.symbol .closeParen])
  | .noArguments => [.symbol .openParen, .symbol .closeParen]
  | .listed list => .symbol .openParen :: (list.yield ++ [.symbol .closeParen])
  | .single f => f.yield
  | .comma first others => first.yield ++ .symbol .comma :: others.yield

/-- What the grammar assigns to the row of tokens. The operators of a level gather from the left; a power
    takes all of its exponent, and a sign all of the power behind it. -/
def meaning {p : Phrase} : Derivation p → p.Meaning
  | .chain first others => others.meaning first.meaning
  | .conjunction t => t.meaning
  | .comparison t => t.meaning
  | .product t => t.meaning
  | .unary t => t.meaning
  | .noMore => fun left => left
  | .more _ op _ operand others => fun left => others.meaning (.binary op left operand.meaning)
  | .sum t => t.meaning
  | .compared _ op _ left right => Expr.binary op left.meaning right.meaning
  | .signed _ op _ operand => Expr.unary op operand.meaning
  | .unsigned t => t.meaning
  | .base t => t.meaning
  | .raised left exponent => Expr.binary .pow left.meaning exponent.meaning
  | .number x => Expr.literal (.number x)
  | .text s => Expr.literal (.text s)
  | .column name => Expr.column name
  | .environment name => Expr.environment name
  | .calculated name => Expr.calculated name
  | .word name => wordExpr name
  | .call name args => Expr.call name args.meaning
  | .builtin name _ args => Expr.builtin name args.meaning
  | .group inner => inner.meaning
  | .noArguments => ([] : List Expr)
  | .listed list => list.meaning
  | .single f => [f.meaning]
  | .comma first others => List.cons (α := Expr) first.meaning others.meaning

end Derivation

/-! ## §2 What may stand behind a phrase -/

/-- The height of the phrases that take a symbol in behind their first part. An opening parenthesis makes
    a call of a word; some symbols no phrase takes in. -/
def Symbol.height : Symbol → Nat
  | .openParen => 1
  | .power => 2
  | .star | .slash => 4
  | .plus | .minus => 5
  | .equal | .unequal | .less | .lessEqual | .greater | .greaterEqual => 6
  | .and => 7
  | .or => 8
  | .comma => 9
  | .not | .closeParen => 10

/-- The height of a phrase in the grammar: it takes in symbols up to this height. -/
def Phrase.height : Phrase → Nat
  | .chain level | .more level => level.height
  | .operand .disjunction => 7
  | .operand .conjunction => 6
  | .operand .sum => 4
  | .operand .product | .unary | .power => 3
  | .comparison => 6
  | .primary => 1
  | .arguments => 0
  | .formulas => 9

/-- A phrase ends before a row of tokens iff it takes no symbol in from its front. -/
def Phrase.EndsBefore (p : Phrase) : List Token → Prop
  | .symbol s :: _ => p.height < s.height
  | _ => True

theorem Chain.operator?_height {level : Chain} {s : Symbol} {op : BinaryOp}
    (h : level.operator? s = some op) : s.height = level.height := by
  cases level <;> cases s <;> first | rfl | cases h

theorem comparison?_height {s : Symbol} {op : BinaryOp} (h : comparison? s = some op) : s.height = 6 := by
  cases s <;> first | rfl | cases h

theorem Chain.operand_height_lt (level : Chain) : (Phrase.operand level).height < level.height := by
  cases level <;> decide

/-- A phrase that ends before some tokens contains no phrase of less height that would go on. -/
theorem Phrase.EndsBefore.mono {p q : Phrase} {ts : List Token} (h : p.EndsBefore ts)
    (hle : q.height ≤ p.height) : q.EndsBefore ts := by
  unfold EndsBefore at h ⊢
  split
  · exact Nat.lt_of_le_of_lt hle h
  · trivial

theorem Phrase.endsBefore_symbol {p : Phrase} {s : Symbol} {ts : List Token} :
    p.EndsBefore (.symbol s :: ts) ↔ p.height < s.height := Iff.rfl

/-- A phrase does not end before a symbol that it takes in. -/
theorem Phrase.not_endsBefore {p : Phrase} {s : Symbol} {ts : List Token} (h : s.height ≤ p.height) :
    ¬ p.EndsBefore (.symbol s :: ts) :=
  Nat.not_lt.mpr h

/-- A sum ends before a comparison. -/
theorem endsBefore_comparison {s : Symbol} {op : BinaryOp} (h : comparison? s = some op)
    (ts : List Token) : (Phrase.chain .sum).EndsBefore (.symbol s :: ts) :=
  Phrase.endsBefore_symbol.2 (comparison?_height h ▸ by decide)

namespace Derivation

/-- The operators of a level stand behind an operand of it, and so does what may stand behind them. -/
theorem endsBefore_more {level : Chain} (d : Derivation (.more level)) {rest : List Token}
    (h : (Phrase.chain level).EndsBefore rest) :
    (Phrase.operand level).EndsBefore (d.yield ++ rest) := by
  cases d with
  | noMore => exact h.mono (Nat.le_of_lt level.operand_height_lt)
  | more s op hs operand others =>
    exact Phrase.endsBefore_symbol.2 (Chain.operator?_height hs ▸ level.operand_height_lt)

/-! ## §3 Where phrases start -/

/-- The tokens that a formula may start with. -/
def Starts : Token → Prop
  | .symbol s => s = .openParen ∨ (unary? s).isSome
  | _ => True

/-- A formula is not empty, and starts as formulas do. -/
theorem exists_yield_eq_cons {p : Phrase} (d : Derivation p) (hp : ∀ level, p ≠ .more level) :
    ∃ t ts, d.yield = t :: ts ∧ Starts t := by
  induction d with
  | chain first others ih _ =>
    obtain ⟨t, ts, hts, ht⟩ := ih (by simp)
    exact ⟨t, ts ++ others.yield, by simp [yield, hts], ht⟩
  | conjunction t ih | comparison t ih | product t ih | unary t ih | sum t ih | unsigned t ih | base t ih
  | single t ih => exact ih (by simp)
  | noMore => exact absurd rfl (hp _)
  | more => exact absurd rfl (hp _)
  | compared s op hs left right ih _ =>
    obtain ⟨t, ts, hts, ht⟩ := ih (by simp)
    exact ⟨t, ts ++ .symbol s :: right.yield, by simp [yield, hts], ht⟩
  | signed s op hs operand =>
    exact ⟨_, _, rfl, .inr (by simp [hs])⟩
  | raised left exponent ih _ =>
    obtain ⟨t, ts, hts, ht⟩ := ih (by simp)
    exact ⟨t, ts ++ .symbol .power :: exponent.yield, by simp [yield, hts], ht⟩
  | comma first others ih _ =>
    obtain ⟨t, ts, hts, ht⟩ := ih (by simp)
    exact ⟨t, ts ++ .symbol .comma :: others.yield, by simp [yield, hts], ht⟩
  | group | noArguments | listed => exact ⟨_, _, rfl, .inl rfl⟩
  | number | text | column | environment | calculated | word | call | builtin => exact ⟨_, _, rfl, trivial⟩

/-- A power starts with no sign. -/
theorem unary?_of_power_yield (d : Derivation .power) {s : Symbol} {us ts : List Token}
    (h : d.yield ++ us = .symbol s :: ts) : unary? s = none := by
  have hprimary : ∀ {d : Derivation .primary} {us : List Token},
      d.yield ++ us = .symbol s :: ts → unary? s = none := by
    intro d us h
    cases d <;> simp [yield] at h
    simp [← h.1, unary?]
  cases d with
  | base t => exact hprimary h
  | raised left exponent => exact hprimary (by simpa [yield] using h)

/-- Arguments start with a parenthesis. -/
theorem exists_arguments_yield (d : Derivation .arguments) :
    ∃ ts, d.yield = .symbol .openParen :: ts := by
  cases d <;> exact ⟨_, rfl⟩

/-- A formula starts with no closing parenthesis. -/
theorem yield_append_ne_closeParen {p : Phrase} (d : Derivation p) (hp : ∀ level, p ≠ .more level)
    {us ts : List Token} : d.yield ++ us ≠ .symbol .closeParen :: ts := by
  intro h
  obtain ⟨t, rest, hyield, ht⟩ := d.exists_yield_eq_cons hp
  rw [hyield, List.cons_append, List.cons.injEq] at h
  rw [h.1] at ht
  rcases ht with ht | ht <;> cases ht

/-! ## §4 One derivation -/

/-- A row of tokens has one derivation as a phrase of a kind that may end where it ends. -/
theorem unique_of_append {p : Phrase} (d d' : Derivation p) {rest rest' : List Token}
    (hd : p.EndsBefore rest) (hd' : p.EndsBefore rest') (h : d.yield ++ rest = d'.yield ++ rest') :
    d = d' ∧ rest = rest' := by
  induction d generalizing rest rest' with
  | chain first others ihFirst ihOthers =>
    cases d' with
    | chain first' others' =>
      simp only [yield, List.append_assoc] at h
      obtain ⟨rfl, htail⟩ := ihFirst first' (others.endsBefore_more hd) (others'.endsBefore_more hd') h
      obtain ⟨rfl, hrest⟩ := ihOthers others' hd hd' htail
      exact ⟨rfl, hrest⟩
  | conjunction t ih | comparison t ih | product t ih | unary t ih =>
    cases d'
    obtain ⟨rfl, hrest⟩ := ih _ (hd.mono (by decide)) (hd'.mono (by decide)) h
    exact ⟨rfl, hrest⟩
  | noMore =>
    cases d' with
    | noMore => exact ⟨rfl, h⟩
    | more s op hs operand others =>
      -- The operator would have been taken in.
      simp only [yield, List.nil_append, List.cons_append] at h
      rw [h] at hd
      exact absurd hd (Phrase.not_endsBefore (Nat.le_of_eq (Chain.operator?_height hs)))
  | more s op hs operand others ihOperand ihOthers =>
    cases d' with
    | noMore =>
      simp only [yield, List.nil_append, List.cons_append] at h
      rw [← h] at hd'
      exact absurd hd' (Phrase.not_endsBefore (Nat.le_of_eq (Chain.operator?_height hs)))
    | more s' op' hs' operand' others' =>
      simp only [yield, List.cons_append, List.cons.injEq, Token.symbol.injEq, List.append_assoc] at h
      obtain ⟨rfl, h⟩ := h
      obtain rfl : op = op' := Option.some.inj (hs.symm.trans hs')
      obtain ⟨rfl, htail⟩ := ihOperand operand' (others.endsBefore_more hd) (others'.endsBefore_more hd') h
      obtain ⟨rfl, hrest⟩ := ihOthers others' hd hd' htail
      exact ⟨rfl, hrest⟩
  | sum t ih =>
    cases d' with
    | sum t' =>
      obtain ⟨rfl, hrest⟩ := ih t' (hd.mono (by decide)) (hd'.mono (by decide)) h
      exact ⟨rfl, hrest⟩
    | compared s op hs left right =>
      simp only [yield, List.append_assoc, List.cons_append] at h
      obtain ⟨_, hrest⟩ := ih left (hd.mono (by decide)) (endsBefore_comparison hs _) h
      rw [hrest] at hd
      exact absurd hd (Phrase.not_endsBefore (Nat.le_of_eq (comparison?_height hs)))
  | compared s op hs left right ihLeft ihRight =>
    cases d' with
    | sum t =>
      simp only [yield, List.append_assoc, List.cons_append] at h
      obtain ⟨_, hrest⟩ := ihLeft t (endsBefore_comparison hs _) (hd'.mono (by decide)) h
      rw [← hrest] at hd'
      exact absurd hd' (Phrase.not_endsBefore (Nat.le_of_eq (comparison?_height hs)))
    | compared s' op' hs' left' right' =>
      simp only [yield, List.append_assoc, List.cons_append] at h
      obtain ⟨rfl, htail⟩ := ihLeft left' (endsBefore_comparison hs _) (endsBefore_comparison hs' _) h
      simp only [List.cons.injEq, Token.symbol.injEq] at htail
      obtain ⟨rfl, htail⟩ := htail
      obtain rfl : op = op' := Option.some.inj (hs.symm.trans hs')
      obtain ⟨rfl, hrest⟩ := ihRight right' (hd.mono (by decide)) (hd'.mono (by decide)) htail
      exact ⟨rfl, hrest⟩
  | signed s op hs operand ih =>
    cases d' with
    | signed s' op' hs' operand' =>
      simp only [yield, List.cons_append, List.cons.injEq, Token.symbol.injEq] at h
      obtain ⟨rfl, h⟩ := h
      obtain rfl : op = op' := Option.some.inj (hs.symm.trans hs')
      obtain ⟨rfl, hrest⟩ := ih operand' hd hd' h
      exact ⟨rfl, hrest⟩
    | unsigned t =>
      have hnone := unary?_of_power_yield t h.symm
      rw [hs] at hnone
      cases hnone
  | unsigned t ih =>
    cases d' with
    | signed s op hs operand =>
      have hnone := unary?_of_power_yield t h
      rw [hs] at hnone
      cases hnone
    | unsigned t' =>
      obtain ⟨rfl, hrest⟩ := ih t' (hd.mono (by decide)) (hd'.mono (by decide)) h
      exact ⟨rfl, hrest⟩
  | base t ih =>
    cases d' with
    | base t' =>
      obtain ⟨rfl, hrest⟩ := ih t' (hd.mono (by decide)) (hd'.mono (by decide)) h
      exact ⟨rfl, hrest⟩
    | raised left exponent =>
      simp only [yield, List.append_assoc, List.cons_append] at h
      obtain ⟨_, hrest⟩ := ih left (hd.mono (by decide)) (Phrase.endsBefore_symbol.2 (by decide)) h
      rw [hrest] at hd
      exact absurd hd (Phrase.not_endsBefore (by decide))
  | raised left exponent ihLeft ihExponent =>
    cases d' with
    | base t =>
      simp only [yield, List.append_assoc, List.cons_append] at h
      obtain ⟨_, hrest⟩ := ihLeft t (Phrase.endsBefore_symbol.2 (by decide)) (hd'.mono (by decide)) h
      rw [← hrest] at hd'
      exact absurd hd' (Phrase.not_endsBefore (by decide))
    | raised left' exponent' =>
      simp only [yield, List.append_assoc, List.cons_append] at h
      obtain ⟨rfl, htail⟩ := ihLeft left' (Phrase.endsBefore_symbol.2 (by decide))
        (Phrase.endsBefore_symbol.2 (by decide)) h
      obtain ⟨rfl, hrest⟩ := ihExponent exponent' (hd.mono (by decide)) (hd'.mono (by decide))
        (List.cons.inj htail).2
      exact ⟨rfl, hrest⟩
  | number | text | column | environment | calculated => cases d' <;> simp_all [yield]
  | word name =>
    cases d' with
    | builtin name' hname args =>
      -- A parenthesis behind a word makes a call of it.
      simp only [yield, List.cons_append, List.nil_append, List.cons.injEq] at h
      obtain ⟨ts, hts⟩ := args.exists_arguments_yield
      rw [h.2, hts] at hd
      exact absurd hd (Phrase.not_endsBefore (by decide))
    | _ => simp_all [yield]
  | call name args ih =>
    cases d' with
    | call name' args' =>
      simp only [yield, List.cons_append, List.cons.injEq, Token.reference.injEq, true_and] at h
      obtain ⟨rfl, h⟩ := h
      obtain ⟨rfl, hrest⟩ := ih args' (hd.mono (by decide)) (hd'.mono (by decide)) h
      exact ⟨rfl, hrest⟩
    | _ => simp [yield] at h
  | builtin name hname args ih =>
    cases d' with
    | word name' =>
      simp only [yield, List.cons_append, List.nil_append, List.cons.injEq] at h
      obtain ⟨ts, hts⟩ := args.exists_arguments_yield
      rw [← h.2, hts] at hd'
      exact absurd hd' (Phrase.not_endsBefore (by decide))
    | builtin name' hname' args' =>
      simp only [yield, List.cons_append, List.cons.injEq, Token.word.injEq] at h
      obtain ⟨rfl, h⟩ := h
      obtain ⟨rfl, hrest⟩ := ih args' (hd.mono (by decide)) (hd'.mono (by decide)) h
      exact ⟨rfl, hrest⟩
    | _ => simp [yield] at h
  | group inner ih =>
    cases d' with
    | group inner' =>
      simp only [yield, List.cons_append, List.append_assoc, List.nil_append, List.cons.injEq] at h
      obtain ⟨rfl, htail⟩ := ih inner' (Phrase.endsBefore_symbol.2 (by decide))
        (Phrase.endsBefore_symbol.2 (by decide)) h.2
      exact ⟨rfl, (List.cons.inj htail).2⟩
    | _ => simp [yield] at h
  | noArguments =>
    cases d' with
    | noArguments => exact ⟨rfl, by simpa [yield] using h⟩
    | listed list =>
      exact absurd (by simpa [yield] using h.symm) (list.yield_append_ne_closeParen (by simp))
  | listed list ih =>
    cases d' with
    | noArguments =>
      exact absurd (by simpa [yield] using h) (list.yield_append_ne_closeParen (by simp))
    | listed list' =>
      simp only [yield, List.cons_append, List.append_assoc, List.nil_append, List.cons.injEq] at h
      obtain ⟨rfl, htail⟩ := ih list' (Phrase.endsBefore_symbol.2 (by decide))
        (Phrase.endsBefore_symbol.2 (by decide)) h.2
      exact ⟨rfl, (List.cons.inj htail).2⟩
  | single f ih =>
    cases d' with
    | single f' =>
      obtain ⟨rfl, hrest⟩ := ih f' (hd.mono (by decide)) (hd'.mono (by decide)) h
      exact ⟨rfl, hrest⟩
    | comma first others =>
      simp only [yield, List.append_assoc, List.cons_append] at h
      obtain ⟨_, hrest⟩ := ih first (hd.mono (by decide)) (Phrase.endsBefore_symbol.2 (by decide)) h
      rw [hrest] at hd
      exact absurd hd (Phrase.not_endsBefore (by decide))
  | comma first others ihFirst ihOthers =>
    cases d' with
    | single f =>
      simp only [yield, List.append_assoc, List.cons_append] at h
      obtain ⟨_, hrest⟩ := ihFirst f (Phrase.endsBefore_symbol.2 (by decide)) (hd'.mono (by decide)) h
      rw [← hrest] at hd'
      exact absurd hd' (Phrase.not_endsBefore (by decide))
    | comma first' others' =>
      simp only [yield, List.append_assoc, List.cons_append] at h
      obtain ⟨rfl, htail⟩ := ihFirst first' (Phrase.endsBefore_symbol.2 (by decide))
        (Phrase.endsBefore_symbol.2 (by decide)) h
      obtain ⟨rfl, hrest⟩ := ihOthers others' hd hd' (List.cons.inj htail).2
      exact ⟨rfl, hrest⟩

/-- A row of tokens has one derivation as a phrase of a kind. -/
theorem unique {p : Phrase} {d d' : Derivation p} (h : d.yield = d'.yield) : d = d' :=
  have hend : p.EndsBefore [] := trivial
  have hyields : d.yield ++ [] = d'.yield ++ [] := by rw [h]
  (unique_of_append d d' hend hend hyields).1

end Derivation

end BenchPlot
