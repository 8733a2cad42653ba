import BenchPlot.Proofs.Formula.Derivation

/-!
# What the reader of formulas reads

The functions that read formulas return, with what was read and what is left, the fact that something was
taken. Here this fact is left out: for each function one equation says what it reads, in terms of what the
functions below it read.

Main definitions: `Parsed.read?` and `readMore?`. Main statements: the equations from `read?_chain` to
`parseFormulas_eq`.
-/

namespace BenchPlot

/-! ## §1 The front of a row of tokens -/

namespace Token

/-- The value of the symbol in front of a row of tokens, and the row behind it. -/
def symbolFront? {α : Type} (f : Symbol → Option α) : List Token → Option (α × List Token)
  | .symbol s :: rest => (f s).map (·, rest)
  | _ => none

/-- The row behind a wanted symbol. -/
def behind? (wanted : Symbol) : List Token → Option (List Token)
  | .symbol s :: rest => if s = wanted then some rest else none
  | _ => none

theorem symbolFront?_eq_none {α : Type} {f : Symbol → Option α} {ts : List Token}
    (h : ∀ s rest, ts = .symbol s :: rest → f s = none) : symbolFront? f ts = none := by
  unfold symbolFront?
  split
  · rw [h _ _ rfl]
    rfl
  · rfl

theorem symbolFront?_symbol {α : Type} {f : Symbol → Option α} {s : Symbol} {a : α} (h : f s = some a)
    (ts : List Token) : symbolFront? f (.symbol s :: ts) = some (a, ts) := by
  simp [symbolFront?, h]

/-- No symbol of a level stands behind a phrase that ends there. -/

theorem of_symbolFront?_eq_some {α : Type} {f : Symbol → Option α} {ts rest : List Token} {a : α}
    (h : symbolFront? f ts = some (a, rest)) : ∃ s, f s = some a ∧ ts = .symbol s :: rest := by
  unfold symbolFront? at h
  split at h
  · rename_i s us
    obtain ⟨b, hb, heq⟩ := Option.map_eq_some_iff.mp h
    cases heq
    exact ⟨s, hb, rfl⟩
  · cases h

theorem length_lt_of_symbolFront? {α : Type} {f : Symbol → Option α} {ts rest : List Token} {a : α}
    (h : symbolFront? f ts = some (a, rest)) : rest.length < ts.length := by
  obtain ⟨s, _, rfl⟩ := of_symbolFront?_eq_some h
  exact Nat.lt_succ_self _

theorem behind?_symbol (s : Symbol) (ts : List Token) : behind? s (.symbol s :: ts) = some ts :=
  if_pos rfl

theorem behind?_eq_none {s : Symbol} {ts : List Token} (h : ∀ rest, ts ≠ .symbol s :: rest) :
    behind? s ts = none := by
  unfold behind?
  split
  · rename_i r rest
    exact if_neg fun hr => h rest (by rw [hr])
  · rfl

theorem behind?_of_endsBefore {s : Symbol} {p : Phrase} {ts : List Token} (hp : p.EndsBefore ts)
    (hs : s.height ≤ p.height) : behind? s ts = none :=
  behind?_eq_none fun rest hts => by
    rw [hts] at hp
    exact Phrase.not_endsBefore hs hp

theorem of_behind?_eq_some {s : Symbol} {ts rest : List Token} (h : behind? s ts = some rest) :
    ts = .symbol s :: rest := by
  unfold behind? at h
  split at h
  · split at h
    · rename_i hs
      rw [hs, Option.some.inj h]
    · cases h
  · cases h

theorem length_lt_of_behind? {s : Symbol} {ts rest : List Token} (h : behind? s ts = some rest) :
    rest.length < ts.length := by
  rw [of_behind?_eq_some h]
  exact Nat.lt_succ_self _

end Token

open Token (symbolFront? behind?)

/-! ## §2 Readings -/

/-- What was read and what is left, if something was read. -/
def Parsed.read? {α : Type} {ts : List Token} (r : Except FormulaError (Parsed α ts)) :
    Option (α × List Token) :=
  match r with
  | .ok p => some (p.value, p.rest)
  | .error _ => none

open Parsed (read?)

theorem length_lt_of_read? {α : Type} {ts : List Token} {r : Except FormulaError (Parsed α ts)} {a : α}
    {rest : List Token} (h : read? r = some (a, rest)) : rest.length < ts.length := by
  cases r with
  | ok p =>
    cases h
    exact p.shorter
  | error e => cases h

/-- What the operators of a level make of `left`, and what is left. -/
def readMore? (level : Chain) (left : Expr) (ts : List Token) : Option (Expr × List Token) :=
  match parseMore level left ts with
  | .ok r => some r.1
  | .error _ => none

/-! ## §3 Equations -/

theorem read?_chain (level : Chain) (ts : List Token) : read? (parseChain level ts)
    = (read? (parseOperand level ts)).bind fun p => readMore? level p.1 p.2 := by
  rw [parseChain]
  cases parseOperand level ts with
  | error e => rfl
  | ok left =>
    simp only [read?, Option.bind_some, readMore?]
    cases parseMore level left.value left.rest <;> rfl

theorem readMore?_eq (level : Chain) (left : Expr) (ts : List Token) : readMore? level left ts
    = match symbolFront? level.operator? ts with
      | none => some (left, ts)
      | some (op, rest) =>
        (read? (parseOperand level rest)).bind fun p => readMore? level (.binary op left p.1) p.2 := by
  unfold readMore?
  cases ts with
  | nil => rw [parseMore] <;> simp [symbolFront?]
  | cons t rest =>
    cases t with
    | symbol s =>
      rw [parseMore]
      cases hs : level.operator? s with
      | none => simp [symbolFront?, hs]
      | some op =>
        simp only [symbolFront?, hs, Option.map_some]
        cases parseOperand level rest with
        | error e => rfl
        | ok right =>
          simp only [read?, Option.bind_some]
          cases parseMore level (.binary op left right.value) right.rest <;> rfl
    | _ => rw [parseMore] <;> simp [symbolFront?]

theorem read?_comparison (ts : List Token) : read? (parseComparison ts)
    = (read? (parseChain .sum ts)).bind fun p =>
      match symbolFront? comparison? p.2 with
      | none => some p
      | some (op, rest) => (read? (parseChain .sum rest)).map fun q => (.binary op p.1 q.1, q.2) := by
  rw [parseComparison]
  cases parseChain .sum ts with
  | error e => rfl
  | ok left =>
    obtain ⟨value, rest, hshort⟩ := left
    simp only [read?, Option.bind_some]
    cases rest with
    | nil => rfl
    | cons t rest =>
      cases t with
      | symbol s =>
        cases hs : comparison? s with
        | none => simp [symbolFront?, hs]
        | some op =>
          simp only [symbolFront?, hs, Option.map_some]
          cases parseChain .sum rest <;> rfl
      | _ => rfl

theorem read?_unary (ts : List Token) : read? (parseUnary ts)
    = match symbolFront? unary? ts with
      | none => read? (parsePower ts)
      | some (op, rest) => (read? (parseUnary rest)).map fun p => (.unary op p.1, p.2) := by
  cases ts with
  | nil => rw [parseUnary] <;> simp [symbolFront?]
  | cons t rest =>
    cases t with
    | symbol s =>
      rw [parseUnary]
      cases hs : unary? s with
      | none => simp [symbolFront?, hs]
      | some op =>
        simp only [symbolFront?, hs, Option.map_some]
        cases parseUnary rest <;> rfl
    | _ => rw [parseUnary] <;> simp [symbolFront?]

theorem read?_power (ts : List Token) : read? (parsePower ts)
    = (read? (parsePrimary ts)).bind fun p =>
      match behind? .power p.2 with
      | none => some p
      | some rest => (read? (parseUnary rest)).map fun q => (.binary .pow p.1 q.1, q.2) := by
  rw [parsePower]
  cases parsePrimary ts with
  | error e => rfl
  | ok base =>
    obtain ⟨value, rest, hshort⟩ := base
    simp only [read?, Option.bind_some]
    cases rest with
    | nil => rfl
    | cons t rest =>
      cases t with
      | symbol s =>
        cases s with
        | power => cases h : parseUnary rest <;> simp [h, behind?]
        | _ => rfl
      | _ => rfl

theorem read?_call (name : String) (rest : List Token) :
    read? (parsePrimary (.reference .function name :: rest))
      = (read? (parseArguments rest)).map fun p => (.call name p.1, p.2) := by
  rw [parsePrimary]
  cases parseArguments rest <;> rfl

theorem read?_builtin {name : String} (h : isLiteralWord name = false) (rest : List Token) :
    read? (parsePrimary (.word name :: .symbol .openParen :: rest))
      = (read? (parseArguments (.symbol .openParen :: rest))).map fun p => (.builtin name p.1, p.2) := by
  rw [parsePrimary, if_neg (by simp [h])]
  cases parseArguments (.symbol .openParen :: rest) <;> simp [read?]

/-- A word stands for itself where it is a literal, or no parenthesis makes a call of it. -/
theorem read?_word {name : String} {rest : List Token}
    (h : isLiteralWord name = false → ∀ more, rest ≠ .symbol .openParen :: more) :
    read? (parsePrimary (.word name :: rest)) = some (wordExpr name, rest) := by
  cases hname : isLiteralWord name with
  | true =>
    rw [parsePrimary.eq_def]
    dsimp only
    rw [if_pos hname]
    rfl
  | false =>
    rw [parsePrimary.eq_def]
    dsimp only
    rw [if_neg (by simp [hname])]
    cases rest with
    | nil => rfl
    | cons t rest =>
      cases t with
      | symbol s =>
        cases s with
        | openParen => exact absurd rfl (h hname rest)
        | _ => rfl
      | _ => rfl

theorem read?_expectSymbol (wanted : Symbol) (ts : List Token) :
    read? (expectSymbol wanted ts) = (behind? wanted ts).map fun rest => ((), rest) := by
  unfold expectSymbol behind?
  cases ts with
  | nil => rfl
  | cons t rest =>
    cases t with
    | symbol s => by_cases hs : s = wanted <;> simp [hs, read?]
    | _ => rfl

theorem read?_group (rest : List Token) : read? (parsePrimary (.symbol .openParen :: rest))
    = (read? (parseChain .disjunction rest)).bind fun p =>
      (behind? .closeParen p.2).map fun after => (p.1, after) := by
  rw [parsePrimary]
  cases parseChain .disjunction rest with
  | error e => rfl
  | ok inner =>
    simp only [read?, Option.bind_some]
    have hclosing := read?_expectSymbol .closeParen inner.rest
    cases hs : expectSymbol .closeParen inner.rest <;> rw [hs] at hclosing <;>
      cases hb : behind? .closeParen inner.rest <;> simp_all [read?]

theorem read?_primary_symbol {s : Symbol} (hs : s ≠ .openParen) (rest : List Token) :
    read? (parsePrimary (.symbol s :: rest)) = none := by
  rw [parsePrimary]
  · rfl
  all_goals simp [hs]

theorem read?_primary_nil : read? (parsePrimary []) = none := by
  rw [parsePrimary] <;> simp [read?]

theorem read?_arguments (ts : List Token) : read? (parseArguments ts)
    = (behind? .openParen ts).bind fun rest =>
      match behind? .closeParen rest with
      | some after => some ([], after)
      | none => read? (parseArgumentList rest) := by
  rw [parseArguments]
  have hopening := read?_expectSymbol .openParen ts
  cases hs : expectSymbol .openParen ts with
  | error e =>
    rw [hs] at hopening
    cases hb : behind? .openParen ts <;> simp_all [read?]
  | ok opening =>
    rw [hs] at hopening
    obtain ⟨_, rest, hshort⟩ := opening
    have hb : behind? .openParen ts = some rest := by
      cases hb : behind? .openParen ts <;> simp_all [read?]
    rw [hb, Option.bind_some]
    cases rest with
    | nil => 
      dsimp only
      cases parseArgumentList [] <;> rfl
    | cons t rest => 
      cases t with
      | symbol s =>
        cases s with
        | closeParen => rfl
        | _ => 
         dsimp only
         cases parseArgumentList (_ :: rest) <;> rfl
      | _ => 
         dsimp only
         cases parseArgumentList (_ :: rest) <;> rfl

theorem read?_argumentList (ts : List Token) : read? (parseArgumentList ts)
    = (read? (parseChain .disjunction ts)).bind fun p =>
      match behind? .closeParen p.2 with
      | some after => some ([p.1], after)
      | none => (behind? .comma p.2).bind fun more =>
        (read? (parseArgumentList more)).map fun q => (p.1 :: q.1, q.2) := by
  rw [parseArgumentList]
  cases parseChain .disjunction ts with
  | error e => rfl
  | ok first =>
    obtain ⟨value, rest, hshort⟩ := first
    cases rest with
    | nil => rfl
    | cons t rest =>
      cases t with
      | symbol s =>
        cases s with
        | comma =>
          dsimp only [expectSymbol]
          cases h : parseArgumentList rest <;> simp [behind?, read?, h]
        | _ => rfl
      | _ => rfl

theorem parseFormulas_eq (ts : List Token) : (parseFormulas ts).toOption
    = (read? (parseChain .disjunction ts)).bind fun p =>
      match behind? .comma p.2 with
      | some more => (parseFormulas more).toOption.map fun q => (p.1 :: q.1, q.2)
      | none => some ([p.1], p.2) := by
  rw [parseFormulas]
  cases parseChain .disjunction ts with
  | error e => rfl
  | ok first =>
    obtain ⟨value, rest, hshort⟩ := first
    cases rest with
    | nil => rfl
    | cons t rest =>
      cases t with
      | symbol s =>
        cases s with
        | comma =>
          dsimp only
          cases h : parseFormulas rest <;> simp [behind?, read?, h, Except.toOption]
        | _ => rfl
      | _ => rfl

end BenchPlot
