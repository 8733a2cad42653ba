import BenchPlot.Formula.Expr
import BenchPlot.Formula.Lexer

/-!
# Reading formulas

The grammar of formulas, from the loosest operator to the tightest:

* a list is `or` formulas with commas between them;
* `||`, then `&&`, both grouping to the left;
* one comparison, which does not chain;
* `+` and `-`, then `*` and `/`, grouping to the left;
* a sign or a negation in front;
* `**`, whose right operand may have a sign, grouping to the right;
* literals, references, calls and formulas between parentheses.

Each function reads from the front of a row of tokens and returns what is left, together with the
fact that something was taken; so reading ends on every row of tokens.
-/

namespace BenchPlot

/-- Something read from the front of `ts`, and what is left, which is shorter. -/
structure Parsed (α : Type) (ts : List Token) where
  value : α
  rest : List Token
  shorter : rest.length < ts.length

/-- Something read from the front of a tail of `ts` is read from `ts`. -/
def Parsed.widen {α : Type} {ts us : List Token} (p : Parsed α us) (h : us.length ≤ ts.length) :
    Parsed α ts :=
  ⟨p.value, p.rest, Nat.lt_of_lt_of_le p.shorter h⟩

/-- The levels of operators that group to the left. -/
inductive Chain where
  | disjunction
  | conjunction
  | sum
  | product
  deriving DecidableEq, Repr

/-- The operator that a symbol is on a level. -/
def Chain.operator? : Chain → Symbol → Option BinaryOp
  | .disjunction, .or => some .or
  | .conjunction, .and => some .and
  | .sum, .plus => some .add
  | .sum, .minus => some .sub
  | .product, .star => some .mul
  | .product, .slash => some .div
  | _, _ => none

/-- The height of a level in the grammar. -/
@[simp]
def Chain.height : Chain → Nat
  | .disjunction => 8
  | .conjunction => 7
  | .sum => 5
  | .product => 4

/-- The comparison that a symbol is. -/
def comparison? : Symbol → Option BinaryOp
  | .equal => some .eq
  | .unequal => some .ne
  | .less => some .lt
  | .lessEqual => some .le
  | .greater => some .gt
  | .greaterEqual => some .ge
  | _ => none

/-- The operator that a symbol is in front of an operand. -/
def unary? : Symbol → Option UnaryOp
  | .minus => some .neg
  | .not => some .not
  | _ => none

/-- The literal that a word is, or the identifier. -/
def wordExpr (name : String) : Expr :=
  if name = "true" then .literal (.bool true)
  else if name = "false" then .literal (.bool false)
  else if name = "null" then .literal .null
  else .parameter name

/-- Whether a word is the name of a literal, and so never of a function. -/
def isLiteralWord (name : String) : Bool :=
  name = "true" || name = "false" || name = "null"

/-- The row behind a wanted symbol. -/
def expectSymbol (wanted : Symbol) (ts : List Token) : Except FormulaError (Parsed Unit ts) :=
  match ts with
  | .symbol s :: rest =>
    if s = wanted then .ok ⟨(), rest, by simp⟩
    else .error (.malformed (.expected wanted (some (.symbol s))))
  | ts => .error (.malformed (.expected wanted ts.head?))

mutual

/-- A formula of a level that groups to the left. -/
def parseChain (level : Chain) (ts : List Token) : Except FormulaError (Parsed Expr ts) :=
  match parseOperand level ts with
  | .error e => .error e
  | .ok left =>
    have := left.shorter
    match parseMore level left.value left.rest with
    | .error e => .error e
    | .ok more => .ok ⟨more.1.1, more.1.2, Nat.lt_of_le_of_lt more.2 left.shorter⟩
termination_by (ts.length, level.height, 1)

/-- An operand of a level that groups to the left. -/
def parseOperand (level : Chain) (ts : List Token) : Except FormulaError (Parsed Expr ts) :=
  match level with
  | .disjunction => parseChain .conjunction ts
  | .conjunction => parseComparison ts
  | .sum => parseChain .product ts
  | .product => parseUnary ts
termination_by (ts.length, level.height, 0)

/-- The operators of a level that follow its first operand `left`, with their operands. -/
def parseMore (level : Chain) (left : Expr) (ts : List Token) :
    Except FormulaError { r : Expr × List Token // r.2.length ≤ ts.length } :=
  match ts with
  | .symbol s :: rest =>
    match level.operator? s with
    | none => .ok ⟨(left, .symbol s :: rest), Nat.le_refl _⟩
    | some op =>
      match parseOperand level rest with
      | .error e => .error e
      | .ok right =>
        have := right.shorter
        match parseMore level (.binary op left right.value) right.rest with
        | .error e => .error e
        | .ok more => .ok ⟨more.1, by have := more.2; simp only [List.length_cons]; omega⟩
  | ts => .ok ⟨(left, ts), Nat.le_refl _⟩
termination_by (ts.length, 0, 0)

/-- A sum, or a comparison of two sums. -/
def parseComparison (ts : List Token) : Except FormulaError (Parsed Expr ts) :=
  match parseChain .sum ts with
  | .error e => .error e
  | .ok left =>
    have hLeft := left.shorter
    match hRest : left.rest with
    | .symbol s :: rest =>
      have hLength : rest.length < ts.length := by rw [hRest, List.length_cons] at hLeft; omega
      match comparison? s with
      | none => .ok left
      | some op =>
        -- Comparisons do not chain: a second one is left over, and refused where the text ends.
        match parseChain .sum rest with
        | .error e => .error e
        | .ok right =>
          .ok ⟨.binary op left.value right.value, right.rest, Nat.lt_trans right.shorter hLength⟩
    | _ => .ok left
termination_by (ts.length, 6, 0)

/-- A formula with operators in front, or a power. -/
def parseUnary (ts : List Token) : Except FormulaError (Parsed Expr ts) :=
  match ts with
  | .symbol s :: rest =>
    match unary? s with
    | none => parsePower (.symbol s :: rest)
    | some op =>
      match parseUnary rest with
      | .error e => .error e
      | .ok operand =>
        .ok ⟨.unary op operand.value, operand.rest, Nat.lt_succ_of_lt operand.shorter⟩
  | ts => parsePower ts
termination_by (ts.length, 3, 0)

/-- A primary formula, or a power of one. -/
def parsePower (ts : List Token) : Except FormulaError (Parsed Expr ts) :=
  match parsePrimary ts with
  | .error e => .error e
  | .ok base =>
    have hBase := base.shorter
    match hRest : base.rest with
    | .symbol .power :: rest =>
      have hLength : rest.length < ts.length := by rw [hRest, List.length_cons] at hBase; omega
      match parseUnary rest with
      | .error e => .error e
      -- The exponent is itself a power, which is why powers group to the right.
      | .ok exponent =>
        .ok ⟨.binary .pow base.value exponent.value, exponent.rest,
          Nat.lt_trans exponent.shorter hLength⟩
    | _ => .ok base
termination_by (ts.length, 2, 0)

/-- A literal, a reference, a call, or a formula between parentheses. -/
def parsePrimary (ts : List Token) : Except FormulaError (Parsed Expr ts) :=
  match ts with
  | .number x :: rest => .ok ⟨.literal (.number x), rest, by simp⟩
  | .text s :: rest => .ok ⟨.literal (.text s), rest, by simp⟩
  | .reference .column name :: rest => .ok ⟨.column name, rest, by simp⟩
  | .reference .environment name :: rest => .ok ⟨.environment name, rest, by simp⟩
  | .reference .calculated name :: rest => .ok ⟨.calculated name, rest, by simp⟩
  | .reference .function name :: rest =>
    match parseArguments rest with
    | .error e => .error e
    | .ok args => .ok ⟨.call name args.value, args.rest, Nat.lt_succ_of_lt args.shorter⟩
  | .word name :: rest =>
    -- A literal is never called, so a parenthesis behind one is left over.
    if isLiteralWord name then .ok ⟨wordExpr name, rest, by simp⟩
    else
      match rest with
      | .symbol .openParen :: more =>
        match parseArguments (.symbol .openParen :: more) with
        | .error e => .error e
        | .ok args => .ok ⟨.builtin name args.value, args.rest, Nat.lt_succ_of_lt args.shorter⟩
      | rest => .ok ⟨wordExpr name, rest, by simp⟩
  | .symbol .openParen :: rest =>
    match parseChain .disjunction rest with
    | .error e => .error e
    | .ok inner =>
      match expectSymbol .closeParen inner.rest with
      | .error e => .error e
      | .ok closing =>
        .ok ⟨inner.value, closing.rest,
          Nat.lt_succ_of_lt (Nat.lt_trans closing.shorter inner.shorter)⟩
  | ts => .error (.malformed (.expectedValue ts.head?))
termination_by (ts.length, 1, 0)

/-- The arguments of a call, between parentheses. -/
def parseArguments (ts : List Token) : Except FormulaError (Parsed (List Expr) ts) :=
  match expectSymbol .openParen ts with
  | .error e => .error e
  | .ok opening =>
    have hOpening := opening.shorter
    match hRest : opening.rest with
    | .symbol .closeParen :: after =>
      .ok ⟨[], after, by rw [hRest, List.length_cons] at hOpening; omega⟩
    | _ =>
      match parseArgumentList opening.rest with
      | .error e => .error e
      | .ok args => .ok (args.widen (Nat.le_of_lt hOpening))
termination_by (ts.length, 0, 1)

/-- One argument or more, up to the closing parenthesis. -/
def parseArgumentList (ts : List Token) : Except FormulaError (Parsed (List Expr) ts) :=
  match parseChain .disjunction ts with
  | .error e => .error e
  | .ok first =>
    have hFirst := first.shorter
    match hRest : first.rest with
    | .symbol .closeParen :: after =>
      .ok ⟨[first.value], after, by rw [hRest, List.length_cons] at hFirst; omega⟩
    | _ =>
      match expectSymbol .comma first.rest with
      | .error e => .error e
      | .ok comma =>
        have hComma := Nat.lt_trans comma.shorter hFirst
        match parseArgumentList comma.rest with
        | .error e => .error e
        | .ok others => .ok ⟨first.value :: others.value, others.rest, Nat.lt_trans others.shorter hComma⟩
termination_by (ts.length, 9, 0)

end

/-- Formulas with commas between them, and the tokens behind them. -/
def parseFormulas (ts : List Token) : Except FormulaError (List Expr × List Token) :=
  match parseChain .disjunction ts with
  | .error e => .error e
  | .ok first =>
    have hFirst := first.shorter
    match hRest : first.rest with
    | .symbol .comma :: more =>
      have : more.length < ts.length := by rw [hRest, List.length_cons] at hFirst; omega
      match parseFormulas more with
      | .error e => .error e
      | .ok (others, after) => .ok (first.value :: others, after)
    | rest => .ok ([first.value], rest)
termination_by ts.length

namespace Expr

/-- The formulas that a whole row of tokens is. The text is the one that messages name. -/
def ofTokens (source : String) (ts : List Token) : Except FormulaError (List Expr) :=
  if ts.isEmpty then .error (.malformed .noFormula)
  else
    match parseFormulas ts with
    | .error e => .error e
    | .ok (formulas, []) => .ok formulas
    | .ok (_, t :: _) => .error (.malformed (.leftover t source))

/-- The formulas of a text, with commas between them. -/
def parseList (source : String) : Except FormulaError (List Expr) :=
  match lex source with
  | .error e => .error e
  | .ok ts => ofTokens source ts

/-- The formula that a text is. -/
def parse (source : String) : Except FormulaError Expr :=
  match parseList source with
  | .error e => .error e
  | .ok [e] => .ok e
  | .ok _ => .error (.malformed (.notSingle source))

end Expr

end BenchPlot
