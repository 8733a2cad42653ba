import BenchPlot.Sql.Term
import BenchPlot.Sql.Token

/-!
# Reading terms

A term is read token by token. The reader keeps what is open to the left of the place where it stands:
operators that wait for their right side, open parentheses, and the parts of a range or a list that have
been read. An operator that comes closes those before it that bind at least as tightly; so the levels of
the operators, from the loosest, are

* `OR`, then `AND`, then `NOT`;
* `=`, `<>`, `IS`, `LIKE`, `IN` and `BETWEEN`, each with its negation;
* `<`, `<=`, `>`, `>=`;
* `+` and `-`, then `*`, `/` and `%`, then `||`;
* a sign in front.

A list of members is the disjunction of the comparisons with them, and a range the conjunction of the
comparisons with its ends.

Main definition: `Term.ofLexemes?`.
-/

namespace BenchPlot.Sql

/-- How a name is written. -/
inductive NameForm where
  | bare
  | quoted
  /-- Between double quotes: a text where no column has the name. -/
  | doubleQuoted
  deriving DecidableEq, Repr

/-- A name in a query. Letters of ASCII count in either case. -/
structure Name where
  form : NameForm
  text : String
  deriving DecidableEq, Repr

/-- The words that are operators or literals. -/
inductive Keyword where
  | and
  | or
  | not
  | is
  | isNull
  | notNull
  | null
  | member
  | like
  | between
  deriving DecidableEq, Repr

/-- The keyword that a word is. -/
def Keyword.ofWord? (word : String) : Option Keyword :=
  match Text.asciiUpper word with
  | "AND" => some .and
  | "OR" => some .or
  | "NOT" => some .not
  | "IS" => some .is
  | "ISNULL" => some .isNull
  | "NOTNULL" => some .notNull
  | "NULL" => some .null
  | "IN" => some .member
  | "LIKE" => some .like
  | "BETWEEN" => some .between
  | _ => none

/-! ## §1 Levels -/

/-- The level of negation. -/
def notLevel : Nat := 3

/-- The level of equality, membership and ranges. -/
def equalityLevel : Nat := 4

/-- How tightly an operator between terms binds. -/
def BinaryOp.level : BinaryOp → Nat
  | .or => 1
  | .and => 2
  | .is | .like | .compare .eq | .compare .ne => equalityLevel
  | .compare _ => 5
  | .arithmetic .add | .arithmetic .sub => 6
  | .arithmetic _ => 7
  | .concat => 8

/-- How tightly an operator in front of a term binds. -/
def UnaryOp.level : UnaryOp → Nat
  | .not | .holds => notLevel
  | .neg | .plus => 9

/-- The operator between terms that a symbol is. -/
def Symbol.operator? : Symbol → Option BinaryOp
  | .plus => some (.arithmetic .add)
  | .minus => some (.arithmetic .sub)
  | .star => some (.arithmetic .mul)
  | .slash => some (.arithmetic .div)
  | .percent => some (.arithmetic .rem)
  | .concat => some .concat
  | .equal => some (.compare .eq)
  | .unequal => some (.compare .ne)
  | .less => some (.compare .lt)
  | .lessEqual => some (.compare .le)
  | .greater => some (.compare .gt)
  | .greaterEqual => some (.compare .ge)
  | _ => none

/-- The operator in front of a term that a symbol is. -/
def Symbol.sign? : Symbol → Option UnaryOp
  | .plus => some .plus
  | .minus => some .neg
  | _ => none

/-! ## §2 Putting terms together -/

/-- A term over written names. -/
abbrev WrittenTerm : Type := Term Name

namespace Term

/-- A condition, or its negation. -/
def negatedIf (negated : Bool) (t : WrittenTerm) : WrittenTerm :=
  if negated then .unary .not t else t

/-- The truth value that a term names, if it is the bare name of one. -/
def truthWord? : WrittenTerm → Option Bool
  | .name ⟨.bare, word⟩ =>
    match Text.asciiUpper word with
    | "TRUE" => some true
    | "FALSE" => some false
    | _ => none
  | _ => none

/-- An operator or its negation between two terms. To be a truth value is to hold or to fail. -/
def joined (op : BinaryOp) (negated : Bool) (left right : WrittenTerm) : WrittenTerm :=
  negatedIf negated <|
    match op, truthWord? right with
    | .is, some true => .unary .holds left
    | .is, some false => .unary .holds (.unary .not left)
    | op, _ => .binary op left right

/-- A term between two others, or not. -/
def within (negated : Bool) (value low high : WrittenTerm) : WrittenTerm :=
  negatedIf negated
    (.binary .and (.binary (.compare .ge) value low) (.binary (.compare .le) value high))

/-- A term equal to a member of a list. The affinity of the member does not count. -/
def equalsMember (value member : WrittenTerm) : WrittenTerm :=
  .binary (.compare .eq) value (.unary .plus member)

/-- A list of members with a further one. -/
def orMember (found : Option WrittenTerm) (value member : WrittenTerm) : WrittenTerm :=
  match found with
  | none => equalsMember value member
  | some t => .binary .or t (equalsMember value member)

end Term

/-! ## §3 The reader -/

/-- What is open to the left of a reader. -/
inductive Frame where
  | unary (op : UnaryOp)
  | infixOp (op : BinaryOp) (negated : Bool) (left : WrittenTerm)
  | group
  | above (negated : Bool) (value : WrittenTerm)
  | upTo (negated : Bool) (value low : WrittenTerm)
  | members (negated : Bool) (value : WrittenTerm) (found : Option WrittenTerm)

/-- What a reader has just read: nothing that stands as a term, a term, a term with `NOT` or `IS`
    behind it, or a term whose list of members comes. -/
inductive Expectation where
  | operand
  | operator (t : WrittenTerm)
  | negation (t : WrittenTerm)
  | identity (t : WrittenTerm)
  | list (negated : Bool) (t : WrittenTerm)

/-- A reader of a term. The innermost open part comes first. -/
structure TermReader where
  expects : Expectation
  frames : List Frame

/-- The term that an open part becomes with its right side, if an operator of the level closes it. -/
def Frame.close? (level : Nat) (t : WrittenTerm) : Frame → Option WrittenTerm
  | .unary op => if level < op.level then some (.unary op t) else none
  | .infixOp op negated left => if level ≤ op.level then some (.joined op negated left t) else none
  | .upTo negated value low =>
    if level ≤ equalityLevel then some (.within negated value low t) else none
  | _ => none

/-- A term with the open parts in front of it closed that an operator of the level closes. -/
def closeFrames (level : Nat) (t : WrittenTerm) : List Frame → WrittenTerm × List Frame
  | [] => (t, [])
  | f :: rest =>
    match f.close? level t with
    | some closed => closeFrames level closed rest
    | none => (t, f :: rest)

namespace TermReader

/-- The reader at the start of a term. -/
def start : TermReader := ⟨.operand, []⟩

/-- The reader behind an operator between two terms. -/
def pushInfix (op : BinaryOp) (negated : Bool) (t : WrittenTerm) (frames : List Frame) : TermReader :=
  let (left, rest) := closeFrames op.level t frames
  ⟨.operand, .infixOp op negated left :: rest⟩

/-- The reader behind `AND`, which may belong to a range. -/
def pushAnd (t : WrittenTerm) (frames : List Frame) : TermReader :=
  match closeFrames BinaryOp.and.level t frames with
  -- An open `BETWEEN` takes the first `AND` behind it.
  | (low, .above negated value :: rest) => ⟨.operand, .upTo negated value low :: rest⟩
  | (left, rest) => ⟨.operand, .infixOp .and false left :: rest⟩

/-- The reader behind a closing parenthesis. -/
def closeParen? (t : WrittenTerm) (frames : List Frame) : Option TermReader :=
  match closeFrames 0 t frames with
  | (inner, .group :: rest) => some ⟨.operator inner, rest⟩
  | (member, .members negated value found :: rest) =>
    some ⟨.operator (.negatedIf negated (.orMember found value member)), rest⟩
  | _ => none

/-- The reader behind a comma, which separates members. -/
def nextMember? (t : WrittenTerm) (frames : List Frame) : Option TermReader :=
  match closeFrames 0 t frames with
  | (member, .members negated value found :: rest) =>
    some ⟨.operand, .members negated value (some (.orMember found value member)) :: rest⟩
  | _ => none

/-- The reader behind a symbol where a term is expected. The list without members holds nothing. -/
def stepOperandSymbol? (s : Symbol) (frames : List Frame) : Option TermReader :=
  match s, frames with
  | .openParen, frames => some ⟨.operand, .group :: frames⟩
  | .closeParen, .members negated _ none :: rest =>
    some ⟨.operator (.literal (.integer (if negated then 1 else 0))), rest⟩
  | s, frames => s.sign?.map fun op => ⟨.operand, .unary op :: frames⟩

/-- The reader behind a token where a term is expected. -/
def stepOperand? (l : Lexeme) (frames : List Frame) : Option TermReader :=
  match l with
  | .number d => some ⟨.operator (.literal d), frames⟩
  | .text s => some ⟨.operator (.literal (.text s)), frames⟩
  | .blob bytes => some ⟨.operator (.literal (.blob bytes)), frames⟩
  | .quotedName name mayBeText =>
    some ⟨.operator (.name ⟨if mayBeText then .doubleQuoted else .quoted, name⟩), frames⟩
  | .word word =>
    match Keyword.ofWord? word with
    | none => some ⟨.operator (.name ⟨.bare, word⟩), frames⟩
    | some .null => some ⟨.operator (.literal .null), frames⟩
    | some .not => some ⟨.operand, .unary .not :: frames⟩
    | some _ => none
  | .symbol s => stepOperandSymbol? s frames

/-- The reader behind a keyword that may follow `NOT` as well. -/
def stepRelation? (negated : Bool) (k : Keyword) (t : WrittenTerm) (frames : List Frame) :
    Option TermReader :=
  match k with
  | .member => some ⟨.list negated t, frames⟩
  | .like => some ⟨.operand, .infixOp .like negated t :: frames⟩
  | .between => some ⟨.operand, .above negated t :: frames⟩
  | _ => none

/-- The reader behind a keyword where an operator is expected. -/
def stepKeyword? (k : Keyword) (t : WrittenTerm) (frames : List Frame) : Option TermReader :=
  let (left, rest) := closeFrames equalityLevel t frames
  let isNull (negated : Bool) : WrittenTerm := .negatedIf negated (.binary .is left (.literal .null))
  match k with
  | .and => some (pushAnd t frames)
  | .or => some (pushInfix .or false t frames)
  | .not =>
    -- What binds more tightly than a negation is closed before it is known what is negated.
    let (left, rest) := closeFrames notLevel t frames
    some ⟨.negation left, rest⟩
  | .is => some ⟨.identity left, rest⟩
  | .isNull => some ⟨.operator (isNull false), rest⟩
  | .notNull => some ⟨.operator (isNull true), rest⟩
  | .null => none
  | k => stepRelation? false k left rest

/-- The reader behind a token where an operator is expected. -/
def stepOperator? (l : Lexeme) (t : WrittenTerm) (frames : List Frame) : Option TermReader :=
  match l with
  | .symbol .closeParen => closeParen? t frames
  | .symbol .comma => nextMember? t frames
  | .symbol s => s.operator?.map fun op => pushInfix op false t frames
  | .word word => (Keyword.ofWord? word).bind fun k => stepKeyword? k t frames
  | _ => none

/-- The keyword that a token is. -/
def keyword? : Lexeme → Option Keyword
  | .word word => Keyword.ofWord? word
  | _ => none

/-- The reader behind a further token. -/
def step? (r : TermReader) (l : Lexeme) : Option TermReader :=
  match r.expects with
  | .operand => stepOperand? l r.frames
  | .operator t => stepOperator? l t r.frames
  | .negation t =>
    match keyword? l with
    | some .null => some ⟨.operator (.negatedIf true (.binary .is t (.literal .null))), r.frames⟩
    | some k => stepRelation? true k t r.frames
    | none => none
  | .identity t =>
    -- `IS NOT` is one operator: a negation right behind `IS` belongs to it.
    if keyword? l = some .not then some ⟨.operand, .infixOp .is true t :: r.frames⟩
    else stepOperand? l (.infixOp .is false t :: r.frames)
  | .list negated t =>
    match l with
    | .symbol .openParen => some ⟨.operand, .members negated t none :: r.frames⟩
    | _ => none

/-- The term that has been read, if nothing is open. -/
def finish? (r : TermReader) : Option WrittenTerm :=
  match r.expects with
  | .operator t =>
    match closeFrames 0 t r.frames with
    | (t, []) => some t
    | _ => none
  | _ => none

end TermReader

/-- The term that a row of tokens is. -/
def Term.ofLexemes? (lexemes : List Lexeme) : Option WrittenTerm :=
  (lexemes.foldlM TermReader.step? TermReader.start).bind TermReader.finish?

end BenchPlot.Sql
