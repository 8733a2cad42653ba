import BenchPlot.Sql.Grammar

/-!
# Statements

The statements that a store answers: a selection of rows of one table, or of none; the change of rows;
and their removal. A statement is cut into its clauses at the keywords that stand outside of
parentheses, and each clause into its items at the commas.

Main definitions: `Statement.parse?`, and `Selection.parse?` for the part of a statement behind
`WHERE`.
-/

namespace BenchPlot.Sql

/-- A term by which rows are put in order. -/
structure OrderKey where
  term : WrittenTerm
  descending : Bool

/-- Which rows are taken, and in which order. -/
structure Selection where
  condition : Option WrittenTerm
  order : List OrderKey

/-- What a column of a result shows: all columns of the table, the number of rows, or a term. -/
inductive Output where
  | all
  | count
  | term (t : WrittenTerm)

/-- A column of a result: the name that was given to it, if any, and the text that it was written
    as. -/
structure ResultColumn where
  output : Output
  given : Option String
  text : String

/-- A statement. -/
inductive Statement where
  | select (distinct : Bool) (columns : List ResultColumn) (source : Option String)
      (selection : Selection)
  | update (table : String) (changes : List (String × WrittenTerm)) (condition : Option WrittenTerm)
  | delete (table : String) (condition : Option WrittenTerm)

/-! ## §1 Cutting rows of tokens -/

/-- The number of open parentheses behind a token. -/
def depthAfter (depth : Nat) (t : Token) : Nat :=
  if t.isSymbol .openParen then depth + 1
  else if t.isSymbol .closeParen then depth - 1
  else depth

/-- The tokens before and behind the first token outside of parentheses that satisfies `p`. -/
def cutWhere? (p : Token → Bool) (depth : Nat) : List Token → Option (List Token × List Token)
  | [] => none
  | t :: rest =>
    if depth = 0 && p t then some ([], rest)
    else (cutWhere? p (depthAfter depth t) rest).map fun r => (t :: r.1, r.2)

/-- The tokens before a clause, and those of the clause if it is there. -/
def cutClause (word : String) (ts : List Token) : List Token × Option (List Token) :=
  match cutWhere? (Token.isWord word) 0 ts with
  | some (before, after) => (before, some after)
  | none => (ts, none)

/-- The items between the commas outside of parentheses. There is always at least one item. -/
def splitItems (depth : Nat) : List Token → List (List Token)
  | [] => [[]]
  | t :: rest =>
    if depth = 0 && t.isSymbol .comma then [] :: splitItems depth rest
    else
      match splitItems (depthAfter depth t) rest with
      | [] => [[t]]
      | item :: items => (t :: item) :: items

/-- The tokens of a statement, which semicolons may follow. -/
def withoutSemicolons? (ts : List Token) : Option (List Token) :=
  let body := ts.takeWhile fun t => !t.isSymbol .semicolon
  if (ts.dropWhile fun t => !t.isSymbol .semicolon).all (Token.isSymbol .semicolon) then some body
  else none

/-! ## §2 Clauses -/

/-- The words that never are names. -/
def reservedWords : List String :=
  ["ALL", "AND", "AS", "BETWEEN", "DELETE", "DISTINCT", "FROM", "GROUP", "HAVING", "IN", "IS", "ISNULL",
    "LIKE", "LIMIT", "NOT", "NOTNULL", "NULL", "OR", "ORDER", "SELECT", "SET", "UNION", "UPDATE", "WHERE"]

/-- The name that a token is where no term can stand. -/
def Token.name? (t : Token) : Option String :=
  match t.lexeme with
  | .word word => if reservedWords.contains (Text.asciiUpper word) then none else some word
  | .quotedName name _ => some name
  | .text s => some s
  | _ => none

/-- The term that a row of tokens is. -/
def termOf? (ts : List Token) : Option WrittenTerm :=
  Term.ofLexemes? (ts.map Token.lexeme)

/-- The condition of a clause, if there is one. -/
def conditionOf? : Option (List Token) → Option (Option WrittenTerm)
  | none => some none
  | some ts => (termOf? ts).map some

/-- The order key that a row of tokens is. -/
def orderKey? (ts : List Token) : Option OrderKey :=
  match ts.getLast? with
  | none => none
  | some t =>
    if t.isWord "DESC" then (termOf? ts.dropLast).map (OrderKey.mk · true)
    else if t.isWord "ASC" then (termOf? ts.dropLast).map (OrderKey.mk · false)
    else (termOf? ts).map (OrderKey.mk · false)

/-- The order of a clause, if there is one. -/
def orderOf? : Option (List Token) → Option (List OrderKey)
  | none => some []
  | some [] => none
  | some (t :: ts) => if t.isWord "BY" then (splitItems 0 ts).mapM orderKey? else none

/-- The condition and the order that stand behind `WHERE`. -/
def Selection.ofTokens? (ts : List Token) : Option Selection :=
  let (condition, order) := cutClause "ORDER" ts
  match termOf? condition, orderOf? order with
  | some condition, some order => some ⟨some condition, order⟩
  | _, _ => none

/-- The selection that a text behind `WHERE` is. -/
def Selection.parse? (text : String) : Option Selection :=
  ((Token.scan? text).bind withoutSemicolons?).bind Selection.ofTokens?

/-! ## §3 Results -/

/-- Whether a row of tokens asks for the number of rows. The star may be left out. -/
def isCount (ts : List Token) : Bool :=
  match ts with
  | name :: left :: rest =>
    name.isWord "COUNT" && left.isSymbol .openParen &&
      match rest with
      | [right] => right.isSymbol .closeParen
      | [star, right] => star.isSymbol .star && right.isSymbol .closeParen
      | _ => false
  | _ => false

/-- What a row of tokens without a name for the result asks for. -/
def outputOf? (ts : List Token) : Option Output :=
  match ts with
  | [t] => if t.isSymbol .star then some .all else (termOf? [t]).map .term
  | ts => if isCount ts then some .count else (termOf? ts).map .term

/-- The tokens of a result column without its name, and the name, if one is given at the end. -/
def cutGiven (ts : List Token) : List Token × Option String :=
  match ts.reverse with
  | last :: before :: rest =>
    match last.name? with
    | none => (ts, none)
    | some name =>
      if before.isWord "AS" then (rest.reverse, some name)
      -- Without `AS` the last name may belong to the term itself.
      else if (termOf? ts).isSome then (ts, none)
      else ((before :: rest).reverse, some name)
  | _ => (ts, none)

/-- The result column that a row of tokens is. -/
def resultColumn? (ts : List Token) : Option ResultColumn :=
  let (body, given) := cutGiven ts
  match outputOf? body, given with
  | some .all, some _ => none
  | some output, given => some ⟨output, given, Token.spanText body⟩
  | none, _ => none

/-- Whether only distinct rows are asked for, and the tokens behind the word that says so. -/
def cutDistinct (ts : List Token) : Bool × List Token :=
  match ts with
  | t :: rest =>
    if t.isWord "DISTINCT" then (true, rest)
    else if t.isWord "ALL" then (false, rest)
    else (false, ts)
  | [] => (false, [])

/-- The table of a clause, if there is one. A further name for it changes nothing. -/
def sourceOf? : Option (List Token) → Option (Option String)
  | none => some none
  | some (t :: further) =>
    let named :=
      match further with
      | [] => true
      | [a] => a.name?.isSome
      | [as, a] => as.isWord "AS" && a.name?.isSome
      | _ => false
    if named then t.name?.map some else none
  | some [] => none

/-! ## §4 Statements -/

/-- The selection whose tokens stand behind `SELECT`. -/
def selectOf? (ts : List Token) : Option Statement :=
  let (distinct, ts) := cutDistinct ts
  let (ts, order) := cutClause "ORDER" ts
  let (ts, condition) := cutClause "WHERE" ts
  let (ts, source) := cutClause "FROM" ts
  match (splitItems 0 ts).mapM resultColumn?, sourceOf? source, conditionOf? condition, orderOf? order with
  | some columns, some source, some condition, some order =>
    some (.select distinct columns source ⟨condition, order⟩)
  | _, _, _, _ => none

/-- The change of a column that a row of tokens is. -/
def changeOf? (ts : List Token) : Option (String × WrittenTerm) :=
  match ts with
  | name :: sign :: rest =>
    if sign.isSymbol .equal then
      match name.name?, termOf? rest with
      | some name, some t => some (name, t)
      | _, _ => none
    else none
  | _ => none

/-- The change of rows whose tokens stand behind `UPDATE`. -/
def updateOf? (ts : List Token) : Option Statement :=
  let (ts, condition) := cutClause "WHERE" ts
  match ts with
  | table :: set :: rest =>
    if set.isWord "SET" then
      match table.name?, (splitItems 0 rest).mapM changeOf?, conditionOf? condition with
      | some table, some changes, some condition => some (.update table changes condition)
      | _, _, _ => none
    else none
  | _ => none

/-- The removal of rows whose tokens stand behind `DELETE`. -/
def deleteOf? (ts : List Token) : Option Statement :=
  let (ts, condition) := cutClause "WHERE" ts
  match ts with
  | [mark, table] =>
    if mark.isWord "FROM" then
      match table.name?, conditionOf? condition with
      | some table, some condition => some (.delete table condition)
      | _, _ => none
    else none
  | _ => none

/-- The statement that a row of tokens is. -/
def Statement.ofTokens? (ts : List Token) : Option Statement :=
  match ts with
  | [] => none
  | t :: rest =>
    if t.isWord "SELECT" then selectOf? rest
    else if t.isWord "UPDATE" then updateOf? rest
    else if t.isWord "DELETE" then deleteOf? rest
    else none

/-- The statement that a text is. Semicolons may stand in front of it. -/
def Statement.parse? (text : String) : Option Statement :=
  let behind (ts : List Token) : List Token := ts.dropWhile (Token.isSymbol .semicolon)
  ((Token.scan? text).bind fun ts => withoutSemicolons? (behind ts)).bind Statement.ofTokens?

end BenchPlot.Sql
