import BenchPlot.Formula.Evaluation

/-!
# References in free text

Free text may hold references: a sigil with a name behind it. A backslash in front of a sigil takes
its meaning away. In query text, references inside single-quoted literals are left alone, so that the
wildcards of a pattern stay what they are.

Main definitions: `scanReferences`, and `Scope.substitute`, which replaces the references to variables
and calculated variables by their values.
-/

namespace BenchPlot

/-- A piece of free text: a run of characters that stand for themselves, or a reference. -/
inductive Segment where
  | literal (text : String)
  | reference (sigil : Sigil) (name : String)
  deriving DecidableEq, Repr

/-! ## §1 Scanning -/

/-- The segments with literal characters in front. -/
def Segment.withLiteral (cs : List Char) : List Segment → List Segment
  | .literal text :: rest => .literal (String.ofList cs ++ text) :: rest
  | segments => .literal (String.ofList cs) :: segments

/-- The rest of a quoted literal, its closing quote included, and what follows it. Two quotes are one
    quote of the literal; a literal that is not closed goes to the end. -/
def takeQuoted : List Char → List Char × List Char
  | [] => ([], [])
  | '\'' :: '\'' :: rest =>
    let (inside, after) := takeQuoted rest
    ('\'' :: '\'' :: inside, after)
  | c :: rest =>
    if c == '\'' then ([c], rest)
    else
      let (inside, after) := takeQuoted rest
      (c :: inside, after)

/-- The sigil that a backslash takes the meaning from, if a text starts with both, and the rest. -/
def takeEscaped? (c : Char) (rest : List Char) : Option (Char × List Char) :=
  match rest with
  | d :: after => if c == '\\' && (Sigil.ofChar? d).isSome then some (d, after) else none
  | [] => none

/-- The reference that a text starts with, and the rest. -/
def takeSigil? (c : Char) (rest : List Char) : Option (Segment × List Char) :=
  match Sigil.ofChar? c with
  | none => none
  | some sigil => (takeReference? rest).map fun r => (.reference sigil r.1, r.2)

/-- A quoted literal ends within the text. -/
theorem takeQuoted_length (cs : List Char) : (takeQuoted cs).2.length ≤ cs.length := by
  fun_induction takeQuoted cs with
  | case1 => simp
  | case2 rest inside after h ih =>
    simp only [h, List.length_cons] at ih ⊢
    omega
  | case3 c rest hq hc => simp
  | case4 c rest hq hc inside after h ih =>
    simp only [h, List.length_cons] at ih ⊢
    omega

/-- The segments of a text. -/
def scanChars (skipQuoted : Bool) (cs : List Char) : List Segment :=
  match cs with
  | [] => []
  | c :: rest =>
    if skipQuoted && c == '\'' then
      -- The literal is kept as it is written, quotes included.
      have := takeQuoted_length rest
      Segment.withLiteral (c :: (takeQuoted rest).1) (scanChars skipQuoted (takeQuoted rest).2)
    else
      match hEscaped : takeEscaped? c rest with
      | some (d, after) =>
        have : after.length < rest.length := by
          unfold takeEscaped? at hEscaped
          split at hEscaped
          · split at hEscaped
            · simp only [Option.some.injEq, Prod.mk.injEq] at hEscaped
              simp [← hEscaped.2]
            · simp at hEscaped
          · simp at hEscaped
        Segment.withLiteral [d] (scanChars skipQuoted after)
      | none =>
        match hSigil : takeSigil? c rest with
        | some (segment, after) =>
          -- A reference takes its sigil and more.
          have : after.length ≤ rest.length := by
            unfold takeSigil? at hSigil
            split at hSigil
            · simp at hSigil
            · obtain ⟨r, hr, he⟩ := Option.map_eq_some_iff.1 hSigil
              have := takeReference?_length rest r hr
              simp only [Prod.mk.injEq] at he
              rw [← he.2]
              exact Nat.le_of_lt this
          segment :: scanChars skipQuoted after
        -- A sigil without a name behind it stands for itself.
        | none => Segment.withLiteral [c] (scanChars skipQuoted rest)
termination_by cs.length
decreasing_by all_goals simp only [List.length_cons]; omega

/-- The segments of free text. -/
def scanReferences (text : String) : List Segment :=
  scanChars false text.toList

/-- The segments of query text. -/
def scanQueryReferences (text : String) : List Segment :=
  scanChars true text.toList

/-! ## §2 Substitution -/

namespace Scope

/-- The text that a segment of free text stands for. -/
def segmentText (s : Scope) : Segment → Except FormulaError String
  | .literal text => .ok text
  | .reference .environment name =>
    match s.environment? name with
    | some text => .ok text
    | none => .error (.unknownVariable name)
  | .reference .calculated name => (s.calculatedValue name).map Value.display
  | .reference sigil name => .error (.notAllowed (.referenceInText sigil name))

/-- Free text with the values of its references in their place. -/
def substitute (s : Scope) (text : String) : Except FormulaError String :=
  ((scanReferences text).mapM s.segmentText).map String.join

end Scope

end BenchPlot
