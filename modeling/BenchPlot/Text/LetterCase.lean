import BenchPlot.Text.LetterTable

/-!
# Upper and lower case

The full case maps of texts. A letter may have a case form of several characters, and a capital sigma
at the end of a word has a lower-case form of its own.
-/

namespace BenchPlot.Text

/-- Whether a character lies in one of the ranges. -/
def inRanges (ranges : Array (Nat × Nat)) (c : Char) : Bool :=
  let n := c.toNat
  ranges.any fun r => r.1 ≤ n && n ≤ r.2

/-! ## §1 Single characters -/

/-- The case form of the character with code `n`, if `run` covers it. -/
def CaseRun.form? (run : CaseRun) (n : Nat) : Option Char :=
  if run.first ≤ n && n ≤ run.last && (n - run.first) % run.step == 0 then
    some (Char.ofNat ((n : Int) + run.distance).toNat)
  else none

/-- The case form of a character by the tables; a character outside them is its own form. -/
def caseForm (runs : Array CaseRun) (long : Array (Nat × List Nat)) (c : Char) : List Char :=
  let n := c.toNat
  match runs.findSome? fun run => run.form? n with
  | some d => [d]
  | none =>
    match long.find? fun entry => entry.1 == n with
    | some entry => entry.2.map Char.ofNat
    | none => [c]

/-- The upper-case form of a character. -/
def upperChar (c : Char) : List Char :=
  caseForm upperRuns upperLong c

/-- The lower-case form of a character, its neighbours apart. -/
def lowerChar (c : Char) : List Char :=
  caseForm lowerRuns lowerLong c

/-! ## §2 Texts -/

/-- The upper-case form of a text. -/
def upper (s : String) : String :=
  String.ofList (s.toList.flatMap upperChar)

/-- Whether the nearest character that is not passed over is a letter with case. -/
def meetsCased (cs : List Char) : Bool :=
  match cs.dropWhile (inRanges passedRanges) with
  | [] => false
  | c :: _ => inRanges casedRanges c

/-- The lower-case form of the text `rest`, which follows `seen`, its characters last to first. A
    capital sigma is final iff it follows a letter of its word and no letter of the word follows. -/
def lowerChars (seen : List Char) : List Char → List Char
  | [] => []
  | c :: rest =>
    let form :=
      if c == '\u03A3' then
        if meetsCased seen && !meetsCased rest then ['\u03C2'] else ['\u03C3']
      else lowerChar c
    form ++ lowerChars (c :: seen) rest

/-- The lower-case form of a text. -/
def lower (s : String) : String :=
  String.ofList (lowerChars [] s.toList)

end BenchPlot.Text
