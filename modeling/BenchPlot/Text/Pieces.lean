import BenchPlot.Text.Blank

/-!
# Pieces of a text

Cutting a text into lines and into the pieces between separators, and putting pieces together again.
A line ends at a line feed, together with one carriage return before it; the end of the text needs
no line feed.

Main statement: `joined_piecesAt`, the pieces between two separators joined by a separator give the
text back.
-/

namespace BenchPlot.Text

/-! ## §1 Lines -/

/-- The lines of a text, without their line ends. -/
def lineChars : List Char → List (List Char)
  | [] => []
  | '\r' :: '\n' :: rest => [] :: lineChars rest
  | '\n' :: rest => [] :: lineChars rest
  | c :: rest =>
    match lineChars rest with
    | [] => [[c]]
    | line :: lines => (c :: line) :: lines

/-- The lines of a string, without their line ends. -/
def lines (s : String) : List String :=
  (lineChars s.toList).map String.ofList

/-! ## §2 Separated pieces -/

/-- The pieces between the characters that satisfy `p`. There is always at least one piece. -/
def piecesBy (p : Char → Bool) : List Char → List (List Char)
  | [] => [[]]
  | c :: rest =>
    if p c then [] :: piecesBy p rest
    else
      match piecesBy p rest with
      | [] => [[c]]
      | piece :: pieces => (c :: piece) :: pieces

/-- The pieces between two occurrences of `sep`. -/
def piecesAt (sep : Char) (cs : List Char) : List (List Char) :=
  piecesBy (· == sep) cs

/-- The parts before and after the first occurrence of `sep`, if there is one. -/
def cutAt? (sep : Char) (s : String) : Option (String × String) :=
  let cs := s.toList
  match cs.dropWhile (· != sep) with
  | [] => none
  | _ :: rest => some (String.ofList (cs.takeWhile (· != sep)), String.ofList rest)

/-- What stands after `start` in `cs`, if `cs` starts with it. -/
def afterStart? : List Char → List Char → Option (List Char)
  | [], cs => some cs
  | _ :: _, [] => none
  | a :: start, c :: cs => if a == c then afterStart? start cs else none

/-- The string with every occurrence of the character `c` replaced by `by_`. -/
def replaceChar (c : Char) (by_ : List Char) (s : String) : String :=
  String.ofList (s.toList.flatMap fun d => if d == c then by_ else [d])

/-- `n` copies of the character `c`. -/
def repeated (c : Char) (n : Nat) : String :=
  String.ofList (List.replicate n c)

/-! ## §3 Laws -/

/-- Characters of a kind that none of the kind follows are taken, and no more. -/
theorem span_before {p : Char → Bool} {cs rest : List Char} (h : ∀ d ∈ cs, p d = true)
    (hrest : (rest.head?.map p).getD false = false) :
    (cs ++ rest).takeWhile p = cs ∧ (cs ++ rest).dropWhile p = rest := by
  rw [List.takeWhile_append_of_pos h, List.dropWhile_append_of_pos h]
  cases rest with
  | nil => simp
  | cons d rest =>
    have hd : ¬p d = true := by simpa using hrest
    rw [List.takeWhile_cons_of_neg hd, List.dropWhile_cons_of_neg hd, List.append_nil]
    exact ⟨rfl, rfl⟩

/-- What stands before the first character that is dropped no more does not depend on what follows. -/
theorem span_append {p : Char → Bool} {cs rest : List Char} {c : Char} (h : cs.dropWhile p = c :: rest)
    (more : List Char) :
    (cs ++ more).takeWhile p = cs.takeWhile p ∧ (cs ++ more).dropWhile p = c :: (rest ++ more) := by
  have hstop : (cs.takeWhile p).length ≠ cs.length := by
    intro hlength
    have hall := List.takeWhile_append_dropWhile (p := p) (l := cs)
    rw [(List.takeWhile_prefix p).eq_of_length hlength, h] at hall
    simpa using congrArg List.length hall
  rw [List.takeWhile_append, List.dropWhile_append, h]
  exact ⟨if_neg hstop, rfl⟩

/-- There is always a piece. -/
theorem piecesBy_ne_nil (p : Char → Bool) (cs : List Char) : piecesBy p cs ≠ [] := by
  cases cs with
  | nil => simp [piecesBy]
  | cons c rest =>
    simp only [piecesBy]
    split
    · simp
    · split <;> simp

/-- The pieces at a separator, joined by it, give the text back. -/
theorem joined_piecesAt (sep : Char) (cs : List Char) :
    List.intercalate [sep] (piecesAt sep cs) = cs := by
  induction cs with
  | nil => rfl
  | cons c rest ih =>
    simp only [piecesAt] at ih
    cases hp : piecesBy (· == sep) rest with
    | nil => exact absurd hp (piecesBy_ne_nil _ _)
    | cons piece pieces =>
      rw [hp] at ih
      by_cases hc : (c == sep) = true
      · have : c = sep := by simpa using hc
        subst this
        simp only [piecesAt, piecesBy, hp, beq_self_eq_true, if_true]
        simp only [List.intercalate, List.intersperse] at ih ⊢
        simp [ih]
      · simp only [piecesAt, piecesBy, hp, hc, if_false, Bool.false_eq_true]
        cases pieces with
        | nil => simpa [List.intercalate] using ih
        | cons q qs => simpa [List.intercalate] using ih

end BenchPlot.Text
