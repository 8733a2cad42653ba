import BenchPlot.Formula.Lexer
import BenchPlot.Text.Pieces

/-!
# Names behind a sigil

A name stands behind its sigil bare, or between braces with any blanks around it.

Main statements: `takeReference?_braced`, and `takeReference?_written`, both ways of writing a name are read as the
name.
-/

namespace BenchPlot

/-- A name that needs no braces behind a sigil. -/
def IsBareName (name : String) : Prop :=
  ∃ c cs, name.toList = c :: cs ∧ isNameStart c = true ∧ ∀ d ∈ cs, isNameChar d = true

/-- What is written behind a sigil for a name: the bare name, or a text between braces without the blanks
    around it. -/
inductive IsReference : String → String → Prop where
  | bare {name : String} (h : IsBareName name) : IsReference name name
  | braced {text : String} (hopen : '\x7d' ∉ text.toList) (hfull : (Text.trimChars text.toList).isEmpty = false) :
    IsReference ("\x7b" ++ text ++ "\x7d") (Text.trim text)

variable {written name : String} {rest : List Char}

/-- A text between braces is read as the name without the blanks around it, whatever follows. -/
theorem takeReference?_braced {cs : List Char} (hopen : '\x7d' ∉ cs) (hfull : (Text.trimChars cs).isEmpty = false)
    (rest : List Char) : takeReference? ('\x7b' :: (cs ++ '\x7d' :: rest))
      = some (String.ofList (Text.trimChars cs), rest) := by
  have hinside : ∀ d ∈ cs, (d != '\x7d') = true := fun d hd => bne_iff_ne.mpr (ne_of_mem_of_not_mem hd hopen)
  have hclosed : ((('\x7d' :: rest).head?.map (· != '\x7d')).getD false) = false := rfl
  obtain ⟨htake, hdrop⟩ := Text.span_before hinside hclosed
  rw [takeReference?, if_pos (beq_self_eq_true _), hdrop, htake]
  dsimp only
  rw [hfull, if_neg Bool.false_ne_true]

theorem takeReference?_written (h : IsReference written name)
    (hrest : (rest.head?.map isNameChar).getD false = false) :
    takeReference? (written.toList ++ rest) = some (name, rest) := by
  cases h with
  | bare h =>
    obtain ⟨c, cs, hname, hstart, hcs⟩ := h
    have hbrace : (c == '\x7b') = false := by
      rw [beq_eq_false_iff_ne]
      rintro rfl
      cases hstart
    obtain ⟨htake, hdrop⟩ := Text.span_before hcs hrest
    rw [hname, List.cons_append, takeReference?, hbrace, if_neg Bool.false_ne_true, if_pos hstart, htake, hdrop,
      ← hname, String.ofList_toList]
  | @braced text hopen hfull =>
    have htext : ("\x7b" ++ text ++ "\x7d").toList ++ rest = '\x7b' :: (text.toList ++ '\x7d' :: rest) := by
      simp
    rw [htext, takeReference?_braced hopen hfull, Text.trim]

end BenchPlot
