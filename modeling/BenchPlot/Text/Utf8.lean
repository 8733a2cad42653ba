/-!
# Text as bytes

Reading bytes as text. The bytes of a character are one byte below 128, or a first byte that tells how
many bytes follow, each with six bits of the code; no character is written with more bytes than it
needs, and no surrogate code is a character. Where bytes are no text, the number of bytes in front of
the first fault is known.

Main statement: `takeChar?_length`, a character takes at least one byte, and so `decode` ends.
-/

namespace BenchPlot.Text

/-! ## §1 Single characters -/

/-- The six bits that a following byte carries. -/
def followingBits? (b : UInt8) : Option Nat :=
  if 0x80 ≤ b && b < 0xC0 then some (b.toNat - 0x80) else none

/-- The character with a code of at least `least`, if there is one. -/
def scalar? (least code : Nat) : Option Char :=
  if least ≤ code ∧ code.isValidChar then some (Char.ofNat code) else none

/-- The character that the bytes start with, and the bytes behind it. -/
def takeChar? : List UInt8 → Option (Char × List UInt8)
  | [] => none
  | a :: rest =>
    if a < 0x80 then (scalar? 0 a.toNat).map fun c => (c, rest)
    else if a < 0xE0 then
      match rest with
      | b :: rest =>
        match followingBits? b with
        | some y => (scalar? 0x80 ((a.toNat - 0xC0) * 64 + y)).map fun c => (c, rest)
        | none => none
      | _ => none
    else if a < 0xF0 then
      match rest with
      | b :: c :: rest =>
        match followingBits? b, followingBits? c with
        | some y, some z =>
          (scalar? 0x800 (((a.toNat - 0xE0) * 64 + y) * 64 + z)).map fun c => (c, rest)
        | _, _ => none
      | _ => none
    else
      match rest with
      | b :: c :: d :: rest =>
        match followingBits? b, followingBits? c, followingBits? d with
        | some x, some y, some z =>
          (scalar? 0x10000 ((((a.toNat - 0xF0) * 64 + x) * 64 + y) * 64 + z)).map fun c => (c, rest)
        | _, _, _ => none
      | _ => none

/-- A character takes at least one byte. -/
theorem takeChar?_length (bytes : List UInt8) (r : Char × List UInt8) (h : takeChar? bytes = some r) :
    r.2.length < bytes.length := by
  unfold takeChar? at h
  repeat' split at h
  all_goals first
    | (obtain ⟨c, _, rfl⟩ := Option.map_eq_some_iff.1 h; simp only [List.length_cons]; omega)
    | simp at h

/-! ## §2 Texts -/

/-- The characters that bytes stand for, or the number of bytes in front of the first fault. -/
def decodeChars (bytes : List UInt8) : Except Nat (List Char) :=
  match bytes with
  | [] => .ok []
  | b :: rest =>
    match h : takeChar? (b :: rest) with
    | none => .error 0
    | some (c, after) =>
      have := takeChar?_length (b :: rest) (c, after) h
      match decodeChars after with
      | .ok cs => .ok (c :: cs)
      | .error n => .error (n + ((b :: rest).length - after.length))
termination_by bytes.length
decreasing_by exact this

/-- The text that bytes stand for, or the number of bytes in front of the first fault. -/
def decode (bytes : List UInt8) : Except Nat String :=
  (decodeChars bytes).map String.ofList

/-- The text that bytes stand for, if they do. -/
def decode? (bytes : List UInt8) : Option String :=
  (decode bytes).toOption

/-- The bytes of a text. -/
def encode (s : String) : List UInt8 :=
  s.toUTF8.toList

end BenchPlot.Text
