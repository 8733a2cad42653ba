import BenchPlot.Text.Utf8

/-!
# Texts from their bytes

The bytes of a character are read as this character, whatever stands behind them. So the bytes of a text are read as
the text.

Main statement: `Text.decode?_encode`.
-/

namespace BenchPlot.Text

/-! ## §1 Single characters -/

theorem scalar?_toNat {least : Nat} {c : Char} (h : least ≤ c.toNat) : scalar? least c.toNat = some c := by
  rw [scalar?, if_pos ⟨h, c.valid⟩, Char.ofNat_toNat]

theorem toNat_byte {n : Nat} (h : n < 256) : (UInt8.ofNat n).toNat = n := by
  rw [UInt8.toNat_ofNat']
  exact Nat.mod_eq_of_lt h

/-- A byte stands below another one iff its number does. -/
theorem byte_lt_iff {n : Nat} (h : n < 256) (b : UInt8) : UInt8.ofNat n < b ↔ n < b.toNat := by
  rw [UInt8.lt_iff_toNat_lt, toNat_byte h]

/-- A byte that follows carries six bits. -/
theorem followingBits?_byte {n : Nat} (h : n < 64) : followingBits? (UInt8.ofNat (n + 0x80)) = some n := by
  have hbyte : (UInt8.ofNat (n + 0x80)).toNat = n + 0x80 := toNat_byte (by omega)
  have hlow : 0x80 ≤ UInt8.ofNat (n + 0x80) := by
    rw [UInt8.le_iff_toNat_le, hbyte]
    exact Nat.le_add_left ..
  have hhigh : UInt8.ofNat (n + 0x80) < 0xC0 := (byte_lt_iff (by omega) _).mpr (Nat.add_lt_add_right h _)
  simp only [followingBits?, hlow, hhigh, decide_true, Bool.and_self, if_true, hbyte, Nat.add_sub_cancel]

theorem takeChar?_one {n : Nat} (hn : n < 0x80) (rest : List UInt8) :
    takeChar? (UInt8.ofNat n :: rest) = (scalar? 0 n).map fun c => (c, rest) := by
  have hone : UInt8.ofNat n < 0x80 := (byte_lt_iff (by omega) _).mpr hn
  have hbyte : (UInt8.ofNat n).toNat = n := toNat_byte (by omega)
  unfold takeChar?
  simp only [if_pos hone, hbyte]

theorem takeChar?_two {x y : Nat} (hx : x < 32) (hy : y < 64) (rest : List UInt8) :
    takeChar? (UInt8.ofNat (x + 0xC0) :: UInt8.ofNat (y + 0x80) :: rest)
      = (scalar? 0x80 (x * 64 + y)).map fun c => (c, rest) := by
  have hbyte : (UInt8.ofNat (x + 0xC0)).toNat = x + 0xC0 := toNat_byte (by omega)
  have hone : ¬UInt8.ofNat (x + 0xC0) < 0x80 := by
    rw [byte_lt_iff (by omega)]
    show ¬x + 192 < 128
    omega
  have htwo : UInt8.ofNat (x + 0xC0) < 0xE0 := (byte_lt_iff (by omega) _).mpr (Nat.add_lt_add_right hx _)
  simp only [takeChar?, if_neg hone, if_pos htwo, followingBits?_byte hy, hbyte, Nat.add_sub_cancel]

theorem takeChar?_three {x y z : Nat} (hx : x < 16) (hy : y < 64) (hz : z < 64) (rest : List UInt8) :
    takeChar? (UInt8.ofNat (x + 0xE0) :: UInt8.ofNat (y + 0x80) :: UInt8.ofNat (z + 0x80) :: rest)
      = (scalar? 0x800 ((x * 64 + y) * 64 + z)).map fun c => (c, rest) := by
  have hbyte : (UInt8.ofNat (x + 0xE0)).toNat = x + 0xE0 := toNat_byte (by omega)
  have hone : ¬UInt8.ofNat (x + 0xE0) < 0x80 := by
    rw [byte_lt_iff (by omega)]
    show ¬x + 224 < 128
    omega
  have htwo : ¬UInt8.ofNat (x + 0xE0) < 0xE0 := by
    rw [byte_lt_iff (by omega)]
    exact Nat.not_lt.mpr (Nat.le_add_left ..)
  have hthree : UInt8.ofNat (x + 0xE0) < 0xF0 := (byte_lt_iff (by omega) _).mpr (Nat.add_lt_add_right hx _)
  simp only [takeChar?, if_neg hone, if_neg htwo, if_pos hthree, followingBits?_byte hy, followingBits?_byte hz, hbyte,
    Nat.add_sub_cancel]

theorem takeChar?_four {w x y z : Nat} (hw : w < 8) (hx : x < 64) (hy : y < 64) (hz : z < 64) (rest : List UInt8) :
    takeChar? (UInt8.ofNat (w + 0xF0) :: UInt8.ofNat (x + 0x80) :: UInt8.ofNat (y + 0x80) :: UInt8.ofNat (z + 0x80) ::
        rest)
      = (scalar? 0x10000 (((w * 64 + x) * 64 + y) * 64 + z)).map fun c => (c, rest) := by
  have hbyte : (UInt8.ofNat (w + 0xF0)).toNat = w + 0xF0 := toNat_byte (by omega)
  have hbelow : ∀ b : UInt8, b.toNat ≤ 0xF0 → ¬UInt8.ofNat (w + 0xF0) < b := by
    intro b hb
    rw [byte_lt_iff (by omega)]
    omega
  simp only [takeChar?, if_neg (hbelow 0x80 (by decide)), if_neg (hbelow 0xE0 (by decide)),
    if_neg (hbelow 0xF0 (by decide)), followingBits?_byte hx, followingBits?_byte hy, followingBits?_byte hz, hbyte,
    Nat.add_sub_cancel]

/-- The bytes of a character are read as it, and what stands behind them is left. -/
theorem takeChar?_utf8EncodeChar (c : Char) (rest : List UInt8) :
    takeChar? (String.utf8EncodeChar c ++ rest) = some (c, rest) := by
  have hbound : c.toNat < 0x110000 := by
    have := c.valid
    unfold UInt32.isValidChar Nat.isValidChar at this
    show c.val.toNat < _
    omega
  have hscalar : ∀ {least n : Nat}, n = c.toNat → least ≤ n →
      ((scalar? least n).map fun c => (c, rest)) = some (c, rest) := by
    rintro least n rfl hleast
    rw [scalar?_toNat hleast]
    rfl
  fun_cases String.utf8EncodeChar c with
  | case1 v h => exact (takeChar?_one (by omega) rest).trans (hscalar rfl (Nat.zero_le _))
  | case2 v h1 h2 =>
    have hv : v = c.toNat := rfl
    exact (takeChar?_two (by omega) (by omega) rest).trans (hscalar (by omega) (by omega))
  | case3 v h1 h2 h3 =>
    have hv : v = c.toNat := rfl
    exact (takeChar?_three (by omega) (by omega) (by omega) rest).trans (hscalar (by omega) (by omega))
  | case4 v h1 h2 h3 =>
    have hv : v = c.toNat := rfl
    exact (takeChar?_four (by omega) (by omega) (by omega) (by omega) rest).trans (hscalar (by omega) (by omega))

/-! ## §2 Texts -/

/-- Bytes that start with a character are read as it and the characters behind it. -/
theorem decodeChars_of_takeChar? {bytes after : List UInt8} {c : Char} {cs : List Char}
    (h : takeChar? bytes = some (c, after)) (hafter : decodeChars after = .ok cs) :
    decodeChars bytes = .ok (c :: cs) := by
  cases bytes with
  | nil => cases h
  | cons b rest =>
    rw [decodeChars]
    split
    · rename_i hnone
      cases hnone.symm.trans h
    · rename_i c' after' hsome
      cases hsome.symm.trans h
      rw [hafter]

theorem decodeChars_utf8EncodeChar (cs : List Char) : decodeChars (cs.flatMap String.utf8EncodeChar) = .ok cs := by
  induction cs with
  | nil => rw [List.flatMap_nil, decodeChars]
  | cons c rest ih => exact decodeChars_of_takeChar? (takeChar?_utf8EncodeChar c _) ih

theorem toList_loop_eq (bytes : ByteArray) (i : Nat) (before : List UInt8) :
    ByteArray.toList.loop bytes i before = before.reverse ++ bytes.data.toList.drop i := by
  induction i, before using ByteArray.toList.loop.induct bytes with
  | case1 i before h ih =>
    have hi : i < bytes.data.toList.length := h
    rw [ByteArray.toList.loop, if_pos h, ih, List.drop_eq_getElem_cons hi]
    simp [ByteArray.get!, h]
  | case2 i before h =>
    have hend : bytes.data.toList.length ≤ i := by simpa using Nat.le_of_not_lt h
    rw [ByteArray.toList.loop, if_neg h, List.drop_eq_nil_of_le hend, List.append_nil]

/-- The bytes of a text are those of its characters. -/
theorem encode_eq (s : String) : encode s = s.toList.flatMap String.utf8EncodeChar := by
  have hloop : encode s = ByteArray.toList.loop s.toUTF8 0 [] := rfl
  rw [hloop, toList_loop_eq, List.reverse_nil, List.nil_append, List.drop_zero, String.toUTF8_eq_toByteArray,
    ← String.utf8Encode_toList]
  exact List.toList_data_toByteArray

/-- The bytes of a text are read as the text. -/
theorem decode?_encode (s : String) : decode? (encode s) = some s := by
  rw [decode?, decode, encode_eq, decodeChars_utf8EncodeChar]
  exact congrArg some String.ofList_toList

/-- Texts with one row of bytes are one text. -/
theorem encode_injective : Function.Injective encode := by
  intro s t h
  have hsame := decode?_encode s
  rw [h, decode?_encode] at hsame
  exact (Option.some.inj hsame).symm

end BenchPlot.Text
