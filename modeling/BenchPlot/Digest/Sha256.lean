import BenchPlot.Text.Utf8

/-!
# The SHA-256 digest

The digest of 256 bits of a row of bytes. The bytes are padded to whole blocks of 64; a block is widened
to a schedule of 64 words, and each word of the schedule is mixed into a state of eight words.

Main definitions: `digest`, and `digestText`, the digest in hexadecimal digits.
-/

namespace BenchPlot.Sha256

/-! ## §1 Constants -/

/-- The words that are mixed in together with the schedule: the first bits of the fractional parts of
    the cube roots of the first 64 primes. -/
def roundWords : List UInt32 :=
  [0x428a2f98, 0x71374491, 0xb5c0fbcf, 0xe9b5dba5, 0x3956c25b, 0x59f111f1, 0x923f82a4, 0xab1c5ed5,
    0xd807aa98, 0x12835b01, 0x243185be, 0x550c7dc3, 0x72be5d74, 0x80deb1fe, 0x9bdc06a7, 0xc19bf174,
    0xe49b69c1, 0xefbe4786, 0x0fc19dc6, 0x240ca1cc, 0x2de92c6f, 0x4a7484aa, 0x5cb0a9dc, 0x76f988da,
    0x983e5152, 0xa831c66d, 0xb00327c8, 0xbf597fc7, 0xc6e00bf3, 0xd5a79147, 0x06ca6351, 0x14292967,
    0x27b70a85, 0x2e1b2138, 0x4d2c6dfc, 0x53380d13, 0x650a7354, 0x766a0abb, 0x81c2c92e, 0x92722c85,
    0xa2bfe8a1, 0xa81a664b, 0xc24b8b70, 0xc76c51a3, 0xd192e819, 0xd6990624, 0xf40e3585, 0x106aa070,
    0x19a4c116, 0x1e376c08, 0x2748774c, 0x34b0bcb5, 0x391c0cb3, 0x4ed8aa4a, 0x5b9cca4f, 0x682e6ff3,
    0x748f82ee, 0x78a5636f, 0x84c87814, 0x8cc70208, 0x90befffa, 0xa4506ceb, 0xbef9a3f7, 0xc67178f2]

/-- The eight words of a state. -/
structure State where
  a : UInt32
  b : UInt32
  c : UInt32
  d : UInt32
  e : UInt32
  f : UInt32
  g : UInt32
  h : UInt32
  deriving DecidableEq, Repr

/-- The state at the start: the first bits of the fractional parts of the square roots of the first
    eight primes. -/
def State.initial : State :=
  ⟨0x6a09e667, 0xbb67ae85, 0x3c6ef372, 0xa54ff53a, 0x510e527f, 0x9b05688c, 0x1f83d9ab, 0x5be0cd19⟩

/-! ## §2 Blocks -/

/-- A word turned to the right. -/
def rotate (w : UInt32) (n : UInt32) : UInt32 :=
  (w >>> n) ||| (w <<< (32 - n))

/-- The words of a row of bytes, the first byte of each on top. -/
def wordsOf : List UInt8 → List UInt32
  | a :: b :: c :: d :: rest =>
    ((a.toUInt32 <<< 24) ||| (b.toUInt32 <<< 16) ||| (c.toUInt32 <<< 8) ||| d.toUInt32)
      :: wordsOf rest
  | _ => []

/-- The next word of a schedule, whose words are given from the last one back. -/
def nextWord (recent : List UInt32) : UInt32 :=
  let word (n : Nat) : UInt32 := recent[n - 1]?.getD 0
  let low := word 15
  let high := word 2
  word 16 + (rotate low 7 ^^^ rotate low 18 ^^^ (low >>> 3)) + word 7
    + (rotate high 17 ^^^ rotate high 19 ^^^ (high >>> 10))

/-- The words from the last one back, with `n` further ones. -/
def extendSchedule : Nat → List UInt32 → List UInt32
  | 0, recent => recent
  | n + 1, recent => extendSchedule n (nextWord recent :: recent)

/-- The schedule of a block. -/
def schedule (block : List UInt8) : List UInt32 :=
  (extendSchedule 48 (wordsOf block).reverse).reverse

/-- The state with a word of the schedule and its constant mixed in. -/
def State.mix (s : State) (words : UInt32 × UInt32) : State :=
  let high := rotate s.e 6 ^^^ rotate s.e 11 ^^^ rotate s.e 25
  let choice := (s.e &&& s.f) ^^^ (~~~s.e &&& s.g)
  let first := s.h + high + choice + words.1 + words.2
  let low := rotate s.a 2 ^^^ rotate s.a 13 ^^^ rotate s.a 22
  let majority := (s.a &&& s.b) ^^^ (s.a &&& s.c) ^^^ (s.b &&& s.c)
  ⟨first + low + majority, s.a, s.b, s.c, s.d + first, s.e, s.f, s.g⟩

/-- The state with the words of another added. -/
def State.add (s t : State) : State :=
  ⟨s.a + t.a, s.b + t.b, s.c + t.c, s.d + t.d, s.e + t.e, s.f + t.f, s.g + t.g, s.h + t.h⟩

/-- The state behind a further block. -/
def State.absorb (s : State) (block : List UInt8) : State :=
  s.add ((roundWords.zip (schedule block)).foldl State.mix s)

/-! ## §3 Digests -/

/-- The number of bytes of a block. -/
def blockSize : Nat := 64

/-- The lowest `count` bytes of a number, the highest of them first. -/
def bytesOfNat (count n : Nat) : List UInt8 :=
  (List.range count).map fun i => UInt8.ofNat (n >>> (8 * (count - 1 - i)))

/-- The bytes that fill the last block: a mark, zeros, and the number of bits in eight bytes. -/
def padding (size : Nat) : List UInt8 :=
  let zeros := (2 * blockSize - 9 - size % blockSize) % blockSize
  0x80 :: List.replicate zeros 0 ++ bytesOfNat 8 (8 * size)

/-- The state behind all blocks of a row of bytes. -/
def absorbAll (s : State) (bytes : List UInt8) : State :=
  match bytes with
  | [] => s
  | b :: rest => absorbAll (s.absorb ((b :: rest).take blockSize)) ((b :: rest).drop blockSize)
termination_by bytes.length
decreasing_by
  simp only [List.length_drop, List.length_cons, blockSize]
  omega

/-- The digest of a row of bytes. -/
def digest (bytes : List UInt8) : List UInt8 :=
  let s := absorbAll .initial (bytes ++ padding bytes.length)
  [s.a, s.b, s.c, s.d, s.e, s.f, s.g, s.h].flatMap fun w => bytesOfNat 4 w.toNat

/-- The two hexadecimal digits of a byte. -/
def hexDigits (b : UInt8) : List Char :=
  [Nat.digitChar (b.toNat / 16), Nat.digitChar (b.toNat % 16)]

/-- The digest of a row of bytes in hexadecimal digits. -/
def digestText (bytes : List UInt8) : String :=
  String.ofList ((digest bytes).flatMap hexDigits)

end BenchPlot.Sha256
