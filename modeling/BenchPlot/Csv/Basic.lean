import BenchPlot.Decimal.Reading
import BenchPlot.Text.Blank
import BenchPlot.Text.Utf8

/-!
# Records of separated values

Bytes as records of fields. A field is bare or between double quotes; in a quoted field two quotes
stand for one, text behind the closing quote belongs to the field, and a quote that is not closed goes
to the end. A carriage return or a line feed ends a record, and empty records are passed over. All
records have as many fields as the first one.

A record is found at the position where the record before it ended; so the line feed behind a carriage
return counts for the record that follows.

Main statement: `takeRecord_length`, a record takes at least one byte where there is one.
-/

namespace BenchPlot

/-- A place among records: the record's number, the line and the byte at which the reader stood. -/
structure CsvPosition where
  record : Nat
  line : Nat
  byte : Nat
  deriving DecidableEq, Repr

/-- Why bytes are no records of text. -/
inductive CsvFault where
  | unequalLengths (position : CsvPosition) (found expected : Nat)
  | notText (position : CsvPosition) (field index : Nat)
  deriving DecidableEq, Repr

/-- The fault as it is told. -/
def CsvFault.message : CsvFault → String
  | .unequalLengths p found expected =>
    s!"CSV error: record {p.record} (line: {p.line}, byte: {p.byte}): found record with {found} fields, but the previous record has {expected} fields"
  | .notText p field index =>
    s!"CSV parse error: record {p.record} (line {p.line}, field: {field}, byte: {p.byte}): invalid utf-8: invalid UTF-8 in field {field} near byte index {index}"

/-- The position of a fault. -/
def CsvFault.position : CsvFault → CsvPosition
  | .unequalLengths p _ _ => p
  | .notText p _ _ => p

namespace Csv

/-! ## §1 Fields -/

/-- The carriage return and the line feed. -/
def isTerminator (b : UInt8) : Bool :=
  b == 13 || b == 10

/-- The double quote. -/
def quote : UInt8 := 34

/-- Where in a field a reader is: before its first byte, in bare text, between quotes, or behind a
    quote that may have closed the field. -/
inductive FieldState where
  | start
  | bare
  | quoted
  | closing
  deriving DecidableEq, Repr

/-- The fields of a record, how many bytes and line feeds it takes, and the bytes behind it. -/
structure RawRecord where
  fields : List (List UInt8)
  size : Nat
  feeds : Nat
  rest : List UInt8

namespace RawRecord

/-- A record with a byte in front that belongs to no field. -/
def pass (b : UInt8) (r : RawRecord) : RawRecord :=
  { r with size := r.size + 1, feeds := r.feeds + (if b == 10 then 1 else 0) }

/-- A record with a byte in front that belongs to its first field. -/
def extend (b : UInt8) (r : RawRecord) : RawRecord :=
  match r.fields with
  | [] => { r.pass b with fields := [[b]] }
  | field :: fields => { r.pass b with fields := (b :: field) :: fields }

/-- A record with an empty field and the delimiter behind it in front. -/
def separate (b : UInt8) (r : RawRecord) : RawRecord :=
  { r.pass b with fields := [] :: r.fields }

end RawRecord

/-- The rest of a record, from the rest of its current field on. The end of the bytes ends the
    record. -/
def takeRecord (delimiter : UInt8) (state : FieldState) : List UInt8 → RawRecord
  | [] => ⟨[[]], 0, 0, []⟩
  | b :: rest =>
    match state with
    | .quoted =>
      if b == quote then (takeRecord delimiter .closing rest).pass b
      else (takeRecord delimiter .quoted rest).extend b
    | state =>
      -- A quote opens a field only as its first byte, and two of them are one between quotes.
      if state == .start && b == quote then (takeRecord delimiter .quoted rest).pass b
      else if state == .closing && b == quote then (takeRecord delimiter .quoted rest).extend b
      else if b == delimiter then (takeRecord delimiter .start rest).separate b
      else if isTerminator b then RawRecord.pass b ⟨[[]], 0, 0, rest⟩
      else (takeRecord delimiter .bare rest).extend b

/-- The blanks of ASCII that fields are trimmed by. -/
def isTrimmedByte (b : UInt8) : Bool :=
  b == 32 || b == 9 || b == 10 || b == 12 || b == 13

/-- A field without the blanks of ASCII at either end. -/
def trimBytes (bytes : List UInt8) : List UInt8 :=
  ((bytes.dropWhile isTrimmedByte).reverse.dropWhile isTrimmedByte).reverse

/-- The texts of the fields from number `index` on, each without blanks at either end. -/
def decodeFields (position : CsvPosition) (index : Nat) :
    List (List UInt8) → Except CsvFault (List String)
  | [] => .ok []
  | field :: fields =>
    match Text.decode field with
    | .error n => .error (.notText position index n)
    | .ok text => (decodeFields position (index + 1) fields).map (Text.trim text :: ·)

end Csv

/-! ## §2 Records -/

/-- A reader: the bytes that are left, the position, and the number of fields of the first record,
    once there is one. -/
structure CsvReader where
  delimiter : UInt8
  bytes : List UInt8
  position : CsvPosition
  width : Option Nat

/-- A record with its position. -/
structure CsvRecord where
  position : CsvPosition
  fields : List String

namespace CsvReader

/-- The mark that may stand in front of a text. -/
def byteOrderMark : List UInt8 := [0xEF, 0xBB, 0xBF]

/-- A reader at the start of some bytes. -/
def new (delimiter : UInt8) (bytes : List UInt8) : CsvReader :=
  ⟨delimiter, bytes, ⟨0, 1, 0⟩, none⟩

/-- The number of bytes of the byte-order mark that the reader stands at, if any. -/
def markLength (r : CsvReader) : Nat :=
  if r.position.byte = 0 && r.bytes.take 3 == byteOrderMark then 3 else 0

/-- The next record as bytes and the reader behind it; none at the end. The first record sets the
    number of fields of all. -/
def nextRaw? (r : CsvReader) : Option (Except CsvFault (List (List UInt8)) × CsvReader) :=
  -- Empty records, and the line feed of the terminator before, are passed over.
  let blanks := (r.bytes.drop r.markLength).takeWhile Csv.isTerminator
  match r.bytes.drop (r.markLength + blanks.length) with
  | [] => none
  | bytes =>
    let raw := Csv.takeRecord r.delimiter .start bytes
    let position : CsvPosition :=
      { record := r.position.record + 1
        line := r.position.line + blanks.count 10 + raw.feeds
        byte := r.position.byte + r.markLength + blanks.length + raw.size }
    let count := raw.fields.length
    let expected := r.width.getD count
    some (if count = expected then .ok raw.fields
      else .error (.unequalLengths r.position count expected),
      { r with bytes := raw.rest, position := position, width := some expected })

/-- The first record, whose fields name the columns, and the reader behind it. Without records there
    are no columns. -/
def header (r : CsvReader) : Except CsvFault (List String × CsvReader) :=
  match r.nextRaw? with
  | none => .ok ([], r)
  | some (.error fault, _) => .error fault
  | some (.ok fields, next) => (Csv.decodeFields r.position 0 fields).map fun texts => (texts, next)

/-- The next record and the reader behind it; none at the end. -/
def next? (r : CsvReader) : Option (Except CsvFault CsvRecord × CsvReader) :=
  match r.nextRaw? with
  | none => none
  | some (.error fault, next) => some (.error fault, next)
  | some (.ok fields, next) =>
    some ((Csv.decodeFields r.position 0 (fields.map Csv.trimBytes)).map (CsvRecord.mk r.position), next)

/-! ## §3 Laws -/

/-- What is passed over changes nothing but the counts. -/
private theorem rest_pass (b : UInt8) (r : Csv.RawRecord) : (r.pass b).rest = r.rest := rfl

/-- Nor does a byte of a field. -/
private theorem rest_extend (b : UInt8) (r : Csv.RawRecord) : (r.extend b).rest = r.rest := by
  unfold Csv.RawRecord.extend
  split <;> rfl

/-- Nor does a delimiter. -/
private theorem rest_separate (b : UInt8) (r : Csv.RawRecord) : (r.separate b).rest = r.rest := rfl

/-- A record takes a byte where there is one. -/
theorem takeRecord_length (delimiter : UInt8) (state : Csv.FieldState) (bytes : List UInt8) :
    (Csv.takeRecord delimiter state bytes).rest.length ≤ bytes.length - 1 := by
  induction bytes generalizing state with
  | nil => simp [Csv.takeRecord]
  | cons b rest ih =>
    have hq := ih .quoted
    have hc := ih .closing
    have hs := ih .start
    have hb := ih .bare
    -- Every branch takes the byte `b` and goes on with `rest`, or stops in front of it.
    unfold Csv.takeRecord
    repeat' split
    all_goals
      simp only [rest_pass, rest_extend, rest_separate, List.length_cons]
      omega

/-! ## §4 All records -/

/-- A record takes a byte where there is one, blanks before it apart. -/
theorem nextRaw?_length (r : CsvReader) (a : Except CsvFault (List (List UInt8))) (next : CsvReader)
    (h : r.nextRaw? = some (a, next)) : next.bytes.length < r.bytes.length := by
  unfold nextRaw? at h
  dsimp only at h
  split at h
  · simp at h
  · rename_i hb
    simp only [Option.some.injEq, Prod.mk.injEq] at h
    -- What is passed over before the record only makes the rest shorter.
    have hl : (r.bytes.drop
        (r.markLength + ((r.bytes.drop r.markLength).takeWhile Csv.isTerminator).length)).length
          ≤ r.bytes.length := by
      rw [List.length_drop]
      omega
    rw [← h.2]
    simp only
    generalize hd : r.bytes.drop
      (r.markLength + ((r.bytes.drop r.markLength).takeWhile Csv.isTerminator).length) = bytes at *
    have ht := takeRecord_length r.delimiter .start bytes
    cases bytes with
    | nil => exact absurd rfl hb
    | cons b rest =>
      simp only [List.length_cons] at hl ht
      omega

/-- The same for records of text. -/
theorem next?_length (r : CsvReader) (a : Except CsvFault CsvRecord) (next : CsvReader)
    (h : r.next? = some (a, next)) : next.bytes.length < r.bytes.length := by
  unfold next? at h
  split at h
  · simp at h
  · rename_i hn
    simp only [Option.some.injEq, Prod.mk.injEq] at h
    rw [← h.2]
    exact nextRaw?_length r _ _ hn
  · rename_i hn
    simp only [Option.some.injEq, Prod.mk.injEq] at h
    rw [← h.2]
    exact nextRaw?_length r _ _ hn

/-- All records that are left, each with what is wrong with it if it is none. -/
def records (r : CsvReader) : List (Except CsvFault CsvRecord) :=
  match h : r.next? with
  | none => []
  | some (record, next) =>
    have := next?_length r record next h
    record :: next.records
termination_by r.bytes.length

end CsvReader

end BenchPlot
