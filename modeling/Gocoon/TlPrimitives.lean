import Gocoon.GoProgram
import Gocoon.LittleEndianBytes

/-!
# TL primitives: the cursor reader and the appending writer

`Reader` keeps the whole buffer and a cursor, as the source does, and a slice
expression outside the buffer is a panic of the model, not a silently shorter list.
`Reads program bytes value` says that a program started in front of `bytes`, in any
buffer, returns `value` with the cursor just behind them. It composes along `>>=`, so
the decoders of later modules are read off field by field.
-/

namespace Gocoon.TlPrimitives

open Gocoon.LittleEndianBytes
open Gocoon.GoProgram

set_option autoImplicit false

/-- Go strings on the wire are byte strings; no encoding is checked. -/
abbrev GoString := List Byte

/-- The bytes of a source literal. All literals used here are ASCII. -/
def ascii (text : String) : GoString := text.toList.map fun char => UInt8.ofNat char.toNat

/-- A Go array type such as `[32]byte`. -/
abbrev FixedBytes (count : Nat) := { bytes : List Byte // bytes.length = count }

/-- `copy(out[:], source)` into a zeroed array. -/
def copyInto (count : Nat) (source : List Byte) : FixedBytes count :=
  ⟨(source ++ List.replicate count 0).take count, by simp⟩

theorem copy_into_exact {count : Nat} (source : FixedBytes count) :
    copyInto count source.val = source := by
  apply Subtype.ext
  exact List.take_left' source.property

inductive TlError where
  | shortBuffer (need offset size : Nat)
  | invalidBool (id : UInt32)
  | invalidLength
  | unknownConstructor
  deriving DecidableEq

structure Reader where
  buf : List Byte
  pos : Nat
  deriving DecidableEq

def newReader (buf : List Byte) : Reader where
  buf := buf
  pos := 0

abbrev ReadM := GoM Reader TlError

def need (count : Nat) : ReadM Unit := do
  let reader ← get
  if reader.buf.length < reader.pos + count then
    fail (.shortBuffer count reader.pos reader.buf.length)

/-- The slice expression `r.buf[low:high]`. -/
def slice (low high : Nat) : ReadM (List Byte) := do
  let reader ← get
  if low ≤ high ∧ high ≤ reader.buf.length then
    pure ((reader.buf.drop low).take (high - low))
  else crash

def advance (count : Nat) : ReadM Unit :=
  modify fun reader => { reader with pos := reader.pos + count }

def readRaw (count : Nat) : ReadM (List Byte) := do
  need count
  let reader ← get
  let out ← slice reader.pos (reader.pos + count)
  advance count
  pure out

def readUint32 : ReadM UInt32 := do
  let bytes ← readRaw 4
  pure (uint32 bytes)

def readInt32 : ReadM Int32 := do
  let word ← readUint32
  pure word.toInt32

def readUint64 : ReadM UInt64 := do
  let bytes ← readRaw 8
  pure (uint64 bytes)

def readInt64 : ReadM Int64 := do
  let word ← readUint64
  pure word.toInt64

/-- Doubles are kept as their 64-bit patterns. -/
def readDouble : ReadM UInt64 := readUint64

def readInt128 : ReadM (FixedBytes 16) := do
  let bytes ← readRaw 16
  pure (copyInto 16 bytes)

def readInt256 : ReadM (FixedBytes 32) := do
  let bytes ← readRaw 32
  pure (copyInto 32 bytes)

def boolFalseID : UInt32 := 0xbc799737

def boolTrueID : UInt32 := 0x997275b5

def readBool : ReadM Bool := do
  let id ← readUint32
  if id = boolTrueID then pure true
  else if id = boolFalseID then pure false
  else fail (.invalidBool id)

/-- The three cases of the first byte at offset `start`: reserved, the length itself, or
the mark of a three-byte length. -/
def lengthPrefixOf (start : Nat) (first : Byte) : ReadM (Nat × Nat) :=
  if first = 0xff then fail .invalidLength
  else if first < 0xfe then do
    advance 1
    pure (first.toNat, 1)
  else do
    need 4
    let header ← slice (start + 1) (start + 4)
    advance 4
    pure (decodeLE header, 4)

def readLengthPrefix : ReadM (Nat × Nat) := do
  need 1
  let reader ← get
  let lead ← slice reader.pos (reader.pos + 1)
  lengthPrefixOf reader.pos (lead.headD 0)

def padding (total : Nat) : Nat := (4 - total % 4) % 4

def skipPadding (pad : Nat) : ReadM Unit :=
  if 0 < pad then do
    need pad
    advance pad
  else pure ()

def readBytes : ReadM (List Byte) := do
  let (length, headerLen) ← readLengthPrefix
  let out ← readRaw length
  skipPadding (padding (headerLen + length))
  pure out

def readString : ReadM GoString := readBytes

def readFlags : ReadM UInt32 := readUint32

structure Writer where
  buf : List Byte
  deriving DecidableEq

def newWriter : Writer where
  buf := []

namespace Writer

def writeRaw (writer : Writer) (bytes : List Byte) : Writer where
  buf := writer.buf ++ bytes

def writeUint32 (writer : Writer) (word : UInt32) : Writer := writer.writeRaw (putUint32 word)

def writeInt32 (writer : Writer) (word : Int32) : Writer := writer.writeUint32 word.toUInt32

def writeUint64 (writer : Writer) (word : UInt64) : Writer := writer.writeRaw (putUint64 word)

def writeInt64 (writer : Writer) (word : Int64) : Writer := writer.writeUint64 word.toUInt64

def writeDouble (writer : Writer) (bits : UInt64) : Writer := writer.writeRaw (putUint64 bits)

def writeInt128 (writer : Writer) (value : FixedBytes 16) : Writer := writer.writeRaw value.val

def writeInt256 (writer : Writer) (value : FixedBytes 32) : Writer := writer.writeRaw value.val

def writeBool (writer : Writer) (value : Bool) : Writer :=
  writer.writeUint32 (if value then boolTrueID else boolFalseID)

/-- The length is truncated to one byte in the short form and to three bytes in the
long form; nothing here checks that it fits. -/
def writeBytes (writer : Writer) (bytes : List Byte) : Writer :=
  let length := bytes.length
  if length < 0xfe then
    ((writer.writeRaw [UInt8.ofNat length]).writeRaw bytes).writeRaw
      (List.replicate (padding (1 + length)) 0)
  else
    ((writer.writeRaw [0xfe, UInt8.ofNat length, UInt8.ofNat (length >>> 8),
      UInt8.ofNat (length >>> 16)]).writeRaw bytes).writeRaw
      (List.replicate (padding (4 + length)) 0)

def writeString (writer : Writer) (text : GoString) : Writer := writer.writeBytes text

def writeFlags (writer : Writer) (flags : UInt32) : Writer := writer.writeUint32 flags

end Writer

def bytesWire (bytes : List Byte) : List Byte :=
  if bytes.length < 0xfe then
    UInt8.ofNat bytes.length :: (bytes ++ List.replicate (padding (1 + bytes.length)) 0)
  else
    0xfe :: (encodeLE 3 bytes.length ++
      (bytes ++ List.replicate (padding (4 + bytes.length)) 0))

theorem write_bytes_buf (writer : Writer) (bytes : List Byte) :
    (writer.writeBytes bytes).buf = writer.buf ++ bytesWire bytes := by
  have shifted : ∀ value, value >>> 8 = value / 256 :=
    fun value => Nat.shiftRight_eq_div_pow value 8
  have twice : ∀ value, value >>> 16 = value / 256 / 256 := fun value => by
    rw [Nat.shiftRight_eq_div_pow, Nat.div_div_eq_div_mul]
  unfold Writer.writeBytes bytesWire
  by_cases short : bytes.length < 0xfe
  · simp [short, Writer.writeRaw]
  · simp [short, Writer.writeRaw, encodeLE, shifted, twice]

/-- A program that, in front of `bytes` in any buffer, returns `value` and moves the
cursor exactly behind them. -/
def Reads {Err Value : Type} (program : GoM Reader Err Value) (bytes : List Byte) (value : Value) :
    Prop :=
  ∀ front suffix, exec program ⟨front ++ bytes ++ suffix, front.length⟩ =
    (.ok value, ⟨front ++ bytes ++ suffix, front.length + bytes.length⟩)

section ReadRules

variable {Err Value Other : Type} {program : GoM Reader Err Value} {bytes : List Byte}
  {value : Value}

theorem reads_pure (value : Value) : Reads (pure value : GoM Reader Err Value) [] value := by
  intro front suffix
  simp

theorem Reads.bind {next : Value → GoM Reader Err Other} {rest : List Byte} {result : Other}
    (first : Reads program bytes value) (second : Reads (next value) rest result) :
    Reads (program >>= next) (bytes ++ rest) result := by
  intro front suffix
  have begun := first front (rest ++ suffix)
  have continued := second (front ++ bytes) suffix
  have before : front ++ (bytes ++ rest) ++ suffix = front ++ bytes ++ (rest ++ suffix) := by simp
  have after : front ++ bytes ++ (rest ++ suffix) = front ++ bytes ++ rest ++ suffix := by simp
  rw [before, exec_bind_ok begun]
  rw [List.length_append] at continued
  rw [after, continued, List.length_append, Nat.add_assoc]

theorem Reads.map (read : Reads program bytes value) (build : Value → Other) :
    Reads (program >>= fun value => pure (build value)) bytes (build value) := by
  have whole : Reads (program >>= fun value => pure (build value)) (bytes ++ [])
      (build value) := read.bind (reads_pure (build value))
  rwa [List.append_nil] at whole

theorem Reads.mapError {Mapped : Type} (read : Reads program bytes value)
    (change : Err → Mapped) : Reads (mapError change program) bytes value := by
  intro front suffix
  rw [exec_map_error, read front suffix]

theorem Reads.attempt (read : Reads program bytes value) :
    Reads (attempt program) bytes (.ok value) := by
  intro front suffix
  rw [exec_attempt, read front suffix]

theorem Reads.whole (read : Reads program bytes value) :
    exec program (newReader bytes) = (.ok value, ⟨bytes, bytes.length⟩) := by
  have ran := read [] []
  simp only [List.nil_append, List.append_nil, List.length_nil, Nat.zero_add] at ran
  rw [newReader, ran]

end ReadRules

theorem exec_need (count : Nat) (reader : Reader)
    (enough : reader.pos + count ≤ reader.buf.length) :
    exec (need count) reader = (.ok (), reader) := by
  have notShort : ¬reader.buf.length < reader.pos + count := by omega
  rw [need, exec_bind_ok (exec_get reader), if_neg notShort]
  rfl

theorem exec_slice (low high : Nat) (reader : Reader) (ordered : low ≤ high)
    (inside : high ≤ reader.buf.length) :
    exec (slice low high) reader = (.ok ((reader.buf.drop low).take (high - low)), reader) := by
  rw [slice, exec_bind_ok (exec_get reader), if_pos ⟨ordered, inside⟩]
  rfl

theorem slice_between (front bytes suffix : List Byte) :
    ((front ++ bytes ++ suffix).drop front.length).take
      (front.length + bytes.length - front.length) = bytes := by
  rw [List.append_assoc, List.drop_left' rfl, Nat.add_sub_cancel_left]
  exact List.take_left' rfl

theorem reads_raw (bytes : List Byte) : Reads (readRaw bytes.length) bytes bytes := by
  intro front suffix
  let reader : Reader := ⟨front ++ bytes ++ suffix, front.length⟩
  have inside : front.length + bytes.length ≤ reader.buf.length := by simp [reader]
  have sliced := exec_slice front.length (front.length + bytes.length) reader
    (Nat.le_add_right _ _) inside
  rw [slice_between] at sliced
  unfold readRaw
  rw [exec_bind_ok (exec_need bytes.length reader inside), exec_bind_ok (exec_get reader),
    exec_bind_ok sliced]
  rfl

theorem reads_uint32 (word : UInt32) : Reads readUint32 (putUint32 word) word := by
  have raw := (reads_raw (putUint32 word)).map uint32
  rw [put_uint32_length] at raw
  have value := uint32_put_append word []
  rw [List.append_nil] at value
  rwa [value] at raw

theorem reads_int32 (word : Int32) : Reads readInt32 (putUint32 word.toUInt32) word := by
  have signed := (reads_uint32 word.toUInt32).map UInt32.toInt32
  rwa [Int32.toInt32_toUInt32] at signed

theorem reads_uint64 (word : UInt64) : Reads readUint64 (putUint64 word) word := by
  have raw := (reads_raw (putUint64 word)).map uint64
  rw [put_uint64_length] at raw
  have value := uint64_put_append word []
  rw [List.append_nil] at value
  rwa [value] at raw

theorem reads_int64 (word : Int64) : Reads readInt64 (putUint64 word.toUInt64) word := by
  have signed := (reads_uint64 word.toUInt64).map UInt64.toInt64
  rwa [Int64.toInt64_toUInt64] at signed

theorem reads_fixed {count : Nat} (value : FixedBytes count) :
    Reads (readRaw count >>= fun bytes => pure (copyInto count bytes)) value.val value := by
  have raw := (reads_raw value.val).map (copyInto count)
  rw [value.property] at raw
  rwa [copy_into_exact] at raw

theorem reads_int128 (value : FixedBytes 16) : Reads readInt128 value.val value :=
  reads_fixed value

theorem reads_int256 (value : FixedBytes 32) : Reads readInt256 value.val value :=
  reads_fixed value

theorem reads_bool (value : Bool) :
    Reads readBool (putUint32 (if value then boolTrueID else boolFalseID)) value := by
  cases value with
  | true =>
      intro front suffix
      have begun := reads_uint32 boolTrueID front suffix
      simp only [if_true]
      rw [readBool, exec_bind_ok begun]
      simp
  | false =>
      intro front suffix
      have begun := reads_uint32 boolFalseID front suffix
      have different : boolFalseID ≠ boolTrueID := by decide
      simp only [Bool.false_eq_true, if_false]
      rw [readBool, exec_bind_ok begun]
      simp [different]

theorem reads_short_length (length : Nat) (short : length < 0xfe) :
    Reads readLengthPrefix [UInt8.ofNat length] (length, 1) := by
  intro front suffix
  let reader : Reader := ⟨front ++ [UInt8.ofNat length] ++ suffix, front.length⟩
  have inside : front.length + 1 ≤ reader.buf.length := by simp [reader]
  have sliced := exec_slice front.length (front.length + 1) reader (Nat.le_add_right _ _) inside
  have lead := slice_between front [UInt8.ofNat length] suffix
  rw [List.length_singleton] at lead
  rw [lead] at sliced
  have size : (UInt8.ofNat length).toNat = length := by
    rw [UInt8.toNat_ofNat']
    omega
  have notReserved : UInt8.ofNat length ≠ 0xff := by
    intro same
    have bad := congrArg UInt8.toNat same
    rw [size] at bad
    simp at bad
    omega
  have isShort : UInt8.ofNat length < 0xfe := by
    rw [UInt8.lt_iff_toNat_lt, size]
    exact short
  unfold readLengthPrefix
  rw [exec_bind_ok (exec_need 1 reader inside), exec_bind_ok (exec_get reader),
    exec_bind_ok sliced, List.headD_cons, lengthPrefixOf, if_neg notReserved, if_pos isShort,
    exec_bind_ok (show exec (advance 1) reader = _ from exec_modify _ _), exec_pure, size]
  rfl

theorem reads_long_length (length : Nat) (fits : length < 2 ^ 24) :
    Reads readLengthPrefix (0xfe :: encodeLE 3 length) (length, 4) := by
  intro front suffix
  let reader : Reader := ⟨front ++ 0xfe :: encodeLE 3 length ++ suffix, front.length⟩
  have inside : front.length + 4 ≤ reader.buf.length := by simp [reader]
  have leadInside : front.length + 1 ≤ reader.buf.length := by omega
  have leadSliced := exec_slice front.length (front.length + 1) reader
    (Nat.le_add_right _ _) leadInside
  have lead := slice_between front [0xfe] (encodeLE 3 length ++ suffix)
  rw [List.length_singleton] at lead
  have sameBuf : front ++ [0xfe] ++ (encodeLE 3 length ++ suffix) = reader.buf := by
    simp [reader]
  rw [sameBuf] at lead
  rw [lead] at leadSliced
  have headerSliced := exec_slice (front.length + 1) (front.length + 4) reader
    (by omega) inside
  have header := slice_between (front ++ [0xfe]) (encodeLE 3 length) suffix
  have sameAgain : front ++ [0xfe] ++ encodeLE 3 length ++ suffix = reader.buf := by
    simp [reader]
  rw [sameAgain, List.length_append, List.length_singleton, encode_le_length,
    show front.length + 1 + 3 = front.length + 4 by omega] at header
  rw [header] at headerSliced
  have value : decodeLE (encodeLE 3 length) = length := by
    rw [decode_encode_le]
    exact Nat.mod_eq_of_lt fits
  have notReserved : ¬(0xfe : UInt8) = 0xff := by decide
  have notShort : ¬(0xfe : UInt8) < 0xfe := by decide
  unfold readLengthPrefix
  rw [exec_bind_ok (exec_need 1 reader leadInside), exec_bind_ok (exec_get reader),
    exec_bind_ok leadSliced, List.headD_cons, lengthPrefixOf, if_neg notReserved,
    if_neg notShort, exec_bind_ok (exec_need 4 reader inside), exec_bind_ok headerSliced,
    exec_bind_ok (show exec (advance 4) reader = _ from exec_modify _ _), exec_pure, value]
  simp [reader]

theorem reads_padding (bytes : List Byte) : Reads (skipPadding bytes.length) bytes () := by
  intro front suffix
  let reader : Reader := ⟨front ++ bytes ++ suffix, front.length⟩
  have inside : front.length + bytes.length ≤ reader.buf.length := by simp [reader]
  by_cases some : 0 < bytes.length
  · rw [skipPadding, if_pos some, exec_bind_ok (exec_need bytes.length reader inside)]
    rfl
  · have empty : bytes = [] := List.length_eq_zero_iff.mp (by omega)
    subst empty
    simp [skipPadding]

/-- The wire form of a byte string reads back whenever its length fits three bytes:
the writer truncates the length, so the bound is necessary for the long form. -/
theorem reads_bytes (bytes : List Byte) (fits : bytes.length < 2 ^ 24) :
    Reads readBytes (bytesWire bytes) bytes := by
  have finish : ∀ headerLen : Nat,
      Reads (do
          let out ← readRaw bytes.length
          skipPadding (padding (headerLen + bytes.length))
          pure out)
        (bytes ++ List.replicate (padding (headerLen + bytes.length)) 0) bytes := by
    intro headerLen
    have padded := reads_padding (List.replicate (padding (headerLen + bytes.length)) 0)
    rw [List.length_replicate] at padded
    have tail := padded.map fun _ => bytes
    exact (reads_raw bytes).bind tail
  unfold bytesWire
  by_cases short : bytes.length < 0xfe
  · rw [if_pos short]
    exact (reads_short_length bytes.length short).bind (finish 1)
  · rw [if_neg short]
    exact (reads_long_length bytes.length fits).bind (finish 4)

end Gocoon.TlPrimitives
