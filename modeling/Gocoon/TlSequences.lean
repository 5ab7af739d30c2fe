import Gocoon.TlVector

/-!
# Sequences of typed values

A caller of the package writes values of several kinds one after the other and reads them with
the methods of the same kinds. What is written for a value is a whole number of words, and the
reader of its kind takes exactly these bytes, so that a sequence is read back value by value.
A vector is the exception: its count is cut to 32 bits.
-/

namespace Gocoon.TlSequences

open Gocoon.LittleEndianBytes
open Gocoon.GoProgram
open Gocoon.TlPrimitives
open Gocoon.TlVector

set_option autoImplicit false

inductive Kind where
  | int32
  | uint32
  | int64
  | uint64
  | double
  | int128
  | int256
  | bool
  | bytes
  | string
  | vectorBytes
  | vectorString
  | vectorInt256
  deriving DecidableEq

inductive TlValue where
  | int32 (word : Int32)
  | uint32 (word : UInt32)
  | int64 (word : Int64)
  | uint64 (word : UInt64)
  | double (bits : UInt64)
  | int128 (value : FixedBytes 16)
  | int256 (value : FixedBytes 32)
  | bool (value : Bool)
  | bytes (value : List Byte)
  | string (text : GoString)
  | vectorBytes (items : List (List Byte))
  | vectorString (items : List GoString)
  | vectorInt256 (items : List (FixedBytes 32))
  deriving DecidableEq

namespace TlValue

def kind : TlValue → Kind
  | .int32 _ => .int32
  | .uint32 _ => .uint32
  | .int64 _ => .int64
  | .uint64 _ => .uint64
  | .double _ => .double
  | .int128 _ => .int128
  | .int256 _ => .int256
  | .bool _ => .bool
  | .bytes _ => .bytes
  | .string _ => .string
  | .vectorBytes _ => .vectorBytes
  | .vectorString _ => .vectorString
  | .vectorInt256 _ => .vectorInt256

def write (writer : Writer) : TlValue → Writer
  | .int32 word => writer.writeInt32 word
  | .uint32 word => writer.writeUint32 word
  | .int64 word => writer.writeInt64 word
  | .uint64 word => writer.writeUint64 word
  | .double bits => writer.writeDouble bits
  | .int128 value => writer.writeInt128 value
  | .int256 value => writer.writeInt256 value
  | .bool value => writer.writeBool value
  | .bytes value => writer.writeBytes value
  | .string text => writer.writeString text
  | .vectorBytes items => writeVectorBytes writer items
  | .vectorString items => writeVectorString writer items
  | .vectorInt256 items => writeVectorInt256 writer items

/-- The byte strings in the value are shorter than 2^24 bytes. -/
def Short : TlValue → Prop
  | .bytes value => value.length < 2 ^ 24
  | .string text => text.length < 2 ^ 24
  | .vectorBytes items => ∀ item ∈ items, item.length < 2 ^ 24
  | .vectorString items => ∀ item ∈ items, item.length < 2 ^ 24
  | _ => True

/-- A vector has fewer than 2^32 items. -/
def Counted : TlValue → Prop
  | .vectorBytes items => items.length < 2 ^ 32
  | .vectorString items => items.length < 2 ^ 32
  | .vectorInt256 items => items.length < 2 ^ 32
  | _ => True

def wire : TlValue → List Byte
  | .int32 word => putUint32 word.toUInt32
  | .uint32 word => putUint32 word
  | .int64 word => putUint64 word.toUInt64
  | .uint64 word => putUint64 word
  | .double bits => putUint64 bits
  | .int128 value => value.val
  | .int256 value => value.val
  | .bool value => putUint32 (if value then boolTrueID else boolFalseID)
  | .bytes value => bytesWire value
  | .string text => bytesWire text
  | .vectorBytes items => vectorWire bytesWire items
  | .vectorString items => vectorWire bytesWire items
  | .vectorInt256 items => vectorWire Subtype.val items

end TlValue

def Kind.read : Kind → ReadM TlValue
  | .int32 => do
      let word ← readInt32
      pure (.int32 word)
  | .uint32 => do
      let word ← readUint32
      pure (.uint32 word)
  | .int64 => do
      let word ← readInt64
      pure (.int64 word)
  | .uint64 => do
      let word ← readUint64
      pure (.uint64 word)
  | .double => do
      let bits ← readDouble
      pure (.double bits)
  | .int128 => do
      let value ← readInt128
      pure (.int128 value)
  | .int256 => do
      let value ← readInt256
      pure (.int256 value)
  | .bool => do
      let value ← readBool
      pure (.bool value)
  | .bytes => do
      let value ← readBytes
      pure (.bytes value)
  | .string => do
      let text ← readString
      pure (.string text)
  | .vectorBytes => do
      let items ← readVectorBytes
      pure (.vectorBytes items)
  | .vectorString => do
      let items ← readVectorString
      pure (.vectorString items)
  | .vectorInt256 => do
      let items ← readVectorInt256
      pure (.vectorInt256 items)

def writeAll (values : List TlValue) : Writer := values.foldl TlValue.write newWriter

def readAll : List Kind → ReadM (List TlValue)
  | [] => pure []
  | kind :: kinds => do
      let value ← kind.read
      let values ← readAll kinds
      pure (value :: values)

/-! ## One value -/

namespace TlValue

theorem write_buf (writer : Writer) (value : TlValue) :
    (value.write writer).buf = writer.buf ++ value.wire := by
  cases value with
  | bytes value => exact write_bytes_buf writer value
  | string text => exact write_bytes_buf writer text
  | vectorBytes items => exact write_vector_buf write_bytes_buf writer items
  | vectorString items => exact write_vector_buf write_bytes_buf writer items
  | vectorInt256 items => exact write_vector_buf (fun _ _ => rfl) writer items
  | _ => rfl

theorem reads_back {value : TlValue} (short : value.Short) (counted : value.Counted) :
    Reads value.kind.read value.wire value := by
  cases value with
  | int32 word => exact (reads_int32 word).map _
  | uint32 word => exact (reads_uint32 word).map _
  | int64 word => exact (reads_int64 word).map _
  | uint64 word => exact (reads_uint64 word).map _
  | double bits => exact (reads_uint64 bits).map _
  | int128 value => exact (reads_int128 value).map _
  | int256 value => exact (reads_int256 value).map _
  | bool value => exact (reads_bool value).map _
  | bytes value => exact (reads_bytes value short).map _
  | string text => exact (reads_bytes text short).map _
  | vectorBytes items =>
      have read : Reads readVectorBytes (vectorWire bytesWire items) items :=
        reads_vector (by decide) counted fun item member => reads_bytes item (short item member)
      exact read.map _
  | vectorString items =>
      have read : Reads readVectorString (vectorWire bytesWire items) items :=
        reads_vector (by decide) counted fun item member => reads_bytes item (short item member)
      exact read.map _
  | vectorInt256 items =>
      have read : Reads readVectorInt256 (vectorWire Subtype.val items) items :=
        reads_vector (by decide) counted fun item _ => reads_int256 item
      exact read.map _

theorem bytes_wire_aligned (bytes : List Byte) : (bytesWire bytes).length % 4 = 0 := by
  unfold bytesWire
  split_ifs with short
  · simp only [List.length_cons, List.length_append, List.length_replicate, padding]
    omega
  · simp only [List.length_cons, List.length_append, List.length_replicate, encode_le_length,
      padding]
    omega

theorem flat_aligned {Item : Type} {wire : Item → List Byte}
    (aligned : ∀ item, (wire item).length % 4 = 0) (items : List Item) :
    (items.flatMap wire).length % 4 = 0 := by
  induction items with
  | nil => rfl
  | cons item items induction =>
      have here := aligned item
      rw [List.flatMap_cons, List.length_append]
      omega

theorem vector_wire_aligned {Item : Type} {wire : Item → List Byte}
    (aligned : ∀ item, (wire item).length % 4 = 0) (items : List Item) :
    (vectorWire wire items).length % 4 = 0 := by
  have flat := flat_aligned aligned items
  rw [vectorWire, List.length_append, put_uint32_length]
  omega

theorem wire_aligned (value : TlValue) : value.wire.length % 4 = 0 := by
  have fixed : ∀ item : FixedBytes 32, item.val.length % 4 = 0 := by
    intro item
    rw [item.property]
  cases value with
  | int32 word => rw [wire, put_uint32_length]
  | uint32 word => rw [wire, put_uint32_length]
  | int64 word => rw [wire, put_uint64_length]
  | uint64 word => rw [wire, put_uint64_length]
  | double bits => rw [wire, put_uint64_length]
  | int128 value => rw [wire, value.property]
  | int256 value => exact fixed value
  | bool value => rw [wire, put_uint32_length]
  | bytes value => exact bytes_wire_aligned value
  | string text => exact bytes_wire_aligned text
  | vectorBytes items => exact vector_wire_aligned bytes_wire_aligned items
  | vectorString items => exact vector_wire_aligned bytes_wire_aligned items
  | vectorInt256 items => exact vector_wire_aligned fixed items

end TlValue

/-! ## Sequences -/

theorem write_all_buf (values : List TlValue) :
    (writeAll values).buf = values.flatMap TlValue.wire :=
  fold_write_buf TlValue.write_buf newWriter values

theorem write_all_aligned (values : List TlValue) : (writeAll values).buf.length % 4 = 0 := by
  rw [write_all_buf]
  exact TlValue.flat_aligned TlValue.wire_aligned values

theorem reads_all {values : List TlValue} (short : ∀ value ∈ values, value.Short)
    (counted : ∀ value ∈ values, value.Counted) :
    Reads (readAll (values.map TlValue.kind)) (values.flatMap TlValue.wire) values := by
  induction values with
  | nil => exact reads_pure []
  | cons value values induction =>
      obtain ⟨shortHere, shortLater⟩ := List.forall_mem_cons.mp short
      obtain ⟨countedHere, countedLater⟩ := List.forall_mem_cons.mp counted
      rw [List.map_cons, List.flatMap_cons, readAll]
      apply (TlValue.reads_back shortHere countedHere).bind
      exact (induction shortLater countedLater).map _

theorem read_front {values : List TlValue} (short : ∀ value ∈ values, value.Short)
    (counted : ∀ value ∈ values, value.Counted) (suffix : List Byte) (count : Nat) :
    exec (readAll ((values.take count).map TlValue.kind))
        (newReader ((writeAll values).buf ++ suffix)) =
      (.ok (values.take count), ⟨(writeAll values).buf ++ suffix,
        (writeAll (values.take count)).buf.length⟩) := by
  have shortFront : ∀ value ∈ values.take count, value.Short :=
    fun value member => short value (List.mem_of_mem_take member)
  have countedFront : ∀ value ∈ values.take count, value.Counted :=
    fun value member => counted value (List.mem_of_mem_take member)
  have read := reads_all shortFront countedFront []
    ((values.drop count).flatMap TlValue.wire ++ suffix)
  have whole : (writeAll values).buf = (values.take count).flatMap TlValue.wire ++
      (values.drop count).flatMap TlValue.wire := by
    rw [← List.flatMap_append, List.take_append_drop, write_all_buf]
  rw [List.nil_append, ← List.append_assoc, ← whole, List.length_nil, Nat.zero_add] at read
  rw [write_all_buf (values.take count)]
  exact read

/-- What is written in order is read back in order, up to any bytes appended behind it, and the
buffer and the cursor are at a whole number of words after every value. -/
theorem typed_sequence_reads_back (values : List TlValue) (short : ∀ value ∈ values, value.Short)
    (counted : ∀ value ∈ values, value.Counted) (suffix : List Byte) :
    exec (readAll (values.map TlValue.kind)) (newReader ((writeAll values).buf ++ suffix)) =
        (.ok values, ⟨(writeAll values).buf ++ suffix, (writeAll values).buf.length⟩) ∧
      ∀ count, (writeAll (values.take count)).buf.length % 4 = 0 ∧
        exec (readAll ((values.take count).map TlValue.kind))
            (newReader ((writeAll values).buf ++ suffix)) =
          (.ok (values.take count), ⟨(writeAll values).buf ++ suffix,
            (writeAll (values.take count)).buf.length⟩) := by
  constructor
  · have whole := read_front short counted suffix values.length
    rw [List.take_length] at whole
    exact whole
  · intro count
    exact ⟨write_all_aligned (values.take count), read_front short counted suffix count⟩

def mixedValues : List TlValue :=
  [.bool true, .bytes [1, 2, 3, 4], .int32 (-1), .vectorString [ascii "a", []], .double 1,
    .vectorBytes [], .int64 7]

theorem mixed_values_read_back :
    exec (readAll [.bool, .bytes, .int32, .vectorString, .double, .vectorBytes, .int64])
        (newReader ((writeAll mixedValues).buf ++ [0xff])) =
      (.ok mixedValues, ⟨(writeAll mixedValues).buf ++ [0xff], 48⟩) := by
  have short : ∀ value ∈ mixedValues, value.Short := by
    simp [mixedValues, TlValue.Short, ascii]
  have counted : ∀ value ∈ mixedValues, value.Counted := by
    simp [mixedValues, TlValue.Counted]
  exact (typed_sequence_reads_back mixedValues short counted [0xff]).1

/-! ## Overlong vectors -/

def overlongVector : List (List Byte) := List.replicate (2 ^ 32) []

/-- The count of 2^32 empty byte strings is written as zero: the vector is read back as an empty
one, and its items stay in front of the cursor. -/
theorem overlong_vector_lost :
    (TlValue.vectorBytes overlongVector).Short ∧
      exec (readAll [.vectorBytes]) (newReader (writeAll [.vectorBytes overlongVector]).buf) =
        (.ok [.vectorBytes []], ⟨(writeAll [.vectorBytes overlongVector]).buf, 4⟩) ∧
      overlongVector ≠ [] := by
  have size : overlongVector.length = 2 ^ 32 := List.length_replicate
  have wrapped : UInt32.ofNat overlongVector.length = UInt32.ofNat 0 := by
    rw [size]
    rfl
  have short : (TlValue.vectorBytes overlongVector).Short := by
    intro item member
    rw [List.eq_of_mem_replicate member]
    exact Nat.two_pow_pos 24
  have empty : TlValue.Short (.vectorBytes []) ∧ TlValue.Counted (.vectorBytes []) := by
    simp [TlValue.Short, TlValue.Counted]
  have read := reads_all (List.forall_mem_singleton.mpr empty.1)
    (List.forall_mem_singleton.mpr empty.2) [] (overlongVector.flatMap bytesWire)
  have written : (writeAll [.vectorBytes overlongVector]).buf =
      [TlValue.vectorBytes []].flatMap TlValue.wire ++ overlongVector.flatMap bytesWire := by
    rw [write_all_buf, List.flatMap_singleton, List.flatMap_singleton, TlValue.wire, TlValue.wire,
      vectorWire, vectorWire, wrapped, List.flatMap_nil, List.append_nil, List.length_nil]
  refine ⟨short, ?_, ?_⟩
  · rw [List.nil_append, ← written] at read
    exact read
  · intro same
    rw [same] at size
    cases size

end Gocoon.TlSequences
