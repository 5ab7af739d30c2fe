import Gocoon.TlTypes

/-!
# Vectors

A vector is a count and its items. The count is the sender's word: a loop trusts it and ends
earlier only because an item cannot be read. `make` is asked for the whole vector before the
first item is read; it panics when the requested size exceeds the address space, which a
32-bit count of small items never does. The writer cuts the count to 32 bits, so that a written
vector reads back if its count fits these.
-/

namespace Gocoon.TlVector

open Gocoon.LittleEndianBytes
open Gocoon.GoProgram
open Gocoon.TlPrimitives
open Gocoon.TlTypes

set_option autoImplicit false

/-- The largest allocation of the runtime on a 64-bit platform. -/
def maxAlloc : Nat := 2 ^ 48

section Loops

variable {Err Item : Type}

/-- `make([]T, n)` with items of `elementSize` bytes. -/
def makeSlice (elementSize count : Nat) : GoM Reader Err Unit :=
  if elementSize * count ≤ maxAlloc then pure () else crash

/-- A counted loop that keeps what its body reads. -/
def readItems (item : GoM Reader Err Item) : Nat → GoM Reader Err (List Item)
  | 0 => pure []
  | count + 1 => do
      let first ← item
      let rest ← readItems item count
      pure (first :: rest)

theorem make_slice_counted {elementSize count : Nat} (small : elementSize ≤ 2 ^ 16)
    (counted : count < 2 ^ 32) :
    (makeSlice elementSize count : GoM Reader Err Unit) = pure () := by
  have size : elementSize * count ≤ 2 ^ 16 * 2 ^ 32 :=
    Nat.mul_le_mul small (Nat.le_of_lt counted)
  rw [makeSlice, if_pos (by simpa [maxAlloc] using size)]

end Loops

/-- A whole vector: its count, the slice for its items and the loop. -/
def readVector {Item : Type} (elementSize : Nat) (item : ReadM Item) : ReadM (List Item) := do
  let count ← readVectorLen
  makeSlice elementSize count
  readItems item count

def readVectorBytes : ReadM (List (List Byte)) := readVector 24 readBytes

def readVectorString : ReadM (List GoString) := readVector 16 readString

def readVectorInt256 : ReadM (List (FixedBytes 32)) := readVector 32 readInt256

/-- The count is converted to 32 bits; nothing here checks that it fits. -/
def writeVectorLen (writer : Writer) (count : Nat) : Writer :=
  writer.writeUint32 (UInt32.ofNat count)

/-- A whole vector: its count and its items, one after the other. -/
def writeVector {Item : Type} (write : Writer → Item → Writer) (writer : Writer)
    (items : List Item) : Writer :=
  items.foldl write (writeVectorLen writer items.length)

def writeVectorBytes (writer : Writer) (items : List (List Byte)) : Writer :=
  writeVector Writer.writeBytes writer items

def writeVectorString (writer : Writer) (items : List GoString) : Writer :=
  writeVector Writer.writeString writer items

def writeVectorInt256 (writer : Writer) (items : List (FixedBytes 32)) : Writer :=
  writeVector Writer.writeInt256 writer items

/-! ## Reading back -/

section RoundTrip

variable {Item : Type}

def vectorWire (wire : Item → List Byte) (items : List Item) : List Byte :=
  putUint32 (UInt32.ofNat items.length) ++ items.flatMap wire

theorem fold_write_buf {write : Writer → Item → Writer} {wire : Item → List Byte}
    (appends : ∀ writer item, (write writer item).buf = writer.buf ++ wire item)
    (writer : Writer) (items : List Item) :
    (items.foldl write writer).buf = writer.buf ++ items.flatMap wire := by
  induction items generalizing writer with
  | nil => simp
  | cons item items induction =>
      rw [List.foldl_cons, induction, appends, List.flatMap_cons, List.append_assoc]

theorem write_vector_buf {write : Writer → Item → Writer} {wire : Item → List Byte}
    (appends : ∀ writer item, (write writer item).buf = writer.buf ++ wire item)
    (writer : Writer) (items : List Item) :
    (writeVector write writer items).buf = writer.buf ++ vectorWire wire items := by
  rw [writeVector, fold_write_buf appends, vectorWire, ← List.append_assoc]
  rfl

theorem reads_vector_len {count : Nat} (counted : count < 2 ^ 32) :
    Reads readVectorLen (putUint32 (UInt32.ofNat count)) count := by
  have read := (reads_uint32 (UInt32.ofNat count)).map UInt32.toNat
  have size : (UInt32.ofNat count).toNat = count := by
    rw [UInt32.toNat_ofNat']
    exact Nat.mod_eq_of_lt counted
  rwa [size] at read

theorem reads_items {Err Source : Type} {item : GoM Reader Err Item} {wire : Source → List Byte}
    {kept : Source → Item} (values : List Source)
    (each : ∀ value ∈ values, Reads item (wire value) (kept value)) :
    Reads (readItems item values.length) (values.flatMap wire) (values.map kept) := by
  induction values with
  | nil => exact reads_pure []
  | cons value values induction =>
      have rest := induction fun other member => each other (List.mem_cons_of_mem _ member)
      exact (each value List.mem_cons_self).bind (rest.map _)

theorem reads_vector {elementSize : Nat} {item : ReadM Item} {wire : Item → List Byte}
    {items : List Item} (small : elementSize ≤ 2 ^ 16) (counted : items.length < 2 ^ 32)
    (each : ∀ value ∈ items, Reads item (wire value) value) :
    Reads (readVector elementSize item) (vectorWire wire items) items := by
  have all : Reads (readItems item items.length) (items.flatMap wire) (items.map id) :=
    reads_items items each
  rw [List.map_id] at all
  apply (reads_vector_len counted).bind
  rw [make_slice_counted small counted]
  exact (reads_pure ()).bind all

end RoundTrip

end Gocoon.TlVector
