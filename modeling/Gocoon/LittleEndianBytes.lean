import Mathlib.Data.List.Basic
import Mathlib.Tactic.Ring
import Mathlib.Tactic.Linarith

/-!
# Little-endian words over byte lists

Byte strings are lists of eight-bit words, so that truncation to a byte is the
machine conversion and not a side condition. A word of a given width is written
low byte first; reading a list of that width back gives the value modulo
`256 ^ width`, and every list is the encoding of the value it decodes to.
-/

namespace Gocoon.LittleEndianBytes

set_option autoImplicit false

abbrev Byte := UInt8

def encodeLE : Nat → Nat → List Byte
  | 0, _ => []
  | width + 1, value => UInt8.ofNat value :: encodeLE width (value / 256)

def littleEndian (width value : Nat) : List Byte :=
  (List.range width).map fun place => UInt8.ofNat (value / 256 ^ place)

def decodeLE : List Byte → Nat
  | [] => 0
  | byte :: rest => byte.toNat + 256 * decodeLE rest

@[simp] theorem encode_le_length (width value : Nat) :
    (encodeLE width value).length = width := by
  induction width generalizing value with
  | zero => rfl
  | succ width ih => simp [encodeLE, ih]

theorem encode_le_places (width value : Nat) : encodeLE width value = littleEndian width value := by
  induction width generalizing value with
  | zero => rfl
  | succ width ih =>
      rw [encodeLE, ih, littleEndian, littleEndian, List.range_succ_eq_map, List.map_cons,
        List.map_map, pow_zero, Nat.div_one]
      simp only [Function.comp_def, pow_succ', Nat.div_div_eq_div_mul]

theorem decode_le_lt (bytes : List Byte) : decodeLE bytes < 256 ^ bytes.length := by
  induction bytes with
  | nil => simp [decodeLE]
  | cons byte rest ih =>
      have bounded : byte.toNat < 256 := byte.toNat_lt
      simp only [decodeLE, List.length_cons, pow_succ]
      nlinarith

theorem decode_encode_le (width value : Nat) :
    decodeLE (encodeLE width value) = value % 256 ^ width := by
  induction width generalizing value with
  | zero => simp [encodeLE, decodeLE, Nat.mod_one]
  | succ width ih =>
      have low : (UInt8.ofNat value).toNat = value % 256 := by simp
      simp only [encodeLE, decodeLE, ih, low, pow_succ]
      rw [Nat.mul_comm (256 ^ width) 256, Nat.mod_mul]

theorem encode_decode_le (bytes : List Byte) :
    encodeLE bytes.length (decodeLE bytes) = bytes := by
  induction bytes with
  | nil => rfl
  | cons byte rest ih =>
      have bounded : byte.toNat < 256 := byte.toNat_lt
      have quotient : (byte.toNat + 256 * decodeLE rest) / 256 = decodeLE rest := by omega
      have head : UInt8.ofNat (byte.toNat + 256 * decodeLE rest) = byte := by
        apply UInt8.toNat_inj.mp
        rw [UInt8.toNat_ofNat']
        omega
      simp only [List.length_cons, decodeLE, encodeLE, quotient, head, ih]

/-- A full-width read: the value of exactly `count` bytes and what follows, or
nothing when the list is shorter. -/
def splitExactly (count : Nat) (input : List Byte) : Option (List Byte × List Byte) :=
  if count ≤ input.length then some (input.take count, input.drop count) else none

theorem split_exactly_append (front suffix : List Byte) :
    splitExactly front.length (front ++ suffix) = some (front, suffix) := by
  simp [splitExactly]

theorem split_exactly_sound {count : Nat} {input front suffix : List Byte}
    (split : splitExactly count input = some (front, suffix)) :
    front.length = count ∧ input = front ++ suffix := by
  unfold splitExactly at split
  split_ifs at split with enough
  obtain ⟨rfl, rfl⟩ := Prod.mk.inj (Option.some.inj split)
  exact ⟨List.length_take_of_le enough, (List.take_append_drop count input).symm⟩

/-- Writing a 32-bit word (`binary.LittleEndian.PutUint32`). -/
def putUint32 (word : UInt32) : List Byte := encodeLE 4 word.toNat

/-- Reading a 32-bit word from the first four bytes (`binary.LittleEndian.Uint32`). -/
def uint32 (bytes : List Byte) : UInt32 := UInt32.ofNat (decodeLE (bytes.take 4))

def putUint64 (word : UInt64) : List Byte := encodeLE 8 word.toNat

def uint64 (bytes : List Byte) : UInt64 := UInt64.ofNat (decodeLE (bytes.take 8))

@[simp] theorem put_uint32_length (word : UInt32) : (putUint32 word).length = 4 :=
  encode_le_length 4 _

@[simp] theorem put_uint64_length (word : UInt64) : (putUint64 word).length = 8 :=
  encode_le_length 8 _

theorem uint32_put_append (word : UInt32) (suffix : List Byte) :
    uint32 (putUint32 word ++ suffix) = word := by
  have front : (putUint32 word ++ suffix).take 4 = putUint32 word :=
    List.take_left' (put_uint32_length word)
  have bounded : word.toNat < 256 ^ 4 := word.toNat_lt
  rw [uint32, front, putUint32, decode_encode_le, Nat.mod_eq_of_lt bounded]
  exact UInt32.ofNat_toNat

theorem uint64_put_append (word : UInt64) (suffix : List Byte) :
    uint64 (putUint64 word ++ suffix) = word := by
  have front : (putUint64 word ++ suffix).take 8 = putUint64 word :=
    List.take_left' (put_uint64_length word)
  have bounded : word.toNat < 256 ^ 8 := word.toNat_lt
  rw [uint64, front, putUint64, decode_encode_le, Nat.mod_eq_of_lt bounded]
  exact UInt64.ofNat_toNat

theorem put_uint32_of_bytes (bytes : List Byte) (width : bytes.length = 4) :
    putUint32 (uint32 bytes) = bytes := by
  have bounded : decodeLE bytes < 2 ^ 32 := by
    have bound := decode_le_lt bytes
    rw [width] at bound
    exact bound
  rw [putUint32, uint32, List.take_of_length_le width.le, UInt32.toNat_ofNat',
    Nat.mod_eq_of_lt bounded, ← width, encode_decode_le]

theorem put_uint64_of_bytes (bytes : List Byte) (width : bytes.length = 8) :
    putUint64 (uint64 bytes) = bytes := by
  have bounded : decodeLE bytes < 2 ^ 64 := by
    have bound := decode_le_lt bytes
    rw [width] at bound
    exact bound
  rw [putUint64, uint64, List.take_of_length_le width.le, UInt64.toNat_ofNat',
    Nat.mod_eq_of_lt bounded, ← width, encode_decode_le]

end Gocoon.LittleEndianBytes
