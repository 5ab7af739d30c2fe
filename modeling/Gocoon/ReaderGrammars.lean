import Gocoon.ReaderSafety

/-!
# Readers that follow a grammar

A grammar says which input may be read as which value, and what is left behind it. A reader
follows the grammar if it succeeds exactly on such input, returns the value and stops where the
rest begins, and if only certain errors stop it anywhere else. Grammars are put together the way
the readers are. Those of integers and byte strings cover input that no serialiser writes, such as
a length in its long form that would have fitted the short one.
-/

namespace Gocoon.ReaderGrammars

open Gocoon.LittleEndianBytes
open Gocoon.GoProgram
open Gocoon.TlPrimitives
open Gocoon.TlTypes
open Gocoon.ReaderSafety

set_option autoImplicit false

section Rules

variable {Err Value Other : Type} {program : GoM Reader Err Value}
  {grammar : List Byte → Value → List Byte → Prop} {errors : Err → Prop}

structure Follows (program : GoM Reader Err Value) (grammar : List Byte → Value → List Byte → Prop)
    (errors : Err → Prop) : Prop where
  covers : ∀ input value rest, grammar input value rest →
    ∃ bytes, input = bytes ++ rest ∧ Reads program bytes value
  heeds : ∀ reader value after, exec program reader = (.ok value, after) →
    grammar (reader.buf.drop reader.pos) value (after.buf.drop after.pos)
  fails : ∀ reader fault after, exec program reader = (.error fault, after) →
    ∃ error, fault = .returned error ∧ errors error

theorem Follows.congr {other : List Byte → Value → List Byte → Prop}
    (follows : Follows program grammar errors)
    (same : ∀ input value rest, grammar input value rest ↔ other input value rest) :
    Follows program other errors where
  covers input value rest accepted :=
    follows.covers input value rest ((same input value rest).mpr accepted)
  heeds reader value after ran := (same _ _ _).mp (follows.heeds reader value after ran)
  fails := follows.fails

theorem Follows.mono {more : Err → Prop} (follows : Follows program grammar errors)
    (weaker : ∀ error, errors error → more error) : Follows program grammar more where
  covers := follows.covers
  heeds := follows.heeds
  fails reader fault after ran := by
    obtain ⟨error, same, known⟩ := follows.fails reader fault after ran
    exact ⟨error, same, weaker error known⟩

theorem follows_pure (value : Value) :
    Follows (pure value : GoM Reader Err Value)
      (fun input found rest => input = rest ∧ found = value) errors where
  covers input found rest := by
    rintro ⟨rfl, rfl⟩
    exact ⟨[], rfl, reads_pure found⟩
  heeds reader found after ran := by
    cases ran
    exact ⟨rfl, rfl⟩
  fails reader fault after ran := by cases ran

theorem follows_fail {error : Err} (known : errors error) :
    Follows (fail error : GoM Reader Err Value) (fun _ _ _ => False) errors where
  covers _ _ _ accepted := accepted.elim
  heeds reader value after ran := by cases ran
  fails reader fault after ran := by
    cases ran
    exact ⟨error, rfl, known⟩

theorem exec_bind_fault {next : Value → GoM Reader Err Other} {reader after : Reader}
    {fault : Fault Err} (ran : exec (program >>= next) reader = (.error fault, after)) :
    exec program reader = (.error fault, after) ∨
      ∃ value middle, exec program reader = (.ok value, middle) ∧
        exec (next value) middle = (.error fault, after) := by
  rw [exec_bind] at ran
  split at ran
  · rename_i value middle first
    exact .inr ⟨value, middle, first, ran⟩
  · rename_i other middle first
    cases ran
    exact .inl first

theorem Follows.bind {next : Value → GoM Reader Err Other}
    {nextGrammar : Value → List Byte → Other → List Byte → Prop}
    (first : Follows program grammar errors)
    (second : ∀ value, Follows (next value) (nextGrammar value) errors) :
    Follows (program >>= next) (fun input out rest =>
      ∃ value middle, grammar input value middle ∧ nextGrammar value middle out rest) errors where
  covers input out rest := by
    rintro ⟨value, middle, here, behind⟩
    obtain ⟨front, rfl, begun⟩ := first.covers input value middle here
    obtain ⟨back, rfl, ended⟩ := (second value).covers middle out rest behind
    exact ⟨front ++ back, (List.append_assoc _ _ _).symm, begun.bind ended⟩
  heeds reader out after ran := by
    obtain ⟨value, middle, begun, ended⟩ := exec_bind_returned ran
    exact ⟨value, _, first.heeds reader value middle begun,
      (second value).heeds middle out after ended⟩
  fails reader fault after ran := by
    rcases exec_bind_fault ran with begun | ⟨value, middle, -, ended⟩
    · exact first.fails reader fault after begun
    · exact (second value).fails middle fault after ended

theorem Follows.map (follows : Follows program grammar errors) (build : Value → Other) :
    Follows (program >>= fun value => pure (build value))
      (fun input out rest => ∃ value, grammar input value rest ∧ out = build value) errors := by
  apply (follows.bind fun value => follows_pure (build value)).congr
  intro input out rest
  constructor
  · rintro ⟨value, _, accepted, rfl, rfl⟩
    exact ⟨value, accepted, rfl⟩
  · rintro ⟨value, accepted, rfl⟩
    exact ⟨value, rest, accepted, rfl, rfl⟩

theorem Follows.if_then {condition : Prop} [Decidable condition] {other : GoM Reader Err Value}
    {otherGrammar : List Byte → Value → List Byte → Prop}
    (whenTrue : Follows program grammar errors) (whenFalse : Follows other otherGrammar errors) :
    Follows (if condition then program else other) (fun input value rest =>
      if condition then grammar input value rest else otherGrammar input value rest) errors := by
  split
  · exact whenTrue
  · exact whenFalse

theorem Follows.mapError {Mapped : Type} {mapped : Mapped → Prop}
    (follows : Follows program grammar errors) {change : Err → Mapped}
    (known : ∀ error, errors error → mapped (change error)) :
    Follows (mapError change program) grammar mapped where
  covers input value rest accepted := by
    obtain ⟨bytes, split, read⟩ := follows.covers input value rest accepted
    exact ⟨bytes, split, read.mapError change⟩
  heeds reader value after ran := follows.heeds reader value after (exec_map_error_returned ran)
  fails reader fault after ran := by
    rw [exec_map_error] at ran
    rcases outcome : exec program reader with ⟨(cause | _) | value, stopped⟩
    · obtain ⟨error, same, held⟩ := follows.fails reader _ stopped outcome
      cases same
      rw [outcome] at ran
      cases ran
      exact ⟨_, rfl, known cause held⟩
    · obtain ⟨error, same, -⟩ := follows.fails reader _ stopped outcome
      cases same
    · rw [outcome] at ran
      cases ran

end Rules

/-! ## Fields -/

section Fields

theorem follows_raw (count : Nat) : Follows (readRaw count)
    (fun input bytes rest => input = bytes ++ rest ∧ bytes.length = count) CutOff where
  covers input bytes rest := by
    rintro ⟨rfl, rfl⟩
    exact ⟨bytes, rfl, reads_raw bytes⟩
  heeds reader bytes after ran := by
    rw [exec_read_raw] at ran
    split_ifs at ran with short
    · cases ran
    obtain ⟨same, rfl⟩ := Prod.mk.inj ran
    obtain rfl := Except.ok.inj same
    refine ⟨drop_split reader.buf reader.pos count, ?_⟩
    rw [List.length_take, List.length_drop]
    omega
  fails reader fault after ran := by
    rw [exec_read_raw] at ran
    split_ifs at ran with short
    · cases ran
      exact ⟨_, rfl, trivial⟩
    · cases ran

theorem follows_uint32 : Follows readUint32
    (fun input word rest => input = putUint32 word ++ rest) CutOff := by
  apply ((follows_raw 4).map uint32).congr
  intro input word rest
  constructor
  · rintro ⟨bytes, ⟨rfl, size⟩, rfl⟩
    rw [put_uint32_of_bytes bytes size]
  · rintro rfl
    have value := uint32_put_append word []
    rw [List.append_nil] at value
    exact ⟨_, ⟨rfl, put_uint32_length word⟩, value.symm⟩

theorem follows_vector_len : Follows readVectorLen (fun input count rest =>
    ∃ word : UInt32, input = putUint32 word ++ rest ∧ count = word.toNat) CutOff :=
  follows_uint32.map UInt32.toNat

theorem follows_int32 : Follows readInt32
    (fun input word rest => input = putUint32 word.toUInt32 ++ rest) CutOff := by
  apply (follows_uint32.map UInt32.toInt32).congr
  intro input word rest
  constructor
  · rintro ⟨value, rfl, rfl⟩
    rw [UInt32.toUInt32_toInt32]
  · rintro rfl
    exact ⟨_, rfl, (Int32.toInt32_toUInt32 word).symm⟩

theorem follows_int64 : Follows readInt64
    (fun input word rest => input = putUint64 word.toUInt64 ++ rest) CutOff := by
  apply (((follows_raw 8).map uint64).map UInt64.toInt64).congr
  intro input word rest
  constructor
  · rintro ⟨-, ⟨bytes, ⟨rfl, size⟩, rfl⟩, rfl⟩
    rw [UInt64.toUInt64_toInt64, put_uint64_of_bytes bytes size]
  · rintro rfl
    have value := uint64_put_append word.toUInt64 []
    rw [List.append_nil] at value
    exact ⟨_, ⟨_, ⟨rfl, put_uint64_length _⟩, value.symm⟩, (Int64.toInt64_toUInt64 word).symm⟩

/-- A byte string behind a header that says its length, with any padding. -/
def StringForm (bytes data : List Byte) : Prop :=
  ∃ header pad, LengthHeader header data.length ∧
    pad.length = padding (header.length + data.length) ∧ bytes = header ++ (data ++ pad)

theorem length_prefix_read {header : List Byte} {length : Nat}
    (form : LengthHeader header length) :
    Reads readLengthPrefix header (length, header.length) := by
  cases form with
  | short first small =>
      have below : first.toNat < 0xfe := UInt8.lt_iff_toNat_lt.mp small
      have read := reads_short_length first.toNat below
      rwa [UInt8.ofNat_toNat] at read
  | long digits three =>
      have below := decode_le_lt digits
      have spelled := encode_decode_le digits
      rw [three] at below spelled
      have read := reads_long_length (decodeLE digits) below
      rw [spelled] at read
      rwa [List.length_cons, three]

theorem string_form_read {bytes data : List Byte} (form : StringForm bytes data) :
    Reads readBytes bytes data := by
  obtain ⟨header, pad, sized, padded, rfl⟩ := form
  apply (length_prefix_read sized).bind
  apply (reads_raw data).bind
  have skipped := (reads_padding pad).map fun _ => data
  rwa [padded] at skipped

/-- The grammar that accepts the forms in front of anything. -/
def Written {Value : Type} (form : List Byte → Value → Prop) (input : List Byte) (value : Value)
    (rest : List Byte) : Prop :=
  ∃ bytes, form bytes value ∧ input = bytes ++ rest

theorem Follows.reads {Err Value : Type} {program : GoM Reader Err Value}
    {form : List Byte → Value → Prop} {errors : Err → Prop} {bytes : List Byte} {value : Value}
    (follows : Follows program (Written form) errors) (written : form bytes value) :
    Reads program bytes value := by
  obtain ⟨_, same, read⟩ := follows.covers (bytes ++ []) value [] ⟨bytes, written, rfl⟩
  obtain rfl := List.append_cancel_right same
  exact read

theorem follows_bytes : Follows readBytes (Written StringForm) CutOff where
  covers input data rest := by
    rintro ⟨bytes, form, rfl⟩
    exact ⟨bytes, rfl, string_form_read form⟩
  heeds reader data after ran := by
    obtain ⟨header, pad, sized, padded, whole, -⟩ := read_bytes_delimited ran
    refine ⟨header ++ (data ++ pad), ⟨header, pad, sized, padded, rfl⟩, ?_⟩
    rw [whole]
    simp only [List.append_assoc]
  fails reader fault after ran := by
    rcases exec_read_bytes reader with ⟨error, stopped, failed, cut, -⟩ | ⟨out, stopped, read, -⟩
    · rw [ran] at failed
      cases failed
      exact ⟨error, rfl, cut⟩
    · rw [ran] at read
      cases read

end Fields

end Gocoon.ReaderGrammars
