import Gocoon.ProxyAnswers
import Gocoon.TlTcpPacket
import Gocoon.TlVector

/-!
# Readers stay inside their buffer

A confined program never panics, moves the cursor only forward and never beyond the end of the
buffer, and takes a known number of bytes at least when it succeeds. Every primitive of the
reader is confined and every decoder is put together from confined parts, so no answer makes
one of them index out of bounds. The loops over claimed counts are confined because their
bodies are.
-/

namespace Gocoon.ReaderSafety

open Gocoon.LittleEndianBytes
open Gocoon.GoProgram
open Gocoon.TlPrimitives
open Gocoon.TlTypes
open Gocoon.TlVector
open Gocoon.TlTcpPacket
open Gocoon.ProxyHandshakeCodec
open Gocoon.InferencePackets
open Gocoon.ProxyAnswers

set_option autoImplicit false

def Inside (reader : Reader) : Prop := reader.pos ≤ reader.buf.length

/-- The cursor moved forward by at least `least` bytes, inside the same buffer. -/
structure Moves (least : Nat) (before after : Reader) : Prop where
  sameBuf : after.buf = before.buf
  forward : before.pos + least ≤ after.pos
  inside : Inside after

theorem moves_nowhere {reader : Reader} (inside : Inside reader) : Moves 0 reader reader :=
  ⟨rfl, Nat.le_refl _, inside⟩

theorem Moves.trans {first second : Nat} {before middle after : Reader}
    (begun : Moves first before middle) (continued : Moves second middle after) :
    Moves (first + second) before after where
  sameBuf := continued.sameBuf.trans begun.sameBuf
  forward := by
    have one := begun.forward
    have two := continued.forward
    omega
  inside := continued.inside

theorem Moves.weaken {least less : Nat} {before after : Reader} (moved : Moves least before after)
    (smaller : less ≤ least) : Moves less before after where
  sameBuf := moved.sameBuf
  forward := by
    have whole := moved.forward
    omega
  inside := moved.inside

section Rules

variable {Err Mapped Value Other : Type}

def Confined (least : Nat) (program : GoM Reader Err Value) : Prop :=
  ∀ reader, Inside reader →
    match exec program reader with
    | (.ok _, after) => Moves least reader after
    | (.error (.returned _), after) => Moves 0 reader after
    | (.error .panicked, _) => False

theorem confined_pure (value : Value) : Confined 0 (pure value : GoM Reader Err Value) :=
  fun _ inside => moves_nowhere inside

theorem confined_fail (least : Nat) (error : Err) :
    Confined least (fail error : GoM Reader Err Value) :=
  fun _ inside => moves_nowhere inside

theorem Confined.weaken {least less : Nat} {program : GoM Reader Err Value}
    (confined : Confined least program) (smaller : less ≤ least) : Confined less program := by
  intro reader inside
  have moved := confined reader inside
  generalize exec program reader = ran at moved ⊢
  rcases ran with ⟨(error | _) | value, after⟩
  · exact moved
  · exact moved
  · exact moved.weaken smaller

/-- What the first part returns may be bounded by what it reads. -/
theorem Confined.bind_where {first second : Nat} {good : Value → Prop}
    {program : GoM Reader Err Value} {next : Value → GoM Reader Err Other}
    (begun : Confined first program)
    (returns : ∀ reader value after, exec program reader = (.ok value, after) → good value)
    (rest : ∀ value, good value → Confined second (next value)) :
    Confined (first + second) (program >>= next) := by
  intro reader inside
  have moved := begun reader inside
  have returned := returns reader
  rw [exec_bind]
  generalize exec program reader = ran at moved returned ⊢
  rcases ran with ⟨(error | _) | value, middle⟩
  · exact moved
  · exact moved
  · have continued := rest value (returned value middle rfl) middle moved.inside
    simp only
    generalize exec (next value) middle = ran at continued ⊢
    rcases ran with ⟨(error | _) | result, after⟩
    · exact (moved.trans continued).weaken (Nat.zero_le _)
    · exact continued
    · exact moved.trans continued

theorem Confined.bind {first second : Nat} {program : GoM Reader Err Value}
    {next : Value → GoM Reader Err Other} (begun : Confined first program)
    (rest : ∀ value, Confined second (next value)) :
    Confined (first + second) (program >>= next) :=
  begun.bind_where (fun _ _ _ _ => trivial) fun value _ => rest value

theorem Confined.andThen {first : Nat} {program : GoM Reader Err Value}
    {next : Value → GoM Reader Err Other} (begun : Confined first program)
    (rest : ∀ value, Confined 0 (next value)) : Confined 0 (program >>= next) :=
  (begun.bind rest).weaken (Nat.zero_le _)

theorem Confined.map {least : Nat} {program : GoM Reader Err Value}
    (confined : Confined least program) (build : Value → Other) :
    Confined least (program >>= fun value => pure (build value)) :=
  confined.bind fun value => confined_pure (build value)

theorem confined_if {least : Nat} {condition : Prop} [Decidable condition]
    {left right : GoM Reader Err Value} (whenTrue : Confined least left)
    (whenFalse : Confined least right) : Confined least (if condition then left else right) := by
  split
  · exact whenTrue
  · exact whenFalse

theorem confined_map_error {least : Nat} {program : GoM Reader Err Value}
    (change : Err → Mapped) (confined : Confined least program) :
    Confined least (mapError change program) := by
  intro reader inside
  have moved := confined reader inside
  rw [exec_map_error]
  generalize exec program reader = ran at moved ⊢
  rcases ran with ⟨(error | _) | value, after⟩
  · exact moved
  · exact moved
  · exact moved

theorem confined_attempt {least : Nat} {program : GoM Reader Err Value}
    (confined : Confined least program) : Confined 0 (attempt program) := by
  intro reader inside
  have moved := confined reader inside
  rw [exec_attempt]
  generalize exec program reader = ran at moved ⊢
  rcases ran with ⟨(error | _) | value, after⟩
  · exact moved
  · exact moved
  · exact moved.weaken (Nat.zero_le _)

theorem confined_lift {outcome : Except (Fault Err) Value}
    (sound : outcome ≠ .error .panicked) : Confined 0 (lift outcome : GoM Reader Err Value) := by
  intro reader inside
  rw [exec_lift]
  rcases outcome with (error | _) | value
  · exact moves_nowhere inside
  · exact sound rfl
  · exact moves_nowhere inside

theorem Confined.no_panic {least : Nat} {program : GoM Reader Err Value}
    (confined : Confined least program) (buf : List Byte) :
    (exec program (newReader buf)).1 ≠ .error .panicked := by
  intro panics
  have moved := confined (newReader buf) (Nat.zero_le _)
  rcases ran : exec program (newReader buf) with ⟨outcome, after⟩
  rw [ran] at panics moved
  simp only at panics
  rw [panics] at moved
  exact moved

end Rules

section Primitives

theorem exec_read_raw (count : Nat) (reader : Reader) :
    exec (readRaw count) reader =
      if reader.buf.length < reader.pos + count then
        (.error (.returned (.shortBuffer count reader.pos reader.buf.length)), reader)
      else
        (.ok ((reader.buf.drop reader.pos).take count),
          { reader with pos := reader.pos + count }) := by
  by_cases short : reader.buf.length < reader.pos + count
  · have fails : exec (need count) reader =
        (.error (.returned (.shortBuffer count reader.pos reader.buf.length)), reader) := by
      rw [need, exec_bind_ok (exec_get reader), if_pos short, exec_fail]
    rw [if_pos short, readRaw, exec_bind, fails]
  · have enough : reader.pos + count ≤ reader.buf.length := by omega
    have sliced := exec_slice reader.pos (reader.pos + count) reader (by omega) enough
    rw [Nat.add_sub_cancel_left] at sliced
    rw [if_neg short, readRaw, exec_bind_ok (exec_need count reader enough),
      exec_bind_ok (exec_get reader), exec_bind_ok sliced]
    rfl

theorem confined_raw (count : Nat) : Confined count (readRaw count) := by
  intro reader inside
  rw [exec_read_raw]
  by_cases short : reader.buf.length < reader.pos + count
  · rw [if_pos short]
    exact moves_nowhere inside
  · rw [if_neg short]
    exact ⟨rfl, Nat.le_refl _, Nat.le_of_not_lt short⟩

theorem confined_uint32 : Confined 4 readUint32 := (confined_raw 4).map uint32

theorem confined_int32 : Confined 4 readInt32 := confined_uint32.map UInt32.toInt32

theorem confined_uint64 : Confined 8 readUint64 := (confined_raw 8).map uint64

theorem confined_int64 : Confined 8 readInt64 := confined_uint64.map UInt64.toInt64

theorem confined_int128 : Confined 16 readInt128 := (confined_raw 16).map (copyInto 16)

theorem confined_int256 : Confined 32 readInt256 := (confined_raw 32).map (copyInto 32)

theorem confined_bool : Confined 4 readBool := by
  have cases : ∀ id, Confined 0 (if id = boolTrueID then pure true
      else if id = boolFalseID then pure false else fail (.invalidBool id) : ReadM Bool) := by
    intro id
    apply confined_if (confined_pure true)
    exact confined_if (confined_pure false) (confined_fail 0 _)
  exact confined_uint32.bind cases

theorem confined_vector_len : Confined 4 readVectorLen := confined_uint32.map UInt32.toNat

/-- The two forms in which a length stands in front of its bytes. -/
inductive LengthHeader : List Byte → Nat → Prop
  | short (first : Byte) (small : first < 0xfe) : LengthHeader [first] first.toNat
  | long (digits : List Byte) (three : digits.length = 3) :
      LengthHeader (0xfe :: digits) (decodeLE digits)

theorem LengthHeader.size {header : List Byte} {length : Nat}
    (form : LengthHeader header length) : 1 ≤ header.length ∧ header.length ≤ 4 := by
  cases form with
  | short first small => simp
  | long digits three => simp [three]

theorem drop_split (buf : List Byte) (pos count : Nat) :
    buf.drop pos = (buf.drop pos).take count ++ buf.drop (pos + count) := by
  rw [← List.drop_drop, List.take_append_drop]

/-- The input ends inside a field, or a length starts with the reserved byte. -/
def CutOff : TlError → Prop
  | .shortBuffer _ _ _ => True
  | .invalidLength => True
  | .invalidBool _ => False
  | .unknownConstructor => False

theorem exec_length_prefix (reader : Reader) :
    (∃ error, CutOff error ∧
      exec readLengthPrefix reader = (.error (.returned error), reader)) ∨
    ∃ header length, LengthHeader header length ∧
      reader.buf.drop reader.pos = header ++ reader.buf.drop (reader.pos + header.length) ∧
      reader.pos + header.length ≤ reader.buf.length ∧
      exec readLengthPrefix reader =
        (.ok (length, header.length), { reader with pos := reader.pos + header.length }) := by
  by_cases room : reader.pos + 1 ≤ reader.buf.length
  · obtain ⟨first, lead⟩ : ∃ first, (reader.buf.drop reader.pos).take 1 = [first] := by
      apply List.length_eq_one_iff.mp
      rw [List.length_take, List.length_drop]
      omega
    have whole := drop_split reader.buf reader.pos 1
    rw [lead] at whole
    have sliced := exec_slice reader.pos (reader.pos + 1) reader (by omega) room
    rw [Nat.add_sub_cancel_left, lead] at sliced
    have begun : exec readLengthPrefix reader =
        exec (lengthPrefixOf reader.pos first) reader := by
      rw [readLengthPrefix, exec_bind_ok (exec_need 1 reader room),
        exec_bind_ok (exec_get reader), exec_bind_ok sliced, List.headD_cons]
    rw [begun, lengthPrefixOf]
    by_cases reserved : first = 0xff
    · rw [if_pos reserved]
      exact .inl ⟨.invalidLength, trivial, exec_fail _ _⟩
    rw [if_neg reserved]
    by_cases small : first < 0xfe
    · rw [if_pos small]
      exact .inr ⟨[first], _, .short first small, whole, room, rfl⟩
    rw [if_neg small]
    have mark : first = 0xfe := by
      have high := UInt8.lt_iff_toNat_lt.not.mp small
      have bound := first.toNat_lt
      have other : first.toNat ≠ (0xff : UInt8).toNat := fun same =>
        reserved (UInt8.toNat_inj.mp same)
      apply UInt8.toNat_inj.mp
      simp only [UInt8.reduceToNat] at high other ⊢
      omega
    subst mark
    by_cases longRoom : reader.pos + 4 ≤ reader.buf.length
    · have digits := exec_slice (reader.pos + 1) (reader.pos + 4) reader (by omega) longRoom
      rw [show reader.pos + 4 - (reader.pos + 1) = 3 by omega] at digits
      have rest := drop_split reader.buf (reader.pos + 1) 3
      have three : ((reader.buf.drop (reader.pos + 1)).take 3).length = 3 := by
        rw [List.length_take, List.length_drop]
        omega
      refine .inr ⟨0xfe :: (reader.buf.drop (reader.pos + 1)).take 3, _, .long _ three, ?_, ?_, ?_⟩
      · rw [List.length_cons, three, whole]
        exact congrArg _ rest
      · rw [List.length_cons, three]
        exact longRoom
      · rw [exec_bind_ok (exec_need 4 reader longRoom), exec_bind_ok digits, List.length_cons,
          three]
        rfl
    · left
      have short : reader.buf.length < reader.pos + 4 := by omega
      refine ⟨.shortBuffer 4 reader.pos reader.buf.length, trivial, ?_⟩
      rw [exec_bind, need, exec_bind_ok (exec_get reader), if_pos short, exec_fail]
  · left
    have short : reader.buf.length < reader.pos + 1 := by omega
    refine ⟨.shortBuffer 1 reader.pos reader.buf.length, trivial, ?_⟩
    rw [readLengthPrefix, exec_bind, need, exec_bind_ok (exec_get reader), if_pos short, exec_fail]

theorem exec_skip_padding (pad : Nat) (reader : Reader) (inside : Inside reader) :
    (∃ error, CutOff error ∧
      exec (skipPadding pad) reader = (.error (.returned error), reader)) ∨
    (reader.pos + pad ≤ reader.buf.length ∧
      exec (skipPadding pad) reader = (.ok (), { reader with pos := reader.pos + pad })) := by
  by_cases padded : 0 < pad
  · rw [skipPadding, if_pos padded]
    by_cases room : reader.pos + pad ≤ reader.buf.length
    · right
      rw [exec_bind_ok (exec_need pad reader room)]
      exact ⟨room, rfl⟩
    · left
      have short : reader.buf.length < reader.pos + pad := by omega
      refine ⟨.shortBuffer pad reader.pos reader.buf.length, trivial, ?_⟩
      rw [exec_bind, need, exec_bind_ok (exec_get reader), if_pos short, exec_fail]
  · obtain rfl : pad = 0 := by omega
    exact .inr ⟨inside, rfl⟩

/-- `out` stands between a header that says its length and its padding, from `before` up to
`after`. -/
def Delimited (before after : Reader) (out : List Byte) : Prop :=
  ∃ header pad, LengthHeader header out.length ∧
    pad.length = padding (header.length + out.length) ∧
    before.buf.drop before.pos = header ++ out ++ pad ++ after.buf.drop after.pos ∧
    after.buf = before.buf ∧
    after.pos = before.pos + header.length + out.length + pad.length ∧ Inside after

theorem exec_read_bytes (reader : Reader) :
    (∃ error after, exec readBytes reader = (.error (.returned error), after) ∧
      CutOff error ∧ (Inside reader → Moves 0 reader after)) ∨
    ∃ out after, exec readBytes reader = (.ok out, after) ∧ Delimited reader after out := by
  rcases exec_length_prefix reader with
    ⟨error, cut, failed⟩ | ⟨header, length, form, front, room, read⟩
  · left
    refine ⟨error, reader, ?_, cut, fun inside => moves_nowhere inside⟩
    rw [readBytes, exec_bind, failed]
  have begun : exec readBytes reader = exec (do
      let out ← readRaw length
      skipPadding (padding (header.length + length))
      pure out) ⟨reader.buf, reader.pos + header.length⟩ := by
    rw [readBytes, exec_bind_ok read]
  by_cases short : reader.buf.length < reader.pos + header.length + length
  · left
    refine ⟨.shortBuffer length (reader.pos + header.length) reader.buf.length,
      ⟨reader.buf, reader.pos + header.length⟩, ?_, trivial, fun _ => ⟨rfl, by simp, room⟩⟩
    rw [begun, exec_bind, exec_read_raw, if_pos short]
  have raw := exec_read_raw length ⟨reader.buf, reader.pos + header.length⟩
  rw [if_neg short] at raw
  have split := drop_split reader.buf (reader.pos + header.length) length
  have size : ((reader.buf.drop (reader.pos + header.length)).take length).length = length := by
    rw [List.length_take, List.length_drop]
    omega
  let middle : Reader := ⟨reader.buf, reader.pos + header.length + length⟩
  rcases exec_skip_padding (padding (header.length + length)) middle (Nat.le_of_not_lt short) with
    ⟨error, cut, failed⟩ | ⟨padRoom, padded⟩
  · left
    refine ⟨error, middle, ?_, cut, fun _ => ⟨rfl, ?_, Nat.le_of_not_lt short⟩⟩
    · rw [begun, exec_bind_ok raw, exec_bind, failed]
    · change reader.pos + 0 ≤ reader.pos + header.length + length
      omega
  · right
    let pad := (reader.buf.drop middle.pos).take (padding (header.length + length))
    have padSplit := drop_split reader.buf middle.pos (padding (header.length + length))
    have padSize : pad.length = padding (header.length + length) := by
      rw [List.length_take, List.length_drop]
      change middle.pos + _ ≤ reader.buf.length at padRoom
      omega
    refine ⟨(reader.buf.drop (reader.pos + header.length)).take length,
      { middle with pos := middle.pos + padding (header.length + length) }, ?_, header, pad, ?_, ?_,
      ?_, rfl, ?_, padRoom⟩
    · rw [begun, exec_bind_ok raw, exec_bind_ok padded, exec_pure]
    · rw [size]
      exact form
    · rw [size]
      exact padSize
    · rw [front, List.append_assoc, List.append_assoc]
      exact congrArg _ (split.trans (congrArg _ padSplit))
    · rw [size, padSize]

theorem confined_bytes : Confined 4 readBytes := by
  intro reader inside
  rcases exec_read_bytes reader with
    ⟨error, after, failed, -, moved⟩ | ⟨out, after, read, between⟩
  · rw [failed]
    exact moved inside
  · obtain ⟨header, pad, form, padSize, -, sameBuf, position, inside⟩ := between
    have size := form.size
    rw [read]
    refine ⟨sameBuf, ?_, inside⟩
    -- header, bytes and padding together fill whole words
    unfold padding at padSize
    omega

theorem read_bytes_delimited {reader after : Reader} {out : List Byte}
    (read : exec readBytes reader = (.ok out, after)) : Delimited reader after out := by
  rcases exec_read_bytes reader with ⟨error, stopped, failed, -⟩ | ⟨found, stopped, same, between⟩
  · rw [read] at failed
    cases failed
  · rw [read] at same
    cases same
    exact between

end Primitives

section Loops

variable {Err Item Value : Type}

theorem confined_items {least : Nat} {item : GoM Reader Err Item} (confined : Confined least item)
    (count : Nat) : Confined 0 (readItems item count) := by
  induction count with
  | zero => exact confined_pure []
  | succ count ih => exact confined.andThen fun first => ih.map _

theorem confined_headers (count : Nat) : Confined 0 (skipHeaders count) := by
  induction count with
  | zero => exact confined_pure ()
  | succ count ih => exact confined_bytes.andThen fun _ => confined_bytes.andThen fun _ => ih

theorem vector_len_bound (reader : Reader) (count : Nat) (after : Reader)
    (read : exec readVectorLen reader = (.ok count, after)) : count < 2 ^ 32 := by
  rw [readVectorLen, exec_bind] at read
  rcases ran : exec readUint32 reader with ⟨fault | word, middle⟩
  · rw [ran] at read
    cases read
  · rw [ran] at read
    cases read
    exact word.toNat_lt

theorem plain_vector_len_bound (reader : Reader) (count : Nat) (after : Reader)
    (read : exec (plain readVectorLen) reader = (.ok count, after)) : count < 2 ^ 32 := by
  rw [plain, exec_map_error] at read
  rcases ran : exec readVectorLen reader with ⟨(error | _) | word, middle⟩
  · rw [ran] at read
    cases read
  · rw [ran] at read
    cases read
  · rw [ran] at read
    cases read
    exact vector_len_bound reader count after ran

/-- A claimed count never asks `make` for more than the address space. -/
theorem confined_make_slice {elementSize count : Nat} (small : elementSize ≤ 2 ^ 16)
    (counted : count < 2 ^ 32) :
    Confined 0 (makeSlice elementSize count : GoM Reader Err Unit) := by
  rw [make_slice_counted small counted]
  exact confined_pure ()

theorem confined_vector {least elementSize : Nat} {item : ReadM Item}
    (small : elementSize ≤ 2 ^ 16) (confined : Confined least item) :
    Confined 4 (readVector elementSize item) :=
  confined_vector_len.bind_where vector_len_bound fun count counted =>
    (confined_make_slice small counted).andThen fun _ => confined_items confined count

end Loops

section Decoders

theorem confined_plain {Value : Type} {least : Nat} {program : ReadM Value}
    (confined : Confined least program) : Confined least (plain program) :=
  confined_map_error _ confined

theorem confined_read_if {Value : Type} {least : Nat} (present : Bool) (absent : Value)
    {program : ReadM Value} (confined : Confined least program) :
    Confined 0 (readIf present absent program) :=
  confined_if (confined.weaken (Nat.zero_le _)) (confined_pure absent)

theorem confined_tcp_packet : Confined 0 readTCPPacket := by
  have idOnly : ∀ kind, Confined 0 (readIdOnly kind) := fun kind =>
    confined_int64.andThen fun _ => confined_pure _
  have idAndData : ∀ kind, Confined 0 (readIdAndData kind) := fun kind =>
    confined_int64.andThen fun _ => confined_bytes.andThen fun _ => confined_pure _
  refine confined_uint32.andThen fun id => ?_
  apply confined_if (idOnly _)
  apply confined_if (idOnly _)
  apply confined_if (idOnly _)
  apply confined_if (idOnly _)
  apply confined_if (confined_bytes.andThen fun _ => confined_pure _)
  apply confined_if (idAndData _)
  apply confined_if (idAndData _)
  refine confined_if ?_ (confined_fail 0 _)
  refine confined_int64.andThen fun _ => confined_int32.andThen fun _ => ?_
  exact confined_bytes.andThen fun _ => confined_pure _

theorem confined_signed_payment (unknown : String) : Confined 0 (decodeSignedPayment unknown) := by
  refine (confined_plain confined_uint32).andThen fun id => ?_
  apply confined_if ((confined_plain confined_bytes).weaken (Nat.zero_le _))
  exact confined_if (confined_pure []) (confined_fail 0 _)

theorem confined_proxy_params : Confined 0 decodeProxyParamsBody := by
  refine confined_uint32.andThen fun flags => confined_int256.andThen fun _ => ?_
  refine confined_bytes.andThen fun _ => confined_bytes.andThen fun _ => ?_
  refine (confined_read_if _ false confined_bool).andThen fun _ => ?_
  exact (confined_read_if _ 0 confined_int32).andThen fun _ => confined_pure _

theorem confined_connection_auth : Confined 0 decodeConnectionAuth := by
  refine (confined_plain confined_uint32).andThen fun id => ?_
  apply confined_if
  · refine (confined_plain confined_int256).andThen fun _ => ?_
    exact (confined_plain confined_uint64).andThen fun _ => confined_pure _
  · apply confined_if ?_ (confined_fail 0 _)
    exact (confined_plain confined_uint64).andThen fun _ => confined_pure _

theorem confined_connected_to_proxy : Confined 0 readConnectedToProxy := by
  refine (confined_plain confined_uint32).andThen fun id => confined_if (confined_fail 0 _) ?_
  refine (confined_map_error _ confined_proxy_params).andThen fun _ => ?_
  refine (confined_plain confined_bytes).andThen fun _ => ?_
  refine confined_connection_auth.andThen fun _ => ?_
  exact (confined_signed_payment _).andThen fun _ => confined_pure _

theorem confined_authorization_with_proxy : Confined 0 readAuthorizationWithProxy := by
  refine (confined_plain confined_uint32).andThen fun id => confined_if ?_ (confined_if ?_ ?_)
  · refine (confined_signed_payment _).andThen fun _ => ?_
    refine (confined_plain confined_int64).andThen fun _ => ?_
    exact (confined_plain confined_int64).andThen fun _ => confined_pure _
  · refine (confined_plain confined_int32).andThen fun _ => ?_
    exact (confined_plain confined_bytes).andThen fun _ => confined_pure _
  · exact confined_fail 0 _

theorem confined_payment_status : Confined 0 readPaymentStatus := by
  refine (confined_plain confined_uint32).andThen fun id => confined_if (confined_fail 0 _) ?_
  refine (confined_signed_payment _).andThen fun _ => ?_
  refine (confined_plain confined_int64).andThen fun _ => ?_
  exact (confined_plain confined_int64).andThen fun _ => confined_pure _

theorem confined_worker_instance : Confined 16 readWorkerInstance := by
  have four := confined_plain confined_uint32
  have signed := confined_plain confined_int32
  exact four.bind fun _ => signed.bind fun _ => signed.bind fun _ => signed.map _

theorem confined_worker_type : Confined 8 readWorkerType :=
  (confined_plain confined_bytes).bind fun _ =>
    (confined_plain confined_vector_len).bind_where plain_vector_len_bound fun count counted =>
      (confined_make_slice (by decide) counted).andThen fun _ =>
        (confined_items confined_worker_instance count).andThen fun _ => confined_pure _

theorem confined_worker_types : Confined 0 readWorkerTypesV2 := by
  refine (confined_plain confined_uint32).andThen fun id => confined_if (confined_fail 0 _) ?_
  have listed : Confined 4 (plain readVectorLen >>= fun count => do
      makeSlice 40 count
      let out ← readItems readWorkerType count
      if out.length = 0 then fail (.text "cocoon: proxy has no advertised worker models")
      else pure out) :=
    (confined_plain confined_vector_len).bind_where plain_vector_len_bound fun count counted =>
      (confined_make_slice (by decide) counted).andThen fun _ =>
        (confined_items confined_worker_type count).andThen fun out =>
          confined_if (confined_fail 0 _) (confined_pure out)
  exact listed.weaken (Nat.zero_le _)

theorem confined_http_response : Confined 0 readHTTPResponsePayload := by
  refine confined_uint32.andThen fun id => confined_if (confined_fail 0 _) ?_
  refine confined_bytes.andThen fun _ => confined_int32.andThen fun _ => ?_
  refine confined_bytes.andThen fun _ => confined_vector_len.andThen fun count => ?_
  exact (confined_headers count).andThen fun _ => confined_bytes.weaken (Nat.zero_le _)

theorem http_response_never_panics (body : List Byte) :
    decodeHTTPResponsePayload body ≠ .error .panicked := by
  have sound := confined_http_response.no_panic body
  unfold decodeHTTPResponsePayload
  generalize (exec readHTTPResponsePayload (newReader body)).1 = outcome at sound ⊢
  rcases outcome with (error | _) | payload
  · simp
  · exact absurd rfl sound
  · simp

theorem confined_tokens_used : Confined 0 decodeTokensUsed := by
  refine confined_int64.andThen fun _ => confined_int64.andThen fun _ => ?_
  refine confined_int64.andThen fun _ => confined_int64.andThen fun _ => ?_
  exact confined_int64.andThen fun _ => confined_pure _

theorem confined_debug_strings : Confined 0 skipDebugStrings :=
  confined_bytes.andThen fun _ => confined_bytes.andThen fun _ => confined_pure ()

theorem confined_timings : Confined 0 skipTimings := by
  refine confined_uint64.andThen fun _ => confined_uint64.andThen fun _ => ?_
  exact confined_uint64.andThen fun _ => confined_uint64.andThen fun _ => confined_pure ()

theorem confined_final_info : Confined 0 skipClientQueryFinalInfo := by
  refine confined_uint32.andThen fun flags => confined_tokens_used.andThen fun _ => ?_
  refine (confined_read_if _ () confined_debug_strings).andThen fun _ => ?_
  exact confined_read_if _ () confined_timings

theorem confined_answer_ex (whole : Bool) : Confined 0 (readAnswerEx whole) := by
  refine confined_int256.andThen fun _ => confined_bytes.andThen fun body => ?_
  refine confined_uint32.andThen fun flags => ?_
  refine (confined_read_if _ _ (confined_attempt confined_final_info)).andThen fun _ => ?_
  have unwrapped : Confined 0 (unwrapAnswer whole body) :=
    confined_if ((confined_lift (http_response_never_panics body)).andThen fun _ =>
      confined_pure _) (confined_pure body)
  exact unwrapped.andThen fun _ => confined_pure _

theorem confined_query_part : Confined 0 readQueryPart := by
  refine confined_uint32.andThen fun id => confined_if ?_ (confined_if ?_ (confined_if ?_
    (confined_if ?_ (confined_fail 0 _))))
  · refine confined_bytes.andThen fun _ => confined_bool.andThen fun _ => ?_
    exact confined_int256.andThen fun _ => confined_tokens_used.andThen fun _ => confined_pure _
  · exact confined_answer_ex _
  · refine confined_int32.andThen fun _ => confined_bytes.andThen fun _ => ?_
    refine confined_int256.andThen fun _ => ?_
    exact (confined_attempt confined_tokens_used).andThen fun _ => confined_pure _
  · refine confined_int256.andThen fun _ => confined_int32.andThen fun _ => ?_
    refine confined_bytes.andThen fun _ => confined_uint32.andThen fun flags => ?_
    refine (confined_read_if _ _ (confined_attempt confined_final_info)).andThen fun _ => ?_
    exact confined_pure _

theorem query_part_never_panics (payload : List Byte) :
    tryDecodeQueryPart payload ≠ .error .panicked := by
  have sound := confined_query_part.no_panic payload
  unfold tryDecodeQueryPart
  generalize (exec readQueryPart (newReader payload)).1 = outcome at sound ⊢
  rcases outcome with (error | _) | chunk
  · simp
  · exact absurd rfl sound
  · simp

end Decoders

section Operations

/-- How an operation fails. `makeslice` is the panic of a `make` beyond the address space; it
touches no buffer, unlike a panic of the program itself. -/
inductive OperationFault where
  | error (error : TlError)
  | makeslice
  deriving DecidableEq

inductive ReaderOp where
  | readInt32
  | readUint32
  | readInt64
  | readUint64
  | readDouble
  | readInt128
  | readInt256
  | readBool
  | readBytes
  | readString
  | readFlags
  | readVectorLen
  | readVectorBytes
  | readVectorString
  | readVectorInt256
  | readRaw (count : Fin (2 ^ 63))
  deriving DecidableEq

inductive ReaderValue where
  | int32 (value : Int32)
  | uint32 (value : UInt32)
  | int64 (value : Int64)
  | uint64 (value : UInt64)
  | fixed (bytes : List Byte)
  | bool (value : Bool)
  | bytes (value : List Byte)
  | count (value : Nat)
  | vector (items : List (List Byte))
  deriving DecidableEq

/-- A sum in Go's 64-bit `int`. -/
def wrapped (value : Nat) : Int :=
  if value % 2 ^ 64 < 2 ^ 63 then value % 2 ^ 64 else (value % 2 ^ 64 : Int) - 2 ^ 64

/-- `ReadRaw` for any non-negative `int`: the bound `r.pos+n` may wrap around. -/
def readRawInt (count : Nat) : GoM Reader OperationFault (List Byte) := do
  let reader ← get
  let bound := wrapped (reader.pos + count)
  if (reader.buf.length : Int) < bound then
    fail (.error (.shortBuffer count reader.pos reader.buf.length))
  else if maxAlloc < count then fail .makeslice
  else if (reader.pos : Int) ≤ bound ∧ bound ≤ reader.buf.length then do
    set { reader with pos := reader.pos + count }
    pure ((reader.buf.drop reader.pos).take count)
  else crash

def returning {Value : Type} (wrap : Value → ReaderValue) (program : ReadM Value) :
    GoM Reader OperationFault ReaderValue := do
  let value ← mapError .error program
  pure (wrap value)

def ReaderOp.perform : ReaderOp → GoM Reader OperationFault ReaderValue
  | .readInt32 => returning .int32 TlPrimitives.readInt32
  | .readUint32 => returning .uint32 TlPrimitives.readUint32
  | .readInt64 => returning .int64 TlPrimitives.readInt64
  | .readUint64 => returning .uint64 TlPrimitives.readUint64
  | .readDouble => returning .uint64 TlPrimitives.readDouble
  | .readInt128 => returning (fun value => .fixed value.val) TlPrimitives.readInt128
  | .readInt256 => returning (fun value => .fixed value.val) TlPrimitives.readInt256
  | .readBool => returning .bool TlPrimitives.readBool
  | .readBytes => returning .bytes TlPrimitives.readBytes
  | .readString => returning .bytes TlPrimitives.readString
  | .readFlags => returning .uint32 TlPrimitives.readFlags
  | .readVectorLen => returning .count TlTypes.readVectorLen
  | .readVectorBytes => returning .vector TlVector.readVectorBytes
  | .readVectorString => returning .vector TlVector.readVectorString
  | .readVectorInt256 =>
      returning (fun items => .vector (items.map Subtype.val)) TlVector.readVectorInt256
  | .readRaw count => do
      let out ← readRawInt count.val
      pure (.bytes out)

/-- One operation on a buffer that can exist: no access out of bounds, and a failing `make` only
where the caller itself asked for more than the address space. -/
structure Performed (op : ReaderOp) (reader : Reader)
    (result : Except (Fault OperationFault) ReaderValue × Reader) : Prop where
  moves : Moves 0 reader result.2
  sound : result.1 ≠ .error .panicked
  asked : result.1 = .error (.returned .makeslice) →
    ∃ count : Fin (2 ^ 63), op = .readRaw count ∧ maxAlloc < count.val

theorem returning_performed {Value : Type} {least : Nat} {program : ReadM Value} (op : ReaderOp)
    (wrap : Value → ReaderValue) (confined : Confined least program) (reader : Reader)
    (inside : Inside reader) : Performed op reader (exec (returning wrap program) reader) := by
  have moved := confined reader inside
  rw [returning, exec_bind, exec_map_error]
  generalize exec program reader = ran at moved ⊢
  rcases ran with ⟨(error | _) | value, after⟩
  · exact ⟨moved, by simp, by simp⟩
  · exact moved.elim
  · exact ⟨moved.weaken (Nat.zero_le _), by simp, by simp⟩

theorem read_raw_performed (count : Fin (2 ^ 63)) (reader : Reader) (inside : Inside reader)
    (allocated : reader.buf.length ≤ maxAlloc) :
    Performed (.readRaw count) reader (exec (ReaderOp.perform (.readRaw count)) reader) := by
  have range : count.val < 2 ^ 63 := count.isLt
  have small : reader.pos ≤ 2 ^ 48 := Nat.le_trans inside allocated
  have sum : (reader.pos + count.val) % 2 ^ 64 = reader.pos + count.val :=
    Nat.mod_eq_of_lt (by omega)
  rw [ReaderOp.perform, exec_bind, readRawInt, exec_bind_ok (exec_get reader)]
  simp only
  by_cases wraps : reader.pos + count.val < 2 ^ 63
  · have bound : wrapped (reader.pos + count.val) = reader.pos + count.val := by
      unfold wrapped
      rw [if_pos (by omega)]
      omega
    rw [bound]
    split_ifs with short large access
    · exact ⟨moves_nowhere inside, by simp, by simp⟩
    · exact ⟨moves_nowhere inside, by simp, fun _ => ⟨count, rfl, large⟩⟩
    · rw [exec_bind_ok (exec_set _ _), exec_pure]
      refine ⟨⟨rfl, Nat.le_add_right _ _, ?_⟩, by simp, by simp⟩
      change reader.pos + count.val ≤ reader.buf.length
      omega
    · omega
  · -- the check is passed by a negative bound, and `make` stops the call
    have large : maxAlloc < count.val := by
      unfold maxAlloc
      omega
    have bound : wrapped (reader.pos + count.val) < 0 := by
      unfold wrapped
      rw [if_neg (by omega)]
      omega
    rw [if_neg (by omega), if_pos large]
    exact ⟨moves_nowhere inside, by simp, fun _ => ⟨count, rfl, large⟩⟩

theorem operation_performed (op : ReaderOp) (reader : Reader) (inside : Inside reader)
    (allocated : reader.buf.length ≤ maxAlloc) : Performed op reader (exec op.perform reader) := by
  cases op with
  | readInt32 => exact returning_performed _ _ confined_int32 reader inside
  | readUint32 => exact returning_performed _ _ confined_uint32 reader inside
  | readInt64 => exact returning_performed _ _ confined_int64 reader inside
  | readUint64 => exact returning_performed _ _ confined_uint64 reader inside
  | readDouble => exact returning_performed _ _ confined_uint64 reader inside
  | readInt128 => exact returning_performed _ _ confined_int128 reader inside
  | readInt256 => exact returning_performed _ _ confined_int256 reader inside
  | readBool => exact returning_performed _ _ confined_bool reader inside
  | readBytes => exact returning_performed _ _ confined_bytes reader inside
  | readString => exact returning_performed _ _ confined_bytes reader inside
  | readFlags => exact returning_performed _ _ confined_uint32 reader inside
  | readVectorLen => exact returning_performed _ _ confined_vector_len reader inside
  | readVectorBytes =>
      exact returning_performed _ _ (confined_vector (by decide) confined_bytes) reader inside
  | readVectorString =>
      exact returning_performed _ _ (confined_vector (by decide) confined_bytes) reader inside
  | readVectorInt256 =>
      exact returning_performed _ _ (confined_vector (by decide) confined_int256) reader inside
  | readRaw count => exact read_raw_performed count reader inside allocated

def performAll (ops : List ReaderOp) (reader : Reader) : Reader :=
  ops.foldl (fun current op => (exec op.perform current).2) reader

theorem perform_all_moves (ops : List ReaderOp) (reader : Reader) (inside : Inside reader)
    (allocated : reader.buf.length ≤ maxAlloc) : Moves 0 reader (performAll ops reader) := by
  induction ops generalizing reader with
  | nil => exact moves_nowhere inside
  | cons op ops ih =>
      have first := (operation_performed op reader inside allocated).moves
      have still : (exec op.perform reader).2.buf.length ≤ maxAlloc := by
        rw [first.sameBuf]
        exact allocated
      exact first.trans (ih (exec op.perform reader).2 first.inside still)

end Operations

end Gocoon.ReaderSafety
