import Gocoon.ReaderGrammars

/-!
# The grammar of packets

The written forms of a packet are a relation between bytes and packets that says nothing about
how they are read: a constructor number, then the fields, integers little-endian, byte strings
behind one of the two length headers and with any bytes as padding. The decoder returns a packet
exactly where one of its forms starts the payload. It complains about the constructor exactly
where four bytes are there and name none of the eight, and about a cut-off field or the reserved
length mark in all other cases.
-/

namespace Gocoon.PacketGrammar

open Gocoon.LittleEndianBytes
open Gocoon.GoProgram
open Gocoon.TlPrimitives
open Gocoon.TlTcpPacket
open Gocoon.ReaderSafety
open Gocoon.ReaderGrammars

set_option autoImplicit false

def numberOf : TCPPacketKind → Option UInt32
  | .unknown => none
  | .ping => some idTCPPing
  | .pong => some idTCPPong
  | .connect => some idTCPConnect
  | .connected => some idTCPConnected
  | .packet => some idTCPPacket
  | .query => some idTCPQuery
  | .queryAnswer => some idTCPQueryAnswer
  | .queryError => some idTCPQueryError

inductive Fields : TCPPacketKind → List Byte → DecodedTCPPacket → Prop
  | idOnly {kind : TCPPacketKind} (plain : kind ∈ [.ping, .pong, .connect, .connected])
      (id : Int64) : Fields kind (putUint64 id.toUInt64) { kind := kind, id := id }
  | packet {bytes data : List Byte} (written : StringForm bytes data) :
      Fields .packet bytes { kind := .packet, data := data }
  | idAndData {kind : TCPPacketKind} (carries : kind ∈ [.query, .queryAnswer]) (id : Int64)
      {bytes data : List Byte} (written : StringForm bytes data) :
      Fields kind (putUint64 id.toUInt64 ++ bytes) { kind := kind, id := id, data := data }
  | queryError (id : Int64) (code : Int32) {bytes message : List Byte}
      (written : StringForm bytes message) :
      Fields .queryError (putUint64 id.toUInt64 ++ (putUint32 code.toUInt32 ++ bytes))
        { kind := .queryError, id := id, errCode := code, errMsg := message }

/-- The complete serialisations of a packet. -/
def PacketForm (bytes : List Byte) (packet : DecodedTCPPacket) : Prop :=
  ∃ kind number fields, numberOf kind = some number ∧ bytes = putUint32 number ++ fields ∧
    Fields kind fields packet

section Packets

theorem kinds_apart {kind : TCPPacketKind}
    (plain : kind ∈ [TCPPacketKind.ping, .pong, .connect, .connected]) :
    kind ∉ [TCPPacketKind.query, .queryAnswer] := by
  cases kind <;> revert plain <;> decide

theorem follows_id_only {kind : TCPPacketKind}
    (plain : kind ∈ [TCPPacketKind.ping, .pong, .connect, .connected]) :
    Follows (readIdOnly kind) (Written (Fields kind)) CutOff := by
  apply (follows_int64.map fun id => ({ kind := kind, id := id } : DecodedTCPPacket)).congr
  intro input packet rest
  constructor
  · rintro ⟨id, rfl, rfl⟩
    exact ⟨_, .idOnly plain id, rfl⟩
  · rintro ⟨bytes, fields, rfl⟩
    cases fields with
    | idOnly _ id => exact ⟨id, rfl, rfl⟩
    | packet written => exact absurd plain (by decide)
    | idAndData carries id written => exact absurd carries (kinds_apart plain)
    | queryError id code written => exact absurd plain (by decide)

theorem follows_id_and_data {kind : TCPPacketKind}
    (carries : kind ∈ [TCPPacketKind.query, .queryAnswer]) :
    Follows (readIdAndData kind) (Written (Fields kind)) CutOff := by
  apply (follows_int64.bind fun id => follows_bytes.map fun data =>
    ({ kind := kind, id := id, data := data } : DecodedTCPPacket)).congr
  intro input packet rest
  constructor
  · rintro ⟨id, _, rfl, data, ⟨bytes, written, rfl⟩, rfl⟩
    exact ⟨_, .idAndData carries id written, (List.append_assoc _ _ _).symm⟩
  · rintro ⟨_, fields, rfl⟩
    cases fields with
    | idOnly plain id => exact absurd carries (kinds_apart plain)
    | packet written => exact absurd carries (by decide)
    | idAndData _ id written =>
        exact ⟨id, _, List.append_assoc _ _ _, _, ⟨_, written, rfl⟩, rfl⟩
    | queryError id code written => exact absurd carries (by decide)

theorem follows_packet : Follows (readBytes >>= fun data =>
    pure ({ kind := .packet, data := data } : DecodedTCPPacket)) (Written (Fields .packet))
      CutOff := by
  apply (follows_bytes.map _).congr
  intro input packet rest
  constructor
  · rintro ⟨data, ⟨bytes, written, rfl⟩, rfl⟩
    exact ⟨_, .packet written, rfl⟩
  · rintro ⟨_, fields, rfl⟩
    cases fields with
    | idOnly plain id => exact absurd plain (by decide)
    | packet written => exact ⟨_, ⟨_, written, rfl⟩, rfl⟩
    | idAndData carries id written => exact absurd carries (by decide)

theorem follows_query_error : Follows (do
    let id ← readInt64
    let code ← readInt32
    let message ← readString
    pure ({ kind := .queryError, id := id, errCode := code, errMsg := message } :
      DecodedTCPPacket)) (Written (Fields .queryError)) CutOff := by
  apply (follows_int64.bind fun id => follows_int32.bind fun code =>
    follows_bytes.map fun message =>
      ({ kind := .queryError, id := id, errCode := code, errMsg := message } :
        DecodedTCPPacket)).congr
  intro input packet rest
  constructor
  · rintro ⟨id, _, rfl, code, _, rfl, message, ⟨bytes, written, rfl⟩, rfl⟩
    exact ⟨_, .queryError id code written, by simp only [List.append_assoc]⟩
  · rintro ⟨_, fields, rfl⟩
    cases fields with
    | idOnly plain id => exact absurd plain (by decide)
    | idAndData carries id written => exact absurd carries (by decide)
    | queryError id code written =>
        refine ⟨id, _, List.append_assoc _ _ _, code, _, List.append_assoc _ _ _, _, ?_, rfl⟩
        exact ⟨_, written, rfl⟩

/-- The reader that the switch selects for a kind. -/
def readFields : TCPPacketKind → ReadM DecodedTCPPacket
  | .unknown => fail .unknownConstructor
  | .packet => do
      let data ← readBytes
      pure { kind := .packet, data := data }
  | .query => readIdAndData .query
  | .queryAnswer => readIdAndData .queryAnswer
  | .queryError => do
      let id ← readInt64
      let code ← readInt32
      let message ← readString
      pure { kind := .queryError, id := id, errCode := code, errMsg := message }
  | kind => readIdOnly kind

theorem follows_fields {kind : TCPPacketKind} (known : kind ≠ .unknown) :
    Follows (readFields kind) (Written (Fields kind)) CutOff := by
  cases kind with
  | unknown => exact absurd rfl known
  | ping => exact follows_id_only (by decide)
  | pong => exact follows_id_only (by decide)
  | connect => exact follows_id_only (by decide)
  | connected => exact follows_id_only (by decide)
  | packet => exact follows_packet
  | query => exact follows_id_and_data (by decide)
  | queryAnswer => exact follows_id_and_data (by decide)
  | queryError => exact follows_query_error

/-- Each case of the switch is reached by the number of its kind, and the default by any other
number. -/
theorem read_body_eq (number : UInt32) :
    (∀ kind, numberOf kind = some number → readTCPBody number = readFields kind) ∧
      ((∀ kind, numberOf kind ≠ some number) →
        readTCPBody number = fail .unknownConstructor) := by
  constructor
  · intro kind numbered
    -- The numbers are rewritten to their values, which the switch then compares.
    cases kind <;> cases numbered <;>
      rw [readTCPBody, id_ping_value, id_pong_value, id_connect_value, id_connected_value,
        id_packet_value, id_query_value, id_query_answer_value, id_query_error_value] <;>
      rfl
  · intro other
    have apart : ∀ kind id, numberOf kind = some id → number ≠ id := by
      intro kind id numbered same
      exact other kind (numbered.trans (congrArg some same.symm))
    rw [readTCPBody, if_neg (apart .ping _ rfl), if_neg (apart .pong _ rfl),
      if_neg (apart .connect _ rfl), if_neg (apart .connected _ rfl),
      if_neg (apart .packet _ rfl), if_neg (apart .query _ rfl),
      if_neg (apart .queryAnswer _ rfl), if_neg (apart .queryError _ rfl)]

theorem number_known {kind : TCPPacketKind} {number : UInt32}
    (numbered : numberOf kind = some number) : kind ≠ .unknown := by
  rintro rfl
  cases numbered

theorem exec_packet (payload : List Byte) :
    (payload.length < 4 ∧ ∃ error, CutOff error ∧
      decodeTCPPacket payload = .error (.returned error)) ∨
    (4 ≤ payload.length ∧ decodeTCPPacket payload =
      (exec (readTCPBody (uint32 (payload.take 4))) ⟨payload, 4⟩).1) := by
  have raw := exec_read_raw 4 (newReader payload)
  simp only [newReader, Nat.zero_add, List.drop_zero] at raw
  rw [decodeTCPPacket, readTCPPacket, readUint32, newReader]
  split_ifs at raw with short
  · refine .inl ⟨short, .shortBuffer 4 0 payload.length, trivial, ?_⟩
    rw [exec_bind, exec_bind, raw]
  · refine .inr ⟨Nat.le_of_not_lt short, ?_⟩
    have word : exec (readRaw 4 >>= fun bytes => pure (uint32 bytes)) ⟨payload, 0⟩ =
        (.ok (uint32 (payload.take 4)), ⟨payload, 4⟩) := by
      rw [exec_bind_ok raw, exec_pure]
    rw [exec_bind_ok word]

theorem number_spelled {payload : List Byte} (enough : 4 ≤ payload.length) :
    payload = putUint32 (uint32 (payload.take 4)) ++ payload.drop 4 := by
  rw [put_uint32_of_bytes _ (List.length_take_of_le enough), List.take_append_drop]

theorem decode_form_iff (payload : List Byte) (packet : DecodedTCPPacket) :
    decodeTCPPacket payload = .ok packet ↔
      ∃ bytes rest, payload = bytes ++ rest ∧ PacketForm bytes packet := by
  constructor
  · intro decoded
    rcases exec_packet payload with ⟨-, error, -, failed⟩ | ⟨enough, read⟩
    · rw [decoded] at failed
      cases failed
    · rw [read] at decoded
      by_cases known : ∃ kind, numberOf kind = some (uint32 (payload.take 4))
      · obtain ⟨kind, numbered⟩ := known
        rw [(read_body_eq _).1 kind numbered] at decoded
        rcases ran : exec (readFields kind) ⟨payload, 4⟩ with ⟨outcome, after⟩
        rw [ran] at decoded
        subst decoded
        obtain ⟨fields, written, split⟩ :=
          (follows_fields (number_known numbered)).heeds _ packet after ran
        refine ⟨_, after.buf.drop after.pos, ?_, kind, _, fields, numbered, rfl, written⟩
        rw [List.append_assoc, ← split]
        exact number_spelled enough
      · rw [(read_body_eq _).2 (not_exists.mp known), exec_fail] at decoded
        cases decoded
  · intro ⟨bytes, rest, whole, kind, number, fields, numbered, spelled, written⟩
    have body := (follows_fields (number_known numbered)).reads written
    rw [← (read_body_eq number).1 kind numbered] at body
    have read := reads_packet_of_body number fields packet body [] rest
    rw [← spelled, List.nil_append, ← whole] at read
    rw [decodeTCPPacket, newReader]
    exact congrArg Prod.fst read

theorem decode_unknown_iff (payload : List Byte) :
    decodeTCPPacket payload = .error (.returned .unknownConstructor) ↔
      4 ≤ payload.length ∧ ∀ kind, numberOf kind ≠ some (uint32 (payload.take 4)) := by
  constructor
  · intro failed
    rcases exec_packet payload with ⟨-, error, cut, short⟩ | ⟨enough, read⟩
    · rw [failed] at short
      cases short
      exact cut.elim
    · refine ⟨enough, ?_⟩
      intro kind numbered
      rw [failed, (read_body_eq _).1 kind numbered] at read
      obtain ⟨error, same, cut⟩ := (follows_fields (number_known numbered)).fails
        ⟨payload, 4⟩ _ _ (Prod.ext read.symm rfl)
      cases same
      exact cut.elim
  · intro ⟨enough, other⟩
    rcases exec_packet payload with ⟨short, -⟩ | ⟨-, read⟩
    · omega
    · rw [read, (read_body_eq _).2 other, exec_fail]

theorem decode_fault {payload : List Byte} {fault : Fault TlError}
    (failed : decodeTCPPacket payload = .error fault) :
    fault = .returned .unknownConstructor ∨ ∃ error, fault = .returned error ∧ CutOff error := by
  rcases exec_packet payload with ⟨-, error, cut, short⟩ | ⟨enough, read⟩
  · rw [failed] at short
    cases short
    exact .inr ⟨error, rfl, cut⟩
  · rw [failed] at read
    by_cases known : ∃ kind, numberOf kind = some (uint32 (payload.take 4))
    · obtain ⟨kind, numbered⟩ := known
      rw [(read_body_eq _).1 kind numbered] at read
      exact .inr ((follows_fields (number_known numbered)).fails ⟨payload, 4⟩ _ _
        (Prod.ext read.symm rfl))
    · rw [(read_body_eq _).2 (not_exists.mp known), exec_fail] at read
      cases read
      exact .inl rfl

/-- For every payload: it decodes to a packet exactly when it starts with a complete
serialisation of that packet, and to no other packet then; the constructor is unknown exactly
when four bytes are there and spell none of the eight numbers; every other failure is a cut-off
field or the reserved length mark. -/
theorem packet_grammar_exact (payload : List Byte) :
    (∀ packet, decodeTCPPacket payload = .ok packet ↔
      ∃ bytes rest, payload = bytes ++ rest ∧ PacketForm bytes packet) ∧
    (∀ packet other bytes rest bytes' rest', payload = bytes ++ rest → PacketForm bytes packet →
      payload = bytes' ++ rest' → PacketForm bytes' other → packet = other) ∧
    (decodeTCPPacket payload = .error (.returned .unknownConstructor) ↔
      4 ≤ payload.length ∧ ∀ kind, numberOf kind ≠ some (uint32 (payload.take 4))) ∧
    (∀ fault, decodeTCPPacket payload = .error fault → fault = .returned .unknownConstructor ∨
      ∃ error, fault = .returned error ∧ CutOff error) := by
  refine ⟨decode_form_iff payload, ?_, decode_unknown_iff payload, fun _ => decode_fault⟩
  intro packet other bytes rest bytes' rest' whole written whole' written'
  have one := (decode_form_iff payload packet).mpr ⟨bytes, rest, whole, written⟩
  have two := (decode_form_iff payload other).mpr ⟨bytes', rest', whole', written'⟩
  rw [one] at two
  exact Except.ok.inj two

/-- A packet whose length stands in the long form although the short one would do, with other
bytes than zeros as padding and two bytes behind it. -/
theorem long_form_decoded :
    decodeTCPPacket (putUint32 idTCPPacket ++ [0xfe, 1, 0, 0, 7, 9, 9, 9] ++ [1, 2]) =
      .ok { kind := .packet, data := [7] } := by
  apply ((packet_grammar_exact _).1 _).mpr
  refine ⟨_, _, rfl, .packet, idTCPPacket, [0xfe, 1, 0, 0, 7, 9, 9, 9], rfl, rfl, .packet ?_⟩
  exact ⟨[0xfe, 1, 0, 0], [9, 9, 9], .long [1, 0, 0] rfl, rfl, rfl⟩

end Packets

end Gocoon.PacketGrammar
