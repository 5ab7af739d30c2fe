import Gocoon.TlFrame
import Gocoon.TlPrimitives

/-!
# The tcp.Packet envelope

Constructor ids are the CRC-32 checksums of the canonical signatures, computed here
as the source computes them at start-up. The decoder is one switch on the id; since
the eight ids differ, each encoder reaches its own case. `WriteBytes` never reports a
length that does not fit its three-byte field, so that no payload is cut rests on the
frame limit: a frame that `WriteFrame` accepts has room for the header of the byte
string, and this already keeps the length below `2 ^ 24`.
-/

namespace Gocoon.TlTcpPacket

open Gocoon.LittleEndianBytes
open Gocoon.GoProgram
open Gocoon.TlPrimitives
open Gocoon.TlFrame

set_option autoImplicit false

def crcBit (crc : UInt32) : UInt32 :=
  if crc &&& 1 = 1 then (crc >>> 1) ^^^ 0xedb88320 else crc >>> 1

def crcByte (crc : UInt32) (byte : Byte) : UInt32 :=
  (List.range 8).foldl (fun state _ => crcBit state) (crc ^^^ byte.toUInt32)

/-- `crc32.ChecksumIEEE`: the reflected polynomial, bit by bit. -/
def checksumIEEE (bytes : List Byte) : UInt32 := ~~~(bytes.foldl crcByte 0xffffffff)

def idTCPPing : UInt32 := checksumIEEE (ascii "tcp.ping id:long = tcp.Packet")

def idTCPPong : UInt32 := checksumIEEE (ascii "tcp.pong id:long = tcp.Packet")

def idTCPPacket : UInt32 := checksumIEEE (ascii "tcp.packet data:bytes = tcp.Packet")

def idTCPQueryAnswer : UInt32 :=
  checksumIEEE (ascii "tcp.queryAnswer id:long data:bytes = tcp.Packet")

def idTCPQueryError : UInt32 :=
  checksumIEEE (ascii "tcp.queryError id:long code:int message:string = tcp.Packet")

def idTCPQuery : UInt32 := checksumIEEE (ascii "tcp.query id:long data:bytes = tcp.Packet")

def idTCPConnected : UInt32 := checksumIEEE (ascii "tcp.connected id:long = tcp.Packet")

def idTCPConnect : UInt32 := checksumIEEE (ascii "tcp.connect id:long = tcp.Packet")

theorem id_ping_value : idTCPPing = 0xbbe9627c := by decide +kernel

theorem id_pong_value : idTCPPong = 0x0bd4302c := by decide +kernel

theorem id_packet_value : idTCPPacket = 0x9c17baf8 := by decide +kernel

theorem id_query_answer_value : idTCPQueryAnswer = 0xc048c311 := by decide +kernel

theorem id_query_error_value : idTCPQueryError = 0x4cd2f602 := by decide +kernel

theorem id_query_value : idTCPQuery = 0x3af51908 := by decide +kernel

theorem id_connected_value : idTCPConnected = 0x636d41d6 := by decide +kernel

theorem id_connect_value : idTCPConnect = 0xa57c4261 := by decide +kernel

/-- An envelope that carries only an id. -/
def encodeIdOnly (constructorID : UInt32) (id : Int64) : List Byte :=
  ((newWriter.writeUint32 constructorID).writeInt64 id).buf

def encodeTCPConnect (id : Int64) : List Byte := encodeIdOnly idTCPConnect id

def encodeTCPConnected (id : Int64) : List Byte := encodeIdOnly idTCPConnected id

def encodeTCPPing (id : Int64) : List Byte := encodeIdOnly idTCPPing id

def encodeTCPPong (id : Int64) : List Byte := encodeIdOnly idTCPPong id

def encodeTCPQuery (queryID : Int64) (data : List Byte) : List Byte :=
  (((newWriter.writeUint32 idTCPQuery).writeInt64 queryID).writeBytes data).buf

def encodeTCPPacket (data : List Byte) : List Byte :=
  ((newWriter.writeUint32 idTCPPacket).writeBytes data).buf

inductive TCPPacketKind where
  | unknown
  | ping
  | pong
  | connect
  | connected
  | packet
  | query
  | queryAnswer
  | queryError
  deriving DecidableEq

structure DecodedTCPPacket where
  kind : TCPPacketKind := .unknown
  id : Int64 := 0
  data : List Byte := []
  errCode : Int32 := 0
  errMsg : GoString := []
  deriving DecidableEq

def readIdOnly (kind : TCPPacketKind) : ReadM DecodedTCPPacket := do
  let id ← readInt64
  pure { kind := kind, id := id }

def readIdAndData (kind : TCPPacketKind) : ReadM DecodedTCPPacket := do
  let id ← readInt64
  let data ← readBytes
  pure { kind := kind, id := id, data := data }

def readTCPBody (constructorID : UInt32) : ReadM DecodedTCPPacket :=
  if constructorID = idTCPPing then readIdOnly .ping
  else if constructorID = idTCPPong then readIdOnly .pong
  else if constructorID = idTCPConnect then readIdOnly .connect
  else if constructorID = idTCPConnected then readIdOnly .connected
  else if constructorID = idTCPPacket then do
    let data ← readBytes
    pure { kind := .packet, data := data }
  else if constructorID = idTCPQuery then readIdAndData .query
  else if constructorID = idTCPQueryAnswer then readIdAndData .queryAnswer
  else if constructorID = idTCPQueryError then do
    let id ← readInt64
    let code ← readInt32
    let message ← readString
    pure { kind := .queryError, id := id, errCode := code, errMsg := message }
  else fail .unknownConstructor

def readTCPPacket : ReadM DecodedTCPPacket := do
  let constructorID ← readUint32
  readTCPBody constructorID

def decodeTCPPacket (payload : List Byte) : Except (Fault TlError) DecodedTCPPacket :=
  (exec readTCPPacket (newReader payload)).1

theorem decode_of_reads (payload : List Byte) (packet : DecodedTCPPacket)
    (read : Reads readTCPPacket payload packet) : decodeTCPPacket payload = .ok packet := by
  have whole := read [] []
  simp only [List.nil_append, List.append_nil, List.length_nil, Nat.zero_add] at whole
  rw [decodeTCPPacket, newReader, whole]

theorem reads_packet_of_body (constructorID : UInt32) (body : List Byte)
    (packet : DecodedTCPPacket) (read : Reads (readTCPBody constructorID) body packet) :
    Reads readTCPPacket (putUint32 constructorID ++ body) packet :=
  (reads_uint32 constructorID).bind read

theorem reads_id_only (kind : TCPPacketKind) (id : Int64) :
    Reads (readIdOnly kind) (putUint64 id.toUInt64) { kind := kind, id := id } :=
  (reads_int64 id).map fun id => ({ kind := kind, id := id } : DecodedTCPPacket)

theorem reads_id_and_data (kind : TCPPacketKind) (id : Int64) (data : List Byte)
    (fits : data.length < 2 ^ 24) :
    Reads (readIdAndData kind) (putUint64 id.toUInt64 ++ bytesWire data)
      { kind := kind, id := id, data := data } :=
  (reads_int64 id).bind ((reads_bytes data fits).map fun data =>
    ({ kind := kind, id := id, data := data } : DecodedTCPPacket))

theorem encode_id_only_bytes (constructorID : UInt32) (id : Int64) :
    encodeIdOnly constructorID id = putUint32 constructorID ++ putUint64 id.toUInt64 := by
  simp [encodeIdOnly, newWriter, Writer.writeUint32, Writer.writeInt64, Writer.writeUint64,
    Writer.writeRaw]

theorem encode_query_bytes (queryID : Int64) (data : List Byte) :
    encodeTCPQuery queryID data =
      putUint32 idTCPQuery ++ (putUint64 queryID.toUInt64 ++ bytesWire data) := by
  rw [encodeTCPQuery, write_bytes_buf]
  simp [newWriter, Writer.writeUint32, Writer.writeInt64, Writer.writeUint64, Writer.writeRaw]

theorem encode_packet_bytes (data : List Byte) :
    encodeTCPPacket data = putUint32 idTCPPacket ++ bytesWire data := by
  rw [encodeTCPPacket, write_bytes_buf]
  simp [newWriter, Writer.writeUint32, Writer.writeRaw]

theorem read_body_cases :
    readTCPBody idTCPPing = readIdOnly .ping ∧
    readTCPBody idTCPPong = readIdOnly .pong ∧
    readTCPBody idTCPConnect = readIdOnly .connect ∧
    readTCPBody idTCPConnected = readIdOnly .connected ∧
    readTCPBody idTCPPacket = (readBytes >>= fun data =>
      pure { kind := .packet, data := data }) ∧
    readTCPBody idTCPQuery = readIdAndData .query ∧
    readTCPBody idTCPQueryAnswer = readIdAndData .queryAnswer := by
  simp only [readTCPBody, id_ping_value, id_pong_value, id_connect_value, id_connected_value,
    id_packet_value, id_query_value, id_query_answer_value, id_query_error_value]
  exact ⟨rfl, rfl, rfl, rfl, rfl, rfl, rfl⟩

theorem decode_id_only (constructorID : UInt32) (kind : TCPPacketKind) (id : Int64)
    (reached : readTCPBody constructorID = readIdOnly kind) :
    decodeTCPPacket (encodeIdOnly constructorID id) = .ok { kind := kind, id := id } := by
  rw [encode_id_only_bytes]
  apply decode_of_reads
  apply reads_packet_of_body
  rw [reached]
  exact reads_id_only kind id

/-- The header of a long byte string takes four bytes of the frame, so an accepted frame
leaves room for fewer than `2 ^ 24` bytes of data. -/
theorem bytes_wire_room (data : List Byte) (size : Nat) (room : 4 ≤ size)
    (bounded : size + (bytesWire data).length ≤ maxFrameSize) : data.length < 2 ^ 24 := by
  unfold maxFrameSize at bounded
  by_cases short : data.length < 0xfe
  · omega
  · simp only [bytesWire, if_neg short, List.length_cons, List.length_append,
      encode_le_length, List.length_replicate] at bounded
    omega

theorem accepted_of_written (faults : WriteFaults) (conn : FramedConn) (sink : Sink)
    (payload : List Byte) (written : (writeFrame faults conn sink payload).1 = none) :
    Accepted payload := by
  by_contra rejected
  obtain ⟨error, outcome⟩ := write_frame_rejected faults conn sink payload rejected
  rw [outcome] at written
  cases written

/-- `transport.SendPacket`: one frame, written under the write lock. -/
def sendPacket (faults : WriteFaults) (conn : FramedConn) (sink : Sink) (body : List Byte) :
    Option FrameError × FramedConn × Sink :=
  writeFrame faults conn sink (encodeTCPPacket body)

/-- The body of a packet that was sent is shorter than a three-byte length can say. -/
theorem sent_body_length {faults : WriteFaults} {conn : FramedConn} {sink : Sink}
    {body : List Byte} (sent : (sendPacket faults conn sink body).1 = none) :
    body.length < 2 ^ 24 := by
  have accepted := accepted_of_written faults conn sink _ sent
  apply bytes_wire_room body 4 (by omega)
  have bounded := accepted.2
  rw [encode_packet_bytes] at bounded
  simpa using bounded

theorem decode_accepted_query (id : Int64) (body : List Byte)
    (accepted : Accepted (encodeTCPQuery id body)) :
    decodeTCPPacket (encodeTCPQuery id body) =
      .ok { kind := .query, id := id, data := body } := by
  have bounded := accepted.2
  rw [encode_query_bytes] at bounded ⊢
  have fits : body.length < 2 ^ 24 := by
    apply bytes_wire_room body 12 (by omega)
    simpa [Nat.add_assoc, ← Nat.add_assoc 4 8] using bounded
  apply decode_of_reads
  apply reads_packet_of_body
  rw [read_body_cases.2.2.2.2.2.1]
  exact reads_id_and_data .query id body fits

theorem decode_accepted_packet (body : List Byte) (accepted : Accepted (encodeTCPPacket body)) :
    decodeTCPPacket (encodeTCPPacket body) = .ok { kind := .packet, data := body } := by
  have bounded := accepted.2
  rw [encode_packet_bytes] at bounded ⊢
  have fits : body.length < 2 ^ 24 := by
    apply bytes_wire_room body 4 (by omega)
    simpa using bounded
  apply decode_of_reads
  apply reads_packet_of_body
  rw [read_body_cases.2.2.2.2.1]
  exact (reads_bytes body fits).map fun data =>
    ({ kind := .packet, data := data } : DecodedTCPPacket)

/-- Whatever `WriteFrame` lets through arrives as it was given: the id and the body of a
query, the body of a packet, and the id of the four bare envelopes. -/
theorem written_envelope_decodes (faults : WriteFaults) (conn : FramedConn) (sink : Sink)
    (id : Int64) (body : List Byte) :
    ((writeFrame faults conn sink (encodeTCPQuery id body)).1 = none →
      decodeTCPPacket (encodeTCPQuery id body) =
        .ok { kind := .query, id := id, data := body }) ∧
    ((writeFrame faults conn sink (encodeTCPPacket body)).1 = none →
      decodeTCPPacket (encodeTCPPacket body) = .ok { kind := .packet, data := body }) ∧
    decodeTCPPacket (encodeTCPPing id) = .ok { kind := .ping, id := id } ∧
    decodeTCPPacket (encodeTCPPong id) = .ok { kind := .pong, id := id } ∧
    decodeTCPPacket (encodeTCPConnect id) = .ok { kind := .connect, id := id } ∧
    decodeTCPPacket (encodeTCPConnected id) = .ok { kind := .connected, id := id } := by
  obtain ⟨ping, pong, connect, connected, -⟩ := read_body_cases
  refine ⟨?_, ?_, decode_id_only _ _ id ping, decode_id_only _ _ id pong,
    decode_id_only _ _ id connect, decode_id_only _ _ id connected⟩
  · intro written
    exact decode_accepted_query id body (accepted_of_written faults conn sink _ written)
  · intro written
    exact decode_accepted_packet body (accepted_of_written faults conn sink _ written)

end Gocoon.TlTcpPacket
