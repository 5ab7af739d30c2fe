import Gocoon.MutexSections
import Gocoon.TlTcpPacket

/-!
# Concurrent writers of one transport

Every sender of a transport goes through `transport.WriteFrame`, whose body runs under
`writeMu`: the size check with the increment of the seqno, the write of the header and the write
of the payload are separate steps, and the steps of any number of goroutines interleave. Taken
alone the three steps are `FramedConn.WriteFrame`, so between calls the connection is as if the
completed calls had been made one after the other.
-/

namespace Gocoon.TransportWriters

open Gocoon.LittleEndianBytes
open Gocoon.TlFrame
open Gocoon.TlTcpPacket
open Gocoon.MutexSections
open Gocoon.TransitionRuns

set_option autoImplicit false

/-- The senders of a transport. -/
inductive Send where
  | sendQuery (id : Int64) (body : List Byte)
  | sendPacket (body : List Byte)
  | sendConnect (id : Int64)
  | pong (id : Int64)
  | keepalivePing (id : Int64)
  | writeFrame (payload : List Byte)
  deriving DecidableEq

def Send.payload : Send → List Byte
  | .sendQuery id body => encodeTCPQuery id body
  | .sendPacket body => encodeTCPPacket body
  | .sendConnect id => encodeTCPConnect id
  | .pong id => encodeTCPPong id
  | .keepalivePing id => encodeTCPPing id
  | .writeFrame payload => payload

/-- Where the body of `WriteFrame` stands. -/
inductive WritePosition where
  | check (payload : List Byte)
  | header (payload : List Byte) (seqno : Int32)
  | payload (payload : List Byte)
  deriving DecidableEq

abbrev Connection := FramedConn × Sink

def headerBytes (payload : List Byte) (seqno : Int32) : List Byte :=
  putUint32 (UInt32.ofNat payload.length) ++ putUint32 seqno.toUInt32

def writeStep (faults : WriteFaults) :
    WritePosition → Connection → Connection × (WritePosition ⊕ Option FrameError)
  | .check payload, (conn, sink) =>
      if payload.length < minFrameSize then
        ((conn, sink), .inr (some (.payloadTooSmall payload.length)))
      else if maxFrameSize < payload.length then
        ((conn, sink), .inr (some (.payloadTooLarge payload.length)))
      else
        let advanced := { conn with outSeqno := conn.outSeqno + 1 }
        ((advanced, sink), .inl (.header payload (advanced.outSeqno - 1)))
  | .header payload seqno, (conn, sink) =>
      match sink.write faults (headerBytes payload seqno) with
      | (some cause, after) => ((conn, after), .inr (some (.writeHeader cause)))
      | (none, after) => ((conn, after), .inl (.payload payload))
  | .payload payload, (conn, sink) =>
      match sink.write faults payload with
      | (some cause, after) => ((conn, after), .inr (some (.writePayload cause)))
      | (none, after) => ((conn, after), .inr none)

def writeSection (faults : WriteFaults) :
    Section Connection Send WritePosition (Option FrameError) where
  enter := fun send => .check send.payload
  advance := writeStep faults

abbrev Transport := Callers Connection Send WritePosition (Option FrameError)

def newTransport : Transport := fresh (newFramedConn, emptySink)

def transportStep (faults : WriteFaults) : Transport → CallerStep Send → Option Transport :=
  step (writeSection faults)

section Alone

variable {faults : WriteFaults} {send : Send} {found now : Connection}

def Reached (faults : WriteFaults) (send : Send) (found now : Connection) :
    WritePosition ⊕ Option FrameError → Prop
  | .inl (.check payload) => payload = send.payload ∧ now = found
  | .inl (.header payload seqno) => payload = send.payload ∧ Accepted send.payload ∧
      seqno = found.1.outSeqno ∧
      now = ({ found.1 with outSeqno := found.1.outSeqno + 1 }, found.2)
  | .inl (.payload payload) => payload = send.payload ∧ Accepted send.payload ∧
      now.1 = { found.1 with outSeqno := found.1.outSeqno + 1 } ∧
      found.2.write faults (headerBytes send.payload found.1.outSeqno) = (none, now.2)
  | .inr result => writeFrame faults found.1 found.2 send.payload = (result, now)

theorem reached_after_check (conn : FramedConn) (sink : Sink) :
    Reached faults send (conn, sink) (writeStep faults (.check send.payload) (conn, sink)).1
      (writeStep faults (.check send.payload) (conn, sink)).2 := by
  have seqno : conn.outSeqno + 1 - 1 = conn.outSeqno := Int32.add_sub_cancel _ _
  by_cases small : send.payload.length < minFrameSize
  · simp [writeStep, Reached, writeFrame, small]
  by_cases large : maxFrameSize < send.payload.length
  · simp [writeStep, Reached, writeFrame, small, large]
  have accepted : Accepted send.payload := ⟨Nat.le_of_not_lt small, Nat.le_of_not_lt large⟩
  simp only [writeStep, if_neg small, if_neg large]
  exact ⟨rfl, accepted, seqno, rfl⟩

theorem write_frame_header (faults : WriteFaults) (conn : FramedConn) (sink : Sink)
    {payload : List Byte} (accepted : Accepted payload) :
    writeFrame faults conn sink payload =
      match sink.write faults (headerBytes payload conn.outSeqno) with
      | (some cause, afterHeader) =>
          (some (.writeHeader cause), { conn with outSeqno := conn.outSeqno + 1 }, afterHeader)
      | (none, afterHeader) =>
          match afterHeader.write faults payload with
          | (some cause, afterPayload) =>
              (some (.writePayload cause), { conn with outSeqno := conn.outSeqno + 1 },
                afterPayload)
          | (none, afterPayload) =>
              (none, { conn with outSeqno := conn.outSeqno + 1 }, afterPayload) :=
  write_frame_sized faults conn sink payload accepted

theorem reached_after_header (accepted : Accepted send.payload) (conn : FramedConn)
    (sink : Sink) :
    let advanced := { conn with outSeqno := conn.outSeqno + 1 }
    Reached faults send (conn, sink)
      (writeStep faults (.header send.payload conn.outSeqno) (advanced, sink)).1
      (writeStep faults (.header send.payload conn.outSeqno) (advanced, sink)).2 := by
  have whole := write_frame_header faults conn sink accepted
  simp only [writeStep]
  rcases written : sink.write faults (headerBytes send.payload conn.outSeqno) with
    ⟨_ | cause, after⟩
  · exact ⟨rfl, accepted, rfl, written⟩
  · rw [written] at whole
    exact whole

theorem reached_after_payload (accepted : Accepted send.payload) (conn : FramedConn)
    (sink middle : Sink)
    (header : sink.write faults (headerBytes send.payload conn.outSeqno) = (none, middle)) :
    let advanced := { conn with outSeqno := conn.outSeqno + 1 }
    Reached faults send (conn, sink)
      (writeStep faults (.payload send.payload) (advanced, middle)).1
      (writeStep faults (.payload send.payload) (advanced, middle)).2 := by
  have whole := write_frame_header faults conn sink accepted
  simp only [writeStep]
  rw [header] at whole
  rcases written : middle.write faults send.payload with ⟨_ | cause, after⟩
  · simp only [written] at whole
    exact whole
  · simp only [written] at whole
    exact whole

/-- The three steps of a body that runs alone are `FramedConn.WriteFrame`. -/
theorem progress_reached {outcome : WritePosition ⊕ Option FrameError}
    (progress : Progress (writeSection faults) send found outcome now) :
    Reached faults send found now outcome := by
  induction progress with
  | entered => exact ⟨rfl, rfl⟩
  | advanced position shared earlier ih =>
      obtain ⟨conn, sink⟩ := found
      cases position with
      | check payload =>
          obtain ⟨rfl, rfl⟩ := ih
          exact reached_after_check conn sink
      | header payload seqno =>
          obtain ⟨rfl, accepted, rfl, rfl⟩ := ih
          exact reached_after_header accepted conn sink
      | payload payload =>
          obtain ⟨advanced, middle⟩ := shared
          obtain ⟨rfl, accepted, rfl, header⟩ := ih
          exact reached_after_payload accepted conn sink middle header

end Alone

theorem write_frames_concat (faults : WriteFaults) (conn : FramedConn) (sink : Sink)
    (payloads : List (List Byte)) (payload : List Byte) :
    writeFrames faults conn sink (payloads ++ [payload]) =
      (writeFrame faults (writeFrames faults conn sink payloads).1
        (writeFrames faults conn sink payloads).2 payload).2 := by
  induction payloads generalizing conn sink with
  | nil => rfl
  | cons first rest ih =>
      simp only [List.cons_append, writeFrames]
      exact ih _ _

def payloadsOf (completed : List (Completed Send (Option FrameError))) : List (List Byte) :=
  completed.map (·.call.payload)

/-- Calls made one after the other leave the connection as `WriteFrame` leaves it, and return what
it returns. -/
theorem serial_write_frames {faults : WriteFaults}
    {completed : List (Completed Send (Option FrameError))} {now : Connection}
    (serial : Serial (writeSection faults) (newFramedConn, emptySink) completed now) :
    now = writeFrames faults newFramedConn emptySink (payloadsOf completed) ∧
      ∀ call ∈ completed, ∃ conn sink,
        (writeFrame faults conn sink call.call.payload).1 = call.result := by
  induction serial with
  | nothing => simp [payloadsOf, writeFrames]
  | next done before after last earlier ran ih =>
      have alone : writeFrame faults before.1 before.2 last.call.payload = (last.result, after) :=
        progress_reached ran
      obtain ⟨sofar, results⟩ := ih
      constructor
      · have grown : payloadsOf (done ++ [last]) = payloadsOf done ++ [last.call.payload] := by
          simp [payloadsOf]
        rw [grown, write_frames_concat, ← sofar, alone]
      · intro call member
        rcases List.mem_append.mp member with old | new
        · exact results call old
        · obtain rfl := List.mem_singleton.mp new
          exact ⟨before.1, before.2, by rw [alone]⟩

def sentCalls (completed : List (Completed Send (Option FrameError))) :
    List (Completed Send (Option FrameError)) :=
  completed.filter (·.result = none)

/-- Whatever the interleaving of the senders, with all writes succeeding the connection has
received between calls the frames of the calls that returned nil, whole and with consecutive
seqnos; each sender's calls are completed in its own order, and at most the last one is still
under way. -/
theorem concurrent_frames_never_interleave (labels : List (CallerStep Send)) (transport : Transport)
    (reached : runFrom (transportStep noFaults) newTransport labels = some transport) :
    (transport.owner = none →
      transport.shared.2.written = framesBytes 0 (payloadsOf (sentCalls transport.completed))) ∧
    ∀ sender, completedBy sender transport.completed ++ (transport.state sender).pending =
      callsOf sender labels := by
  constructor
  · intro free
    obtain ⟨same, results⟩ := serial_write_frames (free_serial labels reached free)
    have kept : payloadsOf (sentCalls transport.completed) =
        (payloadsOf transport.completed).filter (Accepted ·) := by
      unfold payloadsOf sentCalls
      rw [List.filter_map]
      apply congrArg
      apply List.filter_congr
      intro call member
      obtain ⟨conn, sink, result⟩ := results call member
      have outcome := write_frame_outcome conn sink call.call.payload
      rw [result] at outcome
      simp [outcome]
    rw [same, write_frames_bytes, kept]
    rfl
  · intro sender
    exact program_order (newFramedConn, emptySink) labels transport reached sender

def threeSenders : List (CallerStep Send) :=
  [.call 0 (.writeFrame [1, 2, 3, 4]), .call 1 (.writeFrame [5, 6, 7, 8]), .lock 1, .act 1,
    .call 2 (.writeFrame [9]), .act 1, .act 1, .unlock 1, .lock 2, .act 2, .unlock 2, .lock 0,
    .act 0, .act 0, .act 0, .unlock 0]

theorem three_senders_two_frames :
    ∃ transport, runFrom (transportStep noFaults) newTransport threeSenders = some transport ∧
      transport.owner = none ∧
      transport.shared.2.written = framesBytes 0 [[5, 6, 7, 8], [1, 2, 3, 4]] := by
  have outcome : (runFrom (transportStep noFaults) newTransport threeSenders).map
      (fun transport => (transport.owner, payloadsOf (sentCalls transport.completed))) =
        some (none, [[5, 6, 7, 8], [1, 2, 3, 4]]) := by decide +kernel
  obtain ⟨transport, reached, same⟩ := Option.map_eq_some_iff.mp outcome
  obtain ⟨free, sent⟩ := Prod.mk.inj same
  refine ⟨transport, reached, free, ?_⟩
  rw [← sent]
  exact (concurrent_frames_never_interleave threeSenders transport reached).1 free

end Gocoon.TransportWriters
