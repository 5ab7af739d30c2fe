import Gocoon.TlFrame
import Mathlib.Tactic.Common

/-!
# Failed writes and later traffic

`WriteFrame` uses up a seqno before its first `Write`, and the header is on the wire before the
payload. A failed header write therefore leaves a gap in the seqnos, a failed payload write a
header without its payload, and the connection goes on being used. A strict peer gets the
payloads of the successful calls, and nothing else, exactly when no payload write fails and no
call succeeds behind a gap, up to the wrap-around of the counter.
-/

namespace Gocoon.FailedWrites

open Gocoon.LittleEndianBytes
open Gocoon.TlFrame

set_option autoImplicit false

def sentPayloads (faults : WriteFaults) : FramedConn → Sink → List (List Byte) → List (List Byte)
  | _, _, [] => []
  | conn, sink, payload :: rest =>
      let (error, nextConn, nextSink) := writeFrame faults conn sink payload
      let later := sentPayloads faults nextConn nextSink rest
      if error = none then payload :: later else later

/-- A fresh strict peer reads the bytes written and gets the payloads of the successful calls, in
order, and then the end of the stream. -/
def PeerReceives (faults : WriteFaults) (payloads : List (List Byte)) : Prop :=
  let sent := sentPayloads faults newFramedConn emptySink payloads
  let wire := (writeFrames faults newFramedConn emptySink payloads).2.written
  ∃ after, readFrames sent.length newFramedConn wire = (.ok sent, after, [])

/-- The faults that later traffic survives, from the `Write` call `calls` on and after `lost` failed
headers: no payload of an accepted frame fails, and a frame goes through only when the seqnos
lost so far are a multiple of the counter's range. -/
def Harmless (faults : WriteFaults) : Nat → Nat → List (List Byte) → Prop
  | _, _, [] => True
  | calls, lost, payload :: rest =>
      if Accepted payload then
        match faults calls with
        | some _ => Harmless faults (calls + 1) (lost + 1) rest
        | none => faults (calls + 1) = none ∧ lost % 2 ^ 32 = 0 ∧
            Harmless faults (calls + 2) lost rest
      else Harmless faults calls lost rest

section OneCall

variable {faults : WriteFaults} {conn : FramedConn} {sink : Sink} {payload : List Byte}

/-- The outcomes of one call: rejected, no header, a header alone, a whole frame. -/
inductive CallCase (faults : WriteFaults) (conn : FramedConn) (sink : Sink) (payload : List Byte) :
    Prop
  | rejected (error : FrameError) (refused : ¬Accepted payload)
      (wrote : writeFrame faults conn sink payload = (some error, conn, sink))
  | unheaded (cause : IoError) (accepted : Accepted payload)
      (failed : faults sink.calls = some cause)
      (wrote : writeFrame faults conn sink payload = (some (.writeHeader cause),
        { conn with outSeqno := conn.outSeqno + 1 }, { sink with calls := sink.calls + 1 }))
  | cut (cause : IoError) (accepted : Accepted payload) (headed : faults sink.calls = none)
      (failed : faults (sink.calls + 1) = some cause)
      (wrote : writeFrame faults conn sink payload = (some (.writePayload cause),
        { conn with outSeqno := conn.outSeqno + 1 },
        { written := sink.written ++ (putUint32 (UInt32.ofNat payload.length) ++
            putUint32 conn.outSeqno.toUInt32), calls := sink.calls + 2 }))
  | whole (accepted : Accepted payload) (headed : faults sink.calls = none)
      (filled : faults (sink.calls + 1) = none)
      (wrote : writeFrame faults conn sink payload = (none,
        { conn with outSeqno := conn.outSeqno + 1 },
        { written := sink.written ++ frameBytes conn.outSeqno payload
          calls := sink.calls + 2 }))

theorem call_case (faults : WriteFaults) (conn : FramedConn) (sink : Sink) (payload : List Byte) :
    CallCase faults conn sink payload := by
  by_cases accepted : Accepted payload
  · have sized := write_frame_sized faults conn sink payload accepted
    unfold Sink.write at sized
    cases header : faults sink.calls with
    | some cause =>
        simp only [header] at sized
        exact .unheaded cause accepted header sized
    | none =>
        simp only [header] at sized
        cases body : faults (sink.calls + 1) with
        | some cause =>
            simp only [body] at sized
            exact .cut cause accepted header body sized
        | none =>
            simp only [body, List.append_assoc] at sized
            refine .whole accepted header body ?_
            rw [sized, frameBytes, List.append_assoc]
  · obtain ⟨error, outcome⟩ := write_frame_rejected faults conn sink payload accepted
    exact .rejected error accepted outcome

end OneCall

theorem sent_accepted (faults : WriteFaults) (conn : FramedConn) (sink : Sink)
    (payloads : List (List Byte)) :
    ∀ payload ∈ sentPayloads faults conn sink payloads, Accepted payload := by
  induction payloads generalizing conn sink with
  | nil => simp [sentPayloads]
  | cons payload rest ih =>
      intro sent member
      cases call_case faults conn sink payload with
      | rejected error refused wrote =>
          simp only [sentPayloads, wrote] at member
          exact ih conn sink sent (by simpa using member)
      | unheaded cause accepted failed wrote =>
          simp only [sentPayloads, wrote] at member
          exact ih _ _ sent (by simpa using member)
      | cut cause accepted headed failed wrote =>
          simp only [sentPayloads, wrote] at member
          exact ih _ _ sent (by simpa using member)
      | whole accepted headed filled wrote =>
          simp only [sentPayloads, wrote, if_true, List.mem_cons] at member
          rcases member with rfl | later
          · exact accepted
          · exact ih _ _ sent later

theorem frame_bytes_length (seqno : Int32) (payload : List Byte) :
    (frameBytes seqno payload).length = 8 + payload.length := by
  simp only [frameBytes, List.length_append, put_uint32_length]

theorem frame_bytes_seqno {left right : Int32} {payload : List Byte} :
    frameBytes left payload = frameBytes right payload ↔ left = right := by
  constructor
  · intro same
    unfold frameBytes at same
    have words := List.append_cancel_left (List.append_cancel_right same)
    have leftWord := uint32_put_append left.toUInt32 []
    have rightWord := uint32_put_append right.toUInt32 []
    rw [List.append_nil] at leftWord rightWord
    rw [words, rightWord] at leftWord
    have signed := congrArg UInt32.toInt32 leftWord
    rw [Int32.toInt32_toUInt32, Int32.toInt32_toUInt32] at signed
    exact signed.symm
  · intro same
    rw [same]

theorem written_grows (faults : WriteFaults) (conn : FramedConn) (sink : Sink)
    (payloads : List (List Byte)) :
    ∃ more, (writeFrames faults conn sink payloads).2.written = sink.written ++ more ∧
      ∀ seqno, (framesBytes seqno (sentPayloads faults conn sink payloads)).length ≤
        more.length := by
  induction payloads generalizing conn sink with
  | nil => exact ⟨[], by simp [writeFrames], by simp [sentPayloads, framesBytes]⟩
  | cons payload rest ih =>
      cases call_case faults conn sink payload with
      | rejected error refused wrote =>
          simpa only [writeFrames, sentPayloads, wrote, reduceCtorEq, if_false] using ih conn sink
      | unheaded cause accepted failed wrote =>
          simpa only [writeFrames, sentPayloads, wrote, reduceCtorEq, if_false] using ih _ _
      | cut cause accepted headed failed wrote =>
          simp only [writeFrames, sentPayloads, wrote, reduceCtorEq, if_false]
          obtain ⟨more, same, longer⟩ := ih { conn with outSeqno := conn.outSeqno + 1 } _
          refine ⟨_, same.trans (List.append_assoc _ _ _), ?_⟩
          intro seqno
          have bound := longer seqno
          rw [List.length_append]
          omega
      | whole accepted headed filled wrote =>
          simp only [writeFrames, sentPayloads, wrote, if_true]
          obtain ⟨more, same, longer⟩ := ih { conn with outSeqno := conn.outSeqno + 1 } _
          refine ⟨_, same.trans (List.append_assoc _ _ _), ?_⟩
          intro seqno
          have bound := longer (seqno + 1)
          rw [framesBytes, List.length_append, List.length_append, frame_bytes_length,
            frame_bytes_length]
          omega

theorem lost_seqnos (seqno : Int32) (lost : Nat) :
    seqno + Int32.ofNat lost = seqno ↔ lost % 2 ^ 32 = 0 := by
  have zero : Int32.ofNat lost = 0 ↔ lost % 2 ^ 32 = 0 := by
    rw [← Int32.toBitVec_inj, ← BitVec.toNat_inj]
    simp
  rw [← zero]
  constructor
  · intro same
    have cancelled : seqno + Int32.ofNat lost = seqno + 0 := by
      rw [same, Int32.add_zero]
    exact (Int32.add_right_inj seqno).mp cancelled
  · intro none
    rw [none, Int32.add_zero]

/-- The bytes behind what was written are the frames of the successful calls exactly when the
faults are harmless. -/
theorem written_frames_iff (faults : WriteFaults) (payloads : List (List Byte)) (conn : FramedConn)
    (sink : Sink) (seqno : Int32) (lost : Nat)
    (counter : conn.outSeqno = seqno + Int32.ofNat lost) :
    (writeFrames faults conn sink payloads).2.written =
        sink.written ++ framesBytes seqno (sentPayloads faults conn sink payloads) ↔
      Harmless faults sink.calls lost payloads := by
  induction payloads generalizing conn sink seqno lost with
  | nil => simp [writeFrames, sentPayloads, framesBytes, Harmless]
  | cons payload rest ih =>
      cases call_case faults conn sink payload with
      | rejected error refused wrote =>
          simp only [writeFrames, sentPayloads, wrote, reduceCtorEq, if_false, Harmless,
            if_neg refused]
          exact ih conn sink seqno lost counter
      | unheaded cause accepted failed wrote =>
          simp only [writeFrames, sentPayloads, wrote, reduceCtorEq, if_false, Harmless,
            if_pos accepted, failed]
          apply ih
          rw [counter, Int32.ofNat_add, Int32.add_assoc]
          rfl
      | cut cause accepted headed failed wrote =>
          simp only [writeFrames, sentPayloads, wrote, reduceCtorEq, if_false, Harmless,
            if_pos accepted, headed, failed, false_and, iff_false]
          -- the header alone makes the wire longer than the frames
          intro same
          obtain ⟨more, grown, longer⟩ := written_grows faults
            { conn with outSeqno := conn.outSeqno + 1 } _ rest
          have bound := longer seqno
          rw [grown, List.append_assoc] at same
          have sizes := congrArg List.length (List.append_cancel_left same)
          simp only [List.length_append, put_uint32_length] at sizes
          omega
      | whole accepted headed filled wrote =>
          simp only [writeFrames, sentPayloads, wrote, if_true, Harmless, if_pos accepted, headed,
            filled, true_and, framesBytes]
          have later := ih { conn with outSeqno := conn.outSeqno + 1 }
            { written := sink.written ++ frameBytes conn.outSeqno payload
              calls := sink.calls + 2 } (seqno + 1) lost (by
                rw [counter, Int32.add_assoc, Int32.add_assoc, Int32.add_comm (Int32.ofNat lost)])
          obtain ⟨more, grown, -⟩ := written_grows faults
            { conn with outSeqno := conn.outSeqno + 1 }
            { written := sink.written ++ frameBytes conn.outSeqno payload
              calls := sink.calls + 2 } rest
          rw [grown, List.append_assoc] at later ⊢
          rw [List.append_assoc, List.append_cancel_left_eq, List.append_cancel_left_eq] at later
          rw [List.append_cancel_left_eq, ← later, ← lost_seqnos seqno lost, ← counter,
            ← frame_bytes_seqno]
          constructor
          · intro same
            exact List.append_inj same (by simp [frame_bytes_length])
          · rintro ⟨first, others⟩
            exact congrArg₂ (· ++ ·) first others

/-- A failed write leaves later traffic intact exactly when the faults are harmless. -/
theorem failed_write_survived_iff (faults : WriteFaults) (payloads : List (List Byte)) :
    PeerReceives faults payloads ↔ Harmless faults 0 0 payloads := by
  have counter : newFramedConn.outSeqno = newFramedConn.inSeqno + Int32.ofNat 0 := rfl
  have frames := written_frames_iff faults payloads newFramedConn emptySink
    newFramedConn.inSeqno 0 counter
  have accepted := sent_accepted faults newFramedConn emptySink payloads
  change _ ↔ Harmless faults emptySink.calls 0 payloads
  rw [← frames]
  constructor
  · rintro ⟨after, read⟩
    obtain ⟨-, -, same⟩ := read_frames_sound _ newFramedConn rfl _ _ after [] read
    rw [same, List.append_nil]
    rfl
  · intro same
    obtain ⟨after, read⟩ := read_frames_of_bytes newFramedConn rfl
      (sentPayloads faults newFramedConn emptySink payloads) accepted []
    refine ⟨after, ?_⟩
    rw [same]
    simpa [emptySink] using read

def firstWriteFails : WriteFaults := fun call => if call = 0 then some (.other "timeout") else none

/-- The second call succeeds, and the peer refuses its frame. -/
theorem frame_after_failed_header_refused :
    sentPayloads firstWriteFails newFramedConn emptySink [[1, 2, 3, 4], [5, 6, 7, 8]] =
        [[5, 6, 7, 8]] ∧
      (readFrame newFramedConn (writeFrames firstWriteFails newFramedConn emptySink
        [[1, 2, 3, 4], [5, 6, 7, 8]]).2.written).1 = .error (.seqnoMismatch 1 0) ∧
      ¬PeerReceives firstWriteFails [[1, 2, 3, 4], [5, 6, 7, 8]] := by
  refine ⟨by decide +kernel, by decide +kernel, ?_⟩
  rintro ⟨after, read⟩
  have refused : (readFrames (sentPayloads firstWriteFails newFramedConn emptySink
      [[1, 2, 3, 4], [5, 6, 7, 8]]).length newFramedConn (writeFrames firstWriteFails newFramedConn
        emptySink [[1, 2, 3, 4], [5, 6, 7, 8]]).2.written).1 = .error (.seqnoMismatch 1 0) := by
    decide +kernel
  rw [read] at refused
  cases refused

end Gocoon.FailedWrites
