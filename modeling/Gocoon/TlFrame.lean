import Gocoon.LittleEndianBytes
import Mathlib.Tactic.Common

/-!
# The seqno frame format

A direct transcription of `FramedConn.WriteFrame` and `FramedConn.ReadFrame`: a
four-byte payload length, a four-byte seqno and the payload, with one wrapping
`int32` counter for each direction. The sink is the writing half of the
connection: its environment decides at each `Write` call whether it fails, and a
failing call writes nothing. The reading half is the byte stream still to come.
-/

namespace Gocoon.TlFrame

open Gocoon.LittleEndianBytes

set_option autoImplicit false

def maxFrameSize : Nat := 16 * 1024 * 1024

def minFrameSize : Nat := 4

inductive IoError where
  | eof
  | unexpectedEof
  | other (text : String)
  deriving DecidableEq

inductive FrameError where
  | payloadTooSmall (size : Nat)
  | payloadTooLarge (size : Nat)
  | writeHeader (cause : IoError)
  | writePayload (cause : IoError)
  | readHeader (cause : IoError)
  | lengthBelowMin (length : UInt32)
  | lengthAboveMax (length : UInt32)
  | seqnoMismatch (got want : Int32)
  | readPayload (cause : IoError)
  deriving DecidableEq

def IoError.text : IoError → String
  | .eof => "EOF"
  | .unexpectedEof => "unexpected EOF"
  | .other text => text

def FrameError.text : FrameError → String
  | .payloadTooSmall size =>
      s!"frame: payload {size} too small (min {minFrameSize} for boxed TL)"
  | .payloadTooLarge size => s!"frame: payload {size} exceeds MaxFrameSize {maxFrameSize}"
  | .writeHeader cause => "frame: write header: " ++ cause.text
  | .writePayload cause => "frame: write payload: " ++ cause.text
  | .readHeader cause => "frame: read header: " ++ cause.text
  | .lengthBelowMin length => s!"frame: payload_len {length} below MinFrameSize"
  | .lengthAboveMax length => s!"frame: payload_len {length} exceeds MaxFrameSize"
  | .seqnoMismatch got want => s!"frame: seqno mismatch: got {got}, want {want}"
  | .readPayload cause => "frame: read payload: " ++ cause.text

structure FramedConn where
  outSeqno : Int32
  inSeqno : Int32
  strict : Bool
  deriving DecidableEq

def newFramedConn : FramedConn where
  outSeqno := 0
  inSeqno := 0
  strict := true

structure Sink where
  written : List Byte
  calls : Nat
  deriving DecidableEq

def emptySink : Sink where
  written := []
  calls := 0

/-- The environment's answer to each `Write` call, by call number. -/
abbrev WriteFaults := Nat → Option IoError

def noFaults : WriteFaults := fun _ => none

def Sink.write (faults : WriteFaults) (sink : Sink) (data : List Byte) :
    Option IoError × Sink :=
  match faults sink.calls with
  | some cause => (some cause, { sink with calls := sink.calls + 1 })
  | none => (none, { written := sink.written ++ data, calls := sink.calls + 1 })

def writeFrame (faults : WriteFaults) (conn : FramedConn) (sink : Sink)
    (payload : List Byte) : Option FrameError × FramedConn × Sink :=
  let size := payload.length
  if size < minFrameSize then (some (.payloadTooSmall size), conn, sink)
  else if maxFrameSize < size then (some (.payloadTooLarge size), conn, sink)
  else
    -- the counter moves before the first `Write`, whether or not that succeeds
    let advanced := { conn with outSeqno := conn.outSeqno + 1 }
    let seqno := advanced.outSeqno - 1
    let header := putUint32 (UInt32.ofNat size) ++ putUint32 seqno.toUInt32
    match sink.write faults header with
    | (some cause, afterHeader) => (some (.writeHeader cause), advanced, afterHeader)
    | (none, afterHeader) =>
        match afterHeader.write faults payload with
        | (some cause, afterPayload) => (some (.writePayload cause), advanced, afterPayload)
        | (none, afterPayload) => (none, advanced, afterPayload)

/-- `io.ReadFull`: exactly `count` bytes, or an error that has used up the stream. -/
def readFull (count : Nat) (stream : List Byte) : Except IoError (List Byte) × List Byte :=
  match splitExactly count stream with
  | some (front, rest) => (.ok front, rest)
  | none => (.error (if stream = [] then .eof else .unexpectedEof), [])

def readPayload (conn : FramedConn) (length : UInt32) (stream : List Byte) :
    Except FrameError (List Byte) × FramedConn × List Byte :=
  match readFull length.toNat stream with
  | (.error cause, rest) => (.error (.readPayload cause), conn, rest)
  | (.ok payload, rest) => (.ok payload, conn, rest)

def readFrame (conn : FramedConn) (stream : List Byte) :
    Except FrameError (List Byte) × FramedConn × List Byte :=
  match readFull 8 stream with
  | (.error cause, rest) => (.error (.readHeader cause), conn, rest)
  | (.ok header, rest) =>
      let length := uint32 (header.take 4)
      let seqno := (uint32 (header.drop 4)).toInt32
      if length.toNat < minFrameSize then (.error (.lengthBelowMin length), conn, rest)
      else if maxFrameSize < length.toNat then (.error (.lengthAboveMax length), conn, rest)
      else if conn.strict then
        let advanced := { conn with inSeqno := conn.inSeqno + 1 }
        let expected := advanced.inSeqno - 1
        if seqno ≠ expected then (.error (.seqnoMismatch seqno expected), advanced, rest)
        else readPayload advanced length rest
      else readPayload { conn with inSeqno := seqno + 1 } length rest

def Accepted (payload : List Byte) : Prop :=
  minFrameSize ≤ payload.length ∧ payload.length ≤ maxFrameSize

instance (payload : List Byte) : Decidable (Accepted payload) :=
  inferInstanceAs (Decidable (_ ∧ _))

theorem Accepted.passes {payload : List Byte} (accepted : Accepted payload) :
    ¬payload.length < minFrameSize ∧ ¬maxFrameSize < payload.length :=
  ⟨Nat.not_lt.mpr accepted.1, Nat.not_lt.mpr accepted.2⟩

/-- The bytes of one frame on the wire. -/
def frameBytes (seqno : Int32) (payload : List Byte) : List Byte :=
  putUint32 (UInt32.ofNat payload.length) ++ putUint32 seqno.toUInt32 ++ payload

theorem accepted_length_word (payload : List Byte) (accepted : Accepted payload) :
    (UInt32.ofNat payload.length).toNat = payload.length := by
  have upper : payload.length ≤ 16777216 := accepted.2
  rw [UInt32.toNat_ofNat']
  omega

theorem write_frame_rejected (faults : WriteFaults) (conn : FramedConn) (sink : Sink)
    (payload : List Byte) (rejected : ¬Accepted payload) :
    ∃ error, writeFrame faults conn sink payload = (some error, conn, sink) := by
  unfold writeFrame
  by_cases small : payload.length < minFrameSize
  · exact ⟨_, if_pos small⟩
  · have large : maxFrameSize < payload.length := by
      unfold Accepted at rejected
      omega
    exact ⟨.payloadTooLarge payload.length, by simp only [if_neg small, if_pos large]⟩

theorem write_frame_sized (faults : WriteFaults) (conn : FramedConn) (sink : Sink)
    (payload : List Byte) (accepted : Accepted payload) :
    writeFrame faults conn sink payload =
      match sink.write faults
          (putUint32 (UInt32.ofNat payload.length) ++ putUint32 conn.outSeqno.toUInt32) with
      | (some cause, afterHeader) =>
          (some (.writeHeader cause), { conn with outSeqno := conn.outSeqno + 1 }, afterHeader)
      | (none, afterHeader) =>
          match afterHeader.write faults payload with
          | (some cause, afterPayload) =>
              (some (.writePayload cause), { conn with outSeqno := conn.outSeqno + 1 },
                afterPayload)
          | (none, afterPayload) =>
              (none, { conn with outSeqno := conn.outSeqno + 1 }, afterPayload) := by
  obtain ⟨notSmall, notLarge⟩ := accepted.passes
  have seqno : conn.outSeqno + 1 - 1 = conn.outSeqno := Int32.add_sub_cancel _ _
  simp only [writeFrame, if_neg notSmall, if_neg notLarge, seqno]

theorem write_frame_accepted (conn : FramedConn) (sink : Sink) (payload : List Byte)
    (accepted : Accepted payload) :
    writeFrame noFaults conn sink payload =
      (none, { conn with outSeqno := conn.outSeqno + 1 },
        { written := sink.written ++ frameBytes conn.outSeqno payload
          calls := sink.calls + 2 }) := by
  rw [write_frame_sized noFaults conn sink payload accepted]
  simp only [Sink.write, noFaults, frameBytes, List.append_assoc]

theorem write_frame_outcome (conn : FramedConn) (sink : Sink) (payload : List Byte) :
    (writeFrame noFaults conn sink payload).1 = none ↔ Accepted payload := by
  constructor
  · intro succeeded
    by_contra rejected
    obtain ⟨error, outcome⟩ := write_frame_rejected noFaults conn sink payload rejected
    rw [outcome] at succeeded
    cases succeeded
  · intro accepted
    rw [write_frame_accepted conn sink payload accepted]

theorem written_of_success {faults : WriteFaults} {conn : FramedConn} {sink : Sink}
    {payload : List Byte} (succeeded : (writeFrame faults conn sink payload).1 = none) :
    (writeFrame faults conn sink payload).2.2.written =
      sink.written ++ frameBytes conn.outSeqno payload := by
  have accepted : Accepted payload := by
    by_contra rejected
    obtain ⟨error, outcome⟩ := write_frame_rejected faults conn sink payload rejected
    rw [outcome] at succeeded
    cases succeeded
  rw [write_frame_sized faults conn sink payload accepted] at succeeded ⊢
  unfold Sink.write at succeeded ⊢
  cases header : faults sink.calls with
  | some cause => simp [header] at succeeded
  | none =>
      simp only [header] at succeeded ⊢
      cases body : faults (sink.calls + 1) with
      | some cause => simp [body] at succeeded
      | none => simp [frameBytes]

theorem read_full_append (front suffix : List Byte) :
    readFull front.length (front ++ suffix) = (.ok front, suffix) := by
  simp [readFull, split_exactly_append]

theorem read_full_sound {count : Nat} {stream front rest : List Byte}
    (read : readFull count stream = (.ok front, rest)) :
    front.length = count ∧ stream = front ++ rest := by
  unfold readFull at read
  cases split : splitExactly count stream with
  | none => simp [split] at read
  | some pair =>
      obtain ⟨found, suffix⟩ := pair
      simp only [split, Prod.mk.injEq, Except.ok.injEq] at read
      obtain ⟨rfl, rfl⟩ := read
      exact split_exactly_sound split

theorem read_frame_of_bytes (conn : FramedConn) (strict : conn.strict = true)
    (payload rest : List Byte) (accepted : Accepted payload) :
    readFrame conn (frameBytes conn.inSeqno payload ++ rest) =
      (.ok payload, { conn with inSeqno := conn.inSeqno + 1 }, rest) := by
  let lengthWord := putUint32 (UInt32.ofNat payload.length)
  let seqnoWord := putUint32 conn.inSeqno.toUInt32
  have header : readFull 8 (frameBytes conn.inSeqno payload ++ rest) =
      (.ok (lengthWord ++ seqnoWord), payload ++ rest) := by
    have whole := read_full_append (lengthWord ++ seqnoWord) (payload ++ rest)
    simpa [frameBytes, lengthWord, seqnoWord] using whole
  have lengthField : uint32 ((lengthWord ++ seqnoWord).take 4) =
      UInt32.ofNat payload.length := by
    rw [List.take_left' (put_uint32_length _)]
    simpa using uint32_put_append (UInt32.ofNat payload.length) []
  have seqnoField : (uint32 ((lengthWord ++ seqnoWord).drop 4)).toInt32 = conn.inSeqno := by
    rw [List.drop_left' (put_uint32_length _)]
    have word := uint32_put_append conn.inSeqno.toUInt32 []
    rw [List.append_nil] at word
    rw [word]
    exact Int32.toInt32_toUInt32 _
  have size := accepted_length_word payload accepted
  obtain ⟨notSmall, notLarge⟩ := accepted.passes
  have seqno : conn.inSeqno + 1 - 1 = conn.inSeqno := Int32.add_sub_cancel _ _
  have body : readFull payload.length (payload ++ rest) = (.ok payload, rest) :=
    read_full_append payload rest
  simp only [readFrame, header, lengthField, seqnoField, size, if_neg notSmall,
    if_neg notLarge, strict, if_true, seqno, ne_eq, not_true_eq_false, if_false,
    readPayload, body]

/-- A successful strict read has consumed exactly the frame that a writer with the
same counter produces: no other bytes decode to the payload. -/
theorem read_frame_sound (conn : FramedConn) (strict : conn.strict = true)
    (stream payload rest : List Byte) (after : FramedConn)
    (read : readFrame conn stream = (.ok payload, after, rest)) :
    Accepted payload ∧ after = { conn with inSeqno := conn.inSeqno + 1 } ∧
      stream = frameBytes conn.inSeqno payload ++ rest := by
  unfold readFrame at read
  cases headerRead : readFull 8 stream with
  | mk outcome afterHeader =>
      rw [headerRead] at read
      cases outcome with
      | error cause => simp at read
      | ok header =>
          simp only [strict, if_true] at read
          by_cases small : (uint32 (header.take 4)).toNat < minFrameSize
          · simp [small] at read
          by_cases large : maxFrameSize < (uint32 (header.take 4)).toNat
          · simp [small, large] at read
          have seqno : conn.inSeqno + 1 - 1 = conn.inSeqno := Int32.add_sub_cancel _ _
          by_cases sameSeqno : (uint32 (header.drop 4)).toInt32 = conn.inSeqno
          · obtain ⟨headerLength, streamSplit⟩ := read_full_sound headerRead
            simp only [if_neg small, if_neg large, seqno, sameSeqno, ne_eq, not_true_eq_false,
              if_false, readPayload] at read
            cases bodyRead : readFull (uint32 (header.take 4)).toNat afterHeader with
            | mk bodyOutcome afterBody =>
                rw [bodyRead] at read
                cases bodyOutcome with
                | error cause => simp at read
                | ok body =>
                    simp only [Prod.mk.injEq, Except.ok.injEq] at read
                    obtain ⟨rfl, rfl, rfl⟩ := read
                    obtain ⟨bodyLength, bodySplit⟩ := read_full_sound bodyRead
                    have lengthBytes :
                        putUint32 (UInt32.ofNat body.length) = header.take 4 := by
                      rw [bodyLength, UInt32.ofNat_toNat]
                      exact put_uint32_of_bytes _ (by simp [headerLength])
                    have seqnoBytes : putUint32 conn.inSeqno.toUInt32 = header.drop 4 := by
                      rw [← sameSeqno, UInt32.toUInt32_toInt32]
                      exact put_uint32_of_bytes _ (by simp [headerLength])
                    refine ⟨⟨by omega, by omega⟩, by rw [strict], ?_⟩
                    rw [frameBytes, lengthBytes, seqnoBytes, List.take_append_drop,
                      List.append_assoc, ← bodySplit]
                    exact streamSplit
          · simp [small, large, seqno, sameSeqno] at read

def writeFrames (faults : WriteFaults) :
    FramedConn → Sink → List (List Byte) → FramedConn × Sink
  | conn, sink, [] => (conn, sink)
  | conn, sink, payload :: rest =>
      let (_, nextConn, nextSink) := writeFrame faults conn sink payload
      writeFrames faults nextConn nextSink rest

def readFrames : Nat → FramedConn → List Byte →
    Except FrameError (List (List Byte)) × FramedConn × List Byte
  | 0, conn, stream => (.ok [], conn, stream)
  | count + 1, conn, stream =>
      match readFrame conn stream with
      | (.error error, next, rest) => (.error error, next, rest)
      | (.ok payload, next, rest) =>
          match readFrames count next rest with
          | (.error error, last, remaining) => (.error error, last, remaining)
          | (.ok payloads, last, remaining) => (.ok (payload :: payloads), last, remaining)

def framesBytes : Int32 → List (List Byte) → List Byte
  | _, [] => []
  | seqno, payload :: rest => frameBytes seqno payload ++ framesBytes (seqno + 1) rest

theorem write_frames_bytes (conn : FramedConn) (sink : Sink) (payloads : List (List Byte)) :
    (writeFrames noFaults conn sink payloads).2.written =
      sink.written ++ framesBytes conn.outSeqno (payloads.filter (Accepted ·)) := by
  induction payloads generalizing conn sink with
  | nil => simp [writeFrames, framesBytes]
  | cons payload rest ih =>
      by_cases accepted : Accepted payload
      · simp only [writeFrames, write_frame_accepted conn sink payload accepted]
        rw [ih, List.filter_cons_of_pos (by simpa using accepted)]
        simp [framesBytes]
      · obtain ⟨error, outcome⟩ := write_frame_rejected noFaults conn sink payload accepted
        simp only [writeFrames, outcome]
        rw [ih, List.filter_cons_of_neg (by simpa using accepted)]

theorem read_frames_of_bytes (conn : FramedConn) (strict : conn.strict = true)
    (payloads : List (List Byte)) (accepted : ∀ payload ∈ payloads, Accepted payload)
    (rest : List Byte) :
    ∃ after, readFrames payloads.length conn (framesBytes conn.inSeqno payloads ++ rest) =
      (.ok payloads, after, rest) := by
  induction payloads generalizing conn with
  | nil => exact ⟨conn, rfl⟩
  | cons payload payloads ih =>
      have first := read_frame_of_bytes conn strict payload
        (framesBytes (conn.inSeqno + 1) payloads ++ rest) (accepted payload (by simp))
      obtain ⟨after, others⟩ := ih { conn with inSeqno := conn.inSeqno + 1 } strict
        (by intro other member; exact accepted other (by simp [member]))
      refine ⟨after, ?_⟩
      simp only [List.length_cons, framesBytes, List.append_assoc, readFrames, first, others]

theorem read_frames_sound (count : Nat) (conn : FramedConn) (strict : conn.strict = true)
    (stream : List Byte) (payloads : List (List Byte)) (after : FramedConn) (rest : List Byte)
    (read : readFrames count conn stream = (.ok payloads, after, rest)) :
    payloads.length = count ∧ (∀ payload ∈ payloads, Accepted payload) ∧
      stream = framesBytes conn.inSeqno payloads ++ rest := by
  induction count generalizing conn stream payloads with
  | zero =>
      simp only [readFrames, Prod.mk.injEq, Except.ok.injEq] at read
      obtain ⟨rfl, -, rfl⟩ := read
      simp [framesBytes]
  | succ count ih =>
      unfold readFrames at read
      cases firstRead : readFrame conn stream with
      | mk outcome afterFirst =>
          obtain ⟨next, middle⟩ := afterFirst
          rw [firstRead] at read
          cases outcome with
          | error error => simp at read
          | ok payload =>
              obtain ⟨accepted, nextConn, split⟩ :=
                read_frame_sound conn strict stream payload middle next firstRead
              subst nextConn
              cases othersRead : readFrames count
                  { conn with inSeqno := conn.inSeqno + 1 } middle with
              | mk othersOutcome last =>
                  obtain ⟨lastConn, remaining⟩ := last
                  simp only [othersRead] at read
                  cases othersOutcome with
                  | error error => simp at read
                  | ok others =>
                      simp only [Prod.mk.injEq, Except.ok.injEq] at read
                      obtain ⟨rfl, rfl, rfl⟩ := read
                      obtain ⟨counted, allAccepted, middleSplit⟩ :=
                        ih { conn with inSeqno := conn.inSeqno + 1 } strict middle others
                          othersRead
                      refine ⟨by simp [counted], ?_, ?_⟩
                      · intro other member
                        rcases List.mem_cons.mp member with rfl | later
                        · exact accepted
                        · exact allAccepted other later
                      · rw [framesBytes, List.append_assoc, ← middleSplit]
                        exact split

/-- The frame format in both directions. Whatever is handed to a fresh writer, a
fresh strict reader gets the accepted payloads and then the end of the stream; a
rejected payload leaves the connection as it was. And whatever bytes a fresh strict
reader accepts are the bytes that a fresh writer produces for what it returned. -/
theorem frame_stream_codec :
    (∀ payloads : List (List Byte),
      let accepted := payloads.filter (Accepted ·)
      let wire := (writeFrames noFaults newFramedConn emptySink payloads).2.written
      (∃ after, readFrames accepted.length newFramedConn wire = (.ok accepted, after, [])) ∧
      (∀ payload ∈ payloads, ∀ conn sink,
        (Accepted payload → (writeFrame noFaults conn sink payload).1 = none) ∧
        (¬Accepted payload → ∃ error,
          writeFrame noFaults conn sink payload = (some error, conn, sink)))) ∧
    (∀ (count : Nat) (stream : List Byte) (payloads : List (List Byte)) (after : FramedConn)
      (rest : List Byte),
      readFrames count newFramedConn stream = (.ok payloads, after, rest) →
        payloads.length = count ∧
        stream = (writeFrames noFaults newFramedConn emptySink payloads).2.written ++ rest) := by
  constructor
  · intro payloads accepted wire
    have wireBytes : wire = framesBytes 0 accepted := by
      exact write_frames_bytes newFramedConn emptySink payloads
    constructor
    · have all : ∀ payload ∈ accepted, Accepted payload := by
        intro payload member
        simpa using (List.mem_filter.mp member).2
      obtain ⟨after, read⟩ := read_frames_of_bytes newFramedConn rfl accepted all []
      refine ⟨after, ?_⟩
      rw [wireBytes]
      simpa [newFramedConn] using read
    · intro payload _ conn sink
      exact ⟨(write_frame_outcome conn sink payload).mpr,
        write_frame_rejected noFaults conn sink payload⟩
  · intro count stream payloads after rest read
    obtain ⟨counted, allAccepted, split⟩ :=
      read_frames_sound count newFramedConn rfl stream payloads after rest read
    refine ⟨counted, ?_⟩
    have kept : payloads.filter (Accepted ·) = payloads := by
      apply List.filter_eq_self.mpr
      intro payload member
      simpa using allAccepted payload member
    rw [write_frames_bytes, kept]
    simpa [emptySink, newFramedConn] using split

end Gocoon.TlFrame
