import Gocoon.PartialReads
import Gocoon.TlFrame

/-!
# The read loop of a transport

Unless something else closes it, `transport.Run` calls `ReadFrame` until one of them fails and
hands each payload on. `ReadFrame` gets its bytes from `io.ReadFull`, which calls `Read` until it
has them, and a `Read` returns whatever part of them has arrived. Here the loop runs on such
pieces; it does what it would do on the whole stream at once, for any bytes and any way of cutting
them.
-/

namespace Gocoon.ReadLoop

open Gocoon.LittleEndianBytes
open Gocoon.TlFrame
open Gocoon.PartialReads

set_option autoImplicit false

/-- Which of the two `io.ReadFull` of `ReadFrame` the loop is in, or the error it closed with. -/
inductive Position where
  | header
  | payload (length : UInt32)
  | stopped (error : FrameError)
  deriving DecidableEq

structure Loop where
  conn : FramedConn
  position : Position
  payloads : List (List Byte)
  deriving DecidableEq

def newLoop : Loop where
  conn := newFramedConn
  position := .header
  payloads := []

/-- What `ReadFrame` does between the two reads. -/
def checkHeader (conn : FramedConn) (header : List Byte) : Except FrameError UInt32 × FramedConn :=
  let length := uint32 (header.take 4)
  let seqno := (uint32 (header.drop 4)).toInt32
  if length.toNat < minFrameSize then (.error (.lengthBelowMin length), conn)
  else if maxFrameSize < length.toNat then (.error (.lengthAboveMax length), conn)
  else if conn.strict then
    let advanced := { conn with inSeqno := conn.inSeqno + 1 }
    let expected := advanced.inSeqno - 1
    if seqno ≠ expected then (.error (.seqnoMismatch seqno expected), advanced)
    else (.ok length, advanced)
  else (.ok length, { conn with inSeqno := seqno + 1 })

def loopProgram : Program Byte Loop where
  wants loop :=
    match loop.position with
    | .header => 8
    | .payload length => length.toNat
    | .stopped _ => 0
  resume loop bytes :=
    match loop.position with
    | .header =>
        match checkHeader loop.conn bytes with
        | (.error error, conn) => { loop with conn, position := .stopped error }
        | (.ok length, conn) => { loop with conn, position := .payload length }
    | .payload _ => { loop with position := .header, payloads := loop.payloads ++ [bytes] }
    | .stopped _ => loop

/-- `io.ReadFull` turns an `EOF` in the middle into `ErrUnexpectedEOF`. -/
def readFullError (got : List Byte) : IoError → IoError
  | .eof => if got = [] then .eof else .unexpectedEof
  | cause => cause

/-- A `Read` fails: `ReadFrame` wraps the error and the loop closes with it. -/
def readFails (reading : Reading Byte Loop) (cause : IoError) : Loop :=
  match reading.state.position with
  | .header =>
      { reading.state with position := .stopped (.readHeader (readFullError reading.got cause)) }
  | .payload _ =>
      { reading.state with position := .stopped (.readPayload (readFullError reading.got cause)) }
  | .stopped _ => reading.state

/-- The loop on a whole stream, with `ReadFrame` as one call. -/
def run : Nat → FramedConn → List Byte → List (List Byte) × Option FrameError
  | 0, _, _ => ([], none)
  | fuel + 1, conn, stream =>
      match readFrame conn stream with
      | (.error error, _, _) => ([], some error)
      | (.ok payload, next, rest) =>
          let (payloads, error) := run fuel next rest
          (payload :: payloads, error)

def outcome (loop : Loop) : List (List Byte) × Option FrameError :=
  (loop.payloads, match loop.position with
    | .stopped error => some error
    | _ => none)

theorem read_full_short {count : Nat} {stream : List Byte} (short : stream.length < count) :
    readFull count stream = (.error (readFullError stream .eof), []) := by
  have missing : splitExactly count stream = none := by
    cases found : splitExactly count stream with
    | none => rfl
    | some pair =>
        obtain ⟨length, same⟩ := split_exactly_sound found
        rw [same, List.length_append] at short
        omega
  simp [readFull, missing, readFullError]

theorem read_frame_header (conn : FramedConn) (header rest : List Byte)
    (whole : header.length = 8) :
    readFrame conn (header ++ rest) =
      match checkHeader conn header with
      | (.error error, next) => (.error error, next, rest)
      | (.ok length, next) => readPayload next length rest := by
  have read : readFull 8 (header ++ rest) = (.ok header, rest) := by
    rw [← whole]
    exact read_full_append header rest
  unfold readFrame checkHeader
  rw [read]
  simp only
  by_cases small : (uint32 (header.take 4)).toNat < minFrameSize
  · simp [small]
  by_cases large : maxFrameSize < (uint32 (header.take 4)).toNat
  · simp [small, large]
  by_cases strict : conn.strict = true
  · by_cases same : (uint32 (header.drop 4)).toInt32 = conn.inSeqno
    · simp [small, large, strict, same]
    · simp [small, large, strict, same]
  · simp [small, large, strict]

theorem checked_length {conn next : FramedConn} {header : List Byte} {length : UInt32}
    (checked : checkHeader conn header = (.ok length, next)) : 0 < length.toNat := by
  unfold checkHeader at checked
  simp only at checked
  split_ifs at checked with small large strict mismatch
  all_goals simp only [Prod.mk.injEq, Except.ok.injEq, reduceCtorEq, false_and] at checked
  all_goals
    obtain ⟨rfl, -⟩ := checked
    unfold minFrameSize at small
    omega

section Whole

theorem fed_short {state : Loop} {input : List Byte}
    (short : input.length < loopProgram.wants state) :
    feed loopProgram ⟨state, []⟩ input = ⟨state, input⟩ := by
  rw [feed_short (by simpa using short), List.nil_append]

theorem fed_exact {state : Loop} {input : List Byte} (asks : 0 < loopProgram.wants state)
    (full : input.length = loopProgram.wants state) (rest : List Byte) :
    feed loopProgram ⟨state, []⟩ (input ++ rest) =
      feed loopProgram ⟨loopProgram.resume state input, []⟩ rest := by
  have nonempty : input ≠ [] := by
    rintro rfl
    rw [← full] at asks
    simp at asks
  rw [feed_append, feed_exact nonempty (by simpa using full), List.nil_append]

def between (conn : FramedConn) (payloads : List (List Byte)) : Reading Byte Loop :=
  ⟨⟨conn, .header, payloads⟩, []⟩

theorem fed_header (conn : FramedConn) (payloads : List (List Byte)) {header : List Byte}
    (whole : header.length = 8) (rest : List Byte) :
    feed loopProgram (between conn payloads) (header ++ rest) =
      match checkHeader conn header with
      | (.error error, next) => ⟨⟨next, .stopped error, payloads⟩, []⟩
      | (.ok length, next) => feed loopProgram ⟨⟨next, .payload length, payloads⟩, []⟩ rest := by
  have asks : 0 < loopProgram.wants ⟨conn, .header, payloads⟩ := Nat.succ_pos 7
  have resumed := fed_exact asks whole rest
  rcases checked : checkHeader conn header with ⟨error | length, next⟩
  · have state : loopProgram.resume ⟨conn, .header, payloads⟩ header =
        ⟨next, .stopped error, payloads⟩ := by simp [loopProgram, checked]
    rw [state] at resumed
    exact resumed.trans (feed_stopped rfl rest)
  · have state : loopProgram.resume ⟨conn, .header, payloads⟩ header =
        ⟨next, .payload length, payloads⟩ := by simp [loopProgram, checked]
    rw [state] at resumed
    exact resumed

theorem fed_payload (conn : FramedConn) (payloads : List (List Byte)) {length : UInt32}
    (positive : 0 < length.toNat) {payload : List Byte} (size : payload.length = length.toNat)
    (rest : List Byte) :
    feed loopProgram ⟨⟨conn, .payload length, payloads⟩, []⟩ (payload ++ rest) =
      feed loopProgram (between conn (payloads ++ [payload])) rest := by
  have asks : 0 < loopProgram.wants ⟨conn, .payload length, payloads⟩ := positive
  exact fed_exact asks size rest

theorem header_split {stream : List Byte} (enough : ¬stream.length < 8) :
    ∃ header rest, stream = header ++ rest ∧ header.length = 8 :=
  ⟨stream.take 8, stream.drop 8, (List.take_append_drop 8 stream).symm, by simp; omega⟩

theorem fed_frame {conn next : FramedConn} {stream payload rest : List Byte}
    (read : readFrame conn stream = (.ok payload, next, rest)) (payloads : List (List Byte)) :
    rest.length < stream.length ∧ feed loopProgram (between conn payloads) stream =
      feed loopProgram (between next (payloads ++ [payload])) rest := by
  by_cases short : stream.length < 8
  · simp [readFrame, read_full_short short] at read
  · obtain ⟨header, body, rfl, whole⟩ := header_split short
    rw [read_frame_header conn header body whole] at read
    rw [fed_header conn payloads whole]
    rcases checked : checkHeader conn header with ⟨error | length, after⟩
    · simp [checked] at read
    · simp only [checked, readPayload] at read
      rcases second : readFull length.toNat body with ⟨error | found, left⟩
      · simp [second] at read
      · simp only [second, Prod.mk.injEq, Except.ok.injEq] at read
        obtain ⟨rfl, rfl, rfl⟩ := read
        obtain ⟨size, rfl⟩ := read_full_sound second
        refine ⟨by simp only [List.length_append]; omega, ?_⟩
        exact fed_payload after payloads (checked_length checked) size left

theorem fed_error {conn next : FramedConn} {stream rest : List Byte} {error : FrameError}
    (read : readFrame conn stream = (.error error, next, rest)) (payloads : List (List Byte)) :
    outcome (readFails (feed loopProgram (between conn payloads) stream) .eof) =
      (payloads, some error) := by
  by_cases short : stream.length < 8
  · have kept : feed loopProgram (between conn payloads) stream =
        ⟨⟨conn, .header, payloads⟩, stream⟩ := fed_short short
    simp only [readFrame, read_full_short short, Prod.mk.injEq, Except.error.injEq] at read
    obtain ⟨rfl, -, -⟩ := read
    rw [kept]
    rfl
  · obtain ⟨header, body, rfl, whole⟩ := header_split short
    rw [read_frame_header conn header body whole] at read
    rw [fed_header conn payloads whole]
    rcases checked : checkHeader conn header with ⟨refused | length, after⟩
    · simp only [checked, Prod.mk.injEq, Except.error.injEq] at read
      obtain ⟨rfl, -, -⟩ := read
      rfl
    · simp only [checked, readPayload] at read
      by_cases missing : body.length < length.toNat
      · have kept : feed loopProgram ⟨⟨after, .payload length, payloads⟩, []⟩ body =
            ⟨⟨after, .payload length, payloads⟩, body⟩ := fed_short missing
        simp only [read_full_short missing, Prod.mk.injEq, Except.error.injEq] at read
        obtain ⟨rfl, -, -⟩ := read
        simp only [kept]
        rfl
      · have front : (body.take length.toNat).length = length.toNat := by
          simp only [List.length_take]
          omega
        have enough := read_full_append (body.take length.toNat) (body.drop length.toNat)
        rw [List.take_append_drop, front] at enough
        simp [enough] at read

theorem run_fed (fuel : Nat) (conn : FramedConn) (stream : List Byte)
    (enough : stream.length < fuel) (payloads : List (List Byte)) :
    outcome (readFails (feed loopProgram (between conn payloads) stream) .eof) =
      (payloads ++ (run fuel conn stream).1, (run fuel conn stream).2) := by
  induction fuel generalizing conn stream payloads with
  | zero => omega
  | succ fuel ih =>
      unfold run
      rcases read : readFrame conn stream with ⟨error | payload, next, rest⟩
      · rw [fed_error read]
        simp
      · obtain ⟨shorter, fed⟩ := fed_frame read payloads
        rw [fed, ih next rest (by omega)]
        simp

end Whole

/-- However the bytes of a connection are cut into `Read` results, and whatever they are, the loop
hands on the same payloads and closes with the same error as on the whole stream: when the bytes
are used up and `Read` says `EOF`, or as soon as it has stopped by itself. -/
theorem segmentation_is_invisible (bytes rest : List Byte) (pieces : List (List Byte))
    (last : Reading Byte Loop) (cut : bytes = pieces.flatten ++ rest)
    (read : reads loopProgram ⟨newLoop, []⟩ pieces = some last)
    (done : rest = [] ∨ loopProgram.wants last.state = 0) :
    outcome (readFails last .eof) = run (bytes.length + 1) newFramedConn bytes := by
  have whole : last = feed loopProgram (between newFramedConn []) bytes := by
    rw [cut, feed_append]
    have pieced : last = feed loopProgram (between newFramedConn []) pieces.flatten :=
      reads_eq_feed read
    rcases done with rfl | stopped
    · exact pieced
    · rw [← pieced, feed_stopped stopped]
  rw [whole, run_fed (bytes.length + 1) newFramedConn bytes (Nat.lt_succ_self _) []]
  simp

theorem cut_frame_read :
    outcome (readFails ⟨⟨{ newFramedConn with inSeqno := 1 }, .header, [[1, 2, 3, 4]]⟩, [4, 0]⟩
      .eof) = run 15 newFramedConn (frameBytes 0 [1, 2, 3, 4] ++ [4, 0]) :=
  segmentation_is_invisible (frameBytes 0 [1, 2, 3, 4] ++ [4, 0]) []
    [[4], [0, 0, 0, 0, 0, 0, 0], [1, 2, 3], [4], [4, 0]] _ (by decide) (by decide) (.inl rfl)

end Gocoon.ReadLoop
