import Gocoon.BufferedChannel
import Gocoon.InferencePackets
import Gocoon.TransitionRuns
import Mathlib.Data.List.AList

/-!
# Inference streams of one session

`RunQuery` registers a stream and hands its channel to the caller, the read loop routes
answer packets to it, a watcher ends it on cancellation, transport close or timeout, and
the consumer drains it. The goroutines of all requests and the one read loop interleave
at every lock: looking a stream up, sending under `sendMu`, the three phases of the body
of `closeOnce` (entered, entry deleted, channels closed) and a call of `close` that waits
for another goroutine's body are separate steps. The source draws request ids from
`crypto/rand`; an id is taken to be new. `sends`, `received` and `drained` are history.
-/

namespace Gocoon.InferenceStreams

open Gocoon.LittleEndianBytes
open Gocoon.BufferedChannel
open Gocoon.CocoonErrors
open Gocoon.TlPrimitives
open Gocoon.InferencePackets
open Gocoon.TransitionRuns

set_option autoImplicit false

/-- How far the body of `closeOnce` has come. -/
inductive CloseState where
  | idle
  | entered
  | unlisted
  | finished
  deriving DecidableEq

inductive CallerState where
  | sendingPacket
  | closing
  | failed
  | returned
  deriving DecidableEq

/-- What ends a watcher: `ctx.Done()`, `tr.Closed()` or its timer. -/
inductive WatcherCause where
  | contextDone
  | transportClosed
  | timeout
  deriving DecidableEq

def WatcherCause.error : WatcherCause → CocoonError
  | .contextDone => .contextDone
  | .transportClosed => .notConnected
  | .timeout => .requestTimeout

inductive WatcherState where
  | absent
  | watching
  | sending (chunk : Chunk)
  | closing
  | ended
  deriving DecidableEq

inductive Sender where
  | readLoop
  | watcher
  deriving DecidableEq

/-- One call of `streamChannel.send` with the result that its callers ignore. -/
structure SendRecord where
  sender : Sender
  chunk : Chunk
  accepted : Bool
  deriving DecidableEq

structure Stream where
  reqID : RequestID
  ch : Channel Chunk
  done : Bool
  closeOnce : CloseState
  caller : CallerState
  watcher : WatcherState
  sends : List SendRecord
  received : List Chunk
  drained : Bool
  deriving DecidableEq

inductive ReadLoop where
  | idle
  | sending (ref : Nat) (chunk : Chunk)
  | closing (ref : Nat)
  deriving DecidableEq

structure Session where
  streams : AList fun _ : RequestID => Nat
  heap : List Stream
  readLoop : ReadLoop
  panicked : Bool

def newSession : Session where
  streams := ∅
  heap := []
  readLoop := .idle
  panicked := false

def streamCapacity : Nat := 16

def newStream (reqID : RequestID) : Stream where
  reqID := reqID
  ch := make streamCapacity
  done := false
  closeOnce := .idle
  caller := .sendingPacket
  watcher := .absent
  sends := []
  received := []
  drained := false

def Stream.record (stream : Stream) (sender : Sender) (chunk : Chunk) (accepted : Bool) :
    Stream :=
  { stream with sends := stream.sends ++ [⟨sender, chunk, accepted⟩] }

/-- `streamChannel.send`, all of it under `sendMu`. A send on the closed data channel would
panic. -/
def Stream.send (stream : Stream) (sender : Sender) (chunk : Chunk) : Option Stream :=
  if stream.done then some (stream.record sender chunk false)
  else
    match stream.ch.trySend chunk with
    | .sent channel => some ({ stream with ch := channel }.record sender chunk true)
    | .full => some (stream.record sender chunk false)
    | .panicked => none

namespace Session

def setStream (session : Session) (ref : Nat) (stream : Stream) : Session :=
  { session with heap := session.heap.set ref stream }

def panic (session : Session) : Session := { session with panicked := true }

/-- `RunQuery` up to the insertion of its stream; `ready` and `installed` are what it reads
from the session. -/
def runQuery (session : Session) (ready installed : Bool) (model : GoString)
    (reqID : RequestID) : Except CocoonError Session :=
  if !ready then .error .notConnected
  else if model = [] then .error (.text "cocoon: Query.Model required")
  else if !installed then .error .notConnected
  else .ok { session with
    streams := session.streams.insert reqID session.heap.length
    heap := session.heap ++ [newStream reqID] }

/-- `dispatchPacket` up to the stream it found. -/
def dispatchPacket (session : Session) (payload : List Byte) : Session :=
  match tryDecodeQueryPart payload with
  | .error _ => session.panic
  | .ok none => session
  | .ok (some (chunk, reqID)) =>
      match session.streams.lookup reqID with
      | none => session
      | some ref => { session with readLoop := .sending ref chunk }

/-- The send of `dispatchPacket` and its `if chunk.IsFinal`. -/
def dispatchSend (session : Session) (ref : Nat) (chunk : Chunk) (stream : Stream) : Session :=
  match stream.send .readLoop chunk with
  | none => session.panic
  | some sent =>
      { session.setStream ref sent with
        readLoop := if chunk.isFinal then .closing ref else .idle }

end Session

inductive StreamStep where
  | runQuery (ready installed : Bool) (model : GoString) (reqID : RequestID)
  | sendPacket (ref : Nat) (written : Bool)
  | callerReturns (ref : Nat)
  | dispatch (payload : List Byte)
  | loopSend
  | loopReturns
  | closeEnter (ref : Nat)
  | closeDelete (ref : Nat)
  | closeChannels (ref : Nat)
  | watcherFires (ref : Nat) (cause : WatcherCause)
  | watcherSend (ref : Nat)
  | watcherReturns (ref : Nat)
  | receive (ref : Nat)
  deriving DecidableEq

def watcherChunk (reqID : RequestID) (cause : WatcherCause) : Chunk where
  isFinal := true
  requestID := reqID
  err := some cause.error

/-- The closing of both channels under `sendMu`. Closing a closed channel panics. -/
def Stream.closeBoth (stream : Stream) : Option Stream :=
  if stream.done then none
  else stream.ch.close.map fun channel =>
    { stream with done := true, ch := channel, closeOnce := .finished }

/-- The steps of one stream and its goroutines. `loopClosing` says that the read loop waits in
`close` of this stream. The inner `none` is a panic. -/
def streamStep (loopClosing : Bool) (stream : Stream) : StreamStep → Option (Option Stream)
  | .sendPacket _ written =>
      if stream.caller = .sendingPacket then
        some (some (if written then { stream with caller := .returned, watcher := .watching }
          else { stream with caller := .closing }))
      else none
  | .callerReturns _ =>
      if stream.caller = .closing ∧ stream.closeOnce = .finished then
        some (some { stream with caller := .failed })
      else none
  | .closeEnter _ =>
      if stream.closeOnce = .idle ∧
          (loopClosing = true ∨ stream.caller = .closing ∨ stream.watcher = .closing) then
        some (some { stream with closeOnce := .entered })
      else none
  | .closeDelete _ =>
      if stream.closeOnce = .entered then some (some { stream with closeOnce := .unlisted })
      else none
  | .closeChannels _ => if stream.closeOnce = .unlisted then some stream.closeBoth else none
  | .watcherFires _ cause =>
      if stream.watcher = .watching then
        some (some { stream with watcher := .sending (watcherChunk stream.reqID cause) })
      else none
  | .watcherSend _ =>
      match stream.watcher with
      | .sending chunk =>
          some ((stream.send .watcher chunk).map fun sent => { sent with watcher := .closing })
      | _ => none
  | .watcherReturns _ =>
      if stream.watcher = .closing ∧ stream.closeOnce = .finished then
        some (some { stream with watcher := .ended })
      else none
  | .receive _ =>
      if stream.caller = .returned then
        match stream.ch.receive with
        | none => none
        | some (some chunk, channel) =>
            some (some { stream with ch := channel, received := stream.received ++ [chunk] })
        | some (none, _) => some (some { stream with drained := true })
      else none
  | .runQuery .. | .dispatch _ | .loopSend | .loopReturns => none

def StreamStep.target : StreamStep → Option Nat
  | .sendPacket ref _ | .callerReturns ref | .closeEnter ref | .closeDelete ref
  | .closeChannels ref | .watcherFires ref _ | .watcherSend ref | .watcherReturns ref
  | .receive ref => some ref
  | .runQuery .. | .dispatch _ | .loopSend | .loopReturns => none

/-- Only the close body touches the map of streams. -/
def StreamStep.listing (streams : AList fun _ : RequestID => Nat) (reqID : RequestID) :
    StreamStep → AList fun _ : RequestID => Nat
  | .closeDelete _ => streams.erase reqID
  | _ => streams

def Session.applyStream (session : Session) (ref : Nat) (stream : Stream) (label : StreamStep) :
    Option Session :=
  (streamStep (session.readLoop = .closing ref) stream label).map fun
    | none => session.panic
    | some changed =>
        { session.setStream ref changed with
          streams := label.listing session.streams stream.reqID }

def step (session : Session) (label : StreamStep) : Option Session :=
  if session.panicked then none
  else
    match label with
    | .runQuery ready installed model reqID =>
        if session.heap.any (·.reqID = reqID) then none
        else
          match session.runQuery ready installed model reqID with
          | .error _ => some session
          | .ok next => some next
    | .dispatch payload =>
        if session.readLoop = .idle then some (session.dispatchPacket payload) else none
    | .loopSend =>
        match session.readLoop with
        | .sending ref chunk => session.heap[ref]?.map (session.dispatchSend ref chunk)
        | _ => none
    | .loopReturns =>
        match session.readLoop with
        | .closing ref =>
            match session.heap[ref]? with
            | some stream =>
                if stream.closeOnce = .finished then some { session with readLoop := .idle }
                else none
            | none => none
        | _ => none
    | other =>
        other.target.bind fun ref =>
          session.heap[ref]?.bind fun stream => session.applyStream ref stream other

/-- Everything a step can do, with its guards. -/
inductive StepCase (session : Session) (next : Session) : StreamStep → Prop
  | rejected (ready installed : Bool) (model : GoString) (reqID : RequestID)
      (same : next = session) : StepCase session next (.runQuery ready installed model reqID)
  | started (ready installed : Bool) (model : GoString) (reqID : RequestID)
      (fresh : ∀ stream ∈ session.heap, stream.reqID ≠ reqID)
      (same : next = { session with
        streams := session.streams.insert reqID session.heap.length
        heap := session.heap ++ [newStream reqID] }) :
      StepCase session next (.runQuery ready installed model reqID)
  | dispatched (payload : List Byte) (free : session.readLoop = .idle)
      (same : next = session.dispatchPacket payload) : StepCase session next (.dispatch payload)
  | handed (ref : Nat) (chunk : Chunk) (stream : Stream)
      (sending : session.readLoop = .sending ref chunk)
      (present : session.heap[ref]? = some stream)
      (same : next = session.dispatchSend ref chunk stream) : StepCase session next .loopSend
  | returned (ref : Nat) (stream : Stream) (closing : session.readLoop = .closing ref)
      (present : session.heap[ref]? = some stream) (finished : stream.closeOnce = .finished)
      (same : next = { session with readLoop := .idle }) : StepCase session next .loopReturns
  | moved (label : StreamStep) (ref : Nat) (stream : Stream) (about : label.target = some ref)
      (present : session.heap[ref]? = some stream)
      (applied : session.applyStream ref stream label = some next) : StepCase session next label

theorem step_case (session next : Session) (label : StreamStep)
    (taken : step session label = some next) : StepCase session next label := by
  unfold step at taken
  by_cases broken : session.panicked = true
  · simp [broken] at taken
  rw [if_neg broken] at taken
  have applied : ∀ other : StreamStep,
      (other.target.bind fun ref => session.heap[ref]?.bind fun stream =>
        session.applyStream ref stream other) = some next → StepCase session next other := by
    intro other bound
    obtain ⟨ref, about, rest⟩ := Option.bind_eq_some_iff.mp bound
    obtain ⟨stream, present, moved⟩ := Option.bind_eq_some_iff.mp rest
    exact .moved other ref stream about present moved
  cases label with
  | runQuery ready installed model reqID =>
      simp only at taken
      split_ifs at taken with known
      have fresh : ∀ stream ∈ session.heap, stream.reqID ≠ reqID := by
        intro stream member same
        exact known (List.any_eq_true.mpr ⟨stream, member, decide_eq_true same⟩)
      unfold Session.runQuery at taken
      by_cases unready : ready = false
      · simp [unready] at taken
        exact .rejected _ _ _ _ taken.symm
      by_cases unnamed : model = []
      · simp [unready, unnamed] at taken
        exact .rejected _ _ _ _ taken.symm
      by_cases uninstalled : installed = false
      · simp [unready, unnamed, uninstalled] at taken
        exact .rejected _ _ _ _ taken.symm
      simp [unready, unnamed, uninstalled] at taken
      exact .started _ _ _ _ fresh taken.symm
  | dispatch payload =>
      simp only at taken
      split_ifs at taken with free
      exact .dispatched payload free (Option.some.inj taken).symm
  | loopSend =>
      simp only at taken
      split at taken
      · next ref chunk sending =>
          obtain ⟨stream, present, same⟩ := Option.map_eq_some_iff.mp taken
          exact .handed ref chunk stream sending present same.symm
      · cases taken
  | loopReturns =>
      simp only at taken
      split at taken
      · next ref closing =>
          split at taken
          · next stream present =>
              split_ifs at taken with finished
              exact .returned ref stream closing present finished (Option.some.inj taken).symm
          · cases taken
      · cases taken
  | sendPacket ref written => exact applied _ taken
  | callerReturns ref => exact applied _ taken
  | closeEnter ref => exact applied _ taken
  | closeDelete ref => exact applied _ taken
  | closeChannels ref => exact applied _ taken
  | watcherFires ref cause => exact applied _ taken
  | watcherSend ref => exact applied _ taken
  | watcherReturns ref => exact applied _ taken
  | receive ref => exact applied _ taken

/-- Everything a step of one stream can do, with its guards. -/
inductive StreamCase (loopClosing : Bool) (stream changed : Stream) : StreamStep → Prop
  | written (ref : Nat) (sending : stream.caller = .sendingPacket)
      (same : changed = { stream with caller := .returned, watcher := .watching }) :
      StreamCase loopClosing stream changed (.sendPacket ref true)
  | unwritten (ref : Nat) (sending : stream.caller = .sendingPacket)
      (same : changed = { stream with caller := .closing }) :
      StreamCase loopClosing stream changed (.sendPacket ref false)
  | gaveUp (ref : Nat) (calling : stream.caller = .closing)
      (finished : stream.closeOnce = .finished)
      (same : changed = { stream with caller := .failed }) :
      StreamCase loopClosing stream changed (.callerReturns ref)
  | entered (ref : Nat) (idle : stream.closeOnce = .idle)
      (waits : loopClosing = true ∨ stream.caller = .closing ∨ stream.watcher = .closing)
      (same : changed = { stream with closeOnce := .entered }) :
      StreamCase loopClosing stream changed (.closeEnter ref)
  | unlisted (ref : Nat) (entered : stream.closeOnce = .entered)
      (same : changed = { stream with closeOnce := .unlisted }) :
      StreamCase loopClosing stream changed (.closeDelete ref)
  | closed (ref : Nat) (unlisted : stream.closeOnce = .unlisted)
      (closes : stream.closeBoth = some changed) :
      StreamCase loopClosing stream changed (.closeChannels ref)
  | fired (ref : Nat) (cause : WatcherCause) (watching : stream.watcher = .watching)
      (same : changed = { stream with watcher := .sending (watcherChunk stream.reqID cause) }) :
      StreamCase loopClosing stream changed (.watcherFires ref cause)
  | sent (ref : Nat) (chunk : Chunk) (after : Stream) (sending : stream.watcher = .sending chunk)
      (result : stream.send .watcher chunk = some after)
      (same : changed = { after with watcher := .closing }) :
      StreamCase loopClosing stream changed (.watcherSend ref)
  | ended (ref : Nat) (ending : stream.watcher = .closing)
      (finished : stream.closeOnce = .finished)
      (same : changed = { stream with watcher := .ended }) :
      StreamCase loopClosing stream changed (.watcherReturns ref)
  | took (ref : Nat) (chunk : Chunk) (channel : Channel Chunk)
      (taken : stream.ch.receive = some (some chunk, channel))
      (same : changed =
        { stream with ch := channel, received := stream.received ++ [chunk] }) :
      StreamCase loopClosing stream changed (.receive ref)
  | drained (ref : Nat) (channel : Channel Chunk)
      (taken : stream.ch.receive = some (none, channel))
      (same : changed = { stream with drained := true }) :
      StreamCase loopClosing stream changed (.receive ref)

theorem stream_step_case {loopClosing : Bool} {stream changed : Stream} {label : StreamStep}
    (moved : streamStep loopClosing stream label = some (some changed)) :
    StreamCase loopClosing stream changed label := by
  have sole : ∀ {result : Stream}, some (some result) = some (some changed) → changed = result :=
    fun same => (Option.some.inj (Option.some.inj same)).symm
  cases label with
  | runQuery | dispatch | loopSend | loopReturns => cases moved
  | sendPacket ref written =>
      simp only [streamStep] at moved
      split_ifs at moved with sending isWritten
      · obtain rfl : written = true := isWritten
        exact .written ref sending (sole moved)
      · obtain rfl : written = false := by simpa using isWritten
        exact .unwritten ref sending (sole moved)
  | callerReturns ref =>
      simp only [streamStep] at moved
      split_ifs at moved with waited
      exact .gaveUp ref waited.1 waited.2 (sole moved)
  | closeEnter ref =>
      simp only [streamStep] at moved
      split_ifs at moved with may
      exact .entered ref may.1 may.2 (sole moved)
  | closeDelete ref =>
      simp only [streamStep] at moved
      split_ifs at moved with entered
      exact .unlisted ref entered (sole moved)
  | closeChannels ref =>
      simp only [streamStep] at moved
      split_ifs at moved with unlisted
      exact .closed ref unlisted (Option.some.inj moved)
  | watcherFires ref cause =>
      simp only [streamStep] at moved
      split_ifs at moved with watching
      exact .fired ref cause watching (sole moved)
  | watcherSend ref =>
      simp only [streamStep] at moved
      split at moved
      · next chunk sending =>
          obtain ⟨after, result, same⟩ := Option.map_eq_some_iff.mp (Option.some.inj moved)
          exact .sent ref chunk after sending result same.symm
      · cases moved
  | watcherReturns ref =>
      simp only [streamStep] at moved
      split_ifs at moved with waited
      exact .ended ref waited.1 waited.2 (sole moved)
  | receive ref =>
      simp only [streamStep] at moved
      split_ifs at moved
      split at moved
      · cases moved
      · next chunk channel taken => exact .took ref chunk channel taken (sole moved)
      · next channel taken => exact .drained ref channel taken (sole moved)

end Gocoon.InferenceStreams
