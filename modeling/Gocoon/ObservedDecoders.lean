import Gocoon.ObservedPrograms
import Gocoon.ProxyAnswers

/-!
# The effort of the answer decoders

Every loop of the answer decoders runs up to a count that the proxy claims, and every vector asks
`make` for all of its elements before the first one is read. The decoders with a loop are written a
second time, with a note at the head of each loop body and at each reservation. Without the notes
they are the decoders themselves.
-/

namespace Gocoon.ObservedDecoders

open Gocoon.LittleEndianBytes
open Gocoon.GoProgram
open Gocoon.ObservedPrograms
open Gocoon.TlPrimitives
open Gocoon.TlTypes
open Gocoon.TlVector
open Gocoon.CocoonErrors
open Gocoon.ProxyHandshakeCodec
open Gocoon.InferencePackets
open Gocoon.ProxyAnswers

set_option autoImplicit false

/-- A call of `make`: the elements asked for, the least size of an encoded element and the bytes
that are unread then. -/
structure Reservation where
  count : Nat
  width : Nat
  unread : Nat
  deriving DecidableEq

structure Effort where
  iterations : Nat
  reservations : List Reservation

abbrev EffortM (Err : Type) := GoM (Observed Reader Effort) Err

section Loops

variable {Err Item : Type}

def tick : EffortM Err Unit :=
  note fun _ effort => { effort with iterations := effort.iterations + 1 }

def reserve (width elementSize count : Nat) : EffortM Err Unit := do
  note fun reader effort => { effort with
    reservations := effort.reservations ++ [⟨count, width, reader.buf.length - reader.pos⟩] }
  quiet (makeSlice elementSize count)

def observedItems (item : EffortM Err Item) : Nat → EffortM Err (List Item)
  | 0 => pure []
  | count + 1 => do
      tick
      let first ← item
      let rest ← observedItems item count
      pure (first :: rest)

def observedVector (width elementSize : Nat) (item : ReadM Item) :
    EffortM TlError (List Item) := do
  let count ← quiet readVectorLen
  reserve width elementSize count
  observedItems (quiet item) count

end Loops

def observedHeaders : Nat → EffortM TlError Unit
  | 0 => pure ()
  | count + 1 => do
      tick
      let _ ← quiet readString
      let _ ← quiet readString
      observedHeaders count

def observedHTTPResponse : EffortM TlError (List Byte) := do
  let id ← quiet readUint32
  if id ≠ idHTTPResponse then fail .unknownConstructor
  else do
    let _ ← quiet readString
    let _ ← quiet readInt32
    let _ ← quiet readString
    let count ← quiet readVectorLen
    observedHeaders count
    quiet readBytes

def observedTimings : EffortM TlError Unit := do
  let _ ← observedItems (quiet readDouble) 4
  pure ()

def observedFinalInfo : EffortM TlError Unit := do
  let flags ← quiet readFlags
  let _ ← quiet decodeTokensUsed
  quiet (readIf (hasFlag flags 0x1) () skipDebugStrings)
  if hasFlag flags 0x2 then observedTimings else pure ()

/-- `decodeHTTPResponsePayload` reads the answer with a reader of its own. -/
def observedUnwrap (whole : Bool) (body : List Byte) : EffortM TlError (List Byte) :=
  if whole then do
    let outcome ← nested (newReader body) observedHTTPResponse
    match outcome with
    | .ok payload => pure payload
    | .error (.returned _) => pure body
    | .error .panicked => crash
  else pure body

def observedSkipped (final : Bool) : EffortM TlError (Except TlError Unit) :=
  if final then attempt observedFinalInfo else pure (.ok ())

def observedAnswerEx (whole : Bool) : EffortM TlError Chunk := do
  let requestID ← quiet readInt256
  let body ← quiet readBytes
  let flags ← quiet readFlags
  let final := hasFlag flags 0x1
  let _ ← observedSkipped final
  let bytes ← observedUnwrap whole body
  pure { bytes, isFinal := final, requestID }

def observedAnswerErrorEx : EffortM TlError Chunk := do
  let requestID ← quiet readInt256
  let code ← quiet readInt32
  let message ← quiet readString
  let flags ← quiet readFlags
  let _ ← observedSkipped (hasFlag flags 0x1)
  pure (errorChunk requestID code message)

def observedQueryPart : EffortM TlError Chunk := do
  let id ← quiet readUint32
  if id = idClientQueryAnswer ∨ id = idClientQueryAnswerPart then quiet readAnswer
  else if id = idClientQueryAnswerEx ∨ id = idClientQueryAnswerPartEx then
    observedAnswerEx (id = idClientQueryAnswerEx)
  else if id = idClientQueryAnswerError ∨ id = idClientQueryAnswerPartError then
    quiet readAnswerError
  else if id = idClientQueryAnswerErrorEx then observedAnswerErrorEx
  else fail .unknownConstructor

def observedWorkerType : EffortM CocoonError WorkerType := do
  let name ← quiet (plain readString)
  let workerCount ← quiet (plain readVectorLen)
  reserve 16 12 workerCount
  let workers ← observedItems (quiet readWorkerInstance) workerCount
  pure { name, workers }

def observedWorkerTypes : EffortM CocoonError (List WorkerType) := do
  let id ← quiet (plain readUint32)
  if id ≠ idClientWorkerTypesV2 then
    fail (.formatted "cocoon: workerTypesV2: unexpected constructor %#x" id)
  else do
    let count ← quiet (plain readVectorLen)
    reserve 8 40 count
    let out ← observedItems observedWorkerType count
    if out.length = 0 then fail (.text "cocoon: proxy has no advertised worker models")
    else pure out

def effortOf {Err Value : Type} (program : EffortM Err Value) (reader : Reader) : Effort :=
  (exec program ⟨reader, ⟨0, []⟩⟩).2.notes

/-! ## Without the notes -/

section Erasure

variable {Err Item : Type}

theorem observes_reserve (width elementSize count : Nat) :
    Observes (reserve width elementSize count : EffortM Err Unit) (makeSlice elementSize count) :=
  (observes_quiet _).note_bind _

theorem observes_items {observed : EffortM Err Item} {item : GoM Reader Err Item}
    (observes : Observes observed item) (count : Nat) :
    Observes (observedItems observed count) (readItems item count) := by
  induction count with
  | zero => exact observes_pure []
  | succ count ih =>
      apply Observes.note_bind
      exact observes.bind fun first => ih.bind fun rest => observes_pure _

theorem observes_vector (width elementSize : Nat) (item : ReadM Item) :
    Observes (observedVector width elementSize item) (readVector elementSize item) :=
  (observes_quiet _).bind fun count => (observes_reserve _ _ _).bind fun _ =>
    observes_items (observes_quiet item) count

theorem observes_headers (count : Nat) : Observes (observedHeaders count) (skipHeaders count) := by
  induction count with
  | zero => exact observes_pure ()
  | succ count ih =>
      apply Observes.note_bind
      exact (observes_quiet _).bind fun _ => (observes_quiet _).bind fun _ => ih

theorem observes_http_response : Observes observedHTTPResponse readHTTPResponsePayload := by
  refine (observes_quiet _).bind fun id => Observes.if_then (observes_fail _) ?_
  refine (observes_quiet _).bind fun _ => (observes_quiet _).bind fun _ => ?_
  refine (observes_quiet _).bind fun _ => (observes_quiet _).bind fun count => ?_
  exact (observes_headers count).bind fun _ => observes_quiet _

theorem observes_timings : Observes observedTimings skipTimings := by
  have loop : Observes observedTimings (do
      let _ ← readItems readDouble 4
      pure ()) :=
    (observes_items (observes_quiet readDouble) 4).bind fun _ => observes_pure ()
  have unrolled : (do
      let _ ← readItems readDouble 4
      pure ()) = skipTimings := by
    simp [skipTimings, readItems]
  rwa [unrolled] at loop

theorem observes_final_info : Observes observedFinalInfo skipClientQueryFinalInfo := by
  refine (observes_quiet _).bind fun flags => (observes_quiet _).bind fun _ => ?_
  refine (observes_quiet _).bind fun _ => ?_
  exact Observes.if_then observes_timings (observes_pure ())

theorem observes_skipped (final : Bool) :
    Observes (observedSkipped final) (readIf final (.ok ()) (attempt skipClientQueryFinalInfo)) :=
  Observes.if_then observes_final_info.attempt (observes_pure _)

theorem observes_unwrap (whole : Bool) (body : List Byte) :
    Observes (observedUnwrap whole body) (unwrapAnswer whole body) := by
  apply Observes.if_then ?_ (observes_pure body)
  intro state
  have same := observes_http_response ⟨newReader body, state.notes⟩
  rw [exec_bind_ok (exec_nested _ _ state), exec_bind, exec_lift, decodeHTTPResponsePayload, same]
  generalize exec observedHTTPResponse ⟨newReader body, state.notes⟩ = ran
  rcases ran with ⟨(error | _) | payload, after⟩ <;> rfl

theorem observes_query_part : Observes observedQueryPart readQueryPart := by
  refine (observes_quiet _).bind fun id => Observes.if_then (observes_quiet _)
    (Observes.if_then ?_ (Observes.if_then (observes_quiet _)
      (Observes.if_then ?_ (observes_fail _))))
  · refine (observes_quiet _).bind fun _ => (observes_quiet _).bind fun body => ?_
    refine (observes_quiet _).bind fun flags => (observes_skipped _).bind fun _ => ?_
    exact (observes_unwrap _ body).bind fun _ => observes_pure _
  · refine (observes_quiet _).bind fun _ => (observes_quiet _).bind fun _ => ?_
    refine (observes_quiet _).bind fun _ => (observes_quiet _).bind fun flags => ?_
    exact (observes_skipped _).bind fun _ => observes_pure _

theorem observes_worker_types : Observes observedWorkerTypes readWorkerTypesV2 := by
  have worker : Observes observedWorkerType readWorkerType := by
    refine (observes_quiet _).bind fun _ => (observes_quiet _).bind fun count => ?_
    refine (observes_reserve _ _ _).bind fun _ => ?_
    exact (observes_items (observes_quiet _) count).bind fun _ => observes_pure _
  refine (observes_quiet _).bind fun id => Observes.if_then (observes_fail _) ?_
  refine (observes_quiet _).bind fun count => (observes_reserve _ _ _).bind fun _ => ?_
  exact (observes_items worker count).bind fun out =>
    Observes.if_then (observes_fail _) (observes_pure out)

end Erasure

end Gocoon.ObservedDecoders
