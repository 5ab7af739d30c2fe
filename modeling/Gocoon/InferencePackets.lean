import Gocoon.CocoonErrors
import Gocoon.TlTypes

/-!
# Streaming answer packets

`tryDecodeQueryPart` turns the payload of a `tcp.packet` into a chunk and the request id
it belongs to, or finds nothing. The chunk of an answer keeps the token counts of the
packet, the chunk of an error is always final, and trailing or damaged final information
is skipped without a failure, as in the source.
-/

namespace Gocoon.InferencePackets

open Gocoon.LittleEndianBytes
open Gocoon.GoProgram
open Gocoon.CocoonErrors
open Gocoon.TlPrimitives
open Gocoon.TlTypes

set_option autoImplicit false

abbrev RequestID := FixedBytes 32

structure Chunk where
  bytes : List Byte := []
  isFinal : Bool := false
  requestID : RequestID
  tokensUsed : TokensUsed := .zero
  err : Option CocoonError := none
  deriving DecidableEq

/-- The header loop of an `http.response`: names and values are read and dropped. -/
def skipHeaders : Nat → ReadM Unit
  | 0 => pure ()
  | count + 1 => do
      let _ ← readString
      let _ ← readString
      skipHeaders count

def readHTTPResponsePayload : ReadM (List Byte) := do
  let id ← readUint32
  if id ≠ idHTTPResponse then fail .unknownConstructor
  else do
    let _ ← readString
    let _ ← readInt32
    let _ ← readString
    let count ← readVectorLen
    skipHeaders count
    readBytes

/-- A panic is kept; every returned error is the same "not an http.response". -/
def decodeHTTPResponsePayload (body : List Byte) : Except (Fault TlError) (Option (List Byte)) :=
  match (exec readHTTPResponsePayload (newReader body)).1 with
  | .ok payload => .ok (some payload)
  | .error (.returned _) => .ok none
  | .error .panicked => .error .panicked

def skipDebugStrings : ReadM Unit := do
  let _ ← readString
  let _ ← readString

def skipTimings : ReadM Unit := do
  let _ ← readDouble
  let _ ← readDouble
  let _ ← readDouble
  let _ ← readDouble

def skipClientQueryFinalInfo : ReadM Unit := do
  let flags ← readFlags
  let _ ← decodeTokensUsed
  readIf (hasFlag flags 0x1) () skipDebugStrings
  readIf (hasFlag flags 0x2) () skipTimings

/-- `client.queryAnswer` and `client.queryAnswerPart`. -/
def readAnswer : ReadM Chunk := do
  let body ← readBytes
  let isCompleted ← readBool
  let requestID ← readInt256
  let tokensUsed ← decodeTokensUsed
  pure { bytes := body, isFinal := isCompleted, requestID, tokensUsed }

/-- The `answer` of a `client.queryAnswerEx` is unwrapped when it is an `http.response`. -/
def unwrapAnswer (whole : Bool) (body : List Byte) : ReadM (List Byte) :=
  if whole then do
    let payload ← lift (decodeHTTPResponsePayload body)
    pure (payload.getD body)
  else pure body

/-- `client.queryAnswerEx` (`whole`) and `client.queryAnswerPartEx`. -/
def readAnswerEx (whole : Bool) : ReadM Chunk := do
  let requestID ← readInt256
  let body ← readBytes
  let flags ← readFlags
  let final := hasFlag flags 0x1
  let _ ← readIf final (.ok ()) (attempt skipClientQueryFinalInfo)
  let bytes ← unwrapAnswer whole body
  pure { bytes, isFinal := final, requestID }

def errorChunk (requestID : RequestID) (code : Int32) (message : GoString) : Chunk where
  isFinal := true
  requestID := requestID
  err := some (.proxy code message "query")

/-- `client.queryAnswerError` and `client.queryAnswerPartError`. -/
def readAnswerError : ReadM Chunk := do
  let code ← readInt32
  let message ← readString
  let requestID ← readInt256
  let _ ← attempt decodeTokensUsed
  pure (errorChunk requestID code message)

def readAnswerErrorEx : ReadM Chunk := do
  let requestID ← readInt256
  let code ← readInt32
  let message ← readString
  let flags ← readFlags
  let _ ← readIf (hasFlag flags 0x1) (.ok ()) (attempt skipClientQueryFinalInfo)
  pure (errorChunk requestID code message)

def readQueryPart : ReadM Chunk := do
  let id ← readUint32
  if id = idClientQueryAnswer ∨ id = idClientQueryAnswerPart then readAnswer
  else if id = idClientQueryAnswerEx ∨ id = idClientQueryAnswerPartEx then
    readAnswerEx (id = idClientQueryAnswerEx)
  else if id = idClientQueryAnswerError ∨ id = idClientQueryAnswerPartError then readAnswerError
  else if id = idClientQueryAnswerErrorEx then readAnswerErrorEx
  else fail .unknownConstructor

/-- The routing key that the source returns beside the chunk is always the chunk's own
request id. -/
def tryDecodeQueryPart (payload : List Byte) :
    Except (Fault TlError) (Option (Chunk × RequestID)) :=
  match (exec readQueryPart (newReader payload)).1 with
  | .ok chunk => .ok (some (chunk, chunk.requestID))
  | .error (.returned _) => .ok none
  | .error .panicked => .error .panicked

def FromProxy (chunk : Chunk) : Prop :=
  chunk.err = none ∨ ∃ code message, chunk.err = some (.proxy code message "query")

theorem read_query_part_from_proxy (reader : Reader) :
    Ends readQueryPart reader (fun chunk _ => FromProxy chunk) (fun _ => True) := by
  apply ends_of_rest (fun _ => trivial)
  intro id _
  split_ifs
  · iterate 4
      apply ends_of_rest (fun _ => trivial)
      intro _ _
    exact ends_pure (Or.inl rfl)
  · iterate 5
      apply ends_of_rest (fun _ => trivial)
      intro _ _
    exact ends_pure (Or.inl rfl)
  · iterate 4
      apply ends_of_rest (fun _ => trivial)
      intro _ _
    exact ends_pure (Or.inr ⟨_, _, rfl⟩)
  · iterate 5
      apply ends_of_rest (fun _ => trivial)
      intro _ _
    exact ends_pure (Or.inr ⟨_, _, rfl⟩)
  · exact ends_fail trivial

theorem decoded_from_proxy {payload : List Byte} {chunk : Chunk} {reqID : RequestID}
    (decoded : tryDecodeQueryPart payload = .ok (some (chunk, reqID))) : FromProxy chunk := by
  have read := read_query_part_from_proxy (newReader payload)
  unfold Ends at read
  unfold tryDecodeQueryPart at decoded
  rcases ran : exec readQueryPart (newReader payload) with ⟨(_ | _) | found, after⟩
  · simp [ran] at decoded
  · simp [ran] at decoded
  · rw [ran] at read decoded
    simp only [Except.ok.injEq, Option.some.injEq, Prod.mk.injEq] at decoded
    rw [← decoded.1]
    exact read

end Gocoon.InferencePackets
