import Gocoon.InferencePackets
import Gocoon.ResponseTranslation

/-!
# Collecting an answer into one response

The two collectors of the runner read the channel of a query until it is closed, join the bytes
and keep the last error. Neither looks at `IsFinal`: a channel that is closed without a final
chunk is answered with 200. The plain collector also answers with 200 when an error came after
some bytes; the one for requests with tools refuses every error.
-/

namespace Gocoon.CollectedResponse

open Gocoon.LittleEndianBytes
open Gocoon.TlPrimitives
open Gocoon.CocoonErrors
open Gocoon.JsonText
open Gocoon.JsonValues
open Gocoon.ToolTranslation
open Gocoon.InferencePackets
open Gocoon.ResponseTranslation

set_option autoImplicit false

structure Reply where
  status : Nat
  contentType : GoString
  body : GoString
  deriving DecidableEq

def statusOK : Nat := 200

def statusBadGateway : Nat := 502

def Reply.IsError (reply : Reply) : Prop := 400 ≤ reply.status

structure Collected where
  buf : List Byte
  lastErr : Option CocoonError
  deriving DecidableEq

def Collected.add (held : Collected) (chunk : Chunk) : Collected where
  buf := held.buf ++ chunk.bytes
  lastErr := chunk.err.or held.lastErr

def collect (chunks : List Chunk) : Collected := chunks.foldl Collected.add ⟨[], none⟩

section Collectors

variable (floats : Floats) (errorText : CocoonError → GoString) (newID : Nat → GoString)

/-- `writeJSONError`; `Encode` ends the text with a newline. -/
def writeJSONError (status : Nat) (message : GoString) : Reply where
  status := status
  contentType := ascii "application/json"
  body :=
    let error : Object floats := ofMembers [(ascii "message", .str message),
      (ascii "type", .str (ascii "gocoon_runner_error"))]
    marshal floats (.obj [(ascii "error", .obj error)]) ++ newline

def collectAndRespond (chunks : List Chunk) : Reply :=
  let held := collect chunks
  match held.lastErr with
  | some cause =>
      if held.buf.length = 0 then writeJSONError floats statusBadGateway (errorText cause)
      else ⟨statusOK, ascii "application/json", held.buf⟩
  | none => ⟨statusOK, ascii "application/json", held.buf⟩

def collectTranslateRespond (chunks : List Chunk) : Reply :=
  let held := collect chunks
  match held.lastErr with
  | some cause => writeJSONError floats statusBadGateway (errorText cause)
  | none => ⟨statusOK, ascii "application/json", translateResponseBody floats newID held.buf⟩

end Collectors

/-! ## What the loop holds at the end -/

def joined (chunks : List Chunk) : List Byte := chunks.flatMap Chunk.bytes

def Failed (chunks : List Chunk) : Prop := ∃ chunk ∈ chunks, chunk.err.isSome = true

/-- No chunk carried an error and the last one was final. -/
def Complete (chunks : List Chunk) : Prop :=
  ¬ Failed chunks ∧ ∃ last ∈ chunks.getLast?, last.isFinal = true

theorem collected_from (chunks : List Chunk) (held : Collected) :
    (chunks.foldl Collected.add held).buf = held.buf ++ joined chunks ∧
      ((chunks.foldl Collected.add held).lastErr = none ↔
        ¬ Failed chunks ∧ held.lastErr = none) := by
  induction chunks generalizing held with
  | nil => simp [joined, Failed]
  | cons chunk rest induction =>
      obtain ⟨bytes, error⟩ := induction (held.add chunk)
      rw [List.foldl_cons]
      constructor
      · rw [bytes, joined, joined, List.flatMap_cons, Collected.add, List.append_assoc]
      · rw [error]
        simp only [Failed, Collected.add, List.mem_cons, exists_eq_or_imp, not_or,
          Option.or_eq_none_iff, Option.not_isSome_iff_eq_none]
        tauto

theorem collected_buf (chunks : List Chunk) : (collect chunks).buf = joined chunks := by
  rw [collect, (collected_from chunks _).1, List.nil_append]

theorem collected_fault (chunks : List Chunk) :
    (collect chunks).lastErr = none ↔ ¬ Failed chunks := by
  rw [collect, (collected_from chunks _).2]
  simp

/-- A complete answer is passed on with 200, everything else is an error. -/
def Honest (chunks : List Chunk) (reply : Reply) (body : GoString) : Prop :=
  (Complete chunks → reply = ⟨statusOK, ascii "application/json", body⟩) ∧
    (¬ Complete chunks → reply.IsError)

section Replies

variable {chunks : List Chunk} {reply : Reply} {body : GoString}

theorem honest_of_success (success : reply = ⟨statusOK, ascii "application/json", body⟩) :
    Honest chunks reply body ↔ Complete chunks := by
  have fine : ¬ reply.IsError := by
    rw [Reply.IsError, success]
    simp [statusOK]
  constructor
  · intro honest
    by_contra incomplete
    exact fine (honest.2 incomplete)
  · exact fun complete => ⟨fun _ => success, fun incomplete => absurd complete incomplete⟩

theorem honest_of_error (refused : reply.status = statusBadGateway) (failed : Failed chunks) :
    Honest chunks reply body := by
  constructor
  · exact fun complete => absurd failed complete.1
  · intro _
    rw [Reply.IsError, refused]
    decide

end Replies

/-- The plain collector is honest exactly about complete answers and about errors without a
byte before or after them; the one that translates is so about complete answers and all errors. -/
theorem ok_means_complete_iff (floats : Floats) (errorText : CocoonError → GoString)
    (newID : Nat → GoString) (chunks : List Chunk) :
    (Honest chunks (collectAndRespond floats errorText chunks) (joined chunks) ↔
      Complete chunks ∨ Failed chunks ∧ ∀ chunk ∈ chunks, chunk.bytes = []) ∧
    (Honest chunks (collectTranslateRespond floats errorText newID chunks)
        (translateResponseBody floats newID (joined chunks)) ↔
      Complete chunks ∨ Failed chunks) := by
  have noBytes : joined chunks = [] ↔ ∀ chunk ∈ chunks, chunk.bytes = [] := by
    rw [joined, List.flatMap_eq_nil_iff]
  have buf := collected_buf chunks
  have fault := collected_fault chunks
  rw [collectAndRespond, collectTranslateRespond, ← noBytes]
  cases error : (collect chunks).lastErr with
  | none =>
      have clean : ¬ Failed chunks := fault.mp error
      simp only [buf, clean, false_and, or_false]
      exact ⟨honest_of_success rfl, honest_of_success rfl⟩
  | some cause =>
      have failed : Failed chunks := by
        by_contra clean
        rw [fault.mpr clean] at error
        cases error
      have incomplete : ¬ Complete chunks := fun complete => complete.1 failed
      simp only [buf, failed, incomplete, true_and, false_or, or_true, iff_true]
      constructor
      · by_cases empty : joined chunks = []
        · rw [if_pos (by rw [empty, List.length_nil])]
          simp only [empty, iff_true]
          exact honest_of_error rfl failed
        · rw [if_neg (by rwa [List.length_eq_zero_iff]), honest_of_success rfl]
          simp only [incomplete, empty]
      · exact honest_of_error rfl failed

def partChunk : Chunk where
  bytes := ascii "\x7b\"choices\":["
  requestID := ⟨List.replicate 32 0, List.length_replicate⟩

def brokenChunk : Chunk := errorChunk partChunk.requestID 500 (ascii "worker lost")

/-- The start of an answer is served with 200 when an error ends the stream, and both collectors
serve it when the final chunk does not fit into the channel any more. -/
theorem truncated_answer_served :
    collectAndRespond literalFloats (fun _ => []) [partChunk, brokenChunk] =
        ⟨200, ascii "application/json", partChunk.bytes⟩ ∧
      ¬ Complete [partChunk, brokenChunk] ∧
      (collectTranslateRespond literalFloats (fun _ => []) (fun _ => [])
        (List.replicate 16 partChunk)).status = 200 ∧
      (collectAndRespond literalFloats (fun _ => []) (List.replicate 16 partChunk)).status = 200 ∧
      ¬ Complete (List.replicate 16 partChunk) := by
  have broken : ¬ Complete [partChunk, brokenChunk] := by
    intro complete
    exact complete.1 ⟨brokenChunk, by simp, rfl⟩
  have unended : ¬ Complete (List.replicate 16 partChunk) := by
    intro complete
    obtain ⟨last, shown, final⟩ := complete.2
    have same : last = partChunk := List.eq_of_mem_replicate (List.mem_of_getLast? shown)
    rw [same] at final
    cases final
  exact ⟨rfl, broken, rfl, rfl, unended⟩

end Gocoon.CollectedResponse
