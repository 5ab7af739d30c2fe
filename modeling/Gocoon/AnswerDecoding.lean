import Gocoon.AnswerSchema
import Gocoon.ProxyAnswers
import Gocoon.WireReaders

/-!
# Decoding streaming answers

`tryDecodeQueryPart` on the serialisation of each of the seven answer constructors. It finds
the request, the answer and whether it is the last one in all of them. The counts of the
used tokens it takes from the short forms only: in the extended forms they stand inside the
final information, which is skipped.
-/

namespace Gocoon.AnswerDecoding

open Gocoon.LittleEndianBytes
open Gocoon.GoProgram
open Gocoon.TlPrimitives
open Gocoon.TlTypes
open Gocoon.TypeLanguage.WireType
open Gocoon.InferencePackets
open Gocoon.ProxyAnswers
open Gocoon.AnswerSchema

set_option autoImplicit false

/-! ## Packets on the wire -/

namespace Packet

def serialize : AnswerPacket → List Byte
  | .queryAnswer fields => (boxed numberQueryAnswer answerFields).serialize fields
  | .queryAnswerPart fields => (boxed numberQueryAnswerPart answerFields).serialize fields
  | .queryAnswerEx fields => (boxed numberQueryAnswerEx exFields).serialize fields
  | .queryAnswerPartEx fields => (boxed numberQueryAnswerPartEx exFields).serialize fields
  | .queryAnswerError fields => (boxed numberQueryAnswerError errorFields).serialize fields
  | .queryAnswerPartError fields =>
      (boxed numberQueryAnswerPartError errorFields).serialize fields
  | .queryAnswerErrorEx fields => (boxed numberQueryAnswerErrorEx errorExFields).serialize fields

/-- What the format can carry: byte strings shorter than `2 ^ 24`, and gated fields that are
there exactly if their flag is set. -/
def Fits : AnswerPacket → Prop
  | .queryAnswer fields | .queryAnswerPart fields => answerFields.Fits fields
  | .queryAnswerEx fields | .queryAnswerPartEx fields => exFields.Fits fields
  | .queryAnswerError fields | .queryAnswerPartError fields => errorFields.Fits fields
  | .queryAnswerErrorEx fields => errorExFields.Fits fields

def requestID : AnswerPacket → RequestID
  | .queryAnswer fields | .queryAnswerPart fields => fields.requestID
  | .queryAnswerEx fields | .queryAnswerPartEx fields => fields.requestID
  | .queryAnswerError fields | .queryAnswerPartError fields => fields.requestID
  | .queryAnswerErrorEx fields => fields.requestID

/-- The counts that an answer carries, itself or in its final information. -/
def carriedTokens : AnswerPacket → Option TokensUsed
  | .queryAnswer fields | .queryAnswerPart fields => some fields.requestTokensUsed
  | .queryAnswerEx fields | .queryAnswerPartEx fields => fields.finalInfo.map (·.tokensUsed)
  | .queryAnswerError _ | .queryAnswerPartError _ | .queryAnswerErrorEx _ => none

def IsShort : AnswerPacket → Prop
  | .queryAnswer _ | .queryAnswerPart _ => True
  | _ => False

end Packet

/-- The payload of the `http.response` that an answer starts with, and the answer if there is
none. -/
def visibleAnswer (answer : List Byte) : List Byte :=
  match CocoonSchema.httpResponse.parse answer with
  | some (response, _) => response.payload
  | none => answer

/-- What a chunk has to say of its packet. -/
def Shows (chunk : Chunk) : AnswerPacket → Prop
  | .queryAnswer fields | .queryAnswerPart fields =>
      chunk.bytes = fields.answer ∧ chunk.isFinal = fields.isCompleted ∧ chunk.err = none
  | .queryAnswerEx fields =>
      chunk.bytes = visibleAnswer fields.answer ∧ chunk.isFinal = fields.finalInfo.isSome ∧
        chunk.err = none
  | .queryAnswerPartEx fields =>
      chunk.bytes = fields.answer ∧ chunk.isFinal = fields.finalInfo.isSome ∧ chunk.err = none
  | .queryAnswerError fields | .queryAnswerPartError fields =>
      chunk.isFinal = true ∧ chunk.err = some (.proxy fields.errorCode fields.error "query")
  | .queryAnswerErrorEx fields =>
      chunk.isFinal = true ∧ chunk.err = some (.proxy fields.errorCode fields.error "query")

/-! ## Reading the fields -/

section Fields

theorem reads_tokens (tokens : TokensUsed) :
    Reads decodeTokensUsed (tokensUsed.serialize tokens) tokens := by
  unfold decodeTokensUsed
  apply (reads_int64 tokens.promptTokens).bind
  apply (reads_int64 tokens.cachedTokens).bind
  apply (reads_int64 tokens.completionTokens).bind
  apply (reads_int64 tokens.reasoningTokens).bind
  exact (reads_int64 tokens.totalTokens).map _

theorem reads_debug_strings {present : Bool} {first second : Option GoString}
    (firstFits : (gated present string).Fits first)
    (secondFits : (gated present string).Fits second) :
    Reads (readIf present () skipDebugStrings)
      ((gated present string).serialize first ++ (gated present string).serialize second) () := by
  apply reads_if
  · intro set
    obtain ⟨worker, rfl, workerFits⟩ := gated_present firstFits set
    obtain ⟨proxy, rfl, proxyFits⟩ := gated_present secondFits set
    apply (reads_string workerFits).bind
    exact (reads_string proxyFits).map fun _ => ()
  · intro clear
    rw [gated_absent firstFits clear, gated_absent secondFits clear]
    exact ⟨rfl, rfl⟩

theorem reads_timings {present : Bool} {first second third fourth : Option UInt64}
    (firstFits : (gated present double).Fits first)
    (secondFits : (gated present double).Fits second)
    (thirdFits : (gated present double).Fits third)
    (fourthFits : (gated present double).Fits fourth) :
    Reads (readIf present () skipTimings)
      ((gated present double).serialize first ++ ((gated present double).serialize second ++
        ((gated present double).serialize third ++ (gated present double).serialize fourth)))
      () := by
  apply reads_if
  · intro set
    obtain ⟨proxyStart, rfl, -⟩ := gated_present firstFits set
    obtain ⟨proxyEnd, rfl, -⟩ := gated_present secondFits set
    obtain ⟨workerStart, rfl, -⟩ := gated_present thirdFits set
    obtain ⟨workerEnd, rfl, -⟩ := gated_present fourthFits set
    apply (reads_uint64 proxyStart).bind
    apply (reads_uint64 proxyEnd).bind
    apply (reads_uint64 workerStart).bind
    exact (reads_uint64 workerEnd).map fun _ => ()
  · intro clear
    rw [gated_absent firstFits clear, gated_absent secondFits clear, gated_absent thirdFits clear,
      gated_absent fourthFits clear]
    exact ⟨rfl, rfl⟩

theorem reads_final_info (info : QueryFinalInfo) (fits : queryFinalInfo.Fits info) :
    Reads skipClientQueryFinalInfo (queryFinalInfo.serialize info) () := by
  obtain ⟨-, -, workerFits, proxyFits, proxyStart, proxyEnd, workerStart, workerEnd⟩ := fits
  have debugFlag : hasFlag info.flags 0x1 = CocoonSchema.bit info.flags 0 :=
    CocoonSchema.has_flag_bit info.flags 0 (by decide)
  have timeFlag : hasFlag info.flags 0x2 = CocoonSchema.bit info.flags 1 :=
    CocoonSchema.has_flag_bit info.flags 1 (by decide)
  have debug := reads_debug_strings workerFits proxyFits
  have times := reads_timings proxyStart proxyEnd workerStart workerEnd
  unfold skipClientQueryFinalInfo
  apply (reads_uint32 info.flags).bind
  apply (reads_tokens info.tokensUsed).bind
  rw [debugFlag, timeFlag]
  have whole : Reads (do
      readIf (CocoonSchema.bit info.flags 0) () skipDebugStrings
      readIf (CocoonSchema.bit info.flags 1) () skipTimings) _ () := debug.bind times
  rw [List.append_assoc] at whole
  exact whole

/-- The final information is there exactly if bit 0 of the flags is set, and is skipped. -/
theorem reads_gated_info {flags : UInt32} {info : Option QueryFinalInfo}
    (fits : (gated (CocoonSchema.bit flags 0) queryFinalInfo).Fits info) :
    Reads (readIf (hasFlag flags 0x1) (.ok ()) (attempt skipClientQueryFinalInfo))
      ((gated (CocoonSchema.bit flags 0) queryFinalInfo).serialize info) (.ok ()) := by
  have flag : hasFlag flags 0x1 = CocoonSchema.bit flags 0 :=
    CocoonSchema.has_flag_bit flags 0 (by decide)
  rw [flag]
  apply reads_if
  · intro set
    obtain ⟨found, rfl, foundFits⟩ := gated_present fits set
    exact (reads_final_info found foundFits).attempt
  · intro clear
    rw [gated_absent fits clear]
    exact ⟨rfl, rfl⟩

theorem final_iff_info {flags : UInt32} {info : Option QueryFinalInfo}
    (fits : (gated (CocoonSchema.bit flags 0) queryFinalInfo).Fits info) :
    hasFlag flags 0x1 = info.isSome := by
  have flag : hasFlag flags 0x1 = CocoonSchema.bit flags 0 :=
    CocoonSchema.has_flag_bit flags 0 (by decide)
  rw [flag]
  cases set : CocoonSchema.bit flags 0 with
  | true =>
      obtain ⟨found, rfl, -⟩ := gated_present fits set
      rfl
  | false =>
      rw [gated_absent fits set]
      rfl

theorem reads_unwrapped (whole : Bool) (answer : List Byte) :
    Reads (unwrapAnswer whole answer) [] (if whole then visibleAnswer answer else answer) := by
  cases whole with
  | false => exact reads_pure answer
  | true =>
      have payload : (((CocoonSchema.httpResponse.parse answer).map
          fun found => found.1.payload).getD answer) = visibleAnswer answer := by
        unfold visibleAnswer
        cases CocoonSchema.httpResponse.parse answer <;> rfl
      intro front suffix
      rw [unwrapAnswer, if_pos rfl, if_pos rfl, WireReaders.response_payload_eq,
        exec_bind_ok (exec_lift _ _), payload]
      rfl

end Fields

/-! ## Reading the packets -/

section Packets

theorem reads_answer (fields : QueryAnswer) (fits : answerFields.Fits fields) :
    Reads readAnswer (answerFields.serialize fields)
      { bytes := fields.answer, isFinal := fields.isCompleted, requestID := fields.requestID
        tokensUsed := fields.requestTokensUsed } := by
  unfold readAnswer
  apply (reads_string fits.1).bind
  apply (reads_schema_bool fields.isCompleted).bind
  apply (reads_int256 fields.requestID).bind
  exact (reads_tokens fields.requestTokensUsed).map _

theorem reads_answer_ex (whole : Bool) (fields : QueryAnswerEx) (fits : exFields.Fits fields) :
    Reads (readAnswerEx whole) (exFields.serialize fields)
      { bytes := if whole then visibleAnswer fields.answer else fields.answer
        isFinal := fields.finalInfo.isSome, requestID := fields.requestID } := by
  obtain ⟨-, answerFits, -, infoFits⟩ := fits
  have final := final_iff_info infoFits
  unfold readAnswerEx
  apply (reads_int256 fields.requestID).bind
  apply (reads_string answerFits).bind
  apply (reads_uint32 fields.flags).bind
  rw [← List.append_nil ((gated _ queryFinalInfo).serialize _)]
  apply (reads_gated_info infoFits).bind
  have shown := (reads_unwrapped whole fields.answer).map fun bytes =>
    ({ bytes, isFinal := fields.finalInfo.isSome, requestID := fields.requestID } : Chunk)
  rw [← final] at shown ⊢
  exact shown

theorem reads_answer_error (fields : QueryAnswerError) (fits : errorFields.Fits fields) :
    Reads readAnswerError (errorFields.serialize fields)
      (errorChunk fields.requestID fields.errorCode fields.error) := by
  unfold readAnswerError
  apply (reads_int32 fields.errorCode).bind
  apply (reads_string fits.2.1).bind
  apply (reads_int256 fields.requestID).bind
  exact (reads_tokens fields.requestTokensUsed).attempt.map _

theorem reads_answer_error_ex (fields : QueryAnswerErrorEx) (fits : errorExFields.Fits fields) :
    Reads readAnswerErrorEx (errorExFields.serialize fields)
      (errorChunk fields.requestID fields.errorCode fields.error) := by
  obtain ⟨-, -, errorFits, -, infoFits⟩ := fits
  unfold readAnswerErrorEx
  apply (reads_int256 fields.requestID).bind
  apply (reads_int32 fields.errorCode).bind
  apply (reads_string errorFits).bind
  apply (reads_uint32 fields.flags).bind
  exact (reads_gated_info infoFits).map _

def decodedChunk : AnswerPacket → Chunk
  | .queryAnswer fields | .queryAnswerPart fields =>
      { bytes := fields.answer, isFinal := fields.isCompleted, requestID := fields.requestID
        tokensUsed := fields.requestTokensUsed }
  | .queryAnswerEx fields =>
      { bytes := visibleAnswer fields.answer, isFinal := fields.finalInfo.isSome
        requestID := fields.requestID }
  | .queryAnswerPartEx fields =>
      { bytes := fields.answer, isFinal := fields.finalInfo.isSome
        requestID := fields.requestID }
  | .queryAnswerError fields | .queryAnswerPartError fields =>
      errorChunk fields.requestID fields.errorCode fields.error
  | .queryAnswerErrorEx fields => errorChunk fields.requestID fields.errorCode fields.error

theorem reads_packet (packet : AnswerPacket) (fits : Packet.Fits packet) :
    Reads readQueryPart (Packet.serialize packet) (decodedChunk packet) := by
  obtain ⟨answer, part, error, partError, ex, errorEx, partEx⟩ := answer_numbers
  unfold readQueryPart
  cases packet with
  | queryAnswer fields =>
      apply (reads_uint32 numberQueryAnswer).bind
      rw [answer, if_pos (by decide)]
      exact reads_answer fields fits
  | queryAnswerPart fields =>
      apply (reads_uint32 numberQueryAnswerPart).bind
      rw [part, if_pos (by decide)]
      exact reads_answer fields fits
  | queryAnswerEx fields =>
      apply (reads_uint32 numberQueryAnswerEx).bind
      rw [ex, if_neg (by decide), if_pos (by decide)]
      exact reads_answer_ex true fields fits
  | queryAnswerPartEx fields =>
      apply (reads_uint32 numberQueryAnswerPartEx).bind
      rw [partEx, if_neg (by decide), if_pos (by decide)]
      exact reads_answer_ex false fields fits
  | queryAnswerError fields =>
      apply (reads_uint32 numberQueryAnswerError).bind
      rw [error, if_neg (by decide), if_neg (by decide), if_pos (by decide)]
      exact reads_answer_error fields fits
  | queryAnswerPartError fields =>
      apply (reads_uint32 numberQueryAnswerPartError).bind
      rw [partError, if_neg (by decide), if_neg (by decide), if_pos (by decide)]
      exact reads_answer_error fields fits
  | queryAnswerErrorEx fields =>
      apply (reads_uint32 numberQueryAnswerErrorEx).bind
      rw [errorEx, if_neg (by decide), if_neg (by decide), if_neg (by decide), if_pos (by decide)]
      exact reads_answer_error_ex fields fits

theorem packet_decoded (packet : AnswerPacket) (fits : Packet.Fits packet) :
    tryDecodeQueryPart (Packet.serialize packet) =
      .ok (some (decodedChunk packet, Packet.requestID packet)) := by
  have whole := reads_packet packet fits [] []
  have same : (decodedChunk packet).requestID = Packet.requestID packet := by
    cases packet <;> rfl
  simp only [List.nil_append, List.append_nil, List.length_nil, Nat.zero_add] at whole
  rw [tryDecodeQueryPart, newReader, whole]
  dsimp only
  rw [same]

end Packets

/-- Every answer constructor is decoded, for the request that it names. -/
theorem streaming_answers_decoded (packet : AnswerPacket) (fits : Packet.Fits packet) :
    ∃ chunk, tryDecodeQueryPart (Packet.serialize packet) =
        .ok (some (chunk, Packet.requestID packet)) ∧
      chunk.requestID = Packet.requestID packet ∧ Shows chunk packet := by
  refine ⟨decodedChunk packet, packet_decoded packet fits, ?_, ?_⟩
  · cases packet <;> rfl
  · cases packet with
    | queryAnswer fields => exact ⟨rfl, rfl, rfl⟩
    | queryAnswerPart fields => exact ⟨rfl, rfl, rfl⟩
    | queryAnswerEx fields => exact ⟨rfl, rfl, rfl⟩
    | queryAnswerPartEx fields => exact ⟨rfl, rfl, rfl⟩
    | queryAnswerError fields => exact ⟨rfl, rfl⟩
    | queryAnswerPartError fields => exact ⟨rfl, rfl⟩
    | queryAnswerErrorEx fields => exact ⟨rfl, rfl⟩

def sampleTokens : TokensUsed := ⟨5, 0, 7, 0, 12⟩

def sampleInfo : QueryFinalInfo :=
  ⟨0x80000001, sampleTokens, some [1], some [], none, none, none, none⟩

def sampleResponse : CocoonSchema.HttpResponse := ⟨[], 200, [], [⟨[1], [2]⟩], [3, 4]⟩

def sampleEx (answer : List Byte) : AnswerPacket :=
  .queryAnswerEx ⟨copyInto 32 [9], answer, 1, some sampleInfo⟩

theorem short_fits {data : List Byte} (small : data.length ≤ 99) : string.Fits data := by
  change data.length < 2 ^ 24
  omega

theorem sample_fits {answer : List Byte} (small : answer.length ≤ 99) :
    Packet.Fits (sampleEx answer) := by
  have debug : CocoonSchema.bit 0x80000001 0 = true := by decide
  have times : CocoonSchema.bit 0x80000001 1 = false := by decide
  have info : queryFinalInfo.Fits sampleInfo :=
    ⟨trivial, ⟨trivial, trivial, trivial, trivial, trivial⟩, ⟨debug, short_fits (by decide)⟩,
      ⟨debug, short_fits (by decide)⟩, times, times, times, times⟩
  have flag : CocoonSchema.bit 1 0 = true := by decide
  exact ⟨trivial, short_fits small, trivial, flag, info⟩

theorem sample_response_fits : CocoonSchema.httpResponse.Fits sampleResponse := by
  refine ⟨short_fits (by decide), trivial, short_fits (by decide), ⟨by decide, ?_⟩,
    short_fits (by decide)⟩
  intro header member
  obtain rfl := List.mem_singleton.mp member
  exact ⟨short_fits (by decide), short_fits (by decide)⟩

theorem sample_response_unwrapped :
    ∃ chunk, tryDecodeQueryPart (Packet.serialize
        (sampleEx (CocoonSchema.httpResponse.serialize sampleResponse))) =
          .ok (some (chunk, copyInto 32 [9])) ∧
      chunk.requestID = copyInto 32 [9] ∧ chunk.bytes = [3, 4] ∧ chunk.isFinal = true := by
  have fits : Packet.Fits (sampleEx (CocoonSchema.httpResponse.serialize sampleResponse)) :=
    sample_fits (by decide)
  obtain ⟨chunk, decoded, routed, shown⟩ := streaming_answers_decoded _ fits
  have payload : visibleAnswer (CocoonSchema.httpResponse.serialize sampleResponse) = [3, 4] := by
    rw [visibleAnswer, parse_whole _ _ sample_response_fits]
    rfl
  exact ⟨chunk, decoded, routed, shown.1.trans payload, shown.2.1⟩

def trailedResponse : List Byte :=
  CocoonSchema.httpResponse.serialize sampleResponse ++ [1, 2, 3]

/-- An answer that goes on behind an `http.response` is none, and is cut to the payload all the
same. -/
theorem trailed_response_unwrapped :
    Packet.Fits (sampleEx trailedResponse) ∧
      (∀ response, CocoonSchema.httpResponse.Fits response →
        CocoonSchema.httpResponse.serialize response ≠ trailedResponse) ∧
      ∃ chunk, tryDecodeQueryPart (Packet.serialize (sampleEx trailedResponse)) =
          .ok (some (chunk, copyInto 32 [9])) ∧
        chunk.bytes = [3, 4] ∧ chunk.bytes ≠ trailedResponse := by
  have fits : Packet.Fits (sampleEx trailedResponse) := sample_fits (by decide)
  have parsed : CocoonSchema.httpResponse.parse trailedResponse =
      some (sampleResponse, [1, 2, 3]) :=
    CocoonSchema.httpResponse.parse_serialize _ _ sample_response_fits
  have shown : ∀ answer, (decodedChunk (sampleEx answer)).bytes = visibleAnswer answer :=
    fun _ => rfl
  have payload : (decodedChunk (sampleEx trailedResponse)).bytes = [3, 4] := by
    rw [shown, visibleAnswer, parsed]
    rfl
  refine ⟨fits, ?_, _, packet_decoded _ fits, payload, ?_⟩
  · intro response responseFits same
    have whole := parse_whole _ response responseFits
    rw [same, parsed] at whole
    cases whole
  · intro same
    have last := congrArg List.getLast? (payload.symm.trans same)
    simp [trailedResponse] at last

/-- Counts survive exactly in the short forms; from an extended form only zeros seem to. -/
theorem token_counts_kept_iff (packet : AnswerPacket) (fits : Packet.Fits packet)
    (tokens : TokensUsed) (carried : Packet.carriedTokens packet = some tokens) :
    ∃ chunk, tryDecodeQueryPart (Packet.serialize packet) =
        .ok (some (chunk, Packet.requestID packet)) ∧
      (chunk.tokensUsed = tokens ↔ Packet.IsShort packet ∨ tokens = .zero) := by
  refine ⟨decodedChunk packet, packet_decoded packet fits, ?_⟩
  cases packet with
  | queryAnswer fields | queryAnswerPart fields =>
      cases carried
      exact ⟨fun _ => .inl trivial, fun _ => rfl⟩
  | queryAnswerEx fields | queryAnswerPartEx fields =>
      constructor
      · intro same
        exact .inr same.symm
      · rintro (short | rfl)
        · cases short
        · rfl
  | queryAnswerError fields | queryAnswerPartError fields => cases carried
  | queryAnswerErrorEx fields => cases carried

def sampleAnswer : AnswerPacket := .queryAnswer ⟨[1, 2], true, copyInto 32 [9], sampleTokens⟩

theorem short_answer_keeps_counts :
    ∃ chunk, tryDecodeQueryPart (Packet.serialize sampleAnswer) =
        .ok (some (chunk, copyInto 32 [9])) ∧
      (chunk.tokensUsed = sampleTokens ↔ Packet.IsShort sampleAnswer ∨ sampleTokens = .zero) :=
  token_counts_kept_iff sampleAnswer
    ⟨short_fits (by decide), (by trivial : CocoonSchema.bool.Fits true), trivial, trivial,
      trivial, trivial, trivial, trivial⟩ sampleTokens rfl

/-- A complete answer in its extended form comes out with no tokens used. -/
theorem extended_answer_loses_counts :
    Packet.Fits (sampleEx [1, 2]) ∧ Packet.carriedTokens (sampleEx [1, 2]) = some sampleTokens ∧
      ∃ chunk, tryDecodeQueryPart (Packet.serialize (sampleEx [1, 2])) =
          .ok (some (chunk, copyInto 32 [9])) ∧
        chunk.tokensUsed = .zero ∧ chunk.tokensUsed ≠ sampleTokens := by
  have fits : Packet.Fits (sampleEx [1, 2]) := sample_fits (by decide)
  exact ⟨fits, rfl, decodedChunk (sampleEx [1, 2]), packet_decoded _ fits, rfl, by decide⟩

end Gocoon.AnswerDecoding
