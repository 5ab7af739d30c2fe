import Gocoon.CocoonSchema

/-!
# The streaming answers of cocoon_api.tl

The seven constructors in which a proxy answers a query, with the fields of their
declarations in their order. The short forms carry the token counts themselves; the extended
forms carry them in the final information, which is there when bit 0 of the flags is set.
-/

namespace Gocoon.AnswerSchema

open Gocoon.LittleEndianBytes
open Gocoon.TlPrimitives
open Gocoon.TlTypes
open Gocoon.TypeLanguage
open Gocoon.TypeLanguage.WireType
open Gocoon.CocoonSchema

set_option autoImplicit false

/-- `tokensUsed prompt_tokens_used:long cached_tokens_used:long completion_tokens_used:long
reasoning_tokens_used:long total_tokens_used:long = TokensUsed`, bare -/
def tokensUsed : WireType TokensUsed :=
  (long.pair <| long.pair <| long.pair <| long.pair long).view
    (fun (prompt, cached, completion, reasoning, total) =>
      ⟨prompt, cached, completion, reasoning, total⟩)
    (fun tokens => (tokens.promptTokens, tokens.cachedTokens, tokens.completionTokens,
      tokens.reasoningTokens, tokens.totalTokens)) (fun _ => rfl)

structure QueryFinalInfo where
  flags : UInt32
  tokensUsed : TokensUsed
  workerDebug : Option GoString
  proxyDebug : Option GoString
  proxyStartTime : Option UInt64
  proxyEndTime : Option UInt64
  workerStartTime : Option UInt64
  workerEndTime : Option UInt64
  deriving DecidableEq

/-- `client.queryFinalInfo flags:# tokens_used:tokensUsed worker_debug:flags.0?string
proxy_debug:flags.0?string proxy_start_time:flags.1?double proxy_end_time:flags.1?double
worker_start_time:flags.1?double worker_end_time:flags.1?double = client.QueryFinalInfo`, bare -/
def queryFinalInfo : WireType QueryFinalInfo :=
  (nat.next fun flags => tokensUsed.pair <| (gated (bit flags 0) string).pair <|
    (gated (bit flags 0) string).pair <| (gated (bit flags 1) double).pair <|
    (gated (bit flags 1) double).pair <| (gated (bit flags 1) double).pair <|
    gated (bit flags 1) double).view
    (fun (flags, tokensUsed, workerDebug, proxyDebug, proxyStartTime, proxyEndTime,
        workerStartTime, workerEndTime) =>
      ⟨flags, tokensUsed, workerDebug, proxyDebug, proxyStartTime, proxyEndTime, workerStartTime,
        workerEndTime⟩)
    (fun info => (info.flags, info.tokensUsed, info.workerDebug, info.proxyDebug,
      info.proxyStartTime, info.proxyEndTime, info.workerStartTime, info.workerEndTime))
    (fun _ => rfl)

structure QueryAnswer where
  answer : List Byte
  isCompleted : Bool
  requestID : FixedBytes 32
  requestTokensUsed : TokensUsed
  deriving DecidableEq

/-- The fields of `client.queryAnswer` and of `client.queryAnswerPart`. -/
def answerFields : WireType QueryAnswer :=
  (string.pair <| bool.pair <| int256.pair tokensUsed).view
    (fun (answer, isCompleted, requestID, requestTokensUsed) =>
      ⟨answer, isCompleted, requestID, requestTokensUsed⟩)
    (fun answer => (answer.answer, answer.isCompleted, answer.requestID,
      answer.requestTokensUsed)) (fun _ => rfl)

structure QueryAnswerError where
  errorCode : Int32
  error : GoString
  requestID : FixedBytes 32
  requestTokensUsed : TokensUsed
  deriving DecidableEq

/-- The fields of `client.queryAnswerError` and of `client.queryAnswerPartError`. -/
def errorFields : WireType QueryAnswerError :=
  (int.pair <| string.pair <| int256.pair tokensUsed).view
    (fun (errorCode, error, requestID, requestTokensUsed) =>
      ⟨errorCode, error, requestID, requestTokensUsed⟩)
    (fun answer => (answer.errorCode, answer.error, answer.requestID, answer.requestTokensUsed))
    (fun _ => rfl)

structure QueryAnswerEx where
  requestID : FixedBytes 32
  answer : List Byte
  flags : UInt32
  finalInfo : Option QueryFinalInfo
  deriving DecidableEq

/-- The fields of `client.queryAnswerEx` and of `client.queryAnswerPartEx`. -/
def exFields : WireType QueryAnswerEx :=
  (int256.pair <| string.pair <| nat.next fun flags => gated (bit flags 0) queryFinalInfo).view
    (fun (requestID, answer, flags, finalInfo) => ⟨requestID, answer, flags, finalInfo⟩)
    (fun answer => (answer.requestID, answer.answer, answer.flags, answer.finalInfo))
    (fun _ => rfl)

structure QueryAnswerErrorEx where
  requestID : FixedBytes 32
  errorCode : Int32
  error : GoString
  flags : UInt32
  finalInfo : Option QueryFinalInfo
  deriving DecidableEq

/-- The fields of `client.queryAnswerErrorEx`. -/
def errorExFields : WireType QueryAnswerErrorEx :=
  (int256.pair <| int.pair <| string.pair <|
    nat.next fun flags => gated (bit flags 0) queryFinalInfo).view
    (fun (requestID, errorCode, error, flags, finalInfo) =>
      ⟨requestID, errorCode, error, flags, finalInfo⟩)
    (fun answer => (answer.requestID, answer.errorCode, answer.error, answer.flags,
      answer.finalInfo)) (fun _ => rfl)

inductive AnswerPacket where
  | queryAnswer (fields : QueryAnswer)
  | queryAnswerPart (fields : QueryAnswer)
  | queryAnswerEx (fields : QueryAnswerEx)
  | queryAnswerPartEx (fields : QueryAnswerEx)
  | queryAnswerError (fields : QueryAnswerError)
  | queryAnswerPartError (fields : QueryAnswerError)
  | queryAnswerErrorEx (fields : QueryAnswerErrorEx)
  deriving DecidableEq

def numberQueryAnswer : UInt32 :=
  declared ["client.queryAnswer", "answer:bytes", "is_completed:Bool", "request_id:int256",
    "request_tokens_used:tokensUsed", "= client.QueryAnswer"]

def numberQueryAnswerPart : UInt32 :=
  declared ["client.queryAnswerPart", "answer:bytes", "is_completed:Bool", "request_id:int256",
    "request_tokens_used:tokensUsed", "= client.QueryAnswerPart"]

def numberQueryAnswerError : UInt32 :=
  declared ["client.queryAnswerError", "error_code:int", "error:string", "request_id:int256",
    "request_tokens_used:tokensUsed", "= client.QueryAnswer"]

def numberQueryAnswerPartError : UInt32 :=
  declared ["client.queryAnswerPartError", "error_code:int", "error:string", "request_id:int256",
    "request_tokens_used:tokensUsed", "= client.QueryAnswerPart"]

def numberQueryAnswerEx : UInt32 :=
  declared ["client.queryAnswerEx", "request_id:int256", "answer:bytes", "flags:#",
    "final_info:flags.0?client.queryFinalInfo", "= client.QueryAnswerEx"]

def numberQueryAnswerErrorEx : UInt32 :=
  declared ["client.queryAnswerErrorEx", "request_id:int256", "error_code:int", "error:string",
    "flags:#", "final_info:flags.0?client.queryFinalInfo", "= client.QueryAnswerEx"]

def numberQueryAnswerPartEx : UInt32 :=
  declared ["client.queryAnswerPartEx", "request_id:int256", "answer:bytes", "flags:#",
    "final_info:flags.0?client.queryFinalInfo", "= client.QueryAnswerEx"]

theorem answer_numbers :
    numberQueryAnswer = idClientQueryAnswer ∧
      numberQueryAnswerPart = idClientQueryAnswerPart ∧
      numberQueryAnswerError = idClientQueryAnswerError ∧
      numberQueryAnswerPartError = idClientQueryAnswerPartError ∧
      numberQueryAnswerEx = idClientQueryAnswerEx ∧
      numberQueryAnswerErrorEx = idClientQueryAnswerErrorEx ∧
      numberQueryAnswerPartEx = idClientQueryAnswerPartEx := by
  simp only [numberQueryAnswer, numberQueryAnswerPart, numberQueryAnswerError,
    numberQueryAnswerPartError, numberQueryAnswerEx, numberQueryAnswerErrorEx,
    numberQueryAnswerPartEx, declared_eagerly]
  decide +kernel

end Gocoon.AnswerSchema
