import Gocoon.InferenceRequest
import Gocoon.ProxyAnswers
import Gocoon.ToolTranslation

/-!
# The chat handler up to `RunQuery`

`handleChatCompletions` of the runner. The model is read through a struct, whose field takes
every spelling of its name, and everything after that is done on maps, whose keys are exact.
The handler ends with a reply, with a panic, or with the query that it passes to `RunQuery`.
-/

namespace Gocoon.ChatPassthrough

open Gocoon.GoProgram
open Gocoon.GoMaps
open Gocoon.TlPrimitives (GoString ascii)
open Gocoon.JsonText
open Gocoon.JsonValues
open Gocoon.ToolTranslation
open Gocoon.InferenceRequest (Query)
open Gocoon.ProxyAnswers (WorkerType)

set_option autoImplicit false

inductive ResolveError where
  | models (cause : GoString)
  | noWorkers
  | unknownModel (requested fallback : GoString)
  deriving DecidableEq

/-- The errors that the handler writes as JSON. -/
inductive ChatError where
  | notInitialized
  | noReadySession
  | bodyRead (cause : GoString)
  | resolve (cause : ResolveError)
  | modelRewrite (cause : DecodeError)
  | toolsTranslate (cause : TranslateError)
  | forceNonStream (cause : DecodeError)
  deriving DecidableEq

def ChatError.status : ChatError → Nat
  | .notInitialized | .noReadySession => 503
  | .resolve _ => 502
  | .bodyRead _ | .modelRewrite _ | .toolsTranslate _ | .forceNonStream _ => 400

def ChatError.context : ChatError → GoString
  | .notInitialized => ascii "client not initialized"
  | .noReadySession => ascii "no ready proxy session yet"
  | .bodyRead _ => ascii "body read: "
  | .resolve (.models _) => ascii "models: "
  | .resolve .noWorkers => ascii "no ready model workers " ++ ascii "advertised by proxy"
  | .resolve (.unknownModel _ _) => ascii "unknown model "
  | .modelRewrite _ => ascii "model rewrite: "
  | .toolsTranslate (.decodeBody _) => ascii "tools translate: decode body: "
  | .forceNonStream _ => ascii "force non-stream: decode body: "

/-- The probe's error is dropped: what was stored before it counts. -/
def probeModel (body : GoString) : GoString :=
  match structMembers body with
  | .error _ => []
  | .ok members => (decodeField (ascii "model") storeString [] members).1

/-- The loop of `resolveModel` over the advertised models, with the fallback so far. -/
def resolveFrom (requested fallback : GoString) : List WorkerType → Except ResolveError GoString
  | [] =>
      if fallback = [] then .error .noWorkers
      else if requested = [] ∨ requested = ascii "default" then .ok fallback
      else .error (.unknownModel requested fallback)
  | model :: rest =>
      if model.workers.length = 0 then resolveFrom requested fallback rest
      else
        let fallback := if fallback = [] then model.name else fallback
        if requested ≠ [] ∧ requested ≠ ascii "default" ∧ requested = model.name then
          .ok requested
        else resolveFrom requested fallback rest

def resolveModel (models : Except GoString (List WorkerType)) (requested : GoString) :
    Except ResolveError GoString :=
  match models with
  | .error cause => .error (.models cause)
  | .ok models => resolveFrom requested [] models

section Bodies

variable (floats : Floats)

/-- Sets one key of a body. Writing to the nil map that `null` decodes to panics. -/
def setBodyKey (key : GoString) (value : Any floats) (body : GoString) :
    Except (Fault DecodeError) GoString :=
  match unmarshalMap floats body with
  | .error cause => .error (.returned cause)
  | .ok none => .error .panicked
  | .ok (some object) => .ok (marshal floats (.obj (insertKey key value object)))

def rewriteJSONModel (body model : GoString) : Except (Fault DecodeError) GoString :=
  setBodyKey floats (ascii "model") (.str model) body

def forceNonStream (body : GoString) : Except (Fault DecodeError) GoString :=
  setBodyKey floats (ascii "stream") (.bool false) body

end Bodies

def raise {Err Value : Type} (wrap : Err → ChatError) :
    Except (Fault Err) Value → Except (Fault ChatError) Value
  | .ok value => .ok value
  | .error (.returned cause) => .error (.returned (wrap cause))
  | .error .panicked => .error .panicked

section Handler

variable (floats : RunnerFloats)

def routeBody (body model : GoString) : Except (Fault ChatError) GoString :=
  if model ≠ probeModel body then
    raise .modelRewrite (rewriteJSONModel floats.toFloats body model)
  else .ok body

def finishBody (body : GoString) : Except (Fault ChatError) GoString :=
  if requestHasTools body then
    match translateRequestBody floats body with
    | .ok translated => .ok translated
    | .error cause => .error (.returned (.toolsTranslate cause))
  else raise .forceNonStream (forceNonStream floats.toFloats body)

structure Forwarded where
  model : GoString
  body : GoString
  hadTools : Bool
  deriving DecidableEq

def prepareBody (models : Except GoString (List WorkerType)) (body : GoString) :
    Except (Fault ChatError) Forwarded :=
  match resolveModel models (probeModel body) with
  | .error cause => .error (.returned (.resolve cause))
  | .ok model =>
      match routeBody floats body model with
      | .error fault => .error fault
      | .ok routed =>
          match finishBody floats routed with
          | .error fault => .error fault
          | .ok final => .ok ⟨model, final, requestHasTools routed⟩

structure ChatRequest where
  method : GoString
  requestURI : GoString
  contentType : GoString
  body : Except GoString GoString

/-- What the handler finds: the client, a ready session, and the answer of `WorkerTypes`. -/
structure Upstream where
  initialized : Bool
  ready : Bool
  models : Except GoString (List WorkerType)

inductive ChatOutcome where
  | preflight
  | methodNotAllowed
  | refused (error : ChatError)
  | panicked
  | runs (query : Query) (hadTools : Bool)

def maxBodyBytes : Nat := 8 * 1024 * 1024

/-- `io.ReadAll(http.MaxBytesReader(w, r.Body, maxBodyBytes))`. -/
def readBody (body : Except GoString GoString) : Except GoString GoString :=
  match body with
  | .error cause => .error cause
  | .ok bytes =>
      if maxBodyBytes < bytes.length then .error (ascii "http: request body too large")
      else .ok bytes

def chatQuery (request : ChatRequest) (forwarded : Forwarded) : Query where
  model := forwarded.model
  body := forwarded.body
  path := request.requestURI
  headers := (∅ : GoMap GoString GoString).insert (ascii "Content-Type") request.contentType
  maxCoefficient := 0
  maxTokens := 0
  timeout := 300000000000
  enableDebug := false

def handleChatCompletions (upstream : Upstream) (request : ChatRequest) : ChatOutcome :=
  if request.method = ascii "OPTIONS" then .preflight
  else if request.method ≠ ascii "POST" then .methodNotAllowed
  else if upstream.initialized = false then .refused .notInitialized
  else if upstream.ready = false then .refused .noReadySession
  else match readBody request.body with
    | .error cause => .refused (.bodyRead cause)
    | .ok body =>
        match prepareBody floats upstream.models body with
        | .error (.returned error) => .refused error
        | .error .panicked => .panicked
        | .ok forwarded => .runs (chatQuery request forwarded) forwarded.hadTools

end Handler

end Gocoon.ChatPassthrough
