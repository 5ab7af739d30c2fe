import Gocoon.CocoonSchema
import Gocoon.InferencePackets
import Gocoon.ProxyHandshakeCodec
import Gocoon.TlVector

/-!
# Decoding the proxy's answers

The decoders of the payment status and of the advertised models, and the proof that every
answer decoder inverts the schema: on the serialisation of a value it returns the fields
that its result keeps. A decoder is followed along the fields of the declaration, each of
which moves the cursor exactly behind its own bytes.
-/

namespace Gocoon.ProxyAnswers

open Gocoon.LittleEndianBytes
open Gocoon.GoProgram
open Gocoon.TlPrimitives
open Gocoon.TlTypes
open Gocoon.TlVector
open Gocoon.CocoonErrors
open Gocoon.ProxyHandshakeCodec
open Gocoon.InferencePackets
open Gocoon.TypeLanguage
open Gocoon.TypeLanguage.WireType

set_option autoImplicit false

structure PaymentStatus where
  tokensCommittedToBlockchain : Int64
  tokensCommittedToDB : Int64
  tokensMax : Int64
  tokensCharged : Int64
  tokensPayed : Int64
  deriving DecidableEq

def readPaymentStatus : DecodeM PaymentStatus := do
  let id ← plain readUint32
  if id ≠ idClientPaymentStatus then
    fail (.formatted "expected client.paymentStatus (0xaa8a0ecc), got %#x" id)
  else do
    let _ ← decodeSignedPayment "paymentStatus: unknown SignedPayment %#x"
    let dbTokens ← plain readInt64
    let maxTokens ← plain readInt64
    pure {
      tokensCommittedToBlockchain := 0
      tokensCommittedToDB := dbTokens
      tokensMax := maxTokens
      tokensCharged := 0
      tokensPayed := 0 }

def decodePaymentStatus (answer : List Byte) : Except (Fault CocoonError) PaymentStatus :=
  (exec readPaymentStatus (newReader answer)).1

structure WorkerInstance where
  coefficient : Int32
  activeRequests : Int32
  maxActiveRequests : Int32
  deriving DecidableEq

structure WorkerType where
  name : GoString
  workers : List WorkerInstance
  deriving DecidableEq

def readWorkerInstance : DecodeM WorkerInstance := do
  let _ ← plain readFlags
  let coefficient ← plain readInt32
  let active ← plain readInt32
  let maxActive ← plain readInt32
  pure { coefficient, activeRequests := active, maxActiveRequests := maxActive }

def readWorkerType : DecodeM WorkerType := do
  let name ← plain readString
  let workerCount ← plain readVectorLen
  makeSlice 12 workerCount
  let workers ← readItems readWorkerInstance workerCount
  pure { name, workers }

def readWorkerTypesV2 : DecodeM (List WorkerType) := do
  let id ← plain readUint32
  if id ≠ idClientWorkerTypesV2 then
    fail (.formatted "cocoon: workerTypesV2: unexpected constructor %#x" id)
  else do
    let count ← plain readVectorLen
    makeSlice 40 count
    let out ← readItems readWorkerType count
    if out.length = 0 then fail (.text "cocoon: proxy has no advertised worker models")
    else pure out

def decodeWorkerTypesV2 (payload : List Byte) : Except (Fault CocoonError) (List WorkerType) :=
  (exec readWorkerTypesV2 (newReader payload)).1

section Fields

theorem reads_plain {Value : Type} {program : ReadM Value} {bytes : List Byte} {value : Value}
    (read : Reads program bytes value) : Reads (plain program) bytes value := read.mapError _

theorem reads_string {text : GoString} (fits : string.Fits text) :
    Reads readString (string.serialize text) text :=
  reads_bytes text fits

theorem reads_schema_bool (value : Bool) :
    Reads readBool (CocoonSchema.bool.serialize value) value := by
  rw [CocoonSchema.bool_serialize]
  exact reads_bool value

theorem reads_count {Item : Type} (items : List Item) (counted : items.length < 2 ^ 32) :
    Reads readVectorLen (nat.serialize (UInt32.ofNat items.length)) items.length :=
  reads_vector_len counted

/-- A gated field that is absent keeps the zero value. -/
theorem reads_gated {Value : Type} {present : Bool} {field : WireType Value} {value : Option Value}
    {program : ReadM Value} (zero : Value) (fits : (gated present field).Fits value)
    (read : ∀ found, field.Fits found → Reads program (field.serialize found) found) :
    Reads (readIf present zero program) ((gated present field).serialize value)
      (value.getD zero) := by
  apply reads_if
  · intro set
    obtain ⟨found, rfl, foundFits⟩ := gated_present fits set
    exact read found foundFits
  · intro clear
    rw [gated_absent fits clear]
    exact ⟨rfl, rfl⟩

def keptPayment : CocoonSchema.SignedPayment → List Byte
  | .signed data => data
  | .empty => []

theorem reads_signed_payment (unknown : String) (payment : CocoonSchema.SignedPayment)
    (fits : CocoonSchema.signedPayment.Fits payment) :
    Reads (decodeSignedPayment unknown) (CocoonSchema.signedPayment.serialize payment)
      (keptPayment payment) := by
  have distinct : idProxySignedPaymentEmpty ≠ idProxySignedPayment := by decide
  unfold decodeSignedPayment
  cases payment with
  | signed data =>
      apply (reads_plain (reads_uint32 CocoonSchema.numberSignedPayment)).bind
      rw [CocoonSchema.number_signed_payment, if_pos rfl]
      exact reads_plain (reads_string fits)
  | empty =>
      apply (reads_plain (reads_uint32 CocoonSchema.numberSignedPaymentEmpty)).bind
      rw [CocoonSchema.number_signed_payment_empty, if_neg distinct, if_pos rfl]
      exact reads_pure []

end Fields

section Handshake

def keptParams (params : CocoonSchema.ProxyParams) : ProxyParams where
  flags := params.flags
  publicKey := params.proxyPublicKey
  ownerAddress := params.proxyOwnerAddress
  scAddress := params.proxyScAddress
  isTest := params.isTest.getD false
  protoVersion := params.protoVersion.getD 0

theorem reads_proxy_params (params : CocoonSchema.ProxyParams)
    (fits : CocoonSchema.proxyParams.Fits params) :
    Reads decodeProxyParamsBody (CocoonSchema.proxyParams.serialize params)
      (keptParams params) := by
  obtain ⟨-, -, ownerFits, addressFits, testFits, versionFits⟩ := fits
  have testFlag : hasFlag params.flags 0x1 = CocoonSchema.bit params.flags 0 :=
    CocoonSchema.has_flag_bit params.flags 0 (by decide)
  have versionFlag : hasFlag params.flags 0x2 = CocoonSchema.bit params.flags 1 :=
    CocoonSchema.has_flag_bit params.flags 1 (by decide)
  unfold decodeProxyParamsBody
  apply (reads_uint32 params.flags).bind
  apply (reads_int256 params.proxyPublicKey).bind
  apply (reads_string ownerFits).bind
  apply (reads_string addressFits).bind
  rw [testFlag, versionFlag]
  apply (reads_gated false testFits fun found _ => reads_schema_bool found).bind
  exact (reads_gated 0 versionFits fun found _ => reads_int32 found).map _

def keptAuth : CocoonSchema.ProxyConnectionAuth → FixedBytes 32 × UInt64
  | .short secretHash nonce => (secretHash, nonce.toUInt64)
  | .long nonce => (copyInto 32 [], nonce.toUInt64)

theorem reads_connection_auth (auth : CocoonSchema.ProxyConnectionAuth) :
    Reads decodeConnectionAuth (CocoonSchema.proxyConnectionAuth.serialize auth)
      (keptAuth auth) := by
  have distinct : idClientProxyConnectionAuthLong ≠ idClientProxyConnectionAuthShort := by decide
  unfold decodeConnectionAuth
  cases auth with
  | short secretHash nonce =>
      apply (reads_plain (reads_uint32 CocoonSchema.numberAuthShort)).bind
      rw [CocoonSchema.number_auth_short, if_pos rfl]
      apply (reads_plain (reads_int256 secretHash)).bind
      exact (reads_plain (reads_uint64 nonce.toUInt64)).map _
  | long nonce =>
      apply (reads_plain (reads_uint32 CocoonSchema.numberAuthLong)).bind
      rw [CocoonSchema.number_auth_long, if_neg distinct, if_pos rfl]
      exact (reads_plain (reads_uint64 nonce.toUInt64)).map _

def keptConnected (answer : CocoonSchema.ConnectedToProxy) : ConnectedToProxyDecoded where
  proxyParams := keptParams answer.params
  clientSCAddress := answer.clientScAddress
  authSecretHashOK := false
  authSecretHash := (keptAuth answer.auth).1
  authNonce := (keptAuth answer.auth).2
  signedPaymentBlob := keptPayment answer.signedPayment

theorem reads_connected (answer : CocoonSchema.ConnectedToProxy)
    (fits : CocoonSchema.connectedToProxy.Fits answer) :
    Reads readConnectedToProxy (CocoonSchema.connectedToProxy.serialize answer)
      (keptConnected answer) := by
  obtain ⟨paramsFit, addressFits, -, paymentFits⟩ := fits
  unfold readConnectedToProxy
  apply (reads_plain (reads_uint32 CocoonSchema.numberConnectedToProxy)).bind
  rw [CocoonSchema.declared_numbers.2.2.2.1, if_neg (not_not.mpr rfl)]
  apply ((reads_proxy_params answer.params paramsFit).mapError _).bind
  apply (reads_plain (reads_string addressFits)).bind
  apply (reads_connection_auth answer.auth).bind
  exact (reads_signed_payment _ answer.signedPayment paymentFits).map _

def keptAuthorization : CocoonSchema.AuthorizationWithProxy → ClientAuthorizationResult
  | .success signedPayment tokensCommittedToDb maxTokens =>
      { success := true, errorCode := 0, errorMessage := []
        signedPaymentBlob := keptPayment signedPayment
        tokensCommittedDB := tokensCommittedToDb, maxTokens := maxTokens }
  | .failed errorCode error =>
      { success := false, errorCode := errorCode, errorMessage := error, signedPaymentBlob := []
        tokensCommittedDB := 0, maxTokens := 0 }

theorem reads_authorization (answer : CocoonSchema.AuthorizationWithProxy)
    (fits : CocoonSchema.authorizationWithProxy.Fits answer) :
    Reads readAuthorizationWithProxy (CocoonSchema.authorizationWithProxy.serialize answer)
      (keptAuthorization answer) := by
  have distinct :
      idClientAuthorizationWithProxyFailed ≠ idClientAuthorizationWithProxySuccess := by decide
  unfold readAuthorizationWithProxy
  cases answer with
  | success signedPayment tokensCommittedToDb maxTokens =>
      apply (reads_plain (reads_uint32 CocoonSchema.numberAuthorizationSuccess)).bind
      rw [CocoonSchema.number_authorization_success, if_pos rfl]
      apply (reads_signed_payment _ signedPayment fits.1).bind
      apply (reads_plain (reads_int64 tokensCommittedToDb)).bind
      exact (reads_plain (reads_int64 maxTokens)).map _
  | failed errorCode error =>
      apply (reads_plain (reads_uint32 CocoonSchema.numberAuthorizationFailed)).bind
      rw [CocoonSchema.number_authorization_failed, if_neg distinct, if_pos rfl]
      apply (reads_plain (reads_int32 errorCode)).bind
      exact (reads_plain (reads_string fits.2)).map _

end Handshake

section Status

def keptStatus (status : CocoonSchema.PaymentStatus) : PaymentStatus where
  tokensCommittedToBlockchain := 0
  tokensCommittedToDB := status.dbTokens
  tokensMax := status.maxTokens
  tokensCharged := 0
  tokensPayed := 0

theorem reads_status (status : CocoonSchema.PaymentStatus)
    (fits : CocoonSchema.paymentStatus.Fits status) :
    Reads readPaymentStatus (CocoonSchema.paymentStatus.serialize status)
      (keptStatus status) := by
  unfold readPaymentStatus
  apply (reads_plain (reads_uint32 CocoonSchema.numberPaymentStatus)).bind
  rw [CocoonSchema.declared_numbers.2.2.2.2.1, if_neg (not_not.mpr rfl)]
  apply (reads_signed_payment _ status.signedPayment fits.1).bind
  apply (reads_plain (reads_int64 status.dbTokens)).bind
  exact (reads_plain (reads_int64 status.maxTokens)).map _

end Status

section Models

def keptWorker (worker : CocoonSchema.WorkerInstanceV2) : WorkerInstance where
  coefficient := worker.coefficient
  activeRequests := worker.activeRequests
  maxActiveRequests := worker.maxActiveRequests

theorem reads_worker (worker : CocoonSchema.WorkerInstanceV2) :
    Reads readWorkerInstance (CocoonSchema.workerInstanceV2.serialize worker)
      (keptWorker worker) := by
  unfold readWorkerInstance
  apply (reads_plain (reads_uint32 worker.flags)).bind
  apply (reads_plain (reads_int32 worker.coefficient)).bind
  apply (reads_plain (reads_int32 worker.activeRequests)).bind
  exact (reads_plain (reads_int32 worker.maxActiveRequests)).map _

def keptModel (model : CocoonSchema.WorkerTypeV2) : WorkerType where
  name := model.name
  workers := model.workers.map keptWorker

theorem reads_model (model : CocoonSchema.WorkerTypeV2)
    (fits : CocoonSchema.workerTypeV2.Fits model) :
    Reads readWorkerType (CocoonSchema.workerTypeV2.serialize model) (keptModel model) := by
  obtain ⟨nameFits, counted, -⟩ := fits
  unfold readWorkerType
  apply (reads_plain (reads_string nameFits)).bind
  apply (reads_plain (reads_count model.workers counted)).bind
  rw [make_slice_counted (by decide) counted, pure_bind]
  exact (reads_items model.workers fun worker _ => reads_worker worker).map _

theorem reads_models (models : List CocoonSchema.WorkerTypeV2) (nonempty : models ≠ [])
    (fits : CocoonSchema.workerTypesV2.Fits models) :
    Reads readWorkerTypesV2 (CocoonSchema.workerTypesV2.serialize models)
      (models.map keptModel) := by
  obtain ⟨counted, each⟩ := fits
  have advertised : ¬(models.map keptModel).length = 0 := by
    rw [List.length_map, List.length_eq_zero_iff]
    exact nonempty
  unfold readWorkerTypesV2
  apply (reads_plain (reads_uint32 CocoonSchema.numberWorkerTypesV2)).bind
  rw [CocoonSchema.declared_numbers.2.2.2.2.2, if_neg (not_not.mpr rfl)]
  apply (reads_plain (reads_count models counted)).bind
  rw [make_slice_counted (by decide) counted, pure_bind]
  have items := reads_items models fun model member => reads_model model (each model member)
  have whole : Reads (readItems readWorkerType models.length >>= fun out =>
      if out.length = 0 then fail (.text "cocoon: proxy has no advertised worker models")
      else pure out) (models.flatMap CocoonSchema.workerTypeV2.serialize ++ [])
      (models.map keptModel) := by
    apply items.bind
    rw [if_neg advertised]
    exact reads_pure _
  rwa [List.append_nil] at whole

end Models

section Response

theorem reads_headers (headers : List CocoonSchema.HttpHeader)
    (fits : ∀ header ∈ headers, CocoonSchema.httpHeader.Fits header) :
    Reads (skipHeaders headers.length) (headers.flatMap CocoonSchema.httpHeader.serialize) () := by
  induction headers with
  | nil => exact reads_pure ()
  | cons header headers ih =>
      have rest := ih fun other member => fits other (List.mem_cons_of_mem _ member)
      obtain ⟨nameFits, valueFits⟩ := fits header List.mem_cons_self
      have both : CocoonSchema.httpHeader.serialize header =
          string.serialize header.name ++ string.serialize header.value := rfl
      rw [List.length_cons, skipHeaders, List.flatMap_cons, both, List.append_assoc]
      apply (reads_string nameFits).bind
      apply (reads_string valueFits).bind
      exact rest

theorem reads_response (response : CocoonSchema.HttpResponse)
    (fits : CocoonSchema.httpResponse.Fits response) :
    Reads readHTTPResponsePayload (CocoonSchema.httpResponse.serialize response)
      response.payload := by
  obtain ⟨versionFits, -, reasonFits, ⟨counted, headersFit⟩, payloadFits⟩ := fits
  unfold readHTTPResponsePayload
  apply (reads_uint32 CocoonSchema.numberHttpResponse).bind
  rw [CocoonSchema.declared_numbers.2.2.1, if_neg (not_not.mpr rfl)]
  apply (reads_string versionFits).bind
  apply (reads_int32 response.statusCode).bind
  apply (reads_string reasonFits).bind
  change Reads _ (nat.serialize (UInt32.ofNat response.headers.length) ++
    response.headers.flatMap CocoonSchema.httpHeader.serialize ++
      string.serialize response.payload) _
  rw [List.append_assoc]
  apply (reads_count response.headers counted).bind
  apply (reads_headers response.headers headersFit).bind
  exact reads_bytes response.payload payloadFits

end Response

theorem response_decoded {response : CocoonSchema.HttpResponse}
    (fits : CocoonSchema.httpResponse.Fits response) :
    decodeHTTPResponsePayload (CocoonSchema.httpResponse.serialize response) =
      .ok (some response.payload) := by
  rw [decodeHTTPResponsePayload, (reads_response response fits).whole]

/-- Every answer decoder inverts the schema on the values that the format can carry. -/
theorem answer_decoders_invert_schema :
    (∀ answer, CocoonSchema.connectedToProxy.Fits answer →
      decodeConnectedToProxy (CocoonSchema.connectedToProxy.serialize answer) =
        .ok (keptConnected answer)) ∧
    (∀ answer, CocoonSchema.authorizationWithProxy.Fits answer →
      decodeAuthorizationWithProxy (CocoonSchema.authorizationWithProxy.serialize answer) =
        .ok (keptAuthorization answer)) ∧
    (∀ status, CocoonSchema.paymentStatus.Fits status →
      decodePaymentStatus (CocoonSchema.paymentStatus.serialize status) =
        .ok (keptStatus status)) ∧
    (∀ models, models ≠ [] → CocoonSchema.workerTypesV2.Fits models →
      decodeWorkerTypesV2 (CocoonSchema.workerTypesV2.serialize models) =
        .ok (models.map keptModel)) ∧
    (∀ response, CocoonSchema.httpResponse.Fits response →
      decodeHTTPResponsePayload (CocoonSchema.httpResponse.serialize response) =
        .ok (some response.payload)) := by
  refine ⟨?_, ?_, ?_, ?_, ?_⟩
  · intro answer fits
    rw [decodeConnectedToProxy, (reads_connected answer fits).whole]
  · intro answer fits
    rw [decodeAuthorizationWithProxy, (reads_authorization answer fits).whole]
  · intro status fits
    rw [decodePaymentStatus, (reads_status status fits).whole]
  · intro models nonempty fits
    rw [decodeWorkerTypesV2, (reads_models models nonempty fits).whole]
  · intro response fits
    exact response_decoded fits

def sampleConnected : CocoonSchema.ConnectedToProxy where
  params :=
    { flags := 0x80000002, proxyPublicKey := copyInto 32 [1], proxyOwnerAddress := ascii "EQA"
      proxyScAddress := ascii "EQB", isTest := none, protoVersion := some 3 }
  clientScAddress := ascii "EQC"
  auth := .short (copyInto 32 [2]) (-1)
  signedPayment := .signed [1, 2, 3]

def sampleModels : List CocoonSchema.WorkerTypeV2 :=
  [⟨ascii "a", [⟨0, 1, 2, 3⟩, ⟨7, 4, 5, 6⟩]⟩, ⟨ascii "b", []⟩]

theorem sample_answers_decoded :
    (CocoonSchema.connectedToProxy.Fits sampleConnected ∧
      decodeConnectedToProxy (CocoonSchema.connectedToProxy.serialize sampleConnected) =
        .ok (keptConnected sampleConnected)) ∧
    (CocoonSchema.authorizationWithProxy.Fits (.failed 5 (ascii "no")) ∧
      decodeAuthorizationWithProxy
        (CocoonSchema.authorizationWithProxy.serialize (.failed 5 (ascii "no"))) =
          .ok (keptAuthorization (.failed 5 (ascii "no")))) ∧
    (CocoonSchema.paymentStatus.Fits ⟨.empty, 8, 9⟩ ∧
      decodePaymentStatus (CocoonSchema.paymentStatus.serialize ⟨.empty, 8, 9⟩) =
        .ok ⟨0, 8, 9, 0, 0⟩) ∧
    ((sampleModels ≠ [] ∧ CocoonSchema.workerTypesV2.Fits sampleModels) ∧
      decodeWorkerTypesV2 (CocoonSchema.workerTypesV2.serialize sampleModels) =
        .ok [⟨ascii "a", [⟨1, 2, 3⟩, ⟨4, 5, 6⟩]⟩, ⟨ascii "b", []⟩]) ∧
    (CocoonSchema.httpResponse.Fits ⟨[], 200, [], [⟨[1], [2]⟩], [3]⟩ ∧
      decodeHTTPResponsePayload
          (CocoonSchema.httpResponse.serialize ⟨[], 200, [], [⟨[1], [2]⟩], [3]⟩) =
        .ok (some [3])) := by
  obtain ⟨connected, authorization, status, models, response⟩ := answer_decoders_invert_schema
  have short : ∀ data : List Byte, data.length ≤ 3 → string.Fits data := by
    intro data small
    change data.length < 2 ^ 24
    omega
  have noTest : CocoonSchema.bit 0x80000002 0 = false := by decide
  have version : CocoonSchema.bit 0x80000002 1 = true := by decide
  have connectedFits : CocoonSchema.connectedToProxy.Fits sampleConnected :=
    ⟨⟨trivial, trivial, short (ascii "EQA") (by decide), short (ascii "EQB") (by decide), noTest,
      version, trivial⟩, short (ascii "EQC") (by decide), ⟨trivial, trivial⟩,
      short [1, 2, 3] (by decide)⟩
  have authorizationFits :
      CocoonSchema.authorizationWithProxy.Fits (.failed 5 (ascii "no")) :=
    ⟨trivial, short (ascii "no") (by decide)⟩
  have statusFits : CocoonSchema.paymentStatus.Fits ⟨.empty, 8, 9⟩ := ⟨trivial, trivial, trivial⟩
  have modelsFit : CocoonSchema.workerTypesV2.Fits sampleModels := by
    refine ⟨by decide, ?_⟩
    intro model member
    simp only [sampleModels, List.mem_cons, List.not_mem_nil, or_false] at member
    rcases member with rfl | rfl
    · exact ⟨short (ascii "a") (by decide), by decide,
        fun _ _ => ⟨trivial, trivial, trivial, trivial⟩⟩
    · exact ⟨short (ascii "b") (by decide), by decide,
        fun _ _ => ⟨trivial, trivial, trivial, trivial⟩⟩
  have responseFits : CocoonSchema.httpResponse.Fits ⟨[], 200, [], [⟨[1], [2]⟩], [3]⟩ := by
    refine ⟨short [] (by decide), trivial, short [] (by decide), ⟨by decide, ?_⟩,
      short [3] (by decide)⟩
    intro header member
    obtain rfl := List.mem_singleton.mp member
    exact ⟨short [1] (by decide), short [2] (by decide)⟩
  exact ⟨⟨connectedFits, connected _ connectedFits⟩,
    ⟨authorizationFits, authorization _ authorizationFits⟩, ⟨statusFits, status _ statusFits⟩,
    ⟨⟨by decide, modelsFit⟩, models _ (by decide) modelsFit⟩,
    ⟨responseFits, response _ responseFits⟩⟩

end Gocoon.ProxyAnswers
