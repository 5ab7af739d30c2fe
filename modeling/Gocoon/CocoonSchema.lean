import Mathlib.Data.Nat.Bitwise
import Gocoon.TlTcpPacket
import Gocoon.TlTypes
import Gocoon.TypeLanguage

/-!
# The declarations of cocoon_api.tl

The constructors that the client sends and receives, each with the fields of its
declaration in their order: a lower-case type is bare, an upper-case type is boxed, and
`flags.n?` is present when bit `n` of `flags` is set. The number of a constructor is the
CRC-32 of its declaration unless the declaration gives it. The constants of the source
agree with these numbers.
-/

namespace Gocoon.CocoonSchema

open Gocoon.LittleEndianBytes
open Gocoon.TlPrimitives
open Gocoon.TlTcpPacket
open Gocoon.TlTypes
open Gocoon.TypeLanguage
open Gocoon.TypeLanguage.WireType

set_option autoImplicit false

/-- A declaration as its words, without parentheses. -/
def declaration (words : List String) : GoString := List.intercalate (ascii " ") (words.map ascii)

def declared (words : List String) : UInt32 := checksumIEEE (declaration words)

/-- The checksum with its state computed at every byte, for declarations that are too long to
unfold at once. -/
def foldEagerly : UInt32 → List Byte → UInt32
  | state, [] => state
  | state, byte :: rest =>
      match (crcByte state byte).toNat with
      | 0 => foldEagerly 0 rest
      | word + 1 => foldEagerly (UInt32.ofNat (word + 1)) rest

theorem fold_eagerly (state : UInt32) (bytes : List Byte) :
    bytes.foldl crcByte state = foldEagerly state bytes := by
  induction bytes generalizing state with
  | nil => rfl
  | cons byte rest ih =>
      rw [List.foldl_cons, ih, foldEagerly]
      cases word : (crcByte state byte).toNat with
      | zero =>
          have zero : crcByte state byte = 0 := UInt32.toNat_inj.mp word
          rw [zero]
      | succ previous =>
          have same : crcByte state byte = UInt32.ofNat (previous + 1) := by
            rw [← word, UInt32.ofNat_toNat]
          rw [same]

theorem declared_eagerly (words : List String) :
    declared words = ~~~(foldEagerly 0xffffffff (declaration words)) := by
  rw [declared, checksumIEEE, fold_eagerly]

/-- Bit `index` of a `#` field. -/
def bit (flags : UInt32) (index : Nat) : Bool := flags.toNat.testBit index

def numberBoolTrue : UInt32 :=
  declared ["boolTrue", "= Bool"]

def numberBoolFalse : UInt32 :=
  declared ["boolFalse", "= Bool"]

theorem number_bool_true : numberBoolTrue = boolTrueID := by decide +kernel

theorem number_bool_false : numberBoolFalse = boolFalseID := by decide +kernel

/-- `boolTrue = Bool; boolFalse = Bool` -/
def bool : WireType Bool :=
  (either numberBoolTrue numberBoolFalse (by rw [number_bool_true, number_bool_false]; decide)
    nothing nothing).view
    (fun | .inl _ => true | .inr _ => false) (fun value => if value then .inl () else .inr ())
    (fun value => by cases value <;> rfl)

theorem bool_serialize (value : Bool) :
    bool.serialize value = putUint32 (if value then boolTrueID else boolFalseID) := by
  cases value with
  | true =>
      have wire : bool.serialize true = putUint32 numberBoolTrue ++ [] := rfl
      rw [wire, List.append_nil, number_bool_true, if_pos rfl]
  | false =>
      have wire : bool.serialize false = putUint32 numberBoolFalse ++ [] := rfl
      rw [wire, List.append_nil, number_bool_false, if_neg Bool.false_ne_true]

def numberPacket : UInt32 :=
  declared ["tcp.packet", "data:bytes", "= tcp.Packet"]

/-- `tcp.packet data:bytes = tcp.Packet` -/
def tcpPacket : WireType (List Byte) := boxed numberPacket string

structure HttpHeader where
  name : GoString
  value : GoString
  deriving DecidableEq

/-- `http.header name:string value:string = http.Header` -/
def httpHeader : WireType HttpHeader :=
  (string.pair string).view (fun fields => ⟨fields.1, fields.2⟩)
    (fun header => (header.name, header.value)) (fun _ => rfl)

structure HttpRequest where
  method : GoString
  url : GoString
  httpVersion : GoString
  headers : List HttpHeader
  payload : List Byte
  deriving DecidableEq

def numberHttpRequest : UInt32 :=
  declared ["http.request", "method:string", "url:string", "http_version:string",
    "headers:vector", "http.header", "payload:bytes", "= http.Response"]

/-- `http.request method:string url:string http_version:string headers:(vector http.header)
payload:bytes = http.Response` -/
def httpRequest : WireType HttpRequest :=
  boxed numberHttpRequest <|
    (string.pair <| string.pair <| string.pair <| (vector httpHeader).pair string).view
      (fun (method, url, httpVersion, headers, payload) =>
        ⟨method, url, httpVersion, headers, payload⟩)
      (fun request => (request.method, request.url, request.httpVersion, request.headers,
        request.payload)) (fun _ => rfl)

structure HttpResponse where
  httpVersion : GoString
  statusCode : Int32
  reason : GoString
  headers : List HttpHeader
  payload : List Byte
  deriving DecidableEq

def numberHttpResponse : UInt32 :=
  declared ["http.response", "http_version:string", "status_code:int", "reason:string",
    "headers:vector", "http.header", "payload:bytes", "= http.Response"]

/-- `http.response http_version:string status_code:int reason:string
headers:(vector http.header) payload:bytes = http.Response` -/
def httpResponse : WireType HttpResponse :=
  boxed numberHttpResponse <|
    (string.pair <| int.pair <| string.pair <| (vector httpHeader).pair string).view
      (fun (httpVersion, statusCode, reason, headers, payload) =>
        ⟨httpVersion, statusCode, reason, headers, payload⟩)
      (fun response => (response.httpVersion, response.statusCode, response.reason,
        response.headers, response.payload)) (fun _ => rfl)

structure RunQueryEx where
  modelName : GoString
  query : List Byte
  maxCoefficient : Int32
  maxTokens : Int32
  timeout : UInt64
  requestID : FixedBytes 32
  minConfigVersion : Int32
  flags : UInt32
  enableDebug : Option Bool
  publicKey : Option (FixedBytes 32)
  deriving DecidableEq

/-- `client.runQueryEx#f54cb74b model_name:string query:bytes max_coefficient:int max_tokens:int
timeout:double request_id:int256 min_config_version:int flags:# enable_debug:flags.0?Bool
public_key:flags.1?int256 = client.QueryAnswerEx` -/
def runQueryEx : WireType RunQueryEx :=
  boxed 0xf54cb74b <|
    (string.pair <| string.pair <| int.pair <| int.pair <| double.pair <| int256.pair <| int.pair <|
      nat.next fun flags => (gated (bit flags 0) bool).pair (gated (bit flags 1) int256)).view
      (fun (modelName, query, maxCoefficient, maxTokens, timeout, requestID, minConfigVersion,
          flags, enableDebug, publicKey) =>
        ⟨modelName, query, maxCoefficient, maxTokens, timeout, requestID, minConfigVersion, flags,
          enableDebug, publicKey⟩)
      (fun call => (call.modelName, call.query, call.maxCoefficient, call.maxTokens, call.timeout,
        call.requestID, call.minConfigVersion, call.flags, call.enableDebug, call.publicKey))
      (fun _ => rfl)

structure ProxyParams where
  flags : UInt32
  proxyPublicKey : FixedBytes 32
  proxyOwnerAddress : GoString
  proxyScAddress : GoString
  isTest : Option Bool
  protoVersion : Option Int32
  deriving DecidableEq

/-- `proxy.params#d5c5609f flags:# proxy_public_key:int256 proxy_owner_address:string
proxy_sc_address:string is_test:flags.0?Bool proto_version:flags.1?int = proxy.Params`, bare -/
def proxyParams : WireType ProxyParams :=
  (nat.next fun flags => int256.pair <| string.pair <| string.pair <|
    (gated (bit flags 0) bool).pair (gated (bit flags 1) int)).view
    (fun (flags, proxyPublicKey, proxyOwnerAddress, proxyScAddress, isTest, protoVersion) =>
      ⟨flags, proxyPublicKey, proxyOwnerAddress, proxyScAddress, isTest, protoVersion⟩)
    (fun params => (params.flags, params.proxyPublicKey, params.proxyOwnerAddress,
      params.proxyScAddress, params.isTest, params.protoVersion)) (fun _ => rfl)

inductive SignedPayment where
  | signed (data : List Byte)
  | empty
  deriving DecidableEq

def numberSignedPayment : UInt32 :=
  declared ["proxy.signedPayment", "data:bytes", "= proxy.SignedPayment"]

def numberSignedPaymentEmpty : UInt32 :=
  declared ["proxy.signedPaymentEmpty", "= proxy.SignedPayment"]

theorem number_signed_payment : numberSignedPayment = idProxySignedPayment := by
  rw [numberSignedPayment, declared_eagerly]
  decide +kernel

theorem number_signed_payment_empty : numberSignedPaymentEmpty = idProxySignedPaymentEmpty := by
  rw [numberSignedPaymentEmpty, declared_eagerly]
  decide +kernel

/-- `proxy.signedPayment data:bytes = proxy.SignedPayment;
proxy.signedPaymentEmpty = proxy.SignedPayment` -/
def signedPayment : WireType SignedPayment :=
  (either numberSignedPayment numberSignedPaymentEmpty
    (by rw [number_signed_payment, number_signed_payment_empty]; decide) string nothing).view
    (fun | .inl data => .signed data | .inr _ => .empty)
    (fun | .signed data => .inl data | .empty => .inr ())
    (fun payment => by cases payment <;> rfl)

inductive ProxyConnectionAuth where
  | short (secretHash : FixedBytes 32) (nonce : Int64)
  | long (nonce : Int64)
  deriving DecidableEq

def numberAuthShort : UInt32 :=
  declared ["client.proxyConnectionAuthShort", "secret_hash:int256", "nonce:long",
    "= client.ProxyConnectionAuth"]

def numberAuthLong : UInt32 :=
  declared ["client.proxyConnectionAuthLong", "nonce:long", "= client.ProxyConnectionAuth"]

theorem number_auth_short : numberAuthShort = idClientProxyConnectionAuthShort := by
  rw [numberAuthShort, declared_eagerly]
  decide +kernel

theorem number_auth_long : numberAuthLong = idClientProxyConnectionAuthLong := by
  rw [numberAuthLong, declared_eagerly]
  decide +kernel

/-- `client.proxyConnectionAuthShort secret_hash:int256 nonce:long = client.ProxyConnectionAuth;
client.proxyConnectionAuthLong nonce:long = client.ProxyConnectionAuth` -/
def proxyConnectionAuth : WireType ProxyConnectionAuth :=
  (either numberAuthShort numberAuthLong (by rw [number_auth_short, number_auth_long]; decide)
    (int256.pair long) long).view
    (fun | .inl (secretHash, nonce) => .short secretHash nonce | .inr nonce => .long nonce)
    (fun | .short secretHash nonce => .inl (secretHash, nonce) | .long nonce => .inr nonce)
    (fun auth => by cases auth <;> rfl)

structure ConnectedToProxy where
  params : ProxyParams
  clientScAddress : GoString
  auth : ProxyConnectionAuth
  signedPayment : SignedPayment
  deriving DecidableEq

def numberConnectedToProxy : UInt32 :=
  declared ["client.connectedToProxy", "params:proxy.params", "client_sc_address:string",
    "auth:client.ProxyConnectionAuth", "signed_payment:proxy.SignedPayment",
    "= client.ConnectedToProxy"]

/-- `client.connectedToProxy params:proxy.params client_sc_address:string
auth:client.ProxyConnectionAuth signed_payment:proxy.SignedPayment = client.ConnectedToProxy` -/
def connectedToProxy : WireType ConnectedToProxy :=
  boxed numberConnectedToProxy <|
    (proxyParams.pair <| string.pair <| proxyConnectionAuth.pair signedPayment).view
      (fun (params, clientScAddress, auth, signedPayment) =>
        ⟨params, clientScAddress, auth, signedPayment⟩)
      (fun answer => (answer.params, answer.clientScAddress, answer.auth, answer.signedPayment))
      (fun _ => rfl)

inductive AuthorizationWithProxy where
  | success (signedPayment : SignedPayment) (tokensCommittedToDb maxTokens : Int64)
  | failed (errorCode : Int32) (error : GoString)
  deriving DecidableEq

def numberAuthorizationSuccess : UInt32 :=
  declared ["client.authorizationWithProxySuccess", "signed_payment:proxy.SignedPayment",
    "tokens_committed_to_db:long", "max_tokens:long", "= client.AuthorizationWithProxy"]

def numberAuthorizationFailed : UInt32 :=
  declared ["client.authorizationWithProxyFailed", "error_code:int", "error:string",
    "= client.AuthorizationWithProxy"]

theorem number_authorization_success :
    numberAuthorizationSuccess = idClientAuthorizationWithProxySuccess := by
  rw [numberAuthorizationSuccess, declared_eagerly]
  decide +kernel

theorem number_authorization_failed :
    numberAuthorizationFailed = idClientAuthorizationWithProxyFailed := by
  rw [numberAuthorizationFailed, declared_eagerly]
  decide +kernel

/-- `client.authorizationWithProxySuccess signed_payment:proxy.SignedPayment
tokens_committed_to_db:long max_tokens:long = client.AuthorizationWithProxy;
client.authorizationWithProxyFailed error_code:int error:string = client.AuthorizationWithProxy` -/
def authorizationWithProxy : WireType AuthorizationWithProxy :=
  (either numberAuthorizationSuccess numberAuthorizationFailed
    (by rw [number_authorization_success, number_authorization_failed]; decide)
    (signedPayment.pair <| long.pair long) (int.pair string)).view
    (fun
      | .inl (signedPayment, tokensCommittedToDb, maxTokens) =>
          .success signedPayment tokensCommittedToDb maxTokens
      | .inr (errorCode, error) => .failed errorCode error)
    (fun
      | .success signedPayment tokensCommittedToDb maxTokens =>
          .inl (signedPayment, tokensCommittedToDb, maxTokens)
      | .failed errorCode error => .inr (errorCode, error))
    (fun answer => by cases answer <;> rfl)

structure PaymentStatus where
  signedPayment : SignedPayment
  dbTokens : Int64
  maxTokens : Int64
  deriving DecidableEq

def numberPaymentStatus : UInt32 :=
  declared ["client.paymentStatus", "signed_payment:proxy.SignedPayment", "db_tokens:long",
    "max_tokens:long", "= client.PaymentStatus"]

/-- `client.paymentStatus signed_payment:proxy.SignedPayment db_tokens:long max_tokens:long =
client.PaymentStatus` -/
def paymentStatus : WireType PaymentStatus :=
  boxed numberPaymentStatus <|
    (signedPayment.pair <| long.pair long).view
      (fun (signedPayment, dbTokens, maxTokens) => ⟨signedPayment, dbTokens, maxTokens⟩)
      (fun status => (status.signedPayment, status.dbTokens, status.maxTokens)) (fun _ => rfl)

structure WorkerInstanceV2 where
  flags : UInt32
  coefficient : Int32
  activeRequests : Int32
  maxActiveRequests : Int32
  deriving DecidableEq

/-- `client.workerInstanceV2#3ea93d00 flags:# coefficient:int active_requests:int
max_active_requests:int = client.WorkerInstanceV2`, bare -/
def workerInstanceV2 : WireType WorkerInstanceV2 :=
  (nat.pair <| int.pair <| int.pair int).view
    (fun (flags, coefficient, activeRequests, maxActiveRequests) =>
      ⟨flags, coefficient, activeRequests, maxActiveRequests⟩)
    (fun worker => (worker.flags, worker.coefficient, worker.activeRequests,
      worker.maxActiveRequests)) (fun _ => rfl)

structure WorkerTypeV2 where
  name : GoString
  workers : List WorkerInstanceV2
  deriving DecidableEq

/-- `client.workerTypeV2 name:string workers:(vector client.workerInstanceV2) =
client.WorkerTypeV2`, bare -/
def workerTypeV2 : WireType WorkerTypeV2 :=
  (string.pair (vector workerInstanceV2)).view (fun (name, workers) => ⟨name, workers⟩)
    (fun model => (model.name, model.workers)) (fun _ => rfl)

def numberWorkerTypesV2 : UInt32 :=
  declared ["client.workerTypesV2", "types:vector", "client.workerTypeV2",
    "= client.WorkerTypesV2"]

/-- `client.workerTypesV2 types:(vector client.workerTypeV2) = client.WorkerTypesV2` -/
def workerTypesV2 : WireType (List WorkerTypeV2) :=
  boxed numberWorkerTypesV2 (vector workerTypeV2)

theorem declared_numbers :
    numberPacket = idTCPPacket ∧ numberHttpRequest = idHTTPRequest ∧
      numberHttpResponse = idHTTPResponse ∧ numberConnectedToProxy = idClientConnectedToProxy ∧
      numberPaymentStatus = idClientPaymentStatus ∧
      numberWorkerTypesV2 = idClientWorkerTypesV2 := by
  refine ⟨rfl, ?_⟩
  simp only [numberHttpRequest, numberHttpResponse, numberConnectedToProxy, numberPaymentStatus,
    numberWorkerTypesV2, declared_eagerly]
  decide +kernel

/-- The masks of the source test the bits that the declarations name. -/
theorem has_flag_bit (flags : UInt32) (index : Nat) (small : index < 32) :
    hasFlag flags (UInt32.ofNat (2 ^ index)) = bit flags index := by
  have mask : (UInt32.ofNat (2 ^ index)).toNat = 2 ^ index := by
    rw [UInt32.toNat_ofNat']
    exact Nat.mod_eq_of_lt (Nat.pow_lt_pow_right (by decide) small)
  have value : (flags &&& UInt32.ofNat (2 ^ index)).toNat =
      (flags.toNat.testBit index).toNat * 2 ^ index := by
    rw [UInt32.toNat_and, mask, Nat.and_two_pow]
  unfold hasFlag bit
  cases set : flags.toNat.testBit index with
  | true =>
      have nonzero : flags &&& UInt32.ofNat (2 ^ index) ≠ 0 := by
        intro zero
        rw [zero, set, Bool.toNat_true, Nat.one_mul] at value
        exact absurd value.symm (Nat.two_pow_pos index).ne'
      simp [nonzero]
  | false =>
      have zero : flags &&& UInt32.ofNat (2 ^ index) = 0 := by
        apply UInt32.toNat_inj.mp
        rw [value, set, Bool.toNat_false, Nat.zero_mul]
        rfl
      simp [zero]

end Gocoon.CocoonSchema
