import Gocoon.ProxyHandshakeCodec
import Gocoon.QueryResolutionHistory
import Gocoon.TlTcpPacket

/-!
# The handshake against an arbitrary proxy

The system is the client goroutine in `runHandshake`, the read loop that dispatches the
frames of the proxy, the correlator with its late sends and its garbage collection, and
the shutdown of the transport. The proxy chooses every frame and its moment, and the
environment chooses random ids, times, write errors, the result of the on-chain
registration and which ready case a `select` takes. A frame may be dispatched at any
moment, also after the transport has closed. `written` and `calls` are history.
-/

namespace Gocoon.ProxyHandshake

open Gocoon.LittleEndianBytes
open Gocoon.GoProgram
open Gocoon.CocoonErrors
open Gocoon.TlPrimitives
open Gocoon.TlTypes
open Gocoon.TlTcpPacket
open Gocoon.QueryCorrelator
open Gocoon.ProxyHandshakeCodec

set_option autoImplicit false

structure HandshakeConfig where
  cocoonWalletAddr : GoString
  rootConfigVersion : Int32
  secretString : GoString
  /-- Whether the `registerOnChain` closure is non-nil. -/
  registers : Bool

def handshakeAppQueryTimeout : Int := 30 * 10 ^ 9

def handshakeAuthQueryTimeout : Int := 300 * 10 ^ 9

structure HandshakeResult where
  proxyParams : ProxyParams
  clientSCAddress : GoString
  protoVersion : Int32
  signedPaymentBlob : List Byte
  tokensCommittedDB : Int64
  maxTokens : Int64
  deriving DecidableEq

structure RegisterCall where
  clientSCAddress : GoString
  nonce : UInt64
  proxyParams : ProxyParams
  deriving DecidableEq

def registerCallOf (decoded : ConnectedToProxyDecoded) : RegisterCall where
  clientSCAddress := decoded.clientSCAddress
  nonce := decoded.authNonce
  proxyParams := decoded.proxyParams

/-- The two queries of the handshake. The second one is sent for a decoded and validated
answer to the first. -/
inductive Query where
  | connectToProxy
  | authorize (decoded : ConnectedToProxyDecoded)
  deriving DecidableEq

def useShort (config : HandshakeConfig) (decoded : ConnectedToProxyDecoded) : Bool :=
  decoded.authSecretHashOK && 0 < config.secretString.length

namespace Query

def body (config : HandshakeConfig) : Query → List Byte
  | .connectToProxy => encodeClientConnectToProxy config.cocoonWalletAddr config.rootConfigVersion
  | .authorize decoded =>
      if useShort config decoded then encodeAuthorizeShort config.secretString
      else encodeAuthorizeLong

def timeout : Query → Int
  | .connectToProxy => handshakeAppQueryTimeout
  | .authorize _ => handshakeAuthQueryTimeout

def errorContext (config : HandshakeConfig) : Query → String
  | .connectToProxy => "connectToProxy"
  | .authorize decoded =>
      if useShort config decoded then "authorizeWithProxyShort" else "authorizeWithProxyLong"

end Query

inductive Phase where
  | sendConnect
  | waitInited
  | registering (query : Query)
  | writing (query : Query) (id : QueryID) (ref : Nat)
  | awaiting (query : Query) (id : QueryID) (ref : Nat)
  | calling (decoded : ConnectedToProxyDecoded)
  | finished (outcome : Except CocoonError HandshakeResult)
  deriving DecidableEq

/-- The stages of `closeWithErr`. -/
inductive TransportState where
  | opened
  | closing (err : CocoonError)
  | failed (err : CocoonError)
  | closed (err : CocoonError)
  deriving DecidableEq

inductive SessionStatus where
  | connecting
  | ready
  | disconnected
  | crashed
  deriving DecidableEq

structure Handshake where
  world : Correlations
  inited : Bool
  transport : TransportState
  phase : Phase
  status : SessionStatus
  written : List (List Byte)
  calls : List RegisterCall
  panicked : Bool

def newHandshake : Handshake where
  world := newCorrelator
  inited := false
  transport := .opened
  phase := .sendConnect
  status := .connecting
  written := []
  calls := []
  panicked := false

namespace Handshake

def finish (state : Handshake) (error : CocoonError) : Handshake :=
  { state with phase := .finished (.error error) }

def panic (state : Handshake) : Handshake := { state with panicked := true }

/-- `transport.dispatch`. Until the session is ready it has no streams, so a `tcp.packet`
changes nothing; `pongWritten` is the ignored outcome of answering a ping. -/
def dispatch (state : Handshake) (payload : List Byte) (pongWritten : Bool) : Handshake :=
  match decodeTCPPacket payload with
  | .error .panicked => state.panic
  | .error (.returned _) => state
  | .ok packet =>
      match packet.kind with
      | .connected => { state with inited := true }
      | .ping =>
          if pongWritten then { state with written := state.written ++ [encodeTCPPong packet.id] }
          else state
      | .queryAnswer => { state with world := (deliver state.world packet.id packet.data).2 }
      | .queryError =>
          { state with world :=
              (fail state.world packet.id (.proxy packet.errCode packet.errMsg "query")).2 }
      | _ => state

/-- The rest of `sendConnectToProxy` and the choice of the authorization path. -/
def afterConnect (config : HandshakeConfig) (state : Handshake) (answer : List Byte) :
    Handshake :=
  match decodeConnectedToProxy answer with
  | .error .panicked => state.panic
  | .error (.returned error) => state.finish error
  | .ok decoded =>
      match validateConnectedToProxy decoded with
      | some error => state.finish error
      | none =>
          if useShort config decoded || !config.registers then
            { state with phase := .registering (.authorize decoded) }
          else { state with phase := .calling decoded }

def handshakeResult (decoded : ConnectedToProxyDecoded) (result : ClientAuthorizationResult) :
    HandshakeResult where
  proxyParams := decoded.proxyParams
  clientSCAddress := decoded.clientSCAddress
  protoVersion := decoded.proxyParams.protoVersion
  signedPaymentBlob := result.signedPaymentBlob
  tokensCommittedDB := result.tokensCommittedDB
  maxTokens := result.maxTokens

def afterAuthorize (state : Handshake) (decoded : ConnectedToProxyDecoded)
    (answer : List Byte) : Handshake :=
  match decodeAuthorizationWithProxy answer with
  | .error .panicked => state.panic
  | .error (.returned error) => state.finish error
  | .ok result =>
      if result.success then
        { state with phase := .finished (.ok (handshakeResult decoded result)) }
      else state.finish (.proxy result.errorCode result.errorMessage "auth")

def answered (config : HandshakeConfig) (state : Handshake) (query : Query)
    (answer : List Byte) : Handshake :=
  match query with
  | .connectToProxy => state.afterConnect config answer
  | .authorize decoded => state.afterAuthorize decoded answer

end Handshake

/-- Which case of `awaitQuery`'s `select` is taken. -/
inductive AwaitCase where
  | contextDone
  | transportClosed
  | answer
  | err
  | timeout
  deriving DecidableEq

/-- How one round of the loop of `waitForInited` ends. -/
inductive InitedCase where
  | inited
  | contextDone
  | transportClosed
  | late
  | again
  deriving DecidableEq

inductive HandshakeStep where
  | recvFrame (payload : List Byte) (pongWritten : Bool)
  | correlatorSend (ref position : Nat)
  | gcExpired (now : Int)
  | closeWithErr (err : CocoonError)
  | closeFailAll
  | closeDone
  | sendConnect (id : Int64) (writeError : Option TlFrame.FrameError)
  | pollInited (outcome : InitedCase)
  | registerQuery (id : QueryID) (now : Int)
  | writeQuery (writeError : Option TlFrame.FrameError)
  | awaitQuery (taken : AwaitCase)
  | registerOnChain (failure : Option CocoonError)
  | conclude
  deriving DecidableEq

def pollInited (state : Handshake) : InitedCase → Option Handshake
  | .inited =>
      if state.inited then some { state with phase := .registering .connectToProxy } else none
  | .contextDone => some (state.finish .contextDone)
  | .transportClosed =>
      match state.transport with
      | .closed err => some (state.finish (.wrapped "cocoon: tcp connection failed" err))
      | _ => none
  | .late => some (state.finish .handshakeTimeout)
  | .again => some state

def awaitQuery (config : HandshakeConfig) (state : Handshake) (query : Query) (ref : Nat) :
    AwaitCase → Option Handshake
  | .contextDone =>
      some (state.finish (.wrapped (query.errorContext config) .contextDone))
  | .transportClosed =>
      match state.transport with
      | .closed _ => some (state.finish (.wrapped (query.errorContext config) .connectionFailed))
      | _ => none
  | .answer =>
      (receiveAnswer state.world ref).map fun (answer, world) =>
        { state with world := world }.answered config query answer
  | .err =>
      (receiveErr state.world ref).map fun (error, world) =>
        { state with world := world }.finish (.wrapped (query.errorContext config) error)
  | .timeout => some (state.finish (.wrapped (query.errorContext config) .requestTimeout))

def registerQuery (config : HandshakeConfig) (state : Handshake) (query : Query) (id : QueryID)
    (now : Int) : Handshake :=
  match register state.world id now query.timeout with
  | (.ok ref, world) => { state with world := world, phase := .writing query id ref }
  | (.error error, world) =>
      { state with world := world }.finish (.wrapped (query.errorContext config) error)

def writeQuery (config : HandshakeConfig) (state : Handshake) (query : Query) (id : QueryID)
    (ref : Nat) : Option TlFrame.FrameError → Handshake
  | none =>
      { state with
        written := state.written ++ [encodeTCPQuery id (query.body config)]
        phase := .awaiting query id ref }
  | some error =>
      { state with world := (fail state.world id (.frame error)).2 }.finish
        (.wrapped (query.errorContext config) (.frame error))

def step (config : HandshakeConfig) (state : Handshake) (label : HandshakeStep) :
    Option Handshake :=
  if state.panicked then none
  else
    match label with
    | .recvFrame payload pongWritten => some (state.dispatch payload pongWritten)
    | .correlatorSend ref position =>
        (send state.world ref position).map fun world => { state with world := world }
    | .gcExpired now =>
        (gcExpired state.world now).map fun (_, world) => { state with world := world }
    | .closeWithErr err =>
        match state.transport with
        | .opened => some { state with transport := .closing err }
        | _ => none
    | .closeFailAll =>
        match state.transport with
        | .closing err =>
            some { state with transport := .failed err, world := failAll state.world err }
        | _ => none
    | .closeDone =>
        match state.transport with
        | .failed err => some { state with transport := .closed err }
        | _ => none
    | .sendConnect id writeError =>
        match state.phase, writeError with
        | .sendConnect, none =>
            some { state with
              written := state.written ++ [encodeTCPConnect id], phase := .waitInited }
        | .sendConnect, some error =>
            some (state.finish (.wrapped "cocoon: tcp connection failed: send tcp.connect"
              (.frame error)))
        | _, _ => none
    | .pollInited outcome =>
        match state.phase with
        | .waitInited => pollInited state outcome
        | _ => none
    | .registerQuery id now =>
        match state.phase with
        | .registering query => some (registerQuery config state query id now)
        | _ => none
    | .writeQuery writeError =>
        match state.phase with
        | .writing query id ref => some (writeQuery config state query id ref writeError)
        | _ => none
    | .awaitQuery taken =>
        match state.phase with
        | .awaiting query _ ref => awaitQuery config state query ref taken
        | _ => none
    | .registerOnChain failure =>
        match state.phase, failure with
        | .calling decoded, none =>
            some { state with
              calls := state.calls ++ [registerCallOf decoded]
              phase := .registering (.authorize decoded) }
        | .calling decoded, some error =>
            some ({ state with calls := state.calls ++ [registerCallOf decoded] }.finish
              (.wrapped "handshake: on-chain register" error))
        | _, _ => none
    | .conclude =>
        match state.phase with
        | .finished (.ok _) => some { state with status := .ready }
        | .finished (.error _) => some { state with status := .crashed }
        | _ => none

end Gocoon.ProxyHandshake
