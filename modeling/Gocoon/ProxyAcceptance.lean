import Gocoon.ProxyAnswers
import Gocoon.ProxyHandshakeSafety
import Gocoon.ReaderSafety

/-!
# What the client makes of `client.connectedToProxy`

The answer decides two things: whether the proxy is compatible, and how the client
authorizes itself. `proxy.params` carries its test flag and its protocol version only when
their bits of the flags word are set, the decoder leaves an absent field at zero, and the
check asks for either bit. The short form of the authorization needs
`AuthSecretHashOK`, which the decoder leaves unset for every answer.
-/

namespace Gocoon.ProxyAcceptance

open Gocoon.LittleEndianBytes
open Gocoon.GoProgram
open Gocoon.TransitionRuns
open Gocoon.CocoonErrors
open Gocoon.TlPrimitives
open Gocoon.TlTypes
open Gocoon.TlTcpPacket
open Gocoon.QueryCorrelator
open Gocoon.TypeLanguage.WireType
open Gocoon.ReaderSafety
open Gocoon.ProxyHandshakeCodec
open Gocoon.ProxyHandshake
open Gocoon.ProxyHandshakeSafety
open Gocoon.ProxyAnswers

set_option autoImplicit false

section Compatibility

def flagsWord (answer : List Byte) : UInt32 := uint32 ((answer.drop 4).take 4)

theorem read_uint32_returned {reader after : Reader} {word : UInt32}
    (ran : exec readUint32 reader = (.ok word, after)) :
    word = uint32 ((reader.buf.drop reader.pos).take 4) ∧
      after = { reader with pos := reader.pos + 4 } := by
  obtain ⟨bytes, middle, first, last⟩ := exec_bind_returned ran
  rw [exec_pure] at last
  rw [exec_read_raw] at first
  split_ifs at first
  · cases first
  · cases first
    cases last
    exact ⟨rfl, rfl⟩

theorem read_if_returned {Value : Type} {present : Bool} {absent found : Value}
    {program : ReadM Value} {reader after : Reader}
    (ran : exec (readIf present absent program) reader = (.ok found, after)) :
    present = true ∨ found = absent := by
  cases present with
  | true => exact Or.inl rfl
  | false =>
      right
      cases ran
      rfl

/-- The parameters' flags are the word under the reader, and a field without its bit is left
at zero. -/
theorem proxy_params_returned {reader after : Reader} {params : ProxyParams}
    (ran : exec decodeProxyParamsBody reader = (.ok params, after)) :
    params.flags = uint32 ((reader.buf.drop reader.pos).take 4) ∧
      (hasFlag params.flags 0x1 = true ∨ params.isTest = false) ∧
      (hasFlag params.flags 0x2 = true ∨ params.protoVersion = 0) := by
  obtain ⟨flags, behindFlags, readFlag, rest⟩ := exec_bind_returned ran
  obtain ⟨publicKey, behindKey, -, rest⟩ := exec_bind_returned rest
  obtain ⟨ownerAddress, behindOwner, -, rest⟩ := exec_bind_returned rest
  obtain ⟨scAddress, behindAddress, -, rest⟩ := exec_bind_returned rest
  obtain ⟨isTest, behindTest, readTest, rest⟩ := exec_bind_returned rest
  obtain ⟨protoVersion, behindVersion, readVersion, rest⟩ := exec_bind_returned rest
  cases rest
  exact ⟨(read_uint32_returned readFlag).1, read_if_returned readTest,
    read_if_returned readVersion⟩

theorem connected_returned {answer : List Byte} {decoded : ConnectedToProxyDecoded}
    (accepted : decodeConnectedToProxy answer = .ok decoded) :
    decoded.proxyParams.flags = flagsWord answer ∧
      (hasFlag decoded.proxyParams.flags 0x1 = true ∨ decoded.proxyParams.isTest = false) ∧
      (hasFlag decoded.proxyParams.flags 0x2 = true ∨ decoded.proxyParams.protoVersion = 0) ∧
      decoded.authSecretHashOK = false := by
  have ran : exec readConnectedToProxy (newReader answer) =
      (.ok decoded, (exec readConnectedToProxy (newReader answer)).2) :=
    Prod.ext accepted rfl
  obtain ⟨id, behindId, readId, rest⟩ := exec_bind_returned ran
  obtain ⟨-, moved⟩ := read_uint32_returned (exec_map_error_returned readId)
  split_ifs at rest
  · cases rest
  obtain ⟨params, behindParams, readParams, rest⟩ := exec_bind_returned rest
  obtain ⟨address, behindAddress, -, rest⟩ := exec_bind_returned rest
  obtain ⟨auth, behindAuth, -, rest⟩ := exec_bind_returned rest
  obtain ⟨blob, behindBlob, -, rest⟩ := exec_bind_returned rest
  have kept := proxy_params_returned (exec_map_error_returned readParams)
  rw [moved] at kept
  cases rest
  exact ⟨kept.1, kept.2.1, kept.2.2, rfl⟩

theorem validated {decoded : ConnectedToProxyDecoded}
    (valid : validateConnectedToProxy decoded = none) :
    (hasFlag decoded.proxyParams.flags 0x1 = true → decoded.proxyParams.isTest = false) ∧
      (hasFlag decoded.proxyParams.flags 0x2 = true →
        1 ≤ decoded.proxyParams.protoVersion ∧ decoded.proxyParams.protoVersion ≤ 4) := by
  simp only [validateConnectedToProxy] at valid
  split_ifs at valid with old test version
  constructor
  · intro present
    simpa [present] using test
  · intro present
    simpa [present] using version

theorem accepted_proxy_compatible_iff (answer : List Byte) (decoded : ConnectedToProxyDecoded)
    (accepted : decodeConnectedToProxy answer = .ok decoded)
    (valid : validateConnectedToProxy decoded = none) (result : ClientAuthorizationResult) :
    (decoded.proxyParams.isTest = false ∧
        1 ≤ (Handshake.handshakeResult decoded result).protoVersion ∧
        (Handshake.handshakeResult decoded result).protoVersion ≤ 4) ↔
      hasFlag (flagsWord answer) 0x2 = true := by
  obtain ⟨flags, testAbsent, versionAbsent, -⟩ := connected_returned accepted
  obtain ⟨testChecked, versionChecked⟩ := validated valid
  rw [flags] at testAbsent versionAbsent testChecked versionChecked
  constructor
  · intro ⟨_, positive, _⟩
    apply versionAbsent.resolve_right
    intro zero
    simp only [Handshake.handshakeResult, zero] at positive
    exact absurd positive (by decide)
  · intro present
    exact ⟨testAbsent.elim testChecked id, versionChecked present⟩

def connectedDecoded : ConnectedToProxyDecoded where
  proxyParams := ⟨3, copyInto 32 [], ascii "owner", ascii "proxy", false, 1⟩
  clientSCAddress := ascii "client"
  authSecretHashOK := false
  authSecretHash := copyInto 32 []
  authNonce := 7
  signedPaymentBlob := []

theorem connected_answer_compatible :
    decodeConnectedToProxy connectedAnswer = .ok connectedDecoded ∧
      validateConnectedToProxy connectedDecoded = none ∧
      connectedDecoded.proxyParams.isTest = false ∧
      1 ≤ connectedDecoded.proxyParams.protoVersion ∧
      connectedDecoded.proxyParams.protoVersion ≤ 4 := by
  have accepted : decodeConnectedToProxy connectedAnswer = .ok connectedDecoded := by rfl
  have valid : validateConnectedToProxy connectedDecoded = none := by decide
  have compatible := accepted_proxy_compatible_iff connectedAnswer connectedDecoded accepted valid
    ⟨true, 0, [], [], 0, 0⟩
  exact ⟨accepted, valid, compatible.mpr (by decide)⟩

def versionlessAnswer : List Byte :=
  let params := (((newWriter.writeUint32 idClientConnectedToProxy).writeFlags 1).writeInt256
    (copyInto 32 [])).writeString (ascii "owner")
  let tested := (params.writeString (ascii "proxy")).writeBool false
  (((tested.writeString (ascii "client")).writeUint32 idClientProxyConnectionAuthLong).writeUint64
    7).writeUint32 idProxySignedPaymentEmpty |>.buf

def versionlessRun : List HandshakeStep :=
  [.sendConnect 1 none, .recvFrame (encodeTCPConnected 1) true, .pollInited .inited,
    .registerQuery 5 0, .writeQuery none, .recvFrame (queryAnswerFrame 5 versionlessAnswer) true,
    .correlatorSend 0 0, .awaitQuery .answer, .registerOnChain none, .registerQuery 6 0,
    .writeQuery none, .recvFrame (queryAnswerFrame 6 authorizedAnswer) true,
    .correlatorSend 1 0, .awaitQuery .answer, .conclude]

def reportedVersion : Phase → Option Int32
  | .finished (.ok result) => some result.protoVersion
  | _ => none

/-- The proxy is accepted and the session is ready with protocol version 0. -/
theorem versionless_proxy_ends_ready :
    (decodeConnectedToProxy versionlessAnswer).toOption.map
        (fun decoded => validateConnectedToProxy decoded) = some none ∧
      (runFrom (ProxyHandshake.step plainConfig) newHandshake versionlessRun).map
        (fun state => (state.status, reportedVersion state.phase)) = some (.ready, some 0) := by
  decide +kernel

end Compatibility

section Authorization

variable {config : HandshakeConfig}

/-- What a step does to the client goroutine and to the calls of `registerOnChain`. -/
inductive ClientMove (config : HandshakeConfig) :
    Phase → List RegisterCall → Phase → List RegisterCall → Prop where
  | idle (phase : Phase) (calls : List RegisterCall) : ClientMove config phase calls phase calls
  | finish (phase : Phase) (calls : List RegisterCall) (error : CocoonError) :
      ClientMove config phase calls (.finished (.error error)) calls
  | connect (calls : List RegisterCall) : ClientMove config .sendConnect calls .waitInited calls
  | inited (calls : List RegisterCall) :
      ClientMove config .waitInited calls (.registering .connectToProxy) calls
  | register (query : Query) (id : QueryID) (ref : Nat) (calls : List RegisterCall) :
      ClientMove config (.registering query) calls (.writing query id ref) calls
  | write (query : Query) (id : QueryID) (ref : Nat) (calls : List RegisterCall) :
      ClientMove config (.writing query id ref) calls (.awaiting query id ref) calls
  | connected (id : QueryID) (ref : Nat) (answer : List Byte) (decoded : ConnectedToProxyDecoded)
      (calls : List RegisterCall) (accepted : decodeConnectedToProxy answer = .ok decoded)
      (valid : validateConnectedToProxy decoded = none) :
      ClientMove config (.awaiting .connectToProxy id ref) calls
        (if useShort config decoded || !config.registers then .registering (.authorize decoded)
          else .calling decoded) calls
  | authorized (decoded : ConnectedToProxyDecoded) (id : QueryID) (ref : Nat)
      (result : ClientAuthorizationResult) (calls : List RegisterCall) :
      ClientMove config (.awaiting (.authorize decoded) id ref) calls
        (.finished (.ok (Handshake.handshakeResult decoded result))) calls
  | called (decoded : ConnectedToProxyDecoded) (calls : List RegisterCall) :
      ClientMove config (.calling decoded) calls (.registering (.authorize decoded))
        (calls ++ [registerCallOf decoded])
  | callFailed (decoded : ConnectedToProxyDecoded) (error : CocoonError)
      (calls : List RegisterCall) :
      ClientMove config (.calling decoded) calls (.finished (.error error))
        (calls ++ [registerCallOf decoded])

theorem dispatch_idle (state : Handshake) (payload : List Byte) (pongWritten : Bool) :
    (state.dispatch payload pongWritten).phase = state.phase ∧
      (state.dispatch payload pongWritten).calls = state.calls := by
  unfold Handshake.dispatch
  split
  · exact ⟨rfl, rfl⟩
  · exact ⟨rfl, rfl⟩
  · split <;> try split_ifs
    all_goals exact ⟨rfl, rfl⟩

theorem after_connect_accepted {answer : List Byte} {decoded : ConnectedToProxyDecoded}
    (state : Handshake) (accepted : decodeConnectedToProxy answer = .ok decoded)
    (valid : validateConnectedToProxy decoded = none) :
    state.afterConnect config answer =
      { state with phase := if useShort config decoded || !config.registers then
          .registering (.authorize decoded) else .calling decoded } := by
  simp only [Handshake.afterConnect, accepted, valid]
  split_ifs <;> rfl

theorem after_connect_moves (state : Handshake) (answer : List Byte) (id : QueryID) (ref : Nat)
    (waits : state.phase = .awaiting .connectToProxy id ref) :
    ClientMove config state.phase state.calls (state.afterConnect config answer).phase
      (state.afterConnect config answer).calls := by
  cases ran : decodeConnectedToProxy answer with
  | error fault =>
      cases fault with
      | returned error =>
          simp only [Handshake.afterConnect, ran]
          exact .finish _ _ error
      | panicked =>
          simp only [Handshake.afterConnect, ran]
          exact .idle _ _
  | ok decoded =>
      cases checked : validateConnectedToProxy decoded with
      | some error =>
          simp only [Handshake.afterConnect, ran, checked]
          exact .finish _ _ error
      | none =>
          rw [after_connect_accepted state ran checked, waits]
          exact .connected id ref answer decoded state.calls ran checked

theorem after_authorize_moves (state : Handshake) (decoded : ConnectedToProxyDecoded)
    (answer : List Byte) (id : QueryID) (ref : Nat)
    (waits : state.phase = .awaiting (.authorize decoded) id ref) :
    ClientMove config state.phase state.calls (state.afterAuthorize decoded answer).phase
      (state.afterAuthorize decoded answer).calls := by
  unfold Handshake.afterAuthorize
  split
  · exact .idle _ _
  · exact .finish _ _ _
  · split_ifs
    · rw [waits]
      exact .authorized decoded id ref _ state.calls
    · exact .finish _ _ _

theorem await_moves {state next : Handshake} {query : Query} {id : QueryID} {ref : Nat}
    {awaited : AwaitCase} (waits : state.phase = .awaiting query id ref)
    (taken : awaitQuery config state query ref awaited = some next) :
    ClientMove config state.phase state.calls next.phase next.calls := by
  cases awaited with
  | contextDone | timeout =>
      obtain rfl := Option.some.inj taken
      exact .finish _ _ _
  | transportClosed =>
      simp only [awaitQuery] at taken
      split at taken
      · obtain rfl := Option.some.inj taken
        exact .finish _ _ _
      · cases taken
  | err =>
      obtain ⟨⟨error, world⟩, -, rfl⟩ := Option.map_eq_some_iff.mp taken
      exact .finish _ _ _
  | answer =>
      obtain ⟨⟨answer, world⟩, -, rfl⟩ := Option.map_eq_some_iff.mp taken
      cases query with
      | connectToProxy =>
          exact after_connect_moves { state with world := world } answer id ref waits
      | authorize decoded =>
          exact after_authorize_moves { state with world := world } decoded answer id ref waits

theorem step_moves {state next : Handshake} {label : HandshakeStep}
    (taken : ProxyHandshake.step config state label = some next) :
    ClientMove config state.phase state.calls next.phase next.calls := by
  unfold ProxyHandshake.step at taken
  split_ifs at taken
  cases label with
  | recvFrame payload pongWritten =>
      obtain rfl := Option.some.inj taken
      obtain ⟨samePhase, sameCalls⟩ := dispatch_idle state payload pongWritten
      rw [samePhase, sameCalls]
      exact .idle _ _
  | correlatorSend ref position =>
      obtain ⟨world, -, rfl⟩ := Option.map_eq_some_iff.mp taken
      exact .idle _ _
  | gcExpired now =>
      obtain ⟨collected, -, rfl⟩ := Option.map_eq_some_iff.mp taken
      exact .idle _ _
  | closeWithErr err =>
      dsimp only at taken
      split at taken <;> cases taken
      exact .idle _ _
  | closeFailAll =>
      dsimp only at taken
      split at taken <;> cases taken
      exact .idle _ _
  | closeDone =>
      dsimp only at taken
      split at taken <;> cases taken
      exact .idle _ _
  | sendConnect id writeError =>
      dsimp only at taken
      split at taken <;> cases taken
      · next sends =>
          rw [sends]
          exact .connect state.calls
      · exact .finish _ _ _
  | pollInited outcome =>
      dsimp only at taken
      split at taken
      · next polls =>
          cases outcome with
          | inited =>
              simp only [pollInited] at taken
              split_ifs at taken
              cases taken
              rw [polls]
              exact .inited state.calls
          | contextDone | late =>
              cases taken
              exact .finish _ _ _
          | transportClosed =>
              simp only [pollInited] at taken
              split at taken <;> cases taken
              exact .finish _ _ _
          | again =>
              cases taken
              exact .idle _ _
      · cases taken
  | registerQuery id now =>
      dsimp only at taken
      split at taken <;> cases taken
      next query registers =>
        unfold registerQuery
        split
        · rw [registers]
          exact .register query id _ state.calls
        · exact .finish _ _ _
  | writeQuery writeError =>
      dsimp only at taken
      split at taken <;> cases taken
      next query id ref writes =>
        cases writeError with
        | none =>
            rw [writes]
            exact .write query id ref state.calls
        | some error => exact .finish _ _ _
  | awaitQuery awaited =>
      dsimp only at taken
      split at taken
      · next query id ref waits => exact await_moves waits taken
      · cases taken
  | registerOnChain failure =>
      dsimp only at taken
      split at taken <;> cases taken
      · next decoded calls =>
          rw [calls]
          exact .called decoded state.calls
      · next decoded error calls =>
          rw [calls]
          exact .callFailed decoded _ state.calls
  | conclude =>
      dsimp only at taken
      split at taken <;> cases taken
      · exact .idle _ _
      · exact .idle _ _

def longCalls (config : HandshakeConfig) (decoded : ConnectedToProxyDecoded)
    (calls : List RegisterCall) : List RegisterCall :=
  if config.registers then calls ++ [registerCallOf decoded] else calls

/-- Where the long path goes, from an accepted answer with `calls` made before it. -/
def OnLongPath (config : HandshakeConfig) (decoded : ConnectedToProxyDecoded)
    (calls : List RegisterCall) (phase : Phase) (made : List RegisterCall) : Prop :=
  match phase with
  | .calling found => found = decoded ∧ made = calls ∧ config.registers = true
  | .registering query | .writing query _ _ | .awaiting query _ _ =>
      query = .authorize decoded ∧ made = longCalls config decoded calls
  | .finished _ => True
  | .sendConnect | .waitInited => False

theorem long_path_kept {decoded : ConnectedToProxyDecoded} {calls made later : List RegisterCall}
    {phase next : Phase} (kept : OnLongPath config decoded calls phase made)
    (moved : ClientMove config phase made next later) :
    OnLongPath config decoded calls next later := by
  cases moved with
  | idle => exact kept
  | finish | authorized | callFailed => trivial
  | connect | inited => exact kept.elim
  | register | write => exact kept
  | connected => cases kept.1
  | called found =>
      obtain ⟨rfl, rfl, registers⟩ := kept
      exact ⟨rfl, by rw [longCalls, if_pos registers]⟩

/-- The client goes on to authorize with `client.authorizeWithProxyShort` carrying the secret,
and `registerOnChain` is never called. -/
def AuthorizesShort (config : HandshakeConfig) (answer : List Byte) : Prop :=
  ∀ state : Handshake, ∃ decoded,
    (state.afterConnect config answer).phase = .registering (.authorize decoded) ∧
      ∀ labels later,
        runFrom (ProxyHandshake.step config) (state.afterConnect config answer) labels =
          some later →
        later.calls = state.calls ∧ ∀ query id ref, later.phase = .writing query id ref →
          query.body config = encodeAuthorizeShort config.secretString

/-- The client goes on to `registerOnChain`, where there is one, and then authorizes with
`client.authorizeWithProxyLong`. -/
def AuthorizesLong (config : HandshakeConfig) (answer : List Byte) : Prop :=
  ∀ state : Handshake, ∃ decoded,
    (state.afterConnect config answer).phase =
        (if config.registers then .calling decoded else .registering (.authorize decoded)) ∧
      ∀ labels later,
        runFrom (ProxyHandshake.step config) (state.afterConnect config answer) labels =
          some later →
        ∀ query id ref, later.phase = .writing query id ref →
          query.body config = encodeAuthorizeLong ∧
            later.calls = longCalls config decoded state.calls

def Accepted (answer : List Byte) : Prop :=
  ∃ decoded, decodeConnectedToProxy answer = .ok decoded ∧ validateConnectedToProxy decoded = none

theorem long_without_hash {answer : List Byte} {decoded : ConnectedToProxyDecoded}
    (accepted : decodeConnectedToProxy answer = .ok decoded)
    (valid : validateConnectedToProxy decoded = none) (long : useShort config decoded = false) :
    AuthorizesLong config answer := by
  intro state
  have connected : state.afterConnect config answer = _ :=
    after_connect_accepted state accepted valid
  rw [long, Bool.false_or] at connected
  have start : OnLongPath config decoded state.calls (state.afterConnect config answer).phase
      (state.afterConnect config answer).calls := by
    rw [connected]
    cases registers : config.registers with
    | true => exact ⟨rfl, rfl, registers⟩
    | false => exact ⟨rfl, by simp [longCalls, registers]⟩
  refine ⟨decoded, ?_, ?_⟩
  · rw [connected]
    cases config.registers <;> rfl
  · intro labels later reached query id ref writing
    have kept : OnLongPath config decoded state.calls later.phase later.calls :=
      run_invariant (ProxyHandshake.step config) (state.afterConnect config answer)
        (fun found => OnLongPath config decoded state.calls found.phase found.calls) start
        (fun _ _ _ holds taken => long_path_kept holds (step_moves taken)) labels later reached
    rw [writing] at kept
    obtain ⟨rfl, calls⟩ := kept
    exact ⟨by simp [Query.body, long], calls⟩

theorem authorize_bodies_differ (secret : GoString) :
    encodeAuthorizeLong ≠ encodeAuthorizeShort secret := by
  intro same
  have sizes := congrArg List.length same
  rw [encodeAuthorizeLong, encodeAuthorizeShort, write_bytes_buf, List.length_append] at sizes
  have tail : (bytesWire secret).length = 0 := Nat.left_eq_add.mp sizes
  rw [bytesWire] at tail
  split_ifs at tail

/-- A fresh handshake that has an accepted answer and nothing to register can write the
authorizing query next. -/
theorem fresh_query_written (decoded : ConnectedToProxyDecoded) :
    ∃ later, runFrom (ProxyHandshake.step config)
        { newHandshake with phase := .registering (.authorize decoded) } [.registerQuery 0 0] =
          some later ∧
      later.phase = .writing (.authorize decoded) 0 0 :=
  ⟨_, rfl, rfl⟩

theorem never_short {answer : List Byte} (accepted : Accepted answer) :
    ¬ AuthorizesShort config answer := by
  intro short
  obtain ⟨decoded, decodes, valid⟩ := accepted
  have long : useShort config decoded = false := by
    rw [useShort, (connected_returned decodes).2.2.2, Bool.false_and]
  have connected : newHandshake.afterConnect config answer = _ :=
    after_connect_accepted newHandshake decodes valid
  obtain ⟨found, start, stays⟩ := short newHandshake
  rw [connected, long, Bool.false_or] at start
  cases registers : config.registers with
  | true => simp [registers] at start
  | false =>
      obtain ⟨later, reached, writing⟩ := fresh_query_written decoded
      rw [connected, long, registers] at stays
      have short := (stays _ later reached).2 _ _ _ writing
      rw [Query.body, long, if_neg (by decide)] at short
      exact authorize_bodies_differ config.secretString short

def OffersShort (answer : CocoonSchema.ConnectedToProxy) (hash : FixedBytes 32) : Prop :=
  ∃ nonce, answer.auth = .short hash nonce

def shortAnswer (hash : FixedBytes 32) : CocoonSchema.ConnectedToProxy where
  params := ⟨0x3, copyInto 32 [], ascii "EQA", ascii "EQB", some false, some 4⟩
  clientScAddress := ascii "EQC"
  auth := .short hash 7
  signedPayment := .empty

theorem short_answer_fits (hash : FixedBytes 32) :
    CocoonSchema.connectedToProxy.Fits (shortAnswer hash) := by
  have small : ∀ address : GoString, address.length = 3 → string.Fits address := by
    intro address length
    change address.length < 2 ^ 24
    omega
  have tested : CocoonSchema.bit 0x3 0 = true := by decide
  have versioned : CocoonSchema.bit 0x3 1 = true := by decide
  exact ⟨⟨trivial, trivial, small _ rfl, small _ rfl, ⟨tested, trivial⟩, ⟨versioned, trivial⟩⟩,
    small _ rfl, ⟨trivial, trivial⟩, trivial⟩

theorem short_answer_accepted (hash : FixedBytes 32) :
    Accepted (CocoonSchema.connectedToProxy.serialize (shortAnswer hash)) := by
  have decodes : decodeConnectedToProxy
      (CocoonSchema.connectedToProxy.serialize (shortAnswer hash)) =
        .ok (keptConnected (shortAnswer hash)) := by
    rw [decodeConnectedToProxy,
      (reads_connected (shortAnswer hash) (short_answer_fits hash)).whole]
  have params : (keptConnected (shortAnswer hash)).proxyParams =
      ⟨0x3, copyInto 32 [], ascii "EQA", ascii "EQB", false, 4⟩ := rfl
  have valid : validateConnectedToProxy (keptConnected (shortAnswer hash)) = none := by
    rw [validateConnectedToProxy, params]
    decide
  exact ⟨keptConnected (shortAnswer hash), decodes, valid⟩

theorem short_path_reachable_iff (config : HandshakeConfig) :
    ((config.secretString ≠ [] →
        ∃ hash : FixedBytes 32, ∀ answer, CocoonSchema.connectedToProxy.Fits answer →
          OffersShort answer hash → Accepted (CocoonSchema.connectedToProxy.serialize answer) →
          AuthorizesShort config (CocoonSchema.connectedToProxy.serialize answer)) ∧
      (config.secretString = [] →
        ∀ answer, Accepted answer → AuthorizesLong config answer)) ↔
      config.secretString = [] := by
  constructor
  · intro ⟨reachable, _⟩
    by_contra secret
    obtain ⟨hash, short⟩ := reachable secret
    exact never_short (short_answer_accepted hash)
      (short _ (short_answer_fits hash) ⟨7, rfl⟩ (short_answer_accepted hash))
  · intro empty
    refine ⟨fun secret => absurd empty secret, ?_⟩
    intro _ answer ⟨decoded, decodes, valid⟩
    apply long_without_hash decodes valid
    simp [useShort, empty]

def secretConfig : HandshakeConfig where
  cocoonWalletAddr := ascii "EQ"
  rootConfigVersion := 1
  secretString := ascii "swordfish"
  registers := true

/-- Whatever the hash, a proxy that offers the short form is answered on the long path. -/
theorem secret_without_short_path :
    ¬ ∃ hash : FixedBytes 32, ∀ answer, CocoonSchema.connectedToProxy.Fits answer →
      OffersShort answer hash → Accepted (CocoonSchema.connectedToProxy.serialize answer) →
      AuthorizesShort secretConfig (CocoonSchema.connectedToProxy.serialize answer) := by
  intro ⟨hash, short⟩
  apply never_short (short_answer_accepted hash)
  exact short _ (short_answer_fits hash) ⟨7, rfl⟩ (short_answer_accepted hash)

end Authorization

end Gocoon.ProxyAcceptance
