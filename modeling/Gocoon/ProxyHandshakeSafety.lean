import Gocoon.ProxyHandshake

/-!
# Handshake safety

Whatever the proxy sends and whenever it sends it, the client spends on chain at most once
and only for an answer to its own `connectToProxy` query that passed the checks, and it
becomes ready only on a success answer to its own authorize query. The link from an answer
that the client received back to a frame of the proxy is the history of the correlator:
the value of a registration is a payload only if a later step delivered that payload for its id.
-/

namespace Gocoon.ProxyHandshakeSafety

open Gocoon.LittleEndianBytes
open Gocoon.GoProgram
open Gocoon.BufferedChannel
open Gocoon.CocoonErrors
open Gocoon.TlPrimitives
open Gocoon.TlTypes
open Gocoon.TlTcpPacket
open Gocoon.QueryCorrelator
open Gocoon.QueryResolutionHistory
open Gocoon.ProxyHandshakeCodec
open Gocoon.ProxyHandshake
open Gocoon.TransitionRuns

set_option autoImplicit false

def FrameReceived (labels : List HandshakeStep) (accepts : DecodedTCPPacket → Prop) : Prop :=
  ∃ payload pongWritten packet, .recvFrame payload pongWritten ∈ labels ∧
    decodeTCPPacket payload = .ok packet ∧ accepts packet

def ConnectedReceived (labels : List HandshakeStep) : Prop :=
  FrameReceived labels fun packet => packet.kind = .connected

def IsAnswer (id : QueryID) (body : List Byte) (packet : DecodedTCPPacket) : Prop :=
  packet.kind = .queryAnswer ∧ packet.id = id ∧ packet.data = body

/-- The client registered `query` under this id, and `after` are the steps since then. -/
def Registered (config : HandshakeConfig) (labels : List HandshakeStep) (query : Query)
    (id : QueryID) (after : List HandshakeStep) : Prop :=
  ∃ before now state, labels = before ++ .registerQuery id now :: after ∧
    runFrom (step config) newHandshake before = some state ∧ state.phase = .registering query

/-- A `tcp.queryAnswer` with this body arrived after the query had been registered. -/
def AnswerReceived (config : HandshakeConfig) (labels : List HandshakeStep) (query : Query)
    (id : QueryID) (body : List Byte) : Prop :=
  ∃ after, Registered config labels query id after ∧ FrameReceived after (IsAnswer id body)

theorem frame_received_later {labels : List HandshakeStep} {accepts : DecodedTCPPacket → Prop}
    (received : FrameReceived labels accepts) (label : HandshakeStep) :
    FrameReceived (labels ++ [label]) accepts := by
  obtain ⟨payload, pongWritten, packet, member, decoded⟩ := received
  exact ⟨payload, pongWritten, packet, List.mem_append_left _ member, decoded⟩

theorem registered_later {config : HandshakeConfig} {labels after : List HandshakeStep}
    {query : Query} {id : QueryID} (registered : Registered config labels query id after)
    (label : HandshakeStep) :
    Registered config (labels ++ [label]) query id (after ++ [label]) := by
  obtain ⟨before, now, state, rfl, facts⟩ := registered
  exact ⟨before, now, state, by simp, facts⟩

theorem answer_received_later {config : HandshakeConfig} {labels : List HandshakeStep}
    {query : Query} {id : QueryID} {body : List Byte}
    (received : AnswerReceived config labels query id body) (label : HandshakeStep) :
    AnswerReceived config (labels ++ [label]) query id body := by
  obtain ⟨after, registered, frame⟩ := received
  exact ⟨after ++ [label], registered_later registered label, frame_received_later frame label⟩

/-- The client's own query with this id went out. -/
def QueryWritten (config : HandshakeConfig) (written : List (List Byte)) (query : Query)
    (id : QueryID) : Prop :=
  encodeTCPQuery id (query.body config) ∈ written

/-- The proxy said connected, and its answer to the client's own `connectToProxy` query
decoded to this and passed the checks. -/
def Approved (config : HandshakeConfig) (labels : List HandshakeStep)
    (written : List (List Byte)) (decoded : ConnectedToProxyDecoded) : Prop :=
  ConnectedReceived labels ∧ ∃ id body, QueryWritten config written .connectToProxy id ∧
    AnswerReceived config labels .connectToProxy id body ∧
    decodeConnectedToProxy body = .ok decoded ∧
    validateConnectedToProxy decoded = none

/-- The proxy's answer to the client's own authorize query decoded as a success. -/
def Authorized (config : HandshakeConfig) (labels : List HandshakeStep)
    (written : List (List Byte)) (decoded : ConnectedToProxyDecoded) (result : HandshakeResult) :
    Prop :=
  ∃ id body success, QueryWritten config written (.authorize decoded) id ∧
    AnswerReceived config labels (.authorize decoded) id body ∧
    decodeAuthorizationWithProxy body = .ok success ∧ success.success = true ∧
    result = {
      proxyParams := decoded.proxyParams, clientSCAddress := decoded.clientSCAddress
      protoVersion := decoded.proxyParams.protoVersion
      signedPaymentBlob := success.signedPaymentBlob
      tokensCommittedDB := success.tokensCommittedDB, maxTokens := success.maxTokens }

/-- A call of `registerOnChain` was the first one and was made for an approved answer. -/
def CallExplained (config : HandshakeConfig) (labels : List HandshakeStep)
    (call : RegisterCall) : Prop :=
  ∃ before failure after state decoded, labels = before ++ .registerOnChain failure :: after ∧
    runFrom (step config) newHandshake before = some state ∧ state.calls = [] ∧
    Approved config before state.written decoded ∧
    call.clientSCAddress = decoded.clientSCAddress ∧ call.nonce = decoded.authNonce ∧
    call.proxyParams = decoded.proxyParams

theorem approved_later {config : HandshakeConfig} {labels : List HandshakeStep}
    {written : List (List Byte)} {decoded : ConnectedToProxyDecoded}
    (approved : Approved config labels written decoded) (label : HandshakeStep)
    (more : List (List Byte)) : Approved config (labels ++ [label]) (written ++ more) decoded := by
  obtain ⟨connected, id, body, sent, received, checks⟩ := approved
  exact ⟨frame_received_later connected label, id, body, List.mem_append_left _ sent,
    answer_received_later received label, checks⟩

theorem authorized_later {config : HandshakeConfig} {labels : List HandshakeStep}
    {written : List (List Byte)} {decoded : ConnectedToProxyDecoded} {result : HandshakeResult}
    (authorized : Authorized config labels written decoded result) (label : HandshakeStep)
    (more : List (List Byte)) :
    Authorized config (labels ++ [label]) (written ++ more) decoded result := by
  obtain ⟨id, body, success, sent, received, checks⟩ := authorized
  exact ⟨id, body, success, List.mem_append_left _ sent, answer_received_later received label,
    checks⟩

theorem call_explained_later {config : HandshakeConfig} {labels : List HandshakeStep}
    {call : RegisterCall} (explained : CallExplained config labels call)
    (label : HandshakeStep) : CallExplained config (labels ++ [label]) call := by
  obtain ⟨before, failure, after, state, decoded, rfl, facts⟩ := explained
  exact ⟨before, failure, after ++ [label], state, decoded, by simp, facts⟩

/-- The registration of the client's query, which holds only answers that arrived since. -/
def Owns (config : HandshakeConfig) (labels : List HandshakeStep) (world : Correlations)
    (query : Query) (id : QueryID) (ref : Nat) : Prop :=
  ∃ after cell, Registered config labels query id after ∧ world.heap[ref]? = some cell ∧
    cell.id = id ∧ ∀ payload, .answer payload ∈ values cell →
      FrameReceived after (IsAnswer id payload)

theorem owns_later {config : HandshakeConfig} {labels : List HandshakeStep}
    {world : Correlations} {query : Query} {id : QueryID} {ref : Nat}
    (owns : Owns config labels world query id ref) (label : HandshakeStep) :
    Owns config (labels ++ [label]) world query id ref := by
  obtain ⟨after, cell, registered, present, own, received⟩ := owns
  exact ⟨after ++ [label], cell, registered_later registered label, present, own,
    fun payload member => frame_received_later (received payload member) label⟩

theorem explains_answer {action : CorrelatorStep} {id : QueryID} {deadline : Int}
    {payload : List Byte} (why : explains action id deadline (.answer payload)) :
    action = .deliver id payload := by
  cases action with
  | deliver other body =>
      obtain ⟨rfl, same⟩ := why
      cases same
      rfl
  | fail other err => exact absurd why.2 (by simp)
  | gcExpired now => exact absurd why.2 (by simp)
  | failAll err => exact absurd why (by simp [explains])
  | register | send | receiveAnswer | receiveErr => exact absurd why (by simp [explains])

theorem owns_step (config : HandshakeConfig) (labels : List HandshakeStep)
    (label : HandshakeStep) {world next : Correlations} {action : CorrelatorStep}
    (consistent : Consistent world) (taken : QueryCorrelator.step world action = some next)
    (delivered : ∀ id payload, action = .deliver id payload →
      FrameReceived [label] (IsAnswer id payload)) (query : Query) (id : QueryID) (ref : Nat)
    (owns : Owns config labels world query id ref) :
    Owns config (labels ++ [label]) next query id ref := by
  obtain ⟨after, cell, registered, present, rfl, received⟩ := owns
  have effect := step_effect world next action consistent taken
  obtain ⟨later, laterPresent, same, outcome⟩ := effect.evolves.kept ref cell present
  refine ⟨after ++ [label], later, registered_later registered label, laterPresent, same.id, ?_⟩
  intro payload member
  rcases outcome with unchanged | ⟨-, value, now, why⟩
  · rw [unchanged] at member
    exact frame_received_later (received payload member) label
  · rw [now, List.mem_singleton] at member
    subst member
    obtain ⟨frame, pongWritten, packet, inside, facts⟩ :=
      delivered cell.id payload (explains_answer why)
    exact ⟨frame, pongWritten, packet, List.mem_append_right _ inside, facts⟩

theorem received_answer_attributed {config : HandshakeConfig} {labels : List HandshakeStep}
    {world next : Correlations} {query : Query} {ref : Nat} {id : QueryID} {payload : List Byte}
    (consistent : Consistent world) (owns : Owns config labels world query id ref)
    (received : receiveAnswer world ref = some (payload, next)) :
    AnswerReceived config labels query id payload := by
  obtain ⟨after, cell, registered, present, rfl, arrived⟩ := owns
  simp only [receiveAnswer, present, Option.bind_eq_bind, Option.bind_some] at received
  split at received
  · next item channel taken =>
      obtain ⟨held, -, -⟩ := Channel.receive_item taken
      obtain ⟨rfl, -⟩ := Prod.mk.inj (Option.some.inj received)
      have ready := consistent.ready ref cell present
      have sent := ready.2.2.2.2 item (by rw [held]; exact List.mem_cons_self)
      exact ⟨after, registered, arrived item (List.mem_append_left _ sent)⟩
  · cases received

def QueryOk (config : HandshakeConfig) (labels : List HandshakeStep)
    (written : List (List Byte)) (calls : List RegisterCall) : Query → Prop
  | .connectToProxy => ConnectedReceived labels ∧ calls = []
  | .authorize decoded => Approved config labels written decoded ∧
      (calls = [] ∨ calls = [registerCallOf decoded])

def PhaseOk (config : HandshakeConfig) (labels : List HandshakeStep) (world : Correlations)
    (written : List (List Byte)) (calls : List RegisterCall) : Phase → Prop
  | .sendConnect | .waitInited => calls = []
  | .registering query => QueryOk config labels written calls query
  | .writing query id ref => QueryOk config labels written calls query ∧
      Owns config labels world query id ref
  | .awaiting query id ref => QueryOk config labels written calls query ∧
      Owns config labels world query id ref ∧ QueryWritten config written query id
  | .calling decoded => Approved config labels written decoded ∧ calls = []
  | .finished (.ok result) => calls.length ≤ 1 ∧ ∃ decoded,
      Approved config labels written decoded ∧ Authorized config labels written decoded result
  | .finished (.error _) => calls.length ≤ 1

theorem query_calls {config : HandshakeConfig} {labels : List HandshakeStep}
    {written : List (List Byte)} {calls : List RegisterCall} {query : Query}
    (ok : QueryOk config labels written calls query) : calls.length ≤ 1 := by
  cases query with
  | connectToProxy => simp [ok.2]
  | authorize decoded => rcases ok.2 with none | one <;> simp [*]

theorem phase_calls {config : HandshakeConfig} {labels : List HandshakeStep}
    {world : Correlations} {written : List (List Byte)} {calls : List RegisterCall}
    {phase : Phase} (ok : PhaseOk config labels world written calls phase) :
    calls.length ≤ 1 := by
  cases phase with
  | sendConnect | waitInited => simp [show calls = [] from ok]
  | registering query => exact query_calls ok
  | writing query id ref => exact query_calls ok.1
  | awaiting query id ref => exact query_calls ok.1
  | calling decoded => simp [ok.2]
  | finished outcome =>
      cases outcome with
      | ok result => exact ok.1
      | error err => exact ok

theorem query_ok_later {config : HandshakeConfig} {labels : List HandshakeStep}
    {written : List (List Byte)} {calls : List RegisterCall} {query : Query}
    (ok : QueryOk config labels written calls query) (label : HandshakeStep)
    (more : List (List Byte)) :
    QueryOk config (labels ++ [label]) (written ++ more) calls query := by
  cases query with
  | connectToProxy => exact ⟨frame_received_later ok.1 label, ok.2⟩
  | authorize decoded => exact ⟨approved_later ok.1 label more, ok.2⟩

theorem phase_ok_later {config : HandshakeConfig} {labels : List HandshakeStep}
    {world next : Correlations} {written : List (List Byte)} {calls : List RegisterCall}
    {phase : Phase} (ok : PhaseOk config labels world written calls phase)
    (label : HandshakeStep) (more : List (List Byte))
    (owned : ∀ query id ref, Owns config labels world query id ref →
      Owns config (labels ++ [label]) next query id ref) :
    PhaseOk config (labels ++ [label]) next (written ++ more) calls phase := by
  cases phase with
  | sendConnect | waitInited => exact ok
  | registering query => exact query_ok_later ok label more
  | writing query id ref => exact ⟨query_ok_later ok.1 label more, owned query id ref ok.2⟩
  | awaiting query id ref =>
      exact ⟨query_ok_later ok.1 label more, owned query id ref ok.2.1,
        List.mem_append_left _ ok.2.2⟩
  | calling decoded => exact ⟨approved_later ok.1 label more, ok.2⟩
  | finished outcome =>
      cases outcome with
      | ok result =>
          obtain ⟨few, decoded, approved, authorized⟩ := ok
          exact ⟨few, decoded, approved_later approved label more,
            authorized_later authorized label more⟩
      | error err => exact ok

structure Safe (config : HandshakeConfig) (labels : List HandshakeStep) (state : Handshake) :
    Prop where
  consistent : Consistent state.world
  inited : state.inited = true → ConnectedReceived labels
  phase : PhaseOk config labels state.world state.written state.calls state.phase
  calls : ∀ call ∈ state.calls, CallExplained config labels call
  ready : state.status = .ready → ∃ result, state.phase = .finished (.ok result)

theorem new_handshake_safe (config : HandshakeConfig) : Safe config [] newHandshake where
  consistent := new_correlator_consistent
  inited := by intro inited; cases inited
  phase := rfl
  calls := by intro call member; cases member
  ready := by intro ready; cases ready

theorem safe_framed {config : HandshakeConfig} {labels : List HandshakeStep}
    {state next : Handshake} {label : HandshakeStep} (safe : Safe config labels state)
    (consistent : Consistent next.world)
    (owned : ∀ query id ref, Owns config labels state.world query id ref →
      Owns config (labels ++ [label]) next.world query id ref)
    (inited : next.inited = true → state.inited = true ∨ ConnectedReceived (labels ++ [label]))
    (written : ∃ more, next.written = state.written ++ more)
    (samePhase : next.phase = state.phase) (sameCalls : next.calls = state.calls)
    (sameStatus : next.status = state.status) : Safe config (labels ++ [label]) next := by
  obtain ⟨more, sameWritten⟩ := written
  refine ⟨consistent, ?_, ?_, ?_, ?_⟩
  · intro isInited
    rcases inited isInited with before | now
    · exact frame_received_later (safe.inited before) label
    · exact now
  · rw [samePhase, sameCalls, sameWritten]
    exact phase_ok_later safe.phase label more owned
  · rw [sameCalls]
    intro call member
    exact call_explained_later (safe.calls call member) label
  · rw [samePhase, sameStatus]
    exact safe.ready

theorem safe_moved {config : HandshakeConfig} {labels : List HandshakeStep}
    {state next : Handshake} {label : HandshakeStep} (safe : Safe config labels state)
    (consistent : Consistent next.world) (sameInited : next.inited = state.inited)
    (phase : PhaseOk config (labels ++ [label]) next.world next.written next.calls next.phase)
    (calls : ∀ call ∈ next.calls,
      call ∈ state.calls ∨ CallExplained config (labels ++ [label]) call)
    (sameStatus : next.status = state.status)
    (unfinished : ∀ result, state.phase ≠ .finished (.ok result)) :
    Safe config (labels ++ [label]) next := by
  refine ⟨consistent, ?_, phase, ?_, ?_⟩
  · intro isInited
    rw [sameInited] at isInited
    exact frame_received_later (safe.inited isInited) label
  · intro call member
    rcases calls call member with before | now
    · exact call_explained_later (safe.calls call before) label
    · exact now
  · intro ready
    rw [sameStatus] at ready
    obtain ⟨result, same⟩ := safe.ready ready
    exact absurd same (unfinished result)

theorem safe_finished {config : HandshakeConfig} {labels : List HandshakeStep}
    {state next : Handshake} {label : HandshakeStep} (safe : Safe config labels state)
    (consistent : Consistent next.world) (sameInited : next.inited = state.inited)
    (error : CocoonError) (failed : next.phase = .finished (.error error))
    (sameCalls : next.calls = state.calls) (sameStatus : next.status = state.status)
    (unfinished : ∀ result, state.phase ≠ .finished (.ok result)) :
    Safe config (labels ++ [label]) next := by
  refine safe_moved safe consistent sameInited ?_ ?_ sameStatus unfinished
  · rw [failed, sameCalls]
    exact phase_calls safe.phase
  · intro call member
    exact .inl (sameCalls ▸ member)

section Steps

variable {config : HandshakeConfig} {labels : List HandshakeStep} {state : Handshake}

theorem correlator_safe {label : HandshakeStep} {world : Correlations} {action : CorrelatorStep}
    (transport : TransportState) (safe : Safe config labels state)
    (taken : QueryCorrelator.step state.world action = some world)
    (silent : ∀ id payload, action ≠ .deliver id payload) :
    Safe config (labels ++ [label]) { state with world := world, transport := transport } := by
  have owned := owns_step config labels label safe.consistent taken
    fun id payload same => absurd same (silent id payload)
  have after := (step_effect _ _ _ safe.consistent taken).consistent
  exact safe_framed safe after owned .inl ⟨[], by simp⟩ rfl rfl rfl

theorem idle_safe {label : HandshakeStep} {next : Handshake} (safe : Safe config labels state)
    (sameWorld : next.world = state.world) (sameInited : next.inited = state.inited)
    (written : ∃ more, next.written = state.written ++ more)
    (samePhase : next.phase = state.phase) (sameCalls : next.calls = state.calls)
    (sameStatus : next.status = state.status) : Safe config (labels ++ [label]) next := by
  refine safe_framed safe ?_ ?_ ?_ written samePhase sameCalls sameStatus
  · rw [sameWorld]
    exact safe.consistent
  · intro query id ref owns
    rw [sameWorld]
    exact owns_later owns label
  · intro inited
    exact .inl (sameInited ▸ inited)

theorem dispatch_safe (payload : List Byte) (pongWritten : Bool)
    (safe : Safe config labels state) :
    Safe config (labels ++ [.recvFrame payload pongWritten])
      (state.dispatch payload pongWritten) := by
  have unchanged : Safe config (labels ++ [.recvFrame payload pongWritten]) state :=
    idle_safe safe rfl rfl ⟨[], by simp⟩ rfl rfl rfl
  unfold Handshake.dispatch
  split
  · exact idle_safe safe rfl rfl ⟨[], by simp [Handshake.panic]⟩ rfl rfl rfl
  · exact unchanged
  · next packet decoded =>
      have received : ∀ accepts : DecodedTCPPacket → Prop, accepts packet →
          FrameReceived (labels ++ [.recvFrame payload pongWritten]) accepts :=
        fun accepts accepted => ⟨payload, pongWritten, packet, by simp, decoded, accepted⟩
      split
      · next kind =>
          refine safe_framed safe safe.consistent (fun _ _ _ owns => owns_later owns _) ?_
            ⟨[], by simp⟩ rfl rfl rfl
          intro _
          exact .inr (received _ kind)
      · split_ifs
        · exact idle_safe safe rfl rfl ⟨_, rfl⟩ rfl rfl rfl
        · exact unchanged
      · next kind =>
          have taken : QueryCorrelator.step state.world (.deliver packet.id packet.data) =
            some (deliver state.world packet.id packet.data).2 := rfl
          refine safe_framed safe (step_effect _ _ _ safe.consistent taken).consistent
            (owns_step config labels _ safe.consistent taken ?_) .inl ⟨[], by simp⟩ rfl rfl rfl
          intro id body same
          cases same
          exact ⟨payload, pongWritten, packet, by simp, decoded, kind, rfl, rfl⟩
      · have taken : QueryCorrelator.step state.world
            (.fail packet.id (.proxy packet.errCode packet.errMsg "query")) =
          some (fail state.world packet.id (.proxy packet.errCode packet.errMsg "query")).2 := rfl
        exact correlator_safe state.transport safe taken (by simp)
      · exact unchanged

theorem connect_answered_safe {label : HandshakeStep} {id : QueryID} {ref : Nat}
    {answer : List Byte} {world : Correlations} (safe : Safe config labels state)
    (waits : state.phase = .awaiting .connectToProxy id ref)
    (consistent : Consistent world)
    (owned : ∀ query id ref, Owns config labels state.world query id ref →
      Owns config (labels ++ [label]) world query id ref)
    (received : AnswerReceived config labels .connectToProxy id answer) :
    Safe config (labels ++ [label])
      ({ state with world := world }.afterConnect config answer) := by
  have before := safe.phase
  rw [waits] at before
  obtain ⟨⟨connected, noCalls⟩, -, sent⟩ := before
  have unfinished : ∀ result, state.phase ≠ .finished (.ok result) := by simp [waits]
  unfold Handshake.afterConnect
  split
  · exact safe_framed safe consistent owned .inl ⟨[], by simp [Handshake.panic]⟩ rfl rfl rfl
  · exact safe_finished safe consistent rfl _ rfl rfl rfl unfinished
  · next decoded accepted =>
      split
      · exact safe_finished safe consistent rfl _ rfl rfl rfl unfinished
      · next valid =>
          have approved : Approved config (labels ++ [label]) state.written decoded :=
            ⟨frame_received_later connected label, id, answer, sent,
              answer_received_later received label, accepted, valid⟩
          split_ifs
          · exact safe_moved safe consistent rfl ⟨approved, .inl noCalls⟩
              (fun _ member => .inl member) rfl unfinished
          · exact safe_moved safe consistent rfl ⟨approved, noCalls⟩
              (fun _ member => .inl member) rfl unfinished

theorem authorize_answered_safe {label : HandshakeStep} {id : QueryID} {ref : Nat}
    {decoded : ConnectedToProxyDecoded} {answer : List Byte} {world : Correlations}
    (safe : Safe config labels state)
    (waits : state.phase = .awaiting (.authorize decoded) id ref)
    (consistent : Consistent world)
    (owned : ∀ query id ref, Owns config labels state.world query id ref →
      Owns config (labels ++ [label]) world query id ref)
    (received : AnswerReceived config labels (.authorize decoded) id answer) :
    Safe config (labels ++ [label])
      ({ state with world := world }.afterAuthorize decoded answer) := by
  have before := safe.phase
  rw [waits] at before
  obtain ⟨⟨approved, few⟩, -, sent⟩ := before
  have unfinished : ∀ result, state.phase ≠ .finished (.ok result) := by simp [waits]
  unfold Handshake.afterAuthorize
  split
  · exact safe_framed safe consistent owned .inl ⟨[], by simp [Handshake.panic]⟩ rfl rfl rfl
  · exact safe_finished safe consistent rfl _ rfl rfl rfl unfinished
  · next result accepted =>
      split_ifs with success
      · refine safe_moved safe consistent rfl ⟨phase_calls safe.phase, decoded, ?_, ?_⟩
          (fun _ member => .inl member) rfl unfinished
        · have later := approved_later approved label []
          rwa [List.append_nil] at later
        · exact ⟨id, answer, result, sent, answer_received_later received label, accepted,
            success, rfl⟩
      · exact safe_finished safe consistent rfl _ rfl rfl rfl unfinished

theorem await_safe {query : Query} {id : QueryID} {ref : Nat} {next : Handshake}
    (taken : AwaitCase) (safe : Safe config labels state)
    (waits : state.phase = .awaiting query id ref)
    (moved : awaitQuery config state query ref taken = some next) :
    Safe config (labels ++ [.awaitQuery taken]) next := by
  have owns : Owns config labels state.world query id ref := by
    have before := safe.phase
    rw [waits] at before
    exact before.2.1
  have unfinished : ∀ result, state.phase ≠ .finished (.ok result) := by simp [waits]
  have consistent := safe.consistent
  cases taken with
  | contextDone =>
      obtain rfl := Option.some.inj moved
      exact safe_finished safe consistent rfl _ rfl rfl rfl unfinished
  | timeout =>
      obtain rfl := Option.some.inj moved
      exact safe_finished safe consistent rfl _ rfl rfl rfl unfinished
  | transportClosed =>
      simp only [awaitQuery] at moved
      split at moved
      · obtain rfl := Option.some.inj moved
        exact safe_finished safe consistent rfl _ rfl rfl rfl unfinished
      · cases moved
  | answer =>
      obtain ⟨⟨answer, world⟩, received, rfl⟩ := Option.map_eq_some_iff.mp moved
      have attributed := received_answer_attributed consistent owns received
      have corrTaken : QueryCorrelator.step state.world (.receiveAnswer ref) = some world := by
        simp [QueryCorrelator.step, received]
      have after := (step_effect _ _ _ consistent corrTaken).consistent
      have owned := owns_step config labels (.awaitQuery .answer) consistent corrTaken (by simp)
      cases query with
      | connectToProxy => exact connect_answered_safe safe waits after owned attributed
      | authorize decoded => exact authorize_answered_safe safe waits after owned attributed
  | err =>
      obtain ⟨⟨error, world⟩, received, rfl⟩ := Option.map_eq_some_iff.mp moved
      have corrTaken : QueryCorrelator.step state.world (.receiveErr ref) = some world := by
        simp [QueryCorrelator.step, received]
      exact safe_finished safe (step_effect _ _ _ consistent corrTaken).consistent rfl _ rfl rfl rfl
        unfinished

theorem register_query_safe {query : Query} (id : QueryID) (now : Int)
    (safe : Safe config labels state)
    (reached : runFrom (step config) newHandshake labels = some state)
    (registers : state.phase = .registering query) :
    Safe config (labels ++ [.registerQuery id now])
      (registerQuery config state query id now) := by
  have ok := safe.phase
  rw [registers] at ok
  have unfinished : ∀ result, state.phase ≠ .finished (.ok result) := by simp [registers]
  have taken : QueryCorrelator.step state.world (.register id now query.timeout) =
    some (register state.world id now query.timeout).2 := rfl
  have consistent := (step_effect _ _ _ safe.consistent taken).consistent
  unfold registerQuery
  split
  · next ref world outcome =>
      have accepted : (register state.world id now query.timeout).1 = .ok ref := by rw [outcome]
      have cell := registered_cell state.world id now query.timeout ref accepted
      rw [outcome] at consistent cell
      have queryOk := query_ok_later ok (.registerQuery id now) []
      rw [List.append_nil] at queryOk
      exact safe_moved safe consistent rfl
        ⟨queryOk, [], _, ⟨labels, now, state, rfl, reached, registers⟩, cell, rfl, by
          simp [values, newRegistration]⟩
        (fun _ member => .inl member) rfl unfinished
  · next error world outcome =>
      rw [outcome] at consistent
      exact safe_finished safe consistent rfl _ rfl rfl rfl unfinished

theorem write_query_safe {query : Query} {id : QueryID} {ref : Nat}
    (writeError : Option TlFrame.FrameError) (safe : Safe config labels state)
    (writes : state.phase = .writing query id ref) :
    Safe config (labels ++ [.writeQuery writeError])
      (writeQuery config state query id ref writeError) := by
  have ok := safe.phase
  rw [writes] at ok
  have unfinished : ∀ result, state.phase ≠ .finished (.ok result) := by simp [writes]
  cases writeError with
  | none =>
      refine safe_moved safe safe.consistent rfl
        ⟨query_ok_later ok.1 _ _, owns_later ok.2 _, ?_⟩ (fun _ member => .inl member) rfl
        unfinished
      exact List.mem_append_right _ (List.mem_singleton_self _)
  | some error =>
      have taken : QueryCorrelator.step state.world (.fail id (.frame error)) =
        some (fail state.world id (.frame error)).2 := rfl
      exact safe_finished safe (step_effect _ _ _ safe.consistent taken).consistent rfl _ rfl rfl
        rfl unfinished

theorem poll_safe {next : Handshake} (outcome : InitedCase) (safe : Safe config labels state)
    (polls : state.phase = .waitInited) (moved : pollInited state outcome = some next) :
    Safe config (labels ++ [.pollInited outcome]) next := by
  have noCalls := safe.phase
  rw [polls] at noCalls
  have unfinished : ∀ result, state.phase ≠ .finished (.ok result) := by simp [polls]
  have consistent := safe.consistent
  cases outcome with
  | inited =>
      simp only [pollInited] at moved
      split_ifs at moved with inited
      obtain rfl := Option.some.inj moved
      exact safe_moved safe consistent rfl
        ⟨frame_received_later (safe.inited inited) _, noCalls⟩ (fun _ member => .inl member) rfl
        unfinished
  | contextDone =>
      obtain rfl := Option.some.inj moved
      exact safe_finished safe consistent rfl _ rfl rfl rfl unfinished
  | transportClosed =>
      simp only [pollInited] at moved
      split at moved
      · obtain rfl := Option.some.inj moved
        exact safe_finished safe consistent rfl _ rfl rfl rfl unfinished
      · cases moved
  | late =>
      obtain rfl := Option.some.inj moved
      exact safe_finished safe consistent rfl _ rfl rfl rfl unfinished
  | again =>
      obtain rfl := Option.some.inj moved
      exact idle_safe safe rfl rfl ⟨[], by simp⟩ rfl rfl rfl

theorem register_on_chain_safe {decoded : ConnectedToProxyDecoded}
    (failure : Option CocoonError) (safe : Safe config labels state)
    (reached : runFrom (step config) newHandshake labels = some state)
    (calls : state.phase = .calling decoded) {next : Handshake}
    (sameWorld : next.world = state.world) (sameInited : next.inited = state.inited)
    (sameWritten : next.written = state.written) (sameStatus : next.status = state.status)
    (logged : next.calls = state.calls ++ [registerCallOf decoded])
    (moved : next.phase = .registering (.authorize decoded) ∨
      ∃ error, next.phase = .finished (.error error)) :
    Safe config (labels ++ [.registerOnChain failure]) next := by
  have ok := safe.phase
  rw [calls] at ok
  obtain ⟨approved, noCalls⟩ := ok
  rw [noCalls, List.nil_append] at logged
  refine safe_moved safe ?_ sameInited ?_ ?_ sameStatus (by simp [calls])
  · rw [sameWorld]
    exact safe.consistent
  · rw [logged, sameWritten]
    rcases moved with same | ⟨error, same⟩
    · rw [same]
      have later := approved_later approved (.registerOnChain failure) []
      rw [List.append_nil] at later
      exact ⟨later, .inr rfl⟩
    · rw [same]
      exact Nat.le_refl 1
  · intro call member
    rw [logged, List.mem_singleton] at member
    subst member
    exact .inr ⟨labels, failure, [], state, decoded, rfl, reached, noCalls, approved, rfl, rfl,
      rfl⟩

theorem conclude_safe {status : SessionStatus} (safe : Safe config labels state)
    (ready : status = .ready → ∃ result, state.phase = .finished (.ok result)) :
    Safe config (labels ++ [.conclude]) { state with status := status } := by
  have framed : Safe config (labels ++ [.conclude]) state :=
    idle_safe safe rfl rfl ⟨[], by simp⟩ rfl rfl rfl
  exact ⟨framed.consistent, framed.inited, framed.phase, framed.calls, ready⟩

theorem step_safe {next : Handshake} (label : HandshakeStep) (safe : Safe config labels state)
    (reached : runFrom (step config) newHandshake labels = some state)
    (taken : step config state label = some next) : Safe config (labels ++ [label]) next := by
  unfold ProxyHandshake.step at taken
  by_cases broken : state.panicked = true
  · simp [broken] at taken
  rw [if_neg broken] at taken
  cases label with
  | recvFrame payload pongWritten =>
      obtain rfl := Option.some.inj taken
      exact dispatch_safe payload pongWritten safe
  | correlatorSend ref position =>
      obtain ⟨world, sent, rfl⟩ := Option.map_eq_some_iff.mp taken
      have moved : QueryCorrelator.step state.world (.send ref position) = some world := sent
      exact correlator_safe state.transport safe moved (by simp)
  | gcExpired now =>
      obtain ⟨⟨count, world⟩, collected, rfl⟩ := Option.map_eq_some_iff.mp taken
      have moved : QueryCorrelator.step state.world (.gcExpired now) = some world := by
        simp [QueryCorrelator.step, collected]
      exact correlator_safe state.transport safe moved (by simp)
  | closeWithErr err =>
      simp only at taken
      split at taken
      · obtain rfl := Option.some.inj taken
        exact idle_safe safe rfl rfl ⟨[], by simp⟩ rfl rfl rfl
      · cases taken
  | closeFailAll =>
      simp only at taken
      split at taken
      · next err closing =>
          obtain rfl := Option.some.inj taken
          have moved : QueryCorrelator.step state.world (.failAll err) =
            some (failAll state.world err) := rfl
          exact correlator_safe (.failed err) safe moved (by simp)
      · cases taken
  | closeDone =>
      simp only at taken
      split at taken
      · obtain rfl := Option.some.inj taken
        exact idle_safe safe rfl rfl ⟨[], by simp⟩ rfl rfl rfl
      · cases taken
  | sendConnect id writeError =>
      simp only at taken
      have consistent := safe.consistent
      split at taken
      · next sends =>
          obtain rfl := Option.some.inj taken
          have noCalls := safe.phase
          rw [sends] at noCalls
          exact safe_moved safe consistent rfl noCalls (fun _ member => .inl member) rfl
            (by simp [sends])
      · next sends =>
          obtain rfl := Option.some.inj taken
          exact safe_finished safe consistent rfl _ rfl rfl rfl (by simp [sends])
      · cases taken
  | pollInited outcome =>
      simp only at taken
      split at taken
      · next polls => exact poll_safe outcome safe polls taken
      · cases taken
  | registerQuery id now =>
      simp only at taken
      split at taken
      · next query registers =>
          obtain rfl := Option.some.inj taken
          exact register_query_safe id now safe reached registers
      · cases taken
  | writeQuery writeError =>
      simp only at taken
      split at taken
      · next query id ref writes =>
          obtain rfl := Option.some.inj taken
          exact write_query_safe writeError safe writes
      · cases taken
  | awaitQuery awaited =>
      simp only at taken
      split at taken
      · next query id ref waits => exact await_safe awaited safe waits taken
      · cases taken
  | registerOnChain failure =>
      simp only at taken
      split at taken
      · next calls =>
          obtain rfl := Option.some.inj taken
          exact register_on_chain_safe _ safe reached calls rfl rfl rfl rfl rfl (.inl rfl)
      · next calls =>
          obtain rfl := Option.some.inj taken
          exact register_on_chain_safe _ safe reached calls rfl rfl rfl rfl rfl (.inr ⟨_, rfl⟩)
      · cases taken
  | conclude =>
      simp only at taken
      split at taken
      · next result finished =>
          obtain rfl := Option.some.inj taken
          exact conclude_safe safe fun _ => ⟨result, finished⟩
      · obtain rfl := Option.some.inj taken
        exact conclude_safe safe (by simp)
      · cases taken

end Steps

theorem run_safe (config : HandshakeConfig) (labels : List HandshakeStep) (state : Handshake)
    (reached : runFrom (step config) newHandshake labels = some state) :
    Safe config labels state :=
  run_induction (step config) newHandshake (Safe config) (new_handshake_safe config)
    (fun _ _ label _ before safe taken => step_safe label safe before taken) labels state reached

/-- Safety of the handshake against any proxy: at most one on-chain registration, made for an
approved answer with exactly its data; and a result, hence a ready session, only after the
proxy authorized the client's own query. -/
theorem handshake_safe_against_any_proxy (config : HandshakeConfig)
    (labels : List HandshakeStep) (state : Handshake)
    (reached : runFrom (step config) newHandshake labels = some state) :
    state.calls.length ≤ 1 ∧
    (∀ call ∈ state.calls, CallExplained config labels call) ∧
    (∀ result, state.phase = .finished (.ok result) → ∃ decoded,
      Approved config labels state.written decoded ∧
      Authorized config labels state.written decoded result) ∧
    (state.status = .ready → ∃ result, state.phase = .finished (.ok result)) := by
  have safe := run_safe config labels state reached
  refine ⟨phase_calls safe.phase, safe.calls, ?_, safe.ready⟩
  intro result finished
  have ok := safe.phase
  rw [finished] at ok
  exact ok.2

def queryAnswerFrame (id : QueryID) (body : List Byte) : List Byte :=
  (((newWriter.writeUint32 idTCPQueryAnswer).writeInt64 id).writeBytes body).buf

def plainConfig : HandshakeConfig where
  cocoonWalletAddr := ascii "EQ"
  rootConfigVersion := 1
  secretString := []
  registers := true

def connectedAnswer : List Byte :=
  let params := (((newWriter.writeUint32 idClientConnectedToProxy).writeFlags 3).writeInt256
    (copyInto 32 [])).writeString (ascii "owner")
  let versions := ((params.writeString (ascii "proxy")).writeBool false).writeInt32 1
  (((versions.writeString (ascii "client")).writeUint32 idClientProxyConnectionAuthLong).writeUint64
    7).writeUint32 idProxySignedPaymentEmpty |>.buf

def authorizedAnswer : List Byte :=
  ((((newWriter.writeUint32 idClientAuthorizationWithProxySuccess).writeUint32
    idProxySignedPaymentEmpty).writeInt64 0).writeInt64 100).buf

def honestRun : List HandshakeStep :=
  [.sendConnect 1 none, .recvFrame (encodeTCPConnected 1) true, .pollInited .inited,
    .registerQuery 5 0, .writeQuery none, .recvFrame (queryAnswerFrame 5 connectedAnswer) true,
    .correlatorSend 0 0, .awaitQuery .answer, .registerOnChain none, .registerQuery 6 0,
    .writeQuery none, .recvFrame (queryAnswerFrame 6 authorizedAnswer) true,
    .correlatorSend 1 0, .awaitQuery .answer, .conclude]

theorem honest_proxy_authorizes :
    ∃ state result decoded,
      runFrom (ProxyHandshake.step plainConfig) newHandshake honestRun = some state ∧
      state.status = .ready ∧ state.calls.length = 1 ∧
      (∀ call ∈ state.calls, CallExplained plainConfig honestRun call) ∧
      state.phase = .finished (.ok result) ∧
      Approved plainConfig honestRun state.written decoded ∧
      Authorized plainConfig honestRun state.written decoded result := by
  have outcome : (runFrom (ProxyHandshake.step plainConfig) newHandshake honestRun).map
      (fun state => (state.status, state.calls.length)) = some (.ready, 1) := by decide +kernel
  obtain ⟨state, reached, same⟩ := Option.map_eq_some_iff.mp outcome
  obtain ⟨ready, once⟩ := Prod.mk.inj same
  obtain ⟨-, explained, finished, concluded⟩ :=
    handshake_safe_against_any_proxy plainConfig honestRun state reached
  obtain ⟨result, phase⟩ := concluded ready
  obtain ⟨decoded, approved, authorized⟩ := finished result phase
  exact ⟨state, result, decoded, reached, ready, once, explained, phase, approved, authorized⟩

end Gocoon.ProxyHandshakeSafety
