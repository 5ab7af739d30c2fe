import Gocoon.WalletMessage

/-!
# Broadcasting from the cocoon wallet

`broadcastWithValue` wraps a body in one outbound message, signs it for the wallet and
hands the external message to the network, deploying the wallet with it when the seqno
method is not there yet. A failed call returns the hash beside its error, so the error
type of a broadcast is a pair. The reads that only feed the log after a confirmed send are
left out.

Whatever the chain answers, one broadcast adds to the log of sent messages nothing or one
message with the destination, value, body and initial state that the caller gave, and a
broadcast that returns without error added it and was told that it was accepted.
-/

namespace Gocoon.WalletBroadcaster

open Gocoon.LittleEndianBytes
open Gocoon.GoProgram
open Gocoon.TlPrimitives
open Gocoon.CocoonErrors
open Gocoon.CellBuilder
open Gocoon.TonChain
open Gocoon.WalletMessage

set_option autoImplicit false

variable {lib : TonLib}

structure LiteclientBroadcaster (lib : TonLib) where
  /-- Whether the `API` pointer is set. -/
  api : Bool
  nodeKey : List Byte
  walletAddress : Option lib.Address
  ownerAddress : Option lib.Address
  walletCode : Option Cell

abbrev BroadcastM (lib : TonLib) := GoM (ChainWorld lib) (GoString × CocoonError)

def hexDigit (value : Nat) : Byte := UInt8.ofNat (if value < 10 then 48 + value else 87 + value)

def encodeToString (bytes : List Byte) : GoString :=
  bytes.flatMap fun byte => [hexDigit (byte.toNat / 16), hexDigit (byte.toNat % 16)]

def accountCursor (env : ChainEnv lib) (dest : lib.Address) : ChainM lib (Option Account) := do
  let mc ← ask env.currentMasterchainInfo
  ask fun call => env.getAccount call mc dest

/-- A get method that cannot be run means a wallet that is not deployed. -/
def querySeqno (env : ChainEnv lib) (walletAddress : lib.Address) :
    ChainM lib (UInt32 × Bool) := do
  let mc ← ask env.currentMasterchainInfo
  match ← attempt (ask fun call => env.runGetSeqno call mc walletAddress) with
  | .error _ => pure (0, false)
  | .ok (.error cause) => fail (.wrapped "broadcaster: parse seqno" cause)
  | .ok (.ok value) =>
      if 0 ≤ value ∧ value < 2 ^ 64 then pure (UInt32.ofNat value.toNat, true)
      else fail (.text "broadcaster: seqno overflow")

/-- The message that wraps a body; only dust pays its fees separately. -/
def outboundMessage (dest : lib.Address) (body : Cell) (valueNano : UInt64)
    (init : Option Cell) : OutboundMessage lib where
  toAddr := some dest
  value := valueNano
  body := some body
  init := init
  mode := if 1 < valueNano then 0 else 1
  modeSet := true
  bounce := true

/-- The state that an undeployed wallet is deployed with. -/
def walletStateInit (broadcaster : LiteclientBroadcaster lib) (deployed : Bool) :
    ChainM lib (Option (Cell × Cell)) :=
  if deployed then pure none
  else
    match broadcaster.walletCode with
    | none => fail (.text "broadcaster: wallet not deployed and WalletCode nil")
    | some code => do
        let data ← mapError (.wrapped "broadcaster: build state init data")
          (lift (encodeStorage lib (lib.publicKey broadcaster.nodeKey) broadcaster.ownerAddress))
        pure (some (code, data))

def prepareExternal (env : ChainEnv lib) (broadcaster : LiteclientBroadcaster lib)
    (dest : lib.Address) (outbound : OutboundMessage lib) : ChainM lib (ExternalMessage lib) :=
  if broadcaster.api = false then fail (.text "broadcaster: nil API")
  else if broadcaster.nodeKey.length ≠ 64 then
    fail (.text "broadcaster: NodeKey must be ed25519 private key")
  else
    match broadcaster.walletAddress with
    | none => fail (.text "broadcaster: WalletAddress nil")
    | some walletAddress => do
        let _ ← attempt (accountCursor env dest)
        let (seqno, deployed) ← mapError (.wrapped "broadcaster: get seqno")
          (querySeqno env walletAddress)
        let now ← ask fun call => .ok (env.clock call)
        let signed ← mapError (.wrapped "broadcaster: build ext-msg")
          (lift (createSignedExternalMessage lib [outbound] broadcaster.nodeKey
            { seqno := seqno, subwalletID := 0, validUntil := 0 } now))
        let stateInit ← walletStateInit broadcaster deployed
        pure { dstAddr := walletAddress, body := signed, stateInit := stateInit }

def sendExternalMessageWaitTransaction (env : ChainEnv lib) (outbound : OutboundMessage lib)
    (external : ExternalMessage lib) : ChainM lib (List Byte) := do
  modify fun world => { world with sent := world.sent ++ [⟨world.calls, outbound, external⟩] }
  ask fun call => env.sendExternalMessage call external

def broadcastWithValue (env : ChainEnv lib) (broadcaster : LiteclientBroadcaster lib)
    (dest : lib.Address) (body : Cell) (valueNano : UInt64) (init : Option Cell) :
    BroadcastM lib GoString := do
  let outbound := outboundMessage dest body valueNano init
  let external ← mapError (fun error => ([], error))
    (prepareExternal env broadcaster dest outbound)
  let inMsgHash ← mapError
    (fun error => (encodeToString (lib.hash external.body),
      CocoonError.wrapped "broadcaster: send and confirm" error))
    (sendExternalMessageWaitTransaction env outbound external)
  pure (encodeToString inMsgHash)

def defaultMessageValueNano : UInt64 := 500000000

def broadcastExternal (env : ChainEnv lib) (broadcaster : LiteclientBroadcaster lib)
    (dest : lib.Address) (body : Cell) : BroadcastM lib GoString :=
  broadcastWithValue env broadcaster dest body defaultMessageValueNano none

def broadcastExternalWithValue (env : ChainEnv lib) (broadcaster : LiteclientBroadcaster lib)
    (dest : lib.Address) (body : Cell) (valueNano : UInt64) : BroadcastM lib GoString :=
  broadcastWithValue env broadcaster dest body valueNano none

def broadcastExternalWithValueAndInit (env : ChainEnv lib)
    (broadcaster : LiteclientBroadcaster lib) (dest : lib.Address) (body : Cell)
    (valueNano : UInt64) (init : Option Cell) : BroadcastM lib GoString :=
  broadcastWithValue env broadcaster dest body valueNano init

/-- `external` is addressed to the wallet and its body is `outbound`, signed by the node. -/
def SignedFor (broadcaster : LiteclientBroadcaster lib) (outbound : OutboundMessage lib)
    (external : ExternalMessage lib) : Prop :=
  broadcaster.walletAddress = some external.dstAddr ∧
    ∃ opts now, createSignedExternalMessage lib [outbound] broadcaster.nodeKey opts now =
      .ok external.body

/-- One more sent message, which carries `outbound`. -/
def Sends (broadcaster : LiteclientBroadcaster lib) (outbound : OutboundMessage lib)
    (entry : SentMessage lib) (world after : ChainWorld lib) : Prop :=
  entry.outbound = outbound ∧ SignedFor broadcaster outbound entry.external ∧
    after.sent = world.sent ++ [entry]

theorem query_seqno_silent (env : ChainEnv lib) (walletAddress : lib.Address) :
    Silent (querySeqno env walletAddress) := by
  refine (silent_ask _).bind fun mc => (silent_attempt (silent_ask _)).bind fun answer => ?_
  rcases answer with _ | (_ | value)
  · exact silent_pure _
  · exact silent_fail _
  · dsimp only
    split_ifs
    · exact silent_pure _
    · exact silent_fail _

theorem wallet_state_init_silent (broadcaster : LiteclientBroadcaster lib) (deployed : Bool) :
    Silent (walletStateInit broadcaster deployed) := by
  unfold walletStateInit
  split_ifs
  · exact silent_pure _
  · cases broadcaster.walletCode with
    | none => exact silent_fail _
    | some code =>
        exact (silent_map_error _ (silent_lift _)).bind fun data => silent_pure _

theorem account_cursor_silent (env : ChainEnv lib) (dest : lib.Address) :
    Silent (accountCursor env dest) :=
  (silent_ask _).bind fun _ => silent_ask _

theorem prepare_external_spec (env : ChainEnv lib) (broadcaster : LiteclientBroadcaster lib)
    (dest : lib.Address) (outbound : OutboundMessage lib) (world : ChainWorld lib) :
    Ends (prepareExternal env broadcaster dest outbound) world
      (fun external after => after.sent = world.sent ∧ SignedFor broadcaster outbound external)
      (fun after => after.sent = world.sent) := by
  unfold prepareExternal
  split_ifs
  · exact ends_fail rfl
  · exact ends_fail rfl
  · cases wallet : broadcaster.walletAddress with
    | none => exact ends_fail rfl
    | some walletAddress =>
        refine Ends.bind ((silent_attempt (account_cursor_silent env dest) world).mono ?_
          fun _ same => same)
        intro _ looked sameLooked
        refine Ends.bind ((silent_map_error _ (query_seqno_silent env walletAddress) looked).mono
          ?_ fun _ same => same.trans sameLooked)
        rintro ⟨seqno, deployed⟩ counted sameCounted
        refine Ends.bind (ends_ask ?_ (sameCounted.trans sameLooked))
        intro now _
        refine Ends.bind ((ends_map_error _).mpr (ends_lift ?_
          fun _ _ => sameCounted.trans sameLooked))
        intro signed signs
        refine Ends.bind ((wallet_state_init_silent broadcaster deployed _).mono ?_
          fun _ same => same.trans (sameCounted.trans sameLooked))
        intro stateInit _ sameInit
        exact ends_pure ⟨sameInit.trans (sameCounted.trans sameLooked), wallet, _, now, signs⟩

theorem broadcast_spec (env : ChainEnv lib) (broadcaster : LiteclientBroadcaster lib)
    (dest : lib.Address) (body : Cell) (valueNano : UInt64) (init : Option Cell)
    (world : ChainWorld lib) :
    Ends (broadcastWithValue env broadcaster dest body valueNano init) world
      (fun _ after => ∃ entry hash,
        Sends broadcaster (outboundMessage dest body valueNano init) entry world after ∧
          env.sendExternalMessage entry.call entry.external = .ok hash)
      (fun after => after.sent = world.sent ∨ ∃ entry,
        Sends broadcaster (outboundMessage dest body valueNano init) entry world after) := by
  unfold broadcastWithValue
  refine Ends.bind ((ends_map_error _).mpr
    ((prepare_external_spec env broadcaster dest _ world).mono ?_ fun _ same => Or.inl same))
  rintro external prepared ⟨same, signed⟩
  refine Ends.bind ((ends_map_error _).mpr (Ends.bind ?_))
  -- The message is logged before the network answers, so it stays when the answer is an error.
  have sends : ∀ after, after.sent = prepared.sent ++
      [⟨prepared.calls, outboundMessage dest body valueNano init, external⟩] →
      Sends broadcaster (outboundMessage dest body valueNano init)
        ⟨prepared.calls, outboundMessage dest body valueNano init, external⟩ world after := by
    intro after grown
    exact ⟨rfl, signed, by rw [grown, same]⟩
  refine ends_ask ?_ (Or.inr ⟨_, sends _ rfl⟩)
  intro hash accepted
  exact ends_pure ⟨_, hash, sends _ rfl, accepted⟩

end Gocoon.WalletBroadcaster
