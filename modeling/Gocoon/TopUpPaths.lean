import Gocoon.ProxySession
import Gocoon.RegisterOnChain

/-!
# The three ways a top-up is sent

A top-up body names an amount that the contract books, and the message that carries it
brings a value. The automatic top-up of a registration adds 0.7 TON to the amount in 64
bits; `Session.Send` and the control plane use the broadcaster's fixed 0.5 TON. Each path
is modelled with its other operations and its refusals. The reply page of the control
plane is kept as the answer it shows.
-/

namespace Gocoon.TopUpPaths

open Gocoon.LittleEndianBytes
open Gocoon.GoProgram
open Gocoon.TlPrimitives
open Gocoon.TlTypes
open Gocoon.CocoonErrors
open Gocoon.CellBuilder
open Gocoon.TonChain
open Gocoon.ClientContract
open Gocoon.WalletBroadcaster
open Gocoon.RegisterOnChain
open Gocoon.ProxySession

set_option autoImplicit false

variable {lib : TonLib}

/-- The interface method `BroadcastExternal`. -/
def sendPlain (env : ChainEnv lib) (broadcaster : Broadcaster lib) (dest : lib.Address)
    (body : Cell) : BroadcastM lib GoString :=
  match broadcaster with
  | .liteclient inner => broadcastExternal env inner dest body
  | .other methods => methods.broadcastExternal dest body

structure ChannelOps (lib : TonLib) where
  clientSCAddr : lib.Address
  excessesTo : lib.Address

structure PreparedMessage (lib : TonLib) where
  destination : lib.Address
  body : Cell

def newChannelOps (config : ClientConfig lib) (clientSCAddrStr : GoString) :
    Except CocoonError (ChannelOps lib) := do
  let clientSC ← lib.parseAddr clientSCAddrStr
  match config.cocoonWalletAddr with
  | none => .error (.text "cocoon: cocoon wallet address not set")
  | some excessesTo => .ok ⟨clientSC, excessesTo⟩

/-- `Session.ChannelOps`. -/
def channelOps (config : ClientConfig lib) (session : Session) :
    Except CocoonError (ChannelOps lib) :=
  if session.status ≠ .ready then .error .notConnected
  else if session.clientSCAddr = [] then .error .notConnected
  else newChannelOps config session.clientSCAddr

namespace ChannelOps

variable (ops : ChannelOps lib)

/-- A prepared message goes to the client contract. -/
def prepare (body : Except (Fault CocoonError) Cell) :
    Except (Fault CocoonError) (PreparedMessage lib) :=
  body.map fun cell => ⟨ops.clientSCAddr, cell⟩

def prepareTopUp (amount : Int) : Except (Fault CocoonError) (PreparedMessage lib) :=
  ops.prepare (buildExtTopUp lib (some amount) (some ops.excessesTo))

def prepareWithdraw : Except (Fault CocoonError) (PreparedMessage lib) :=
  ops.prepare (buildOwnerWithdraw lib (some ops.excessesTo))

def prepareRequestRefund : Except (Fault CocoonError) (PreparedMessage lib) :=
  ops.prepare (buildOwnerRequestRefund lib (some ops.excessesTo))

def prepareIncreaseStake (amount : Int) : Except (Fault CocoonError) (PreparedMessage lib) :=
  ops.prepare (buildOwnerIncreaseStake lib (some amount) (some ops.excessesTo))

/-- The switch of `Send`. -/
def prepareOp (op : GoString) (args : List (Option Int)) :
    Except (Fault CocoonError) (PreparedMessage lib) :=
  if op = ascii "topup" then
    match args with
    | [some amount] => ops.prepareTopUp amount
    | _ => .error (.returned (.text "cocoon: Send(topup): need amount"))
  else if op = ascii "withdraw" then ops.prepareWithdraw
  else if op = ascii "close" then ops.prepareRequestRefund
  else if op = ascii "stake" then
    match args with
    | [some amount] => ops.prepareIncreaseStake amount
    | _ => .error (.returned (.text "cocoon: Send(stake): need amount"))
  else .error (.returned (.quoted "cocoon: Send: unknown op %q" op))

end ChannelOps

/-- `Session.Send`. -/
def send (env : ChainEnv lib) (config : ClientConfig lib) (session : Session) (op : GoString)
    (broadcaster : Option (Broadcaster lib)) (args : List (Option Int)) :
    BroadcastM lib GoString :=
  match broadcaster with
  | none => GoProgram.fail ([], .text "cocoon: nil broadcaster")
  | some present =>
      match channelOps config session with
      | .error error => GoProgram.fail ([], error)
      | .ok ops => do
          let prepared ← mapError (fun error => ([], error)) (lift (ops.prepareOp op args))
          sendPlain env present prepared.destination prepared.body

structure ControlPlane (lib : TonLib) where
  broadcaster : Option (Broadcaster lib)
  cocoonWalletAddr : Option lib.Address

/-- What the reply page says. -/
inductive Answer where
  | failed (message : String)
  | failedWith (error : CocoonError)
  | requestSent
  deriving DecidableEq

def decimal (digits : List Byte) : Option Nat :=
  if digits = [] then none
  else digits.foldlM (fun value digit =>
    if 48 ≤ digit ∧ digit ≤ 57 then some (10 * value + (digit.toNat - 48)) else none) 0

/-- `SetString` in base ten: a sign and at least one digit. -/
def setString (text : GoString) : Option Int :=
  match text with
  | 45 :: digits => (decimal digits).map fun value => -(value : Int)
  | 43 :: digits => (decimal digits).map Int.ofNat
  | digits => (decimal digits).map Int.ofNat

/-- The amount of a top-up request; one TON when the parameter is absent. -/
def requestedAmount (amount : GoString) : Except CocoonError Int :=
  if amount = [] then .ok 1000000000
  else
    match setString amount with
    | none => .error (.quoted "invalid amount %q" amount)
    | some value => if value < 0 then .error (.quoted "invalid amount %q" amount) else .ok value

def buildRequestBody (excesses : lib.Address) (verb amount : GoString) :
    Except (Fault CocoonError) Cell :=
  if verb = ascii "close" then buildOwnerRequestRefund lib (some excesses)
  else if verb = ascii "withdraw" then buildOwnerWithdraw lib (some excesses)
  else if verb = ascii "topup" then do
    let nano ← (requestedAmount amount).mapError Fault.returned
    buildExtTopUp lib (some nano) (some excesses)
  else .error (.returned (.quoted "unknown verb %q" verb))

/-- `proxyAddr` is the request's `proxy` parameter after `TrimSpace`, `amount` its `amount`
parameter. -/
def requestHandler (env : ChainEnv lib) (plane : ControlPlane lib)
    (verb proxyAddr amount : GoString) : ChainM lib Answer :=
  if proxyAddr = [] then pure (.failed "missing proxy parameter")
  else
    match lib.parseAddr proxyAddr with
    | .error _ => pure (.failed "invalid proxy address")
    | .ok clientSC =>
        match plane.broadcaster, plane.cocoonWalletAddr with
        | some broadcaster, some excesses => do
            match ← attempt (lift (buildRequestBody excesses verb amount)) with
            | .error error => pure (.failedWith error)
            | .ok body => do
                match ← attempt (mapError Prod.snd
                    (sendPlain env broadcaster clientSC body)) with
                | .error error => pure (.failedWith error)
                | .ok _ => pure .requestSent
        | _, _ => pure (.failed "client not initialized")

/-- `entry` carries the top-up body for `amount` with `value` attached. -/
def CarriesTopUp (broadcaster : LiteclientBroadcaster lib) (amount : Int) (value : UInt64)
    (entry : SentMessage lib) : Prop :=
  ∃ owner dest body, buildExtTopUp lib (some amount) (some owner) = .ok body ∧
    entry.outbound = outboundMessage dest body value none ∧
    SignedFor broadcaster entry.outbound entry.external

/-- What a top-up through `BroadcastExternal` adds to the log. -/
def PlainTopUp (broadcaster : LiteclientBroadcaster lib) (amount : Int)
    (world after : ChainWorld lib) : Prop :=
  after.sent = world.sent ∨ ∃ entry, after.sent = world.sent ++ [entry] ∧
    CarriesTopUp broadcaster amount defaultMessageValueNano entry

theorem plain_top_up_spec (env : ChainEnv lib) (broadcaster : LiteclientBroadcaster lib)
    (owner dest : lib.Address) (amount : Int) (body : Cell)
    (made : buildExtTopUp lib (some amount) (some owner) = .ok body) (world : ChainWorld lib) :
    Ends (sendPlain env (.liteclient broadcaster) dest body) world
      (fun _ after => PlainTopUp broadcaster amount world after)
      (PlainTopUp broadcaster amount world) := by
  have added : ∀ entry after, Sends broadcaster
      (outboundMessage dest body defaultMessageValueNano none) entry world after →
      PlainTopUp broadcaster amount world after := by
    rintro entry after ⟨carried, signed, grown⟩
    refine Or.inr ⟨entry, grown, owner, dest, body, made, carried, ?_⟩
    rw [carried]
    exact signed
  refine (broadcast_spec env broadcaster dest body defaultMessageValueNano none world).mono ?_ ?_
  · rintro _ after ⟨entry, _, sends, _⟩
    exact added entry after sends
  · rintro after (kept | ⟨entry, sends⟩)
    · exact Or.inl kept
    · exact added entry after sends

theorem session_send_spec (env : ChainEnv lib) (config : ClientConfig lib) (session : Session)
    (broadcaster : LiteclientBroadcaster lib) (amount : Int) (world : ChainWorld lib) :
    Ends (send env config session (ascii "topup") (some (.liteclient broadcaster)) [some amount])
      world (fun _ after => PlainTopUp broadcaster amount world after)
      (PlainTopUp broadcaster amount world) := by
  unfold send
  dsimp only
  cases channelOps config session with
  | error error => exact ends_fail (Or.inl rfl)
  | ok ops =>
      refine Ends.bind ((ends_map_error _).mpr (ends_lift ?_ fun _ _ => Or.inl rfl))
      intro prepared made
      simp only [ChannelOps.prepareOp, if_true, ChannelOps.prepareTopUp, ChannelOps.prepare] at made
      cases body : buildExtTopUp lib (some amount) (some ops.excessesTo) with
      | error fault =>
          rw [body] at made
          cases made
      | ok cell =>
          rw [body] at made
          cases made
          exact plain_top_up_spec env broadcaster ops.excessesTo _ amount cell body world

theorem control_plane_spec (env : ChainEnv lib) (broadcaster : LiteclientBroadcaster lib)
    (wallet : Option lib.Address) (proxyAddr amountText : GoString) (amount : Int)
    (accepted : requestedAmount amountText = .ok amount) (world : ChainWorld lib) :
    Ends (requestHandler env ⟨some (.liteclient broadcaster), wallet⟩ (ascii "topup") proxyAddr
      amountText) world (fun _ after => PlainTopUp broadcaster amount world after)
      (PlainTopUp broadcaster amount world) := by
  unfold requestHandler
  split_ifs
  · exact ends_pure (Or.inl rfl)
  cases lib.parseAddr proxyAddr with
  | error _ => exact ends_pure (Or.inl rfl)
  | ok clientSC =>
      cases wallet with
      | none => exact ends_pure (Or.inl rfl)
      | some excesses =>
          have isBody : buildRequestBody excesses (ascii "topup") amountText =
              buildExtTopUp lib (some amount) (some excesses) := by
            rw [buildRequestBody, if_neg (by decide), if_neg (by decide), if_pos rfl, accepted]
            rfl
          dsimp only
          rw [isBody]
          refine Ends.bind (ends_attempt (ends_lift ?_ fun _ _ => Or.inl rfl)
            (fun _ _ sent => ends_pure sent) fun _ sent => sent)
          intro body made
          exact Ends.bind (ends_attempt ((ends_map_error _).mpr
            ((plain_top_up_spec env broadcaster excesses clientSC amount body made world).mono
              (fun _ _ sent => ends_pure sent) fun _ sent => sent))
            (fun _ _ sent => ends_pure sent) fun _ sent => sent)

theorem plain_top_up_entry {broadcaster : LiteclientBroadcaster lib} {amount : Int}
    {world after : ChainWorld lib} {entry : SentMessage lib}
    (sent : PlainTopUp broadcaster amount world after)
    (grown : after.sent = world.sent ++ [entry]) :
    CarriesTopUp broadcaster amount defaultMessageValueNano entry := by
  rcases sent with kept | ⟨found, added, carries⟩
  · rw [kept] at grown
    simp at grown
  · have same := List.append_cancel_left (grown.symm.trans added)
    obtain rfl : entry = found := by simpa using same
    exact carries

theorem control_plane_entry {env : ChainEnv lib} {broadcaster : LiteclientBroadcaster lib}
    {wallet : Option lib.Address} {proxyAddr amountText : GoString} {amount : Int}
    (accepted : requestedAmount amountText = .ok amount) {world : ChainWorld lib}
    {entry : SentMessage lib}
    (ran : (exec (requestHandler env ⟨some (.liteclient broadcaster), wallet⟩ (ascii "topup")
      proxyAddr amountText) world).2.sent = world.sent ++ [entry]) :
    CarriesTopUp broadcaster amount defaultMessageValueNano entry :=
  plain_top_up_entry
    (control_plane_spec env broadcaster wallet proxyAddr amountText amount accepted world).final ran

theorem checked_unique {env : ChainEnv lib} {config : ClientConfig lib} {proxy : ProxyParams}
    {owner clientSC : lib.Address} {firstCall : Nat}
    (left right : CheckedContract env config proxy owner clientSC firstCall) :
    left.minClientStake = right.minClientStake ∧ left.account = right.account := by
  have sameConfigured : left.rootConfigured = right.rootConfigured :=
    Option.some.inj (left.rootSet.symm.trans right.rootSet)
  have sameRoot : left.rootAddr = right.rootAddr := by
    have parsed := left.rootParsed
    rw [sameConfigured, right.rootParsed] at parsed
    exact (Except.ok.inj parsed).symm
  have sameSnapshot : left.snapshot = right.snapshot := by
    have read := left.snapshotRead
    rw [sameRoot, right.snapshotRead] at read
    exact (Except.ok.inj read).symm
  have sameMasterchain : left.masterchain = right.masterchain :=
    Except.ok.inj (left.masterchainRead.symm.trans right.masterchainRead)
  constructor
  · have present := left.stakePresent
    rw [sameSnapshot, right.stakePresent] at present
    exact (Option.some.inj present).symm
  · have read := left.accountRead
    rw [sameMasterchain, right.accountRead] at read
    exact (Except.ok.inj read).symm

theorem automatic_spec (env : ChainEnv lib) (config : ClientConfig lib)
    (broadcaster : LiteclientBroadcaster lib)
    (configured : config.broadcaster = some (.liteclient broadcaster))
    (hasAPI : broadcaster.api = true) (clientSCAddrStr : GoString) (nonce : UInt64)
    (proxy : ProxyParams) (world : ChainWorld lib) (owner clientSC : lib.Address)
    (wallet : config.cocoonWalletAddr = some owner)
    (parsed : lib.parseAddr clientSCAddrStr = .ok clientSC)
    (checked : CheckedContract env config proxy owner clientSC world.calls) (amount : Int)
    (due : topUpAmount checked.minClientStake checked.account = some amount)
    (register entry : SentMessage lib)
    (ran : (exec (registerOnChain env config clientSCAddrStr nonce proxy) world).2.sent =
      world.sent ++ [register, entry]) :
    0 < amount ∧ amount < 2 ^ 64 ∧ CarriesTopUp broadcaster amount (topUpValue amount) entry := by
  rcases (register_on_chain_spec env config broadcaster configured hasAPI clientSCAddrStr nonce
    proxy world).final with kept | ⟨owner', clientSC', sent, wallet', parsed', grown, signed, found,
      registers⟩
  · rw [kept] at ran
    simp at ran
  obtain rfl : owner = owner' := Option.some.inj (wallet.symm.trans wallet')
  obtain rfl : clientSC = clientSC' := Except.ok.inj (parsed.symm.trans parsed')
  have both : [register, entry] = sent := List.append_cancel_left (ran.symm.trans grown)
  subst both
  cases registers with
  | toppedUp _ _ isTopUp =>
      obtain ⟨foundDue, positive, small, body, made, carried⟩ := isTopUp
      obtain ⟨sameStake, sameAccount⟩ := checked_unique checked found
      rw [← sameStake, ← sameAccount, due] at foundDue
      obtain rfl := Option.some.inj foundDue
      exact ⟨positive, small, owner, clientSC, body, made, carried, signed entry (by simp)⟩

inductive TopUpPath where
  | automatic
  | sessionSend
  | controlPlane
  deriving DecidableEq

/-- The amounts whose top-up brings enough value. -/
def CoveredWhen (path : TopUpPath) (amount : Int) : Prop :=
  match path with
  | .automatic => amount + 700000000 < 2 ^ 64
  | .sessionSend | .controlPlane => amount ≤ 500000000

instance (path : TopUpPath) (amount : Int) : Decidable (CoveredWhen path amount) :=
  match path with
  | .automatic => inferInstanceAs (Decidable (amount + 700000000 < 2 ^ 64))
  | .sessionSend | .controlPlane => inferInstanceAs (Decidable (amount ≤ 500000000))

/-- `entry` is the message that a run of the path with an accepted `amount` sent. -/
inductive TopUpRun (env : ChainEnv lib) (broadcaster : LiteclientBroadcaster lib) :
    TopUpPath → Int → SentMessage lib → Prop where
  | automatic {config : ClientConfig lib} {clientSCAddrStr : GoString} {nonce : UInt64}
      {proxy : ProxyParams} {world : ChainWorld lib} {owner clientSC : lib.Address} {amount : Int}
      {register entry : SentMessage lib}
      (configured : config.broadcaster = some (.liteclient broadcaster))
      (hasAPI : broadcaster.api = true)
      (wallet : config.cocoonWalletAddr = some owner)
      (parsed : lib.parseAddr clientSCAddrStr = .ok clientSC)
      (checked : CheckedContract env config proxy owner clientSC world.calls)
      (due : topUpAmount checked.minClientStake checked.account = some amount)
      (ran : (exec (registerOnChain env config clientSCAddrStr nonce proxy) world).2.sent =
        world.sent ++ [register, entry]) : TopUpRun env broadcaster .automatic amount entry
  | sessionSend {config : ClientConfig lib} {session : Session} {world : ChainWorld lib}
      {amount : Int} {entry : SentMessage lib}
      (ran : (exec (send env config session (ascii "topup") (some (.liteclient broadcaster))
        [some amount]) world).2.sent = world.sent ++ [entry]) :
      TopUpRun env broadcaster .sessionSend amount entry
  | controlPlane {wallet : Option lib.Address} {proxyAddr amountText : GoString}
      {world : ChainWorld lib} {amount : Int} {entry : SentMessage lib}
      (accepted : requestedAmount amountText = .ok amount)
      (ran : (exec (requestHandler env ⟨some (.liteclient broadcaster), wallet⟩ (ascii "topup")
        proxyAddr amountText) world).2.sent = world.sent ++ [entry]) :
      TopUpRun env broadcaster .controlPlane amount entry

theorem top_up_value_covers {amount : Int} (positive : 0 < amount) (small : amount < 2 ^ 64) :
    amount ≤ ((topUpValue amount).toNat : Int) ↔ amount + 700000000 < 2 ^ 64 := by
  obtain ⟨nano, rfl⟩ := Int.eq_ofNat_of_zero_le (le_of_lt positive)
  have value : (topUpValue nano).toNat = (nano + 700000000) % 2 ^ 64 := by
    simp [topUpValue, UInt64.toNat_add]
  rw [value]
  omega

theorem carries_value {broadcaster : LiteclientBroadcaster lib} {amount : Int} {value : UInt64}
    {entry : SentMessage lib} (carries : CarriesTopUp broadcaster amount value entry) :
    entry.outbound.value = value := by
  obtain ⟨_, _, _, _, carried, _⟩ := carries
  rw [carried]
  rfl

/-- A sent top-up carries its body for the accepted amount, and brings at least that amount
exactly when the amount is in the range of its path. -/
theorem top_up_covered_iff (env : ChainEnv lib) (broadcaster : LiteclientBroadcaster lib)
    (path : TopUpPath) (amount : Int) (entry : SentMessage lib)
    (sent : TopUpRun env broadcaster path amount entry) :
    CarriesTopUp broadcaster amount entry.outbound.value entry ∧
      (amount ≤ (entry.outbound.value.toNat : Int) ↔ CoveredWhen path amount) := by
  have plain : CarriesTopUp broadcaster amount defaultMessageValueNano entry →
      CarriesTopUp broadcaster amount entry.outbound.value entry ∧
        (amount ≤ (entry.outbound.value.toNat : Int) ↔ amount ≤ 500000000) := by
    intro carries
    rw [carries_value carries]
    exact ⟨carries, Iff.rfl⟩
  cases sent with
  | automatic configured hasAPI wallet parsed checked due ran =>
      obtain ⟨positive, small, carries⟩ := automatic_spec env _ broadcaster configured hasAPI
        _ _ _ _ _ _ wallet parsed checked amount due _ entry ran
      rw [carries_value carries]
      exact ⟨carries, top_up_value_covers positive small⟩
  | sessionSend ran =>
      exact plain (plain_top_up_entry (session_send_spec env _ _ broadcaster amount _).final ran)
  | controlPlane accepted ran => exact plain (control_plane_entry accepted ran)

def sampleSession : Session where
  proxyAddr := ascii "proxy:8888"
  status := .ready
  transport := some 0
  clientSCAddr := sampleContract
  err := none
  closeOnce := .unused

theorem small_session_top_up_covered :
    ∃ entry, TopUpRun sampleEnv sampleBroadcaster .sessionSend 400000000 entry ∧
      CarriesTopUp sampleBroadcaster 400000000 entry.outbound.value entry ∧
      (400000000 : Int) ≤ (entry.outbound.value.toNat : Int) := by
  have values : (exec (send sampleEnv sampleConfig sampleSession (ascii "topup")
      (some (.liteclient sampleBroadcaster)) [some 400000000]) ⟨0, []⟩).2.sent.map
        (fun entry => entry.outbound.value) = [500000000] := by decide +kernel
  obtain ⟨entry, single, _⟩ := List.map_eq_singleton_iff.mp values
  have sent : TopUpRun sampleEnv sampleBroadcaster .sessionSend 400000000 entry :=
    .sessionSend single
  obtain ⟨carries, covered⟩ := top_up_covered_iff sampleEnv sampleBroadcaster .sessionSend 400000000
    entry sent
  exact ⟨entry, sent, carries, covered.mpr (by decide)⟩

/-- A request without an amount: one TON is booked and half a TON is sent. -/
theorem default_top_up_not_covered :
    ∃ entry, TopUpRun sampleEnv sampleBroadcaster .controlPlane 1000000000 entry ∧
      CarriesTopUp sampleBroadcaster 1000000000 500000000 entry ∧
      ¬ (1000000000 : Int) ≤ (entry.outbound.value.toNat : Int) := by
  have values : (exec (requestHandler sampleEnv
      ⟨some (.liteclient sampleBroadcaster), sampleConfig.cocoonWalletAddr⟩ (ascii "topup")
      sampleContract [])
      ⟨0, []⟩).2.sent.map (fun entry => entry.outbound.value) = [500000000] := by decide +kernel
  obtain ⟨entry, single, value⟩ := List.map_eq_singleton_iff.mp values
  have accepted : requestedAmount [] = .ok 1000000000 := by decide
  refine ⟨entry, .controlPlane accepted single, control_plane_entry accepted single, ?_⟩
  rw [value]
  decide

end Gocoon.TopUpPaths
