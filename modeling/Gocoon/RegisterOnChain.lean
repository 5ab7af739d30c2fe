import Gocoon.ClientContract
import Gocoon.TlTypes
import Gocoon.WalletBroadcaster
import Mathlib.Data.List.Induction
import Mathlib.Data.Nat.Digits.Defs

/-!
# Registering with a proxy on chain

During a long authorization the proxy names the contract that the client should register
with. `registerOnChain` derives the contract's address from what the root contract and the
proxy's parameters say and goes on only when it is the named one; it then sends the
register message, with the initial state when the contract is not there yet, and tops the
contract up to the least stake.
-/

namespace Gocoon.RegisterOnChain

open Gocoon.LittleEndianBytes
open Gocoon.GoProgram
open Gocoon.TlPrimitives
open Gocoon.TlTypes
open Gocoon.CocoonErrors
open Gocoon.CellBuilder
open Gocoon.RootSnapshot
open Gocoon.TonChain
open Gocoon.ClientContract
open Gocoon.WalletBroadcaster

set_option autoImplicit false

variable {lib : TonLib}

/-- A broadcaster that is not the liteclient one, with the methods it has. -/
structure BroadcasterMethods (lib : TonLib) where
  broadcastExternal : lib.Address → Cell → BroadcastM lib GoString
  broadcastExternalWithValue : Option (lib.Address → Cell → UInt64 → BroadcastM lib GoString)
  broadcastExternalWithValueAndInit :
    Option (lib.Address → Cell → UInt64 → Option Cell → BroadcastM lib GoString)

inductive Broadcaster (lib : TonLib) where
  | liteclient (broadcaster : LiteclientBroadcaster lib)
  | other (methods : BroadcasterMethods lib)

/-- `broadcastExternalWithValue` of the client, which falls back to the plain method. -/
def sendWithValue (env : ChainEnv lib) (broadcaster : Broadcaster lib) (dest : lib.Address)
    (body : Cell) (valueNano : UInt64) : BroadcastM lib GoString :=
  match broadcaster with
  | .liteclient inner => broadcastExternalWithValue env inner dest body valueNano
  | .other methods =>
      match methods.broadcastExternalWithValue with
      | some send => send dest body valueNano
      | none => methods.broadcastExternal dest body

/-- `broadcastExternalWithValueAndInit` of the client. -/
def sendWithValueAndInit (env : ChainEnv lib) (broadcaster : Broadcaster lib)
    (dest : lib.Address) (body : Cell) (valueNano : UInt64) (init : Option Cell) :
    BroadcastM lib GoString :=
  match broadcaster with
  | .liteclient inner => broadcastExternalWithValueAndInit env inner dest body valueNano init
  | .other methods =>
      match methods.broadcastExternalWithValueAndInit with
      | some send => send dest body valueNano init
      | none =>
          if init.isSome then
            fail ([], .text "cocoon: broadcaster does not support init messages")
          else sendWithValue env broadcaster dest body valueNano

structure ClientConfig (lib : TonLib) where
  broadcaster : Option (Broadcaster lib)
  rootAddress : Option lib.Address
  cocoonWalletAddr : Option lib.Address

def bigEndian (bytes : List Byte) : Nat :=
  bytes.foldl (fun value byte => 256 * value + byte.toNat) 0

theorem big_endian_digits (bytes : List Byte) :
    bigEndian bytes = Nat.ofDigits 256 (bytes.reverse.map UInt8.toNat) := by
  induction bytes using List.reverseRecOn with
  | nil => rfl
  | append_singleton bytes byte ih =>
      rw [List.reverse_concat, List.map_cons, Nat.ofDigits_cons, ← ih, bigEndian,
        List.foldl_append]
      exact Nat.add_comm _ _

/-- The storage of a fresh client contract. -/
def clientStorage (minClientStake : Int) (owner proxyAddr : lib.Address)
    (publicKey : FixedBytes 32) (paramsCell : Cell) : Storage lib where
  state := 0
  balance := some 0
  stake := some minClientStake
  tokensUsed := 0
  unlockTs := 0
  secretHash := some 0
  ownerAddress := some owner
  proxyAddress := some proxyAddr
  proxyPubKey := some (bigEndian publicKey.val)
  params := some paramsCell

/-- `active` in the source: an account with the active status and a code. -/
def accountActive (account : Option Account) : Bool :=
  match account with
  | none => false
  | some found => found.state == some .active && found.code.isSome

def IsActive (account : Option Account) : Prop :=
  ∃ found code, account = some found ∧ found.state = some .active ∧ found.code = some code

theorem account_active_iff (account : Option Account) :
    accountActive account = true ↔ IsActive account := by
  cases account with
  | none => simp [accountActive, IsActive]
  | some found => simp [accountActive, IsActive, Option.isSome_iff_exists]

/-- Data that does not decode is logged and counts as an empty balance. -/
def currentBalance (account : Option Account) : Int :=
  match account with
  | none => 0
  | some found =>
      if accountActive account then
        match found.data with
        | none => 0
        | some data =>
            match decodeClientRequestBalance data with
            | .ok balance => balance
            | .error _ => 0
      else 0

def topUpAmount (minClientStake : Int) (account : Option Account) : Option Int :=
  if currentBalance account < minClientStake then
    some (minClientStake - currentBalance account)
  else none

def loadRootSnapshot (env : ChainEnv lib) (rootAddress : Option lib.Address) :
    ChainM lib StateSnapshot :=
  match rootAddress with
  | none => crash
  | some configured => do
      let addr ← mapError (.wrapped "root: parse address")
        (lift ((lib.parseAddr (lib.string configured)).mapError Fault.returned))
      ask fun call => env.loadStateSnapshot call addr

def expectedContract (snapshot : StateSnapshot) (owner : lib.Address) (proxy : ProxyParams) :
    ChainM lib (Int × Storage lib × Cell) :=
  match snapshot.clientSCCode with
  | none => fail (.text "cocoon: root client_sc_code is nil")
  | some code =>
      match snapshot.minClientStake with
      | none => fail (.text "cocoon: root min_client_stake is invalid")
      | some minClientStake =>
          if minClientStake ≤ 0 then fail (.text "cocoon: root min_client_stake is invalid")
          else do
            let paramsCell ← lift (built snapshot.clientParamsCell)
            let proxyAddr ← mapError (.wrapped "cocoon: parse proxy_sc_address")
              (lift ((lib.parseAddr proxy.scAddress).mapError Fault.returned))
            pure (minClientStake,
              clientStorage minClientStake owner proxyAddr proxy.publicKey paramsCell, code)

/-- The part of the registration that needs the chain: what to attach and what to top up. -/
def inspectContract (env : ChainEnv lib) (config : ClientConfig lib) (owner clientSC : lib.Address)
    (proxy : ProxyParams) : ChainM lib (Option Cell × Option Int) := do
  let snapshot ← loadRootSnapshot env config.rootAddress
  let (minClientStake, storage, code) ← expectedContract snapshot owner proxy
  let derivedAddr ← lift (deriveAddress lib storage (some code))
  if lib.equals derivedAddr clientSC = false then
    fail (.addressMismatch (lib.string derivedAddr) (lib.string clientSC)
      (lib.stringRaw derivedAddr) (lib.stringRaw clientSC))
  else do
    let mc ← mapError (.wrapped "cocoon: client account check") (ask env.currentMasterchainInfo)
    let account ← mapError (.wrapped "cocoon: client account fetch")
      (ask fun call => env.getAccount call mc clientSC)
    let topUp := topUpAmount minClientStake account
    if accountActive account then pure (none, topUp)
    else do
      let initCell ← mapError (.wrapped "cocoon: client init")
        (lift (buildStateInit lib storage (some code)))
      pure (some initCell, topUp)

def registerValueNano : UInt64 := 1000000000

/-- `topUpAmount.Uint64() + 700_000_000`, in 64 bits. -/
def topUpValue (amount : Int) : UInt64 := UInt64.ofNat amount.toNat + 700000000

def sendTopUp (env : ChainEnv lib) (broadcaster : Broadcaster lib)
    (excessesTo clientSC : lib.Address) (topUp : Option Int) : ChainM lib Unit :=
  match topUp with
  | none => pure ()
  | some amount =>
      if amount ≤ 0 then pure ()
      else if 2 ^ 64 ≤ amount then fail (.text "cocoon: top-up amount overflows uint64")
      else do
        let topUpBody ← lift (buildExtTopUp lib (some amount) (some excessesTo))
        let _ ← mapError (fun (hash, inner) => .chain "topup" hash inner)
          (sendWithValue env broadcaster clientSC topUpBody (topUpValue amount))
        pure ()

def registerOnChain (env : ChainEnv lib) (config : ClientConfig lib) (clientSCAddrStr : GoString)
    (nonce : UInt64) (proxy : ProxyParams) : ChainM lib Unit :=
  match config.broadcaster with
  | none => fail (.text "cocoon: long-auth requires Broadcaster but none configured")
  | some broadcaster => do
      let clientSC ← lift ((lib.parseAddr clientSCAddrStr).mapError Fault.returned)
      match config.cocoonWalletAddr with
      | none => fail (.text "cocoon: cocoon wallet address not set")
      | some excessesTo => do
          let (initCell, topUp) ←
            match broadcaster with
            | .liteclient inner =>
                if inner.api then inspectContract env config excessesTo clientSC proxy
                else pure (none, none)
            | .other _ => pure (none, none)
          let body ← buildOwnerRegister lib env nonce (some excessesTo)
          let _ ← mapError (fun (hash, inner) => .chain "broadcast" hash inner)
            (sendWithValueAndInit env broadcaster clientSC body registerValueNano initCell)
          sendTopUp env broadcaster excessesTo clientSC topUp

/-- What has been read and checked before the first message goes out, with the answers of
the chain at the calls that asked for them. -/
structure CheckedContract (env : ChainEnv lib) (config : ClientConfig lib) (proxy : ProxyParams)
    (owner clientSC : lib.Address) (firstCall : Nat) where
  rootConfigured : lib.Address
  rootAddr : lib.Address
  snapshot : StateSnapshot
  code : Cell
  minClientStake : Int
  paramsCell : Cell
  proxyAddr : lib.Address
  storage : Storage lib
  derivedAddr : lib.Address
  masterchain : Nat
  account : Option Account
  rootSet : config.rootAddress = some rootConfigured
  rootParsed : lib.parseAddr (lib.string rootConfigured) = .ok rootAddr
  snapshotRead : env.loadStateSnapshot firstCall rootAddr = .ok snapshot
  codePresent : snapshot.clientSCCode = some code
  stakePresent : snapshot.minClientStake = some minClientStake
  stakePositive : 0 < minClientStake
  paramsBuilt : snapshot.clientParamsCell = some paramsCell
  proxyParsed : lib.parseAddr proxy.scAddress = .ok proxyAddr
  expected : storage = {
    state := 0, balance := some 0, stake := some minClientStake, tokensUsed := 0, unlockTs := 0,
    secretHash := some 0, ownerAddress := some owner, proxyAddress := some proxyAddr,
    proxyPubKey := some (Nat.ofDigits 256 (proxy.publicKey.val.reverse.map UInt8.toNat) : Nat),
    params := some paramsCell }
  derived : deriveAddress lib storage (some code) = .ok derivedAddr
  matching : lib.equals derivedAddr clientSC = true
  masterchainRead : env.currentMasterchainInfo (firstCall + 1) = .ok masterchain
  accountRead : env.getAccount (firstCall + 2) masterchain clientSC = .ok account

namespace CheckedContract

variable {env : ChainEnv lib} {config : ClientConfig lib} {proxy : ProxyParams}
  {owner clientSC : lib.Address} {firstCall : Nat}

/-- The initial state goes with the register message exactly when the account is not
active. -/
def Attaches (checked : CheckedContract env config proxy owner clientSC firstCall)
    (init : Option Cell) : Prop :=
  match init with
  | none => IsActive checked.account
  | some cell => ¬ IsActive checked.account ∧
      buildStateInit lib checked.storage (some checked.code) = .ok cell

/-- `entry` is the register message for the checked contract. -/
def IsRegister (checked : CheckedContract env config proxy owner clientSC firstCall)
    (nonce : UInt64) (entry : SentMessage lib) : Prop :=
  ∃ queryID body init,
    messageBody opOwnerClientRegister queryID (·.storeUInt nonce.toNat 64) (lib.bits owner) =
      .ok body ∧
    entry.outbound = outboundMessage clientSC body registerValueNano init ∧
    checked.Attaches init

/-- `entry` tops the checked contract up to the least stake by `amount`. -/
def IsTopUp (checked : CheckedContract env config proxy owner clientSC firstCall)
    (amount : Int) (entry : SentMessage lib) : Prop :=
  topUpAmount checked.minClientStake checked.account = some amount ∧ 0 < amount ∧
    amount < 2 ^ 64 ∧ ∃ body, buildExtTopUp lib (some amount) (some owner) = .ok body ∧
      entry.outbound = outboundMessage clientSC body (topUpValue amount) none

/-- The messages of a registration: none or the register message, and the top-up after a
register message that the network accepted. -/
inductive Registers (checked : CheckedContract env config proxy owner clientSC firstCall)
    (nonce : UInt64) : List (SentMessage lib) → Prop where
  | registered {register : SentMessage lib} (isRegister : checked.IsRegister nonce register) :
      Registers checked nonce [register]
  | toppedUp {register topUp : SentMessage lib} {hash : List Byte} {amount : Int}
      (isRegister : checked.IsRegister nonce register)
      (accepted : env.sendExternalMessage register.call register.external = .ok hash)
      (isTopUp : checked.IsTopUp amount topUp) : Registers checked nonce [register, topUp]

end CheckedContract

theorem parsed_ok {outcome : Except CocoonError lib.Address} {addr : lib.Address}
    (parsed : outcome.mapError Fault.returned = .ok addr) : outcome = .ok addr := by
  cases outcome with
  | error cause => cases parsed
  | ok found =>
      cases parsed
      rfl

theorem built_some {cell : Option Cell} {done : Cell} (made : built cell = .ok done) :
    cell = some done := by
  cases cell with
  | none => cases made
  | some found =>
      cases made
      rfl

theorem build_register_spec (env : ChainEnv lib) (nonce : UInt64) (owner : lib.Address)
    (world : ChainWorld lib) :
    Ends (buildOwnerRegister lib env nonce (some owner)) world
      (fun body after => after.sent = world.sent ∧ ∃ queryID,
        messageBody opOwnerClientRegister queryID (·.storeUInt nonce.toNat 64) (lib.bits owner) =
          .ok body)
      (fun after => after.sent = world.sent) := by
  unfold buildOwnerRegister
  refine Ends.bind (ends_lift ?_ fun _ _ => rfl)
  rintro excesses ⟨⟩
  refine Ends.bind ((ends_map_error _).mpr (ends_ask ?_ rfl))
  intro drawn _
  exact ends_lift (fun body made => ⟨rfl, _, made⟩) fun _ _ => rfl

theorem load_root_spec (env : ChainEnv lib) (rootAddress : Option lib.Address)
    (world : ChainWorld lib) :
    Ends (loadRootSnapshot env rootAddress) world
      (fun snapshot after => after = { world with calls := world.calls + 1 } ∧
        ∃ configured rootAddr, rootAddress = some configured ∧
          lib.parseAddr (lib.string configured) = .ok rootAddr ∧
          env.loadStateSnapshot world.calls rootAddr = .ok snapshot)
      (fun after => after.sent = world.sent) := by
  cases rootAddress with
  | none => exact ends_crash rfl
  | some configured =>
      refine Ends.bind ((ends_map_error _).mpr (ends_lift ?_ fun _ _ => rfl))
      intro rootAddr parsed
      refine ends_ask ?_ rfl
      intro snapshot read
      exact ⟨rfl, configured, rootAddr, rfl, parsed_ok parsed, read⟩

theorem expected_contract_spec (snapshot : StateSnapshot) (owner : lib.Address)
    (proxy : ProxyParams) (world : ChainWorld lib) :
    Ends (expectedContract snapshot owner proxy) world
      (fun expected after => after = world ∧ snapshot.clientSCCode = some expected.2.2 ∧
        snapshot.minClientStake = some expected.1 ∧ 0 < expected.1 ∧ ∃ paramsCell proxyAddr,
          snapshot.clientParamsCell = some paramsCell ∧
          lib.parseAddr proxy.scAddress = .ok proxyAddr ∧
          expected.2.1 = clientStorage expected.1 owner proxyAddr proxy.publicKey paramsCell)
      (fun after => after.sent = world.sent) := by
  unfold expectedContract
  cases code : snapshot.clientSCCode with
  | none => exact ends_fail rfl
  | some codeCell =>
      cases stake : snapshot.minClientStake with
      | none => exact ends_fail rfl
      | some minClientStake =>
          dsimp only
          split_ifs with small
          · exact ends_fail rfl
          · refine Ends.bind (ends_lift ?_ fun _ _ => rfl)
            intro paramsCell params
            refine Ends.bind ((ends_map_error _).mpr (ends_lift ?_ fun _ _ => rfl))
            intro proxyAddr parsed
            exact ends_pure ⟨rfl, rfl, rfl, not_le.mp small, paramsCell, proxyAddr,
              built_some params, parsed_ok parsed, rfl⟩

theorem inspect_contract_spec (env : ChainEnv lib) (config : ClientConfig lib)
    (owner clientSC : lib.Address) (proxy : ProxyParams) (world : ChainWorld lib) :
    Ends (inspectContract env config owner clientSC proxy) world
      (fun plan after => after.sent = world.sent ∧
        ∃ checked : CheckedContract env config proxy owner clientSC world.calls,
          checked.Attaches plan.1 ∧
          plan.2 = topUpAmount checked.minClientStake checked.account)
      (fun after => after.sent = world.sent) := by
  unfold inspectContract
  refine Ends.bind ((load_root_spec env config.rootAddress world).mono ?_ fun _ same => same)
  rintro snapshot _ ⟨rfl, configured, rootAddr, rootSet, rootParsed, snapshotRead⟩
  refine Ends.bind ((expected_contract_spec snapshot owner proxy _).mono ?_ fun _ same => same)
  rintro ⟨stake, storage, code⟩ _
    ⟨rfl, codePresent, stakePresent, stakePositive, params, proxyAddr, paramsBuilt, proxyParsed,
      storageIs⟩
  dsimp only at codePresent stakePresent stakePositive storageIs
  rw [clientStorage, big_endian_digits] at storageIs
  refine Ends.bind (ends_lift ?_ fun _ _ => rfl)
  intro derivedAddr derived
  split_ifs with mismatch
  · exact ends_fail rfl
  refine Ends.bind ((ends_map_error _).mpr (ends_ask ?_ rfl))
  intro masterchain masterchainRead
  refine Ends.bind ((ends_map_error _).mpr (ends_ask ?_ rfl))
  intro account accountRead
  have matching : lib.equals derivedAddr clientSC = true := by simpa using mismatch
  let checked : CheckedContract env config proxy owner clientSC world.calls :=
    { rootConfigured := configured, rootAddr, snapshot, code, minClientStake := stake,
      paramsCell := params, proxyAddr, storage, derivedAddr, masterchain, account, rootSet,
      rootParsed, snapshotRead, codePresent, stakePresent, stakePositive, paramsBuilt, proxyParsed,
      expected := storageIs, derived, matching, masterchainRead, accountRead }
  split_ifs with active
  · exact ends_pure ⟨rfl, checked, (account_active_iff account).mp active, rfl⟩
  · refine Ends.bind ((ends_map_error _).mpr (ends_lift ?_ fun _ _ => rfl))
    intro initCell initBuilt
    exact ends_pure ⟨rfl, checked, ⟨mt (account_active_iff account).mpr active, initBuilt⟩, rfl⟩

def TopUpSent (broadcaster : LiteclientBroadcaster lib) (owner clientSC : lib.Address)
    (topUp : Option Int) (world after : ChainWorld lib) : Prop :=
  after.sent = world.sent ∨ ∃ amount body entry, topUp = some amount ∧ 0 < amount ∧
    amount < 2 ^ 64 ∧ buildExtTopUp lib (some amount) (some owner) = .ok body ∧
    Sends broadcaster (outboundMessage clientSC body (topUpValue amount) none) entry world after

theorem send_top_up_spec (env : ChainEnv lib) (broadcaster : LiteclientBroadcaster lib)
    (owner clientSC : lib.Address) (topUp : Option Int) (world : ChainWorld lib) :
    Ends (sendTopUp env (.liteclient broadcaster) owner clientSC topUp) world
      (fun _ after => TopUpSent broadcaster owner clientSC topUp world after)
      (TopUpSent broadcaster owner clientSC topUp world) := by
  cases topUp with
  | none => exact ends_pure (Or.inl rfl)
  | some amount =>
      unfold sendTopUp
      dsimp only
      split_ifs with small large
      · exact ends_pure (Or.inl rfl)
      · exact ends_fail (Or.inl rfl)
      · refine Ends.bind (ends_lift ?_ fun _ _ => Or.inl rfl)
        intro body made
        have sent : ∀ entry after, Sends broadcaster
            (outboundMessage clientSC body (topUpValue amount) none) entry world after →
            TopUpSent broadcaster owner clientSC (some amount) world after := by
          intro entry after sends
          exact Or.inr ⟨amount, body, entry, rfl, not_le.mp small, not_le.mp large, made, sends⟩
        refine Ends.bind ((ends_map_error _).mpr
          ((broadcast_spec env broadcaster clientSC body (topUpValue amount) none world).mono
            ?_ ?_))
        · rintro _ after ⟨entry, hash, sends, _⟩
          exact ends_pure (sent entry after sends)
        · rintro after (same | ⟨entry, sends⟩)
          · exact Or.inl same
          · exact sent entry after sends

/-- Only messages of a checked registration have been added to the log, all signed for the
wallet. -/
def OnlyRegistration (env : ChainEnv lib) (config : ClientConfig lib)
    (broadcaster : LiteclientBroadcaster lib) (clientSCAddrStr : GoString) (nonce : UInt64)
    (proxy : ProxyParams) (world after : ChainWorld lib) : Prop :=
  after.sent = world.sent ∨ ∃ owner clientSC sent,
    config.cocoonWalletAddr = some owner ∧ lib.parseAddr clientSCAddrStr = .ok clientSC ∧
    after.sent = world.sent ++ sent ∧
    (∀ entry ∈ sent, SignedFor broadcaster entry.outbound entry.external) ∧
    ∃ checked : CheckedContract env config proxy owner clientSC world.calls,
      checked.Registers nonce sent

section Registration

variable {env : ChainEnv lib} {config : ClientConfig lib} {broadcaster : LiteclientBroadcaster lib}
  {clientSCAddrStr : GoString} {nonce : UInt64} {proxy : ProxyParams}
  {owner clientSC : lib.Address} {world drawn announced after : ChainWorld lib}
  {outbound : OutboundMessage lib} {register : SentMessage lib}

theorem register_logged (wallet : config.cocoonWalletAddr = some owner)
    (parsed : lib.parseAddr clientSCAddrStr = .ok clientSC) (same : drawn.sent = world.sent)
    (checked : CheckedContract env config proxy owner clientSC world.calls)
    (isRegister : checked.IsRegister nonce register)
    (sends : Sends broadcaster outbound register drawn after) :
    OnlyRegistration env config broadcaster clientSCAddrStr nonce proxy world after := by
  obtain ⟨carried, signed, grown⟩ := sends
  refine Or.inr ⟨owner, clientSC, [register], wallet, parsed, ?_, ?_, checked, ?_⟩
  · rw [grown, same]
  · rintro _ (_ | ⟨_, ⟨⟩⟩)
    rw [carried]
    exact signed
  · exact .registered isRegister

theorem top_up_logged {hash : List Byte} {topUp : Option Int}
    (wallet : config.cocoonWalletAddr = some owner)
    (parsed : lib.parseAddr clientSCAddrStr = .ok clientSC) (same : drawn.sent = world.sent)
    (checked : CheckedContract env config proxy owner clientSC world.calls)
    (isRegister : checked.IsRegister nonce register)
    (sends : Sends broadcaster outbound register drawn announced)
    (accepted : env.sendExternalMessage register.call register.external = .ok hash)
    (amountIs : topUp = topUpAmount checked.minClientStake checked.account)
    (topUpSent : TopUpSent broadcaster owner clientSC topUp announced after) :
    OnlyRegistration env config broadcaster clientSCAddrStr nonce proxy world after := by
  obtain ⟨carried, signed, grown⟩ := sends
  rcases topUpSent with kept | ⟨amount, body, entry, isAmount, positive, small, made, topUpCarried,
    topUpSigned, topUpGrown⟩
  · exact register_logged wallet parsed same checked isRegister
      ⟨carried, signed, kept.trans grown⟩
  · refine Or.inr ⟨owner, clientSC, [register, entry], wallet, parsed, ?_, ?_, checked, ?_⟩
    · rw [topUpGrown, grown, same, List.append_assoc]
      rfl
    · intro sent member
      simp only [List.mem_cons, List.not_mem_nil, or_false] at member
      rcases member with rfl | rfl
      · rw [carried]
        exact signed
      · rw [topUpCarried]
        exact topUpSigned
    · exact .toppedUp isRegister accepted
        ⟨amountIs.symm.trans isAmount, positive, small, body, made, topUpCarried⟩

end Registration

theorem register_on_chain_spec (env : ChainEnv lib) (config : ClientConfig lib)
    (broadcaster : LiteclientBroadcaster lib)
    (configured : config.broadcaster = some (.liteclient broadcaster))
    (hasAPI : broadcaster.api = true) (clientSCAddrStr : GoString) (nonce : UInt64)
    (proxy : ProxyParams) (world : ChainWorld lib) :
    Ends (registerOnChain env config clientSCAddrStr nonce proxy) world
      (fun _ after =>
        OnlyRegistration env config broadcaster clientSCAddrStr nonce proxy world after)
      (OnlyRegistration env config broadcaster clientSCAddrStr nonce proxy world) := by
  unfold registerOnChain
  simp only [configured, hasAPI, if_true]
  refine Ends.bind (ends_lift ?_ fun _ _ => Or.inl rfl)
  intro clientSC parsed
  cases wallet : config.cocoonWalletAddr with
  | none => exact ends_fail (Or.inl rfl)
  | some owner =>
      refine Ends.bind ((inspect_contract_spec env config owner clientSC proxy world).mono ?_
        fun _ same => Or.inl same)
      rintro ⟨init, topUp⟩ inspected ⟨sameInspected, checked, attaches, amountIs⟩
      dsimp only at attaches amountIs
      refine Ends.bind ((build_register_spec env nonce owner inspected).mono ?_
        fun _ same => Or.inl (same.trans sameInspected))
      rintro body drawn ⟨sameDrawn, queryID, made⟩
      have same : drawn.sent = world.sent := sameDrawn.trans sameInspected
      refine Ends.bind ((ends_map_error _).mpr ((broadcast_spec env broadcaster clientSC body
        registerValueNano init drawn).mono ?_ ?_))
      · rintro _ announced ⟨register, hash, sends, accepted⟩
        have isRegister : checked.IsRegister nonce register :=
          ⟨queryID, body, init, made, sends.1, attaches⟩
        have toppedUp : ∀ after, TopUpSent broadcaster owner clientSC topUp announced after →
            OnlyRegistration env config broadcaster clientSCAddrStr nonce proxy world after := by
          intro after topUpSent
          exact top_up_logged wallet (parsed_ok parsed) same checked isRegister sends accepted
            amountIs topUpSent
        exact (send_top_up_spec env broadcaster owner clientSC topUp announced).mono
          (fun _ => toppedUp) toppedUp
      · rintro after (kept | ⟨register, sends⟩)
        · exact Or.inl (kept.trans same)
        · exact register_logged wallet (parsed_ok parsed) same checked
            ⟨queryID, body, init, made, sends.1, attaches⟩ sends

theorem registers_destination {env : ChainEnv lib} {config : ClientConfig lib}
    {proxy : ProxyParams} {owner clientSC : lib.Address} {firstCall : Nat} {nonce : UInt64}
    {checked : CheckedContract env config proxy owner clientSC firstCall}
    {sent : List (SentMessage lib)} (registers : checked.Registers nonce sent)
    (entry : SentMessage lib) (member : entry ∈ sent) : entry.outbound.toAddr = some clientSC := by
  cases registers with
  | registered isRegister =>
      obtain ⟨_, _, _, _, carried, _⟩ := isRegister
      rw [List.mem_singleton.mp member, carried]
      rfl
  | toppedUp isRegister _ isTopUp =>
      obtain ⟨_, _, _, _, carried, _⟩ := isRegister
      obtain ⟨_, _, _, _, _, topUpCarried⟩ := isTopUp
      simp only [List.mem_cons, List.not_mem_nil, or_false] at member
      rcases member with rfl | rfl
      · rw [carried]
        rfl
      · rw [topUpCarried]
        rfl

/-- Whatever the proxy names and the chain answers, a registration sends nothing, or every
check has passed and its messages carry the bits of the derived address as destination. -/
theorem registration_reaches_derived_contract (env : ChainEnv lib) (config : ClientConfig lib)
    (broadcaster : LiteclientBroadcaster lib)
    (configured : config.broadcaster = some (.liteclient broadcaster))
    (hasAPI : broadcaster.api = true) (clientSCAddrStr : GoString) (nonce : UInt64)
    (proxy : ProxyParams) (world : ChainWorld lib) :
    ∃ sent, (exec (registerOnChain env config clientSCAddrStr nonce proxy) world).2.sent =
        world.sent ++ sent ∧
      (sent = [] ∨ ∃ owner clientSC,
        config.cocoonWalletAddr = some owner ∧ lib.parseAddr clientSCAddrStr = .ok clientSC ∧
        ∃ checked : CheckedContract env config proxy owner clientSC world.calls,
          checked.Registers nonce sent ∧
          ∀ entry ∈ sent, SignedFor broadcaster entry.outbound entry.external ∧
            ∃ dest, entry.outbound.toAddr = some dest ∧
              lib.equals checked.derivedAddr dest = true ∧
              lib.bits dest = lib.bits checked.derivedAddr) := by
  rcases (register_on_chain_spec env config broadcaster configured hasAPI clientSCAddrStr nonce
    proxy world).final with kept | ⟨owner, clientSC, sent, wallet, parsed, grown, signed, checked,
      registers⟩
  · exact ⟨[], by rw [kept, List.append_nil], Or.inl rfl⟩
  · refine ⟨sent, grown, Or.inr ⟨owner, clientSC, wallet, parsed, checked, registers, ?_⟩⟩
    intro entry member
    exact ⟨signed entry member, clientSC, registers_destination registers entry member,
      checked.matching, (lib.equals_bits _ _ checked.matching).symm⟩

def sampleLib : TonLib where
  Address := GoString
  parseAddr := .ok
  newAddress := fun _ _ raw => raw.val
  string := id
  stringRaw := id
  equals := fun left right => left == right
  bits := fun addr => numberBits 8 (addr.headD 0).toNat
  nilBits := [false, false]
  equals_bits := by
    intro left right same
    rw [beq_iff_eq.mp same]
  hash := fun cell => [UInt8.ofNat cell.bits.length]
  sign := fun _ _ => copyInto 64 []
  publicKey := fun _ => List.replicate 32 0

def sampleSnapshot : StateSnapshot where
  structVersion := 3
  paramsVersion := 1
  uniqueID := 1
  isTest := false
  pricePerToken := some 20
  workerFeePerToken := some 2
  promptTokensPriceMult := 1
  cachedTokensPriceMult := 1
  completionTokensPriceMult := 8
  reasoningTokensPriceMult := 8
  proxyDelayBeforeClose := 60
  clientDelayBeforeClose := 60
  minProxyStake := some 1
  minClientStake := some 15000000000
  proxySCCode := none
  workerSCCode := none
  clientSCCode := some (.mk [] [])

def sampleEnv : ChainEnv sampleLib where
  currentMasterchainInfo := fun _ => .ok 0
  getAccount := fun _ _ _ => .ok none
  runGetSeqno := fun _ _ _ => .ok (.ok 7)
  sendExternalMessage := fun _ _ => .ok [1]
  loadStateSnapshot := fun _ _ => .ok sampleSnapshot
  clock := fun _ => 1700000000
  random := fun _ => .ok 3

def sampleBroadcaster : LiteclientBroadcaster sampleLib where
  api := true
  nodeKey := List.replicate 64 0
  walletAddress := some [1]
  ownerAddress := some [2]
  walletCode := none

def sampleConfig : ClientConfig sampleLib where
  broadcaster := some (.liteclient sampleBroadcaster)
  rootAddress := some [3]
  cocoonWalletAddr := some [1]

def sampleProxy : ProxyParams where
  flags := 0
  publicKey := copyInto 32 [9]
  ownerAddress := []
  scAddress := [4]
  isTest := false
  protoVersion := 0

def sampleContract : GoString := 5 :: List.replicate 31 0

theorem fresh_contract_registered_and_topped_up :
    (exec (registerOnChain sampleEnv sampleConfig sampleContract 77 sampleProxy)
      ⟨0, []⟩).2.sent.map
        (fun entry => (entry.outbound.value, entry.outbound.init.isSome)) =
      [(1000000000, true), (15700000000, false)] ∧
    ∃ sent, (exec (registerOnChain sampleEnv sampleConfig sampleContract 77 sampleProxy)
        ⟨0, []⟩).2.sent = [] ++ sent ∧
      (sent = [] ∨ ∃ owner clientSC,
        sampleConfig.cocoonWalletAddr = some owner ∧
        sampleLib.parseAddr sampleContract = .ok clientSC ∧
        ∃ checked : CheckedContract sampleEnv sampleConfig sampleProxy owner clientSC 0,
          checked.Registers 77 sent ∧
          ∀ entry ∈ sent, SignedFor sampleBroadcaster entry.outbound entry.external ∧
            ∃ dest, entry.outbound.toAddr = some dest ∧
              sampleLib.equals checked.derivedAddr dest = true ∧
              sampleLib.bits dest = sampleLib.bits checked.derivedAddr) :=
  ⟨by decide +kernel,
    registration_reaches_derived_contract sampleEnv sampleConfig sampleBroadcaster rfl rfl
      sampleContract 77 sampleProxy ⟨0, []⟩⟩

end Gocoon.RegisterOnChain
