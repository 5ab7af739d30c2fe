import Gocoon.TonChain

/-!
# The client contract

Message bodies and the storage of `cocoon_client`, built in the order of the source. The
builders refuse what the source refuses; everything else that does not fit is a panic of
the storing call. The address of the contract is the hash of its initial state.
-/

namespace Gocoon.ClientContract

open Gocoon.LittleEndianBytes
open Gocoon.GoProgram
open Gocoon.TlPrimitives
open Gocoon.CocoonErrors
open Gocoon.CellBuilder
open Gocoon.TonChain

set_option autoImplicit false

def opExtClientTopUp : UInt32 := 0xf172e6c2

def opOwnerClientChangeSecretHashAndTopUp : UInt32 := 0x8473b408

def opOwnerClientRegister : UInt32 := 0xc45f9f3b

def opOwnerClientChangeSecretHash : UInt32 := 0xa9357034

def opOwnerClientIncreaseStake : UInt32 := 0x6a1f6a60

def opOwnerClientWithdraw : UInt32 := 0xda068e78

def opOwnerClientRequestRefund : UInt32 := 0xfafa6cc1

/-- The layout that all bodies share: op, query id, the operation's own fields, and the
address for the excesses. -/
def messageBody (op : UInt32) (queryID : UInt64) (fields : Builder → Option Builder)
    (sendExcessesTo : List Bool) : Except (Fault CocoonError) Cell :=
  built do
    let headed ← (beginCell.storeUInt op.toNat 32).bind (·.storeUInt queryID.toNat 64)
    let filled ← fields headed
    let addressed ← filled.storeBits sendExcessesTo
    some addressed.endCell

/-- A body with an amount of coins. `invalid` is the message for a nil or negative amount. -/
def amountBody (op : UInt32) (invalid : String) (amount : Option Int)
    (sendExcessesTo : Except (Fault CocoonError) (List Bool)) :
    Except (Fault CocoonError) Cell :=
  match amount with
  | none => .error (.returned (.text invalid))
  | some value =>
      if value < 0 then .error (.returned (.text invalid))
      else do
        let excesses ← sendExcessesTo
        messageBody op 0 (·.storeBigCoins value) excesses

variable (lib : TonLib)

def requireAddress (message : String) (address : Option lib.Address) :
    Except (Fault CocoonError) (List Bool) :=
  match address with
  | some present => .ok (lib.bits present)
  | none => .error (.returned (.text message))

def buildExtTopUp (topUpAmount : Option Int) (sendExcessesTo : Option lib.Address) :
    Except (Fault CocoonError) Cell :=
  amountBody opExtClientTopUp "client: BuildExtTopUp: invalid topUpAmount" topUpAmount
    (requireAddress lib "client: BuildExtTopUp: nil excessesTo" sendExcessesTo)

/-- The excesses address is not checked here. -/
def buildOwnerIncreaseStake (newStake : Option Int) (sendExcessesTo : Option lib.Address) :
    Except (Fault CocoonError) Cell :=
  amountBody opOwnerClientIncreaseStake "client: invalid newStake" newStake
    (.ok (sendExcessesTo.elim lib.nilBits lib.bits))

/-- The excesses address is not checked here either. -/
def buildOwnerChangeSecretHash (newSecretHash : Option Int) (sendExcessesTo : Option lib.Address) :
    Except (Fault CocoonError) Cell :=
  match newSecretHash with
  | none => .error (.returned (.text "client: nil newSecretHash"))
  | some hash =>
      messageBody opOwnerClientChangeSecretHash 0 (·.storeBigUInt hash 256)
        (sendExcessesTo.elim lib.nilBits lib.bits)

def buildOwnerChangeSecretHashAndTopUp (topUpAmount newSecretHash : Option Int)
    (sendExcessesTo : Option lib.Address) : Except (Fault CocoonError) Cell :=
  match topUpAmount with
  | none => .error (.returned (.text "client: invalid topUpAmount"))
  | some value =>
      if value < 0 then .error (.returned (.text "client: invalid topUpAmount"))
      else
        match newSecretHash with
        | none => .error (.returned (.text "client: nil newSecretHash"))
        | some hash =>
            messageBody opOwnerClientChangeSecretHashAndTopUp 0
              (fun builder => (builder.storeBigCoins value).bind (·.storeBigUInt hash 256))
              (sendExcessesTo.elim lib.nilBits lib.bits)

def buildOwnerWithdraw (sendExcessesTo : Option lib.Address) : Except (Fault CocoonError) Cell := do
  let excesses ← requireAddress lib "client: nil excessesTo" sendExcessesTo
  messageBody opOwnerClientWithdraw 0 some excesses

def buildOwnerRequestRefund (sendExcessesTo : Option lib.Address) :
    Except (Fault CocoonError) Cell := do
  let excesses ← requireAddress lib "client: nil excessesTo" sendExcessesTo
  messageBody opOwnerClientRequestRefund 0 some excesses

/-- The query id is random and never zero. -/
def buildOwnerRegister (env : ChainEnv lib) (nonce : UInt64)
    (sendExcessesTo : Option lib.Address) : ChainM lib Cell := do
  let excesses ← lift (requireAddress lib "client: nil excessesTo" sendExcessesTo)
  let drawn ← mapError (.wrapped "client: random query_id") (ask env.random)
  lift (messageBody opOwnerClientRegister (if drawn = 0 then 1 else drawn)
    (·.storeUInt nonce.toNat 64) excesses)

structure Storage where
  state : UInt8
  balance : Option Int
  stake : Option Int
  tokensUsed : UInt64
  unlockTs : UInt32
  secretHash : Option Int
  ownerAddress : Option lib.Address
  proxyAddress : Option lib.Address
  proxyPubKey : Option Int
  params : Option Cell

def storageCell (storage : Storage lib) (owner proxy : lib.Address) (proxyPubKey : Int) :
    Option Cell := do
  let constData ← ((beginCell.storeBits (lib.bits owner)).bind
    (·.storeBits (lib.bits proxy))).bind (·.storeBigUInt proxyPubKey 256)
  let funded ← ((beginCell.storeUInt storage.state.toNat 2).bind
    (·.storeBigCoins (storage.balance.getD 0))).bind (·.storeBigCoins (storage.stake.getD 0))
  let used ← (funded.storeUInt storage.tokensUsed.toNat 64).bind
    (·.storeUInt storage.unlockTs.toNat 32)
  let hashed ← used.storeBigUInt (storage.secretHash.getD 0) 256
  let linked ← (hashed.storeRef constData.endCell).bind
    (·.storeRef (storage.params.getD beginCell.endCell))
  some linked.endCell

def encodeStorage (storage : Storage lib) : Except (Fault CocoonError) Cell :=
  match storage.ownerAddress, storage.proxyAddress with
  | some owner, some proxy =>
      match storage.proxyPubKey with
      | none => .error (.returned (.text "client: ProxyPubKey is required"))
      | some proxyPubKey => built (storageCell lib storage owner proxy proxyPubKey)
  | _, _ => .error (.returned (.text "client: missing addresses"))

def buildStateInit (storage : Storage lib) (code : Option Cell) :
    Except (Fault CocoonError) Cell :=
  match code with
  | none => .error (.returned (.text "client: code is nil"))
  | some codeCell => do
      let data ← encodeStorage lib storage
      built do
        let marked ← (beginCell.storeUInt 0 2).bind (·.storeUInt 3 2)
        let linked ← (marked.storeRef codeCell).bind (·.storeRef data)
        let closed ← linked.storeUInt 0 1
        some closed.endCell

def deriveAddress (storage : Storage lib) (code : Option Cell) :
    Except (Fault CocoonError) lib.Address := do
  let init ← buildStateInit lib storage code
  pure (lib.newAddress 0 0 (copyInto 32 (lib.hash init)))

/-- `decodeClientRequestBalance`: the balance stands behind the two state bits. -/
def decodeClientRequestBalance (data : Cell) : Except CocoonError Int :=
  match ((beginParse data).loadUInt 2).bind fun (_, rest) => rest.loadBigCoins with
  | some (balance, _) => .ok balance
  | none => .error (.library 0)

end Gocoon.ClientContract
