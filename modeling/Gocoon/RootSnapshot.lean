import Gocoon.CellBuilder

/-!
# The params cell of the root contract

`encodeParamsCell` writes the versioned parameter record; a version that lacks a field
skips it. The params cell of a client contract is the same record with the three code
references stripped. A nil amount is a panic of the storing call.
-/

namespace Gocoon.RootSnapshot

open Gocoon.CellBuilder

set_option autoImplicit false

structure StateSnapshot where
  structVersion : UInt8
  paramsVersion : UInt32
  uniqueID : UInt32
  isTest : Bool
  pricePerToken : Option Int
  workerFeePerToken : Option Int
  promptTokensPriceMult : UInt32
  cachedTokensPriceMult : UInt32
  completionTokensPriceMult : UInt32
  reasoningTokensPriceMult : UInt32
  proxyDelayBeforeClose : UInt32
  clientDelayBeforeClose : UInt32
  minProxyStake : Option Int
  minClientStake : Option Int
  proxySCCode : Option Cell
  workerSCCode : Option Cell
  clientSCCode : Option Cell

/-- `MustStoreBigCoins` through a pointer. -/
def storeCoinsPointer (amount : Option Int) (builder : Builder) : Option Builder :=
  amount.bind fun value => builder.storeBigCoins value

def storeSince (present : Bool) (store : Builder → Option Builder) (builder : Builder) :
    Option Builder :=
  if present then store builder else some builder

def encodeParamsCell (snapshot : StateSnapshot) (includeCodes : Bool) : Option Cell := do
  let version := snapshot.structVersion
  let named ← (beginCell.storeUInt version.toNat 8).bind
    (·.storeUInt snapshot.paramsVersion.toNat 32)
  let flagged ← (named.storeUInt snapshot.uniqueID.toNat 32).bind (·.storeBoolBit snapshot.isTest)
  let priced ← (storeCoinsPointer snapshot.pricePerToken flagged).bind
    (storeCoinsPointer snapshot.workerFeePerToken)
  let prompt ← storeSince (3 ≤ version) (·.storeUInt snapshot.promptTokensPriceMult.toNat 32) priced
  let cached ← storeSince (2 ≤ version) (·.storeUInt snapshot.cachedTokensPriceMult.toNat 32) prompt
  let completion ← storeSince (3 ≤ version)
    (·.storeUInt snapshot.completionTokensPriceMult.toNat 32) cached
  let reasoning ← storeSince (2 ≤ version)
    (·.storeUInt snapshot.reasoningTokensPriceMult.toNat 32) completion
  let delayed ← (reasoning.storeUInt snapshot.proxyDelayBeforeClose.toNat 32).bind
    (·.storeUInt snapshot.clientDelayBeforeClose.toNat 32)
  let staked ← storeSince (1 ≤ version)
    (fun builder => (storeCoinsPointer snapshot.minProxyStake builder).bind
      (storeCoinsPointer snapshot.minClientStake)) delayed
  let code := fun ref : Option Cell => if includeCodes then ref else none
  let proxied ← staked.storeMaybeRef (code snapshot.proxySCCode)
  let worked ← proxied.storeMaybeRef (code snapshot.workerSCCode)
  let coded ← worked.storeMaybeRef (code snapshot.clientSCCode)
  some coded.endCell

def StateSnapshot.clientParamsCell (snapshot : StateSnapshot) : Option Cell :=
  encodeParamsCell snapshot false

end Gocoon.RootSnapshot
