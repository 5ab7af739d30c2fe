import Gocoon.TonChain

/-!
# Signed messages of the cocoon wallet

An outbound message becomes an internal-message cell, and a signed external message is the
signature followed by the signed body, which holds one mode and one reference per message.
-/

namespace Gocoon.WalletMessage

open Gocoon.LittleEndianBytes
open Gocoon.GoProgram
open Gocoon.TlPrimitives
open Gocoon.CocoonErrors
open Gocoon.CellBuilder
open Gocoon.TonChain

set_option autoImplicit false

variable (lib : TonLib)

def bytesBits (bytes : List Byte) : List Bool := bytes.flatMap fun byte => numberBits 8 byte.toNat

/-- The storage that a wallet is deployed with. -/
def encodeStorage (publicKey : List Byte) (ownerAddress : Option lib.Address) :
    Except (Fault CocoonError) Cell :=
  if publicKey.length ≠ 32 then
    .error (.returned (.formatted "wallet: public key must be 32 bytes, got %d"
      (UInt32.ofNat publicKey.length)))
  else
    match ownerAddress with
    | none => .error (.returned (.text "wallet: owner address required"))
    | some owner => built do
        let numbered ← (beginCell.storeUInt 0 32).bind (·.storeUInt 0 32)
        let keyed ← (numbered.storeBits (bytesBits publicKey)).bind (·.storeUInt 0 32)
        let owned ← keyed.storeBits (lib.bits owner)
        some owned.endCell

/-- A deployment is never bounced. -/
def bounceFlag (message : OutboundMessage lib) : Nat :=
  if message.init.isSome then 0x10 else if message.bounce then 0x18 else 0x10

def storeInit (init : Option Cell) (builder : Builder) : Option Builder :=
  match init with
  | some cell => ((builder.storeUInt 1 1).bind (·.storeUInt 1 1)).bind (·.storeRef cell)
  | none => builder.storeUInt 0 1

def storeBody (body : Option Cell) (builder : Builder) : Option Builder :=
  match body with
  | some cell => (builder.storeUInt 1 1).bind (·.storeRef cell)
  | none => builder.storeUInt 0 1

def buildOutboundMessageCell (message : OutboundMessage lib) : Except (Fault CocoonError) Cell :=
  match message.toAddr with
  | none => .error (.returned (.text "wallet: outbound: nil to"))
  | some dest => built do
      let addressed ← (beginCell.storeUInt (bounceFlag lib message) 6).bind
        (·.storeBits (lib.bits dest))
      let valued ← (addressed.storeBigCoins message.value.toNat).bind
        (·.storeUInt 0 (1 + 4 + 4 + 64 + 32))
      let started ← storeInit message.init valued
      let filled ← storeBody message.body started
      some filled.endCell

structure SignedExternalMessageOpts where
  seqno : UInt32
  subwalletID : UInt32
  validUntil : UInt32

/-- One round of the message loop. -/
def storeMessage (builder : Builder) (message : OutboundMessage lib) :
    Except (Fault CocoonError) Builder := do
  let msgCell ← buildOutboundMessageCell lib message
  let mode := if message.modeSet then message.mode else 1
  match (builder.storeUInt mode.toNat 8).bind (·.storeRef msgCell) with
  | some next => .ok next
  | none => .error .panicked

/-- `now` is the clock that a zero `validUntil` defaults from; the sum wraps at 32 bits. -/
def createSignedExternalMessage (messages : List (OutboundMessage lib)) (secretKey : List Byte)
    (opts : SignedExternalMessageOpts) (now : UInt32) : Except (Fault CocoonError) Cell :=
  if secretKey.length ≠ 64 then
    .error (.returned (.text "wallet: secret key must be 64 bytes"))
  else
    let validUntil := if opts.validUntil = 0 then now + 3600 else opts.validUntil
    match ((beginCell.storeUInt opts.subwalletID.toNat 32).bind
        (·.storeUInt validUntil.toNat 32)).bind (·.storeUInt opts.seqno.toNat 32) with
    | none => .error .panicked
    | some headed => do
        let body ← messages.foldlM (storeMessage lib) headed
        let bodyCell := body.endCell
        let signature := lib.sign secretKey (lib.hash bodyCell)
        built do
          let signed ← beginCell.storeBits (bytesBits signature.val)
          let final ← signed.storeCell bodyCell
          some final.endCell

end Gocoon.WalletMessage
