import Gocoon.CocoonErrors
import Gocoon.GoProgram
import Gocoon.RootSnapshot

/-!
# The chain as the client sees it

`TonLib` holds the third-party functions with what their documentation promises: two
addresses that are equal are stored with the same bits. Every answer of the chain, the
clock and the random source is an oracle indexed by the number of calls made before, so
nothing is assumed about it, not even that the same question gets the same answer. The
world of a chain program counts these calls and logs every external message handed to the
network, whether or not the network then reports an error.
-/

namespace Gocoon.TonChain

open Gocoon.LittleEndianBytes
open Gocoon.GoProgram
open Gocoon.TlPrimitives
open Gocoon.CocoonErrors
open Gocoon.CellBuilder
open Gocoon.RootSnapshot

set_option autoImplicit false

structure TonLib where
  Address : Type
  parseAddr : GoString → Except CocoonError Address
  newAddress : Byte → Byte → FixedBytes 32 → Address
  string : Address → GoString
  stringRaw : Address → GoString
  equals : Address → Address → Bool
  /-- What `MustStoreAddr` appends. -/
  bits : Address → List Bool
  /-- What it appends for a nil pointer. -/
  nilBits : List Bool
  equals_bits : ∀ left right, equals left right = true → bits left = bits right
  hash : Cell → List Byte
  sign : List Byte → List Byte → FixedBytes 64
  publicKey : List Byte → List Byte

inductive AccountStatus where
  | active
  | uninit
  | frozen
  | nonExist
  deriving DecidableEq

structure Account where
  state : Option AccountStatus
  code : Option Cell
  data : Option Cell

structure OutboundMessage (lib : TonLib) where
  toAddr : Option lib.Address
  value : UInt64
  body : Option Cell
  init : Option Cell
  mode : UInt8
  modeSet : Bool
  bounce : Bool

structure ExternalMessage (lib : TonLib) where
  dstAddr : lib.Address
  body : Cell
  stateInit : Option (Cell × Cell)

/-- An external message on its way, with the outbound message that was signed into it and
the number of the call that handed it over. -/
structure SentMessage (lib : TonLib) where
  call : Nat
  outbound : OutboundMessage lib
  external : ExternalMessage lib

structure ChainEnv (lib : TonLib) where
  currentMasterchainInfo : Nat → Except CocoonError Nat
  getAccount : Nat → Nat → lib.Address → Except CocoonError (Option Account)
  runGetSeqno : Nat → Nat → lib.Address → Except CocoonError (Except CocoonError Int)
  sendExternalMessage : Nat → ExternalMessage lib → Except CocoonError (List Byte)
  loadStateSnapshot : Nat → lib.Address → Except CocoonError StateSnapshot
  clock : Nat → UInt32
  random : Nat → Except CocoonError UInt64

structure ChainWorld (lib : TonLib) where
  calls : Nat
  sent : List (SentMessage lib)

abbrev ChainM (lib : TonLib) := GoM (ChainWorld lib) CocoonError

variable {lib : TonLib} {Value : Type}

def ask (oracle : Nat → Except CocoonError Value) : ChainM lib Value := do
  let world ← get
  set { world with calls := world.calls + 1 }
  lift ((oracle world.calls).mapError Fault.returned)

/-- A building expression whose storing calls may panic. -/
def built (cell : Option Cell) : Except (Fault CocoonError) Cell :=
  match cell with
  | some done => .ok done
  | none => .error .panicked

def Silent (program : ChainM lib Value) : Prop :=
  ∀ world, Ends program world (fun _ after => after.sent = world.sent)
    fun after => after.sent = world.sent

theorem ends_ask {oracle : Nat → Except CocoonError Value} {world : ChainWorld lib}
    {done : Value → ChainWorld lib → Prop} {stopped : ChainWorld lib → Prop}
    (answered : ∀ value, oracle world.calls = .ok value →
      done value { world with calls := world.calls + 1 })
    (failed : stopped { world with calls := world.calls + 1 }) :
    Ends (ask oracle) world done stopped := by
  unfold Ends ask
  rw [exec_bind_ok (exec_get world), exec_bind_ok (exec_set _ world), exec_lift]
  cases outcome : oracle world.calls with
  | ok value => exact answered value outcome
  | error error => exact failed

theorem silent_ask (oracle : Nat → Except CocoonError Value) :
    Silent (ask oracle : ChainM lib Value) := by
  intro world
  exact ends_ask (fun _ _ => rfl) rfl

theorem silent_lift (outcome : Except (Fault CocoonError) Value) :
    Silent (lift outcome : ChainM lib Value) := by
  intro world
  exact ends_lift (fun _ _ => rfl) (fun _ _ => rfl)

theorem silent_fail (error : CocoonError) : Silent (fail error : ChainM lib Value) := by
  intro world
  exact ends_fail rfl

theorem silent_pure (value : Value) : Silent (pure value : ChainM lib Value) := by
  intro world
  exact ends_pure rfl

theorem Silent.bind {Other : Type} {program : ChainM lib Value}
    {next : Value → ChainM lib Other} (first : Silent program)
    (second : ∀ value, Silent (next value)) : Silent (program >>= next) := by
  intro world
  refine Ends.bind ((first world).mono ?_ fun _ same => same)
  intro value after same
  refine (second value after).mono ?_ ?_
  · intro _ _ later
    exact later.trans same
  · intro _ later
    exact later.trans same

theorem silent_attempt {program : ChainM lib Value} (silent : Silent program) :
    Silent (attempt program) := by
  intro world
  exact ends_attempt (silent world) (fun _ _ same => same) fun _ same => same

theorem silent_map_error {program : ChainM lib Value} (change : CocoonError → CocoonError)
    (silent : Silent program) : Silent (mapError change program : ChainM lib Value) := by
  intro world
  exact (ends_map_error change).mpr (silent world)

end Gocoon.TonChain
