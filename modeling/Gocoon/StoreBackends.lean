import Mathlib.Logic.Encodable.Basic
import Mathlib.Logic.Equiv.List
import Gocoon.MemoryStore
import Gocoon.BoltStore

/-!
# The two backends are one store

Each backend refines the contents of the interface, so that the same calls on a new
in-memory store and on a newly opened file return the same results and both keep
representing the same contents.
-/

namespace Gocoon.StoreBackends

open Gocoon.GoProgram
open Gocoon.LittleEndianBytes
open Gocoon.TlPrimitives
open Gocoon.BoltDatabase
open Gocoon.StoreInterface
open Gocoon.GoMaps
open Gocoon.MemoryStore (LoopOrders memoryStore)
open Gocoon.BoltStore (Codec Gob WithinLimits boltStore openStore)

set_option autoImplicit false

/-- A call together with the iteration orders that the runtime picks for it. -/
structure Call where
  order : LoopOrders
  op : Op

def inMemory (calls : List Call) : List Result × MemoryStore.Memory :=
  callAll MemoryStore.new (calls.map fun call => (memoryStore call.order).call call.op)

/-- The calls on the database that `Open` leaves when there was no file. -/
def onDisk (gob : Gob) (calls : List Call) : List Result × Database :=
  callAll (exec openStore Database.empty).2 (calls.map fun call => (boltStore gob).call call.op)

theorem forall_map {Left Right : Type} (related : Left → Right → Prop) (calls : List Call)
    (left : Call → Left) (right : Call → Right)
    (each : ∀ call ∈ calls, related (left call) (right call)) :
    List.Forall₂ related (calls.map left) (calls.map right) := by
  rw [List.forall₂_map_left_iff, List.forall₂_map_right_iff, List.forall₂_same]
  exact each

theorem backends_observationally_equivalent (gob : Gob) (calls : List Call)
    (limits : ∀ call ∈ calls, WithinLimits call.op) :
    (exec openStore Database.empty).1 = .ok () ∧
      List.Forall₂ SameResult (inMemory calls).1 (onDisk gob calls).1 ∧
      Contents.empty.Explains (calls.map Call.op) (inMemory calls).1 ∧
      Contents.empty.Explains (calls.map Call.op) (onDisk gob calls).1 ∧
      MemoryStore.Represents (inMemory calls).2
        ((calls.map Call.op).foldl Contents.next Contents.empty) ∧
      BoltStore.Represents gob (onDisk gob calls).2
        ((calls.map Call.op).foldl Contents.next Contents.empty) := by
  have memory := refines_all
    (forall_map (Refines MemoryStore.Represents) calls
      (fun call => (memoryStore call.order).call call.op) Call.op
      (fun call _ => (MemoryStore.memory_implements call.order).refines call.op trivial))
    MemoryStore.represents_new
  have bolt := refines_all
    (forall_map (Refines (BoltStore.Represents gob)) calls
      (fun call => (boltStore gob).call call.op) Call.op
      (fun call member => (BoltStore.bolt_implements gob).refines call.op (limits call member)))
    (BoltStore.opened_represents gob)
  unfold inMemory onDisk
  rw [BoltStore.exec_open]
  refine ⟨rfl, ?_, memory.1, bolt.1, memory.2, bolt.2⟩
  exact explained_agree _ _ _ _ memory.1 bolt.1

section UnaryGob

/-- Any code of a countable type serves as `gob`; this one counts bytes. -/
def unaryCodec (Value : Type) [Encodable Value] : Codec Value where
  encode := fun value => .ok (List.replicate (Encodable.encode value) 0)
  decode := fun blob =>
    match Encodable.decode blob.length with
    | none => .error (ascii "gob: bad data")
    | some value => .ok value
  inverse := by
    intro value
    refine ⟨_, rfl, ?_⟩
    rw [List.length_replicate, Encodable.encodek]

instance byteEncodable : Encodable UInt8 :=
  Encodable.ofLeftInjection UInt8.toNat (fun code => some (UInt8.ofNat code)) (by simp)

instance wordEncodable : Encodable UInt32 :=
  Encodable.ofLeftInjection UInt32.toNat (fun code => some (UInt32.ofNat code)) (by simp)

instance longEncodable : Encodable UInt64 :=
  Encodable.ofLeftInjection UInt64.toNat (fun code => some (UInt64.ofNat code)) (by simp)

def unaryGob : Gob where
  root :=
    @unaryCodec RootSnapshot <| Encodable.ofLeftInjection
      (fun snap => (snap.rawTLO, snap.blockSeqno, snap.fetchedAt))
      (fun fields => some ⟨fields.1, fields.2.1, fields.2.2⟩) (fun _ => rfl)
  client :=
    @unaryCodec ClientSCSnapshot <| Encodable.ofLeftInjection
      (fun snap => (snap.state, snap.balance, snap.stake, snap.tokensUsed, snap.unlockTs,
        snap.secretHash, snap.fetchedAt))
      (fun fields => some ⟨fields.1, fields.2.1, fields.2.2.1, fields.2.2.2.1, fields.2.2.2.2.1,
        fields.2.2.2.2.2.1, fields.2.2.2.2.2.2⟩) (fun _ => rfl)
  payment :=
    @unaryCodec SignedPayment <| Encodable.ofLeftInjection
      (fun p => (p.blob, p.storedAt)) (fun fields => some ⟨fields.1, fields.2⟩) (fun _ => rfl)

end UnaryGob

def storedOrders : LoopOrders where
  proxies := storedOrder _ _
  requests := fun _ => storedOrder _ _

def prefixedCalls : List Call :=
  [.putSignedPayment (ascii "EQA") (copyInto 32 []) (some ⟨[7], 3⟩),
    .putSignedPayment (ascii "payments/EQA") (copyInto 32 []) (some ⟨[8], 9⟩),
    .gcSignedPayments 5, .listSignedPayments (ascii "EQA")].map (⟨storedOrders, ·⟩)

theorem prefixed_calls_equivalent :
    (∀ call ∈ prefixedCalls, WithinLimits call.op) ∧
      (exec openStore Database.empty).1 = .ok () ∧
      List.Forall₂ SameResult (inMemory prefixedCalls).1 (onDisk unaryGob prefixedCalls).1 ∧
      Contents.empty.Explains (prefixedCalls.map Call.op) (inMemory prefixedCalls).1 ∧
      Contents.empty.Explains (prefixedCalls.map Call.op) (onDisk unaryGob prefixedCalls).1 ∧
      MemoryStore.Represents (inMemory prefixedCalls).2
        ((prefixedCalls.map Call.op).foldl Contents.next Contents.empty) ∧
      BoltStore.Represents unaryGob (onDisk unaryGob prefixedCalls).2
        ((prefixedCalls.map Call.op).foldl Contents.next Contents.empty) := by
  have limits : ∀ call ∈ prefixedCalls, WithinLimits call.op := by
    simp only [prefixedCalls, List.map_cons, List.map_nil, List.mem_cons, List.not_mem_nil,
      or_false, forall_eq_or_imp, forall_eq]
    refine ⟨⟨by decide, by decide⟩, ⟨by decide, by decide⟩, trivial, by decide, by decide⟩
  exact ⟨limits, backends_observationally_equivalent unaryGob prefixedCalls limits⟩

end Gocoon.StoreBackends
