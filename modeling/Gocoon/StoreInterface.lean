import Mathlib.Data.Set.Card
import Gocoon.TlPrimitives

/-!
# The persistence boundary

The `Store` interface with its records, and what a store is for: an optional root
snapshot, a client snapshot per proxy and a payment per proxy and request. A backend
refines these contents when every call answers as the contents say and leaves the
contents that the call asks for. Times are instants, so neither a time zone nor a
monotonic reading is kept.
-/

namespace Gocoon.StoreInterface

open Gocoon.GoProgram
open Gocoon.LittleEndianBytes
open Gocoon.TlPrimitives

set_option autoImplicit false

abbrev ProxyAddress := GoString

abbrev RequestID := FixedBytes 32

/-- Nanoseconds since a fixed origin. -/
abbrev Instant := Int

structure RootSnapshot where
  rawTLO : List Byte
  blockSeqno : UInt32
  fetchedAt : Instant
  deriving DecidableEq

structure ClientSCSnapshot where
  state : UInt8
  balance : UInt64
  stake : UInt64
  tokensUsed : UInt64
  unlockTs : UInt32
  secretHash : FixedBytes 32
  fetchedAt : Instant
  deriving DecidableEq

structure SignedPayment where
  blob : List Byte
  storedAt : Instant
  deriving DecidableEq

structure SignedPaymentEntry where
  requestID : RequestID
  payment : SignedPayment
  deriving DecidableEq

/-- `ErrNotFound`, or an error of the backend with its text. -/
inductive StoreError where
  | notFound
  | backend (text : GoString)
  deriving DecidableEq

/-- The methods of the interface but `Close`. A pointer argument may be nil. -/
structure Store (World : Type) where
  getRoot : GoM World StoreError RootSnapshot
  putRoot : Option RootSnapshot → GoM World StoreError Unit
  getClientSC : ProxyAddress → GoM World StoreError ClientSCSnapshot
  putClientSC : ProxyAddress → Option ClientSCSnapshot → GoM World StoreError Unit
  deleteClientSC : ProxyAddress → GoM World StoreError Unit
  putSignedPayment : ProxyAddress → RequestID → Option SignedPayment → GoM World StoreError Unit
  getSignedPayment : ProxyAddress → RequestID → GoM World StoreError SignedPayment
  deleteSignedPayment : ProxyAddress → RequestID → GoM World StoreError Unit
  listSignedPayments : ProxyAddress → GoM World StoreError (List SignedPaymentEntry)
  gcSignedPayments : Instant → GoM World StoreError Nat

inductive Op where
  | getRoot
  | putRoot (snap : Option RootSnapshot)
  | getClientSC (proxy : ProxyAddress)
  | putClientSC (proxy : ProxyAddress) (snap : Option ClientSCSnapshot)
  | deleteClientSC (proxy : ProxyAddress)
  | putSignedPayment (proxy : ProxyAddress) (reqID : RequestID) (p : Option SignedPayment)
  | getSignedPayment (proxy : ProxyAddress) (reqID : RequestID)
  | deleteSignedPayment (proxy : ProxyAddress) (reqID : RequestID)
  | listSignedPayments (proxy : ProxyAddress)
  | gcSignedPayments (olderThan : Instant)
  deriving DecidableEq

inductive Answer where
  | done
  | root (snap : RootSnapshot)
  | client (snap : ClientSCSnapshot)
  | payment (p : SignedPayment)
  | listed (entries : List SignedPaymentEntry)
  | removed (count : Nat)
  deriving DecidableEq

abbrev Result := Except (Fault StoreError) Answer

def Store.call {World : Type} (store : Store World) : Op → GoM World StoreError Answer
  | .getRoot => .root <$> store.getRoot
  | .putRoot snap => (fun _ => .done) <$> store.putRoot snap
  | .getClientSC proxy => .client <$> store.getClientSC proxy
  | .putClientSC proxy snap => (fun _ => .done) <$> store.putClientSC proxy snap
  | .deleteClientSC proxy => (fun _ => .done) <$> store.deleteClientSC proxy
  | .putSignedPayment proxy reqID p => (fun _ => .done) <$> store.putSignedPayment proxy reqID p
  | .getSignedPayment proxy reqID => .payment <$> store.getSignedPayment proxy reqID
  | .deleteSignedPayment proxy reqID => (fun _ => .done) <$> store.deleteSignedPayment proxy reqID
  | .listSignedPayments proxy => .listed <$> store.listSignedPayments proxy
  | .gcSignedPayments olderThan => .removed <$> store.gcSignedPayments olderThan

def callAll {World : Type} : World → List (GoM World StoreError Answer) → List Result × World
  | world, [] => ([], world)
  | world, program :: rest =>
      let (result, after) := exec program world
      let (results, final) := callAll after rest
      (result :: results, final)

/-- Equal results, with lists up to order. -/
def SameResult : Result → Result → Prop
  | .ok (.listed left), .ok (.listed right) => left.Perm right
  | left, right => left = right

abbrev PaymentKey := ProxyAddress × RequestID

structure Contents where
  root : Option RootSnapshot
  clients : ProxyAddress → Option ClientSCSnapshot
  payments : PaymentKey → Option SignedPayment
  finite : {key | (payments key).isSome}.Finite

namespace Contents

def empty : Contents where
  root := none
  clients := fun _ => none
  payments := fun _ => none
  finite := by simp

def setPayment (contents : Contents) (key : PaymentKey) (p : Option SignedPayment) : Contents where
  root := contents.root
  clients := contents.clients
  payments := Function.update contents.payments key p
  finite := by
    apply (contents.finite.insert key).subset
    intro other present
    by_cases same : other = key
    · exact .inl same
    · right
      simpa [Function.update_of_ne same] using present

/-- The payments of all proxies that were stored before `olderThan`. -/
def expired (contents : Contents) (olderThan : Instant) : Set PaymentKey :=
  {key | ∃ p, contents.payments key = some p ∧ p.storedAt < olderThan}

def collect (contents : Contents) (olderThan : Instant) : Contents where
  root := contents.root
  clients := contents.clients
  payments := fun key => (contents.payments key).filter fun p => !decide (p.storedAt < olderThan)
  finite := by
    apply contents.finite.subset
    intro key present
    cases found : contents.payments key with
    | none => simp [found] at present
    | some p => simp [found]

def next (contents : Contents) : Op → Contents
  | .putRoot (some snap) => { contents with root := some snap }
  | .putClientSC proxy (some snap) =>
      { contents with clients := Function.update contents.clients proxy (some snap) }
  | .deleteClientSC proxy =>
      { contents with clients := Function.update contents.clients proxy none }
  | .putSignedPayment proxy reqID (some p) => contents.setPayment (proxy, reqID) (some p)
  | .deleteSignedPayment proxy reqID => contents.setPayment (proxy, reqID) none
  | .gcSignedPayments olderThan => contents.collect olderThan
  | .putRoot none | .putClientSC _ none | .putSignedPayment _ _ none | .getRoot
  | .getClientSC _ | .getSignedPayment _ _ | .listSignedPayments _ => contents

def found {Value : Type} (wrap : Value → Answer) : Option Value → Result
  | none => .error (.returned .notFound)
  | some value => .ok (wrap value)

/-- What a call on these contents may return. A listing has every payment of its proxy
once, in any order. -/
def Answers (contents : Contents) : Op → Result → Prop
  | .putRoot _, result | .putClientSC _ _, result | .deleteClientSC _, result
  | .putSignedPayment _ _ _, result | .deleteSignedPayment _ _, result => result = .ok .done
  | .getRoot, result => result = found .root contents.root
  | .getClientSC proxy, result => result = found .client (contents.clients proxy)
  | .getSignedPayment proxy reqID, result =>
      result = found .payment (contents.payments (proxy, reqID))
  | .listSignedPayments proxy, result =>
      ∃ entries, result = .ok (.listed entries) ∧ entries.Nodup ∧
        ∀ entry, entry ∈ entries ↔
          contents.payments (proxy, entry.requestID) = some entry.payment
  | .gcSignedPayments olderThan, result =>
      result = .ok (.removed (contents.expired olderThan).ncard)

/-- The results of a sequence of calls are those of the contents. -/
def Explains : Contents → List Op → List Result → Prop
  | _, [], [] => True
  | contents, op :: ops, result :: results =>
      contents.Answers op result ∧ (contents.next op).Explains ops results
  | _, _, _ => False

end Contents

section Refinement

/-- On a world that represents some contents, the program answers as they do and leaves a
world that represents the next ones. -/
def Refines {World : Type} (Represents : World → Contents → Prop)
    (program : GoM World StoreError Answer) (op : Op) : Prop :=
  ∀ world contents, Represents world contents →
    contents.Answers op (exec program world).1 ∧
      Represents (exec program world).2 (contents.next op)

def reading {Value : Type} : Option Value → Except (Fault StoreError) Value
  | none => .error (.returned .notFound)
  | some value => .ok value

/-- A call that only writes returns nil and leaves the contents `next`. -/
def Writes {World : Type} (Represents : World → Contents → Prop)
    (program : GoM World StoreError Unit) (world : World) (next : Contents) : Prop :=
  ∃ after, exec program world = (.ok (), after) ∧ Represents after next

/-- The methods of a backend, for the operations it supports, on a world that represents
some contents. -/
structure Implements {World : Type} (Represents : World → Contents → Prop) (Supported : Op → Prop)
    (store : Store World) : Prop where
  getRoot : ∀ {world contents}, Represents world contents →
    exec store.getRoot world = (reading contents.root, world)
  putRoot : ∀ {world contents} snap, Represents world contents →
    Writes Represents (store.putRoot snap) world (contents.next (.putRoot snap))
  getClientSC : ∀ {world contents} proxy, Represents world contents →
    Supported (.getClientSC proxy) →
    exec (store.getClientSC proxy) world = (reading (contents.clients proxy), world)
  putClientSC : ∀ {world contents} proxy snap, Represents world contents →
    Supported (.putClientSC proxy snap) →
    Writes Represents (store.putClientSC proxy snap) world
      (contents.next (.putClientSC proxy snap))
  deleteClientSC : ∀ {world contents} proxy, Represents world contents →
    Supported (.deleteClientSC proxy) →
    Writes Represents (store.deleteClientSC proxy) world (contents.next (.deleteClientSC proxy))
  putSignedPayment : ∀ {world contents} proxy reqID p, Represents world contents →
    Supported (.putSignedPayment proxy reqID p) →
    Writes Represents (store.putSignedPayment proxy reqID p) world
      (contents.next (.putSignedPayment proxy reqID p))
  getSignedPayment : ∀ {world contents} proxy reqID, Represents world contents →
    Supported (.getSignedPayment proxy reqID) →
    exec (store.getSignedPayment proxy reqID) world =
      (reading (contents.payments (proxy, reqID)), world)
  deleteSignedPayment : ∀ {world contents} proxy reqID, Represents world contents →
    Supported (.deleteSignedPayment proxy reqID) →
    Writes Represents (store.deleteSignedPayment proxy reqID) world
      (contents.next (.deleteSignedPayment proxy reqID))
  listSignedPayments : ∀ {world contents} proxy, Represents world contents →
    Supported (.listSignedPayments proxy) →
    ∃ entries, exec (store.listSignedPayments proxy) world = (.ok entries, world) ∧
      entries.Nodup ∧ ∀ entry, entry ∈ entries ↔
        contents.payments (proxy, entry.requestID) = some entry.payment
  gcSignedPayments : ∀ {world contents} olderThan, Represents world contents →
    ∃ after, exec (store.gcSignedPayments olderThan) world =
      (.ok (contents.expired olderThan).ncard, after) ∧
        Represents after (contents.collect olderThan)

theorem reading_found {Value : Type} (wrap : Value → Answer) (value : Option Value) :
    (reading value).map wrap = Contents.found wrap value := by
  cases value <;> rfl

section Calls

variable {World : Type} {Represents : World → Contents → Prop} {world : World}
  {contents : Contents}

theorem write_answers {program : GoM World StoreError Unit} {next : Contents}
    (writes : Writes Represents program world next) :
    (exec ((fun _ => Answer.done) <$> program) world).1 = .ok .done ∧
      Represents (exec ((fun _ => Answer.done) <$> program) world).2 next := by
  obtain ⟨after, ran, holds⟩ := writes
  rw [exec_map _ ran]
  exact ⟨rfl, holds⟩

theorem read_answers {Value : Type} {program : GoM World StoreError Value} {value : Option Value}
    (wrap : Value → Answer) (holds : Represents world contents)
    (ran : exec program world = (reading value, world)) :
    (exec (wrap <$> program) world).1 = Contents.found wrap value ∧
      Represents (exec (wrap <$> program) world).2 contents := by
  rw [exec_map wrap ran]
  exact ⟨reading_found wrap value, holds⟩

theorem Implements.refines {Supported : Op → Prop} {store : Store World}
    (implements : Implements Represents Supported store) (op : Op) (supported : Supported op) :
    Refines Represents (store.call op) op := by
  intro world contents holds
  cases op with
  | getRoot => exact read_answers .root holds (implements.getRoot holds)
  | putRoot snap => exact write_answers (implements.putRoot snap holds)
  | getClientSC proxy =>
      exact read_answers .client holds (implements.getClientSC proxy holds supported)
  | putClientSC proxy snap =>
      exact write_answers (implements.putClientSC proxy snap holds supported)
  | deleteClientSC proxy => exact write_answers (implements.deleteClientSC proxy holds supported)
  | putSignedPayment proxy reqID p =>
      exact write_answers (implements.putSignedPayment proxy reqID p holds supported)
  | getSignedPayment proxy reqID =>
      exact read_answers .payment holds (implements.getSignedPayment proxy reqID holds supported)
  | deleteSignedPayment proxy reqID =>
      exact write_answers (implements.deleteSignedPayment proxy reqID holds supported)
  | listSignedPayments proxy =>
      obtain ⟨entries, ran, listed⟩ := implements.listSignedPayments proxy holds supported
      change contents.Answers _ (exec (Answer.listed <$> store.listSignedPayments proxy) world).1 ∧
        Represents (exec (Answer.listed <$> store.listSignedPayments proxy) world).2 _
      rw [exec_map Answer.listed ran]
      exact ⟨⟨entries, rfl, listed⟩, holds⟩
  | gcSignedPayments olderThan =>
      obtain ⟨after, ran, later⟩ := implements.gcSignedPayments olderThan holds
      change contents.Answers _
          (exec (Answer.removed <$> store.gcSignedPayments olderThan) world).1 ∧
        Represents (exec (Answer.removed <$> store.gcSignedPayments olderThan) world).2 _
      rw [exec_map Answer.removed ran]
      exact ⟨rfl, later⟩

end Calls

theorem refines_all {World : Type} {Represents : World → Contents → Prop}
    {programs : List (GoM World StoreError Answer)} {ops : List Op}
    (each : List.Forall₂ (Refines Represents) programs ops) {world : World} {contents : Contents}
    (start : Represents world contents) :
    contents.Explains ops (callAll world programs).1 ∧
      Represents (callAll world programs).2 (ops.foldl Contents.next contents) := by
  induction each generalizing world contents with
  | nil => exact ⟨trivial, start⟩
  | cons first rest ih =>
      have step := first world contents start
      have later := ih step.2
      exact ⟨⟨step.1, later.1⟩, later.2⟩

theorem answers_agree {contents : Contents} {op : Op} {left right : Result}
    (leftAnswer : contents.Answers op left) (rightAnswer : contents.Answers op right) :
    SameResult left right := by
  have same_of_eq : left = right → SameResult left right := by
    intro same
    subst same
    unfold SameResult
    split
    · simp_all
    · rfl
  cases op with
  | listSignedPayments proxy =>
      obtain ⟨leftEntries, rfl, leftNodup, leftMembers⟩ := leftAnswer
      obtain ⟨rightEntries, rfl, rightNodup, rightMembers⟩ := rightAnswer
      apply (List.perm_ext_iff_of_nodup leftNodup rightNodup).mpr
      intro entry
      rw [leftMembers, rightMembers]
  | _ => exact same_of_eq (Eq.trans leftAnswer (Eq.symm rightAnswer))

theorem explained_agree (contents : Contents) (ops : List Op) (left right : List Result)
    (leftExplained : contents.Explains ops left) (rightExplained : contents.Explains ops right) :
    List.Forall₂ SameResult left right := by
  induction ops generalizing contents left right with
  | nil =>
      cases left with
      | cons => exact leftExplained.elim
      | nil =>
          cases right with
          | cons => exact rightExplained.elim
          | nil => exact .nil
  | cons op ops ih =>
      cases left with
      | nil => exact leftExplained.elim
      | cons leftFirst left =>
          cases right with
          | nil => exact rightExplained.elim
          | cons rightFirst right =>
              apply List.Forall₂.cons
              · exact answers_agree leftExplained.1 rightExplained.1
              · exact ih _ left right leftExplained.2 rightExplained.2

end Refinement

section Tables

/-- A backend's payments as it iterates over them: per proxy, its entries. -/
abbrev Table := List (ProxyAddress × List SignedPaymentEntry)

structure Tabulates (table : Table) (contents : Contents) : Prop where
  proxies : (table.map Prod.fst).Nodup
  requests : ∀ bucket ∈ table, (bucket.2.map SignedPaymentEntry.requestID).Nodup
  complete : ∀ proxy entry, contents.payments (proxy, entry.requestID) = some entry.payment ↔
    ∃ entries, (proxy, entries) ∈ table ∧ entry ∈ entries

def isExpired (olderThan : Instant) (entry : SignedPaymentEntry) : Bool :=
  entry.payment.storedAt < olderThan

def expiredKeys (olderThan : Instant) (table : Table) : List PaymentKey :=
  table.flatMap fun bucket =>
    (bucket.2.filter (isExpired olderThan)).map fun entry => (bucket.1, entry.requestID)

variable {table : Table} {contents : Contents}

theorem expired_keys_nodup (tabulates : Tabulates table contents) (olderThan : Instant) :
    (expiredKeys olderThan table).Nodup := by
  apply List.nodup_flatMap.mpr
  constructor
  · intro bucket member
    have requests := tabulates.requests bucket member
    have kept : ((bucket.2.filter (isExpired olderThan)).map SignedPaymentEntry.requestID).Nodup :=
      requests.sublist (List.filter_sublist.map _)
    apply List.Nodup.of_map Prod.snd
    rw [List.map_map]
    exact kept
  · have apart := List.pairwise_map.mp tabulates.proxies
    apply apart.imp
    intro left right different key inLeft inRight
    obtain ⟨_, -, rfl⟩ := List.mem_map.mp inLeft
    obtain ⟨_, -, same⟩ := List.mem_map.mp inRight
    exact different (congrArg Prod.fst same).symm

theorem mem_expired_keys (tabulates : Tabulates table contents) (olderThan : Instant)
    (key : PaymentKey) :
    key ∈ expiredKeys olderThan table ↔ key ∈ contents.expired olderThan := by
  constructor
  · intro member
    obtain ⟨⟨proxy, entries⟩, inTable, inBucket⟩ := List.mem_flatMap.mp member
    obtain ⟨entry, kept, rfl⟩ := List.mem_map.mp inBucket
    obtain ⟨present, old⟩ := List.mem_filter.mp kept
    exact ⟨entry.payment, (tabulates.complete proxy entry).mpr ⟨entries, inTable, present⟩,
      of_decide_eq_true old⟩
  · rintro ⟨p, stored, old⟩
    obtain ⟨entries, inTable, present⟩ := (tabulates.complete key.1 ⟨key.2, p⟩).mp stored
    apply List.mem_flatMap.mpr
    refine ⟨(key.1, entries), inTable, List.mem_map.mpr ⟨⟨key.2, p⟩, ?_, rfl⟩⟩
    exact List.mem_filter.mpr ⟨present, decide_eq_true old⟩

/-- What a sweep over the buckets counts is the number of expired payments. -/
theorem expired_count (tabulates : Tabulates table contents) (olderThan : Instant) :
    (contents.expired olderThan).ncard =
      (table.map fun bucket => bucket.2.countP (isExpired olderThan)).sum := by
  have same : contents.expired olderThan = ((expiredKeys olderThan table).toFinset : Set _) := by
    ext key
    rw [List.coe_toFinset]
    exact (mem_expired_keys tabulates olderThan key).symm
  rw [same, Set.ncard_coe_finset,
    List.toFinset_card_of_nodup (expired_keys_nodup tabulates olderThan), expiredKeys,
    List.length_flatMap]
  simp only [List.length_map, List.countP_eq_length_filter]

end Tables

end Gocoon.StoreInterface
