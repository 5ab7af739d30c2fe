import Gocoon.GoMaps
import Gocoon.StoreInterface

/-!
# The in-memory store

Nested maps under one lock, so that a call is one step. `LoopOrders` are the iteration
orders of one call. Deleting the entry that is being visited does not change what is
visited later. A stored value is a copy that no caller shares, so values are kept as they
were given.
-/

namespace Gocoon.MemoryStore

open Gocoon.GoProgram
open Gocoon.TlPrimitives
open Gocoon.GoMaps
open Gocoon.StoreInterface

set_option autoImplicit false

abbrev PaymentBucket := GoMap RequestID SignedPayment

abbrev PaymentMap := GoMap ProxyAddress PaymentBucket

structure Memory where
  root : Option RootSnapshot
  clients : GoMap ProxyAddress ClientSCSnapshot
  payments : PaymentMap

def new : Memory where
  root := none
  clients := ∅
  payments := ∅

structure LoopOrders where
  proxies : MapOrder ProxyAddress PaymentBucket
  requests : ProxyAddress → MapOrder RequestID SignedPayment

abbrev MemoryM := GoM Memory StoreError

def orNotFound {Value : Type} : Option Value → MemoryM Value
  | none => fail .notFound
  | some value => pure value

def getRoot : MemoryM RootSnapshot := do
  let store ← get
  orNotFound store.root

def putRoot : Option RootSnapshot → MemoryM Unit
  | none => pure ()
  | some snap => modify fun store => { store with root := some snap }

def getClientSC (proxy : ProxyAddress) : MemoryM ClientSCSnapshot := do
  let store ← get
  orNotFound (store.clients.lookup proxy)

def putClientSC (proxy : ProxyAddress) : Option ClientSCSnapshot → MemoryM Unit
  | none => pure ()
  | some snap => modify fun store => { store with clients := store.clients.insert proxy snap }

def deleteClientSC (proxy : ProxyAddress) : MemoryM Unit :=
  modify fun store => { store with clients := store.clients.erase proxy }

def putSignedPayment (proxy : ProxyAddress) (reqID : RequestID) :
    Option SignedPayment → MemoryM Unit
  | none => pure ()
  | some p => modify fun store =>
      let bucket := (store.payments.lookup proxy).getD ∅
      { store with payments := store.payments.insert proxy (bucket.insert reqID p) }

def getSignedPayment (proxy : ProxyAddress) (reqID : RequestID) : MemoryM SignedPayment := do
  let store ← get
  let bucket ← orNotFound (store.payments.lookup proxy)
  orNotFound (bucket.lookup reqID)

def keepBucket (payments : PaymentMap) (proxy : ProxyAddress) (bucket : PaymentBucket) :
    PaymentMap :=
  if bucket.entries.length = 0 then payments.erase proxy else payments.insert proxy bucket

def deleteSignedPayment (proxy : ProxyAddress) (reqID : RequestID) : MemoryM Unit := do
  let store ← get
  match store.payments.lookup proxy with
  | none => pure ()
  | some bucket =>
      set { store with payments := keepBucket store.payments proxy (bucket.erase reqID) }

def entriesOf (order : LoopOrders) (proxy : ProxyAddress) (bucket : PaymentBucket) :
    List SignedPaymentEntry :=
  ((order.requests proxy).visit bucket).map fun entry => ⟨entry.1, entry.2⟩

def listSignedPayments (order : LoopOrders) (proxy : ProxyAddress) :
    MemoryM (List SignedPaymentEntry) := do
  let store ← get
  match store.payments.lookup proxy with
  | none => pure []
  | some bucket => pure (entriesOf order proxy bucket)

/-- One round of the inner loop: the bucket and `removed`. -/
def sweepPayment (olderThan : Instant) (bucket : PaymentBucket × Nat)
    (entry : Entry RequestID SignedPayment) : PaymentBucket × Nat :=
  if entry.2.storedAt < olderThan then (bucket.1.erase entry.1, bucket.2 + 1) else bucket

/-- One round of the outer loop: the payments and `removed`. -/
def sweepProxy (order : LoopOrders) (olderThan : Instant) (payments : PaymentMap × Nat)
    (entry : Entry ProxyAddress PaymentBucket) : PaymentMap × Nat :=
  let swept := ((order.requests entry.1).visit entry.2).foldl (sweepPayment olderThan)
    (entry.2, payments.2)
  (keepBucket payments.1 entry.1 swept.1, swept.2)

def gcSignedPayments (order : LoopOrders) (olderThan : Instant) : MemoryM Nat := do
  let store ← get
  let swept := (order.proxies.visit store.payments).foldl (sweepProxy order olderThan)
    (store.payments, 0)
  set { store with payments := swept.1 }
  pure swept.2

def memoryStore (order : LoopOrders) : Store Memory where
  getRoot := getRoot
  putRoot := putRoot
  getClientSC := getClientSC
  putClientSC := putClientSC
  deleteClientSC := deleteClientSC
  putSignedPayment := putSignedPayment
  getSignedPayment := getSignedPayment
  deleteSignedPayment := deleteSignedPayment
  listSignedPayments := listSignedPayments order
  gcSignedPayments := gcSignedPayments order

def payment (payments : PaymentMap) (key : PaymentKey) : Option SignedPayment :=
  (payments.lookup key.1).bind fun bucket => bucket.lookup key.2

structure Represents (store : Memory) (contents : Contents) : Prop where
  root : store.root = contents.root
  clients : ∀ proxy, store.clients.lookup proxy = contents.clients proxy
  payments : ∀ key, payment store.payments key = contents.payments key

theorem represents_new : Represents new Contents.empty where
  root := rfl
  clients := fun _ => rfl
  payments := fun _ => rfl

theorem payment_of_insert (payments : PaymentMap) (proxy : ProxyAddress) (bucket : PaymentBucket)
    (key : PaymentKey) :
    payment (payments.insert proxy bucket) key =
      if key.1 = proxy then bucket.lookup key.2 else payment payments key := by
  unfold payment
  by_cases same : key.1 = proxy
  · rw [if_pos same, same, AList.lookup_insert]
    rfl
  · rw [if_neg same, AList.lookup_insert_ne same]

theorem payment_of_keep (payments : PaymentMap) (proxy : ProxyAddress) (bucket : PaymentBucket)
    (key : PaymentKey) :
    payment (keepBucket payments proxy bucket) key =
      if key.1 = proxy then bucket.lookup key.2 else payment payments key := by
  unfold keepBucket
  by_cases none_left : bucket.entries.length = 0
  · rw [if_pos none_left]
    unfold payment
    by_cases same : key.1 = proxy
    · have empty : bucket.lookup key.2 = none := by
        unfold AList.lookup
        rw [List.eq_nil_of_length_eq_zero none_left]
        rfl
      rw [if_pos same, same, AList.lookup_erase, empty]
      rfl
    · rw [if_neg same, AList.lookup_erase_ne same]
  · rw [if_neg none_left]
    exact payment_of_insert payments proxy bucket key

section Sweep

variable (order : LoopOrders) (olderThan : Instant)

def surviving (p : SignedPayment) : Bool := !decide (p.storedAt < olderThan)

theorem sweep_payments_count (visited : List (Entry RequestID SignedPayment))
    (bucket : PaymentBucket × Nat) :
    (visited.foldl (sweepPayment olderThan) bucket).2 =
      bucket.2 + visited.countP fun entry => decide (entry.2.storedAt < olderThan) := by
  induction visited generalizing bucket with
  | nil => rfl
  | cons entry visited ih =>
      rw [List.foldl_cons, ih, List.countP_cons]
      unfold sweepPayment
      by_cases old : entry.2.storedAt < olderThan
      · simp only [old, if_true, decide_true]
        omega
      · simp [old]

/-- The sweep removes a key exactly when the entry visited under it has expired. -/
theorem sweep_payments_lookup (visited : List (Entry RequestID SignedPayment))
    (distinct : visited.NodupKeys) (bucket : PaymentBucket × Nat) (reqID : RequestID) :
    (visited.foldl (sweepPayment olderThan) bucket).1.lookup reqID =
      if (visited.dlookup reqID).all (surviving olderThan) then bucket.1.lookup reqID
      else none := by
  induction visited generalizing bucket with
  | nil => simp
  | cons entry visited ih =>
      obtain ⟨entryID, p⟩ := entry
      obtain ⟨fresh, restDistinct⟩ := List.nodupKeys_cons.mp distinct
      rw [List.foldl_cons, ih restDistinct]
      by_cases same : entryID = reqID
      · subst same
        have absent : visited.dlookup entryID = none := List.dlookup_eq_none.mpr fresh
        by_cases old : p.storedAt < olderThan
        · simp [absent, sweepPayment, old, surviving]
        · simp [absent, sweepPayment, old, surviving]
      · rw [List.dlookup_cons_ne _ _ (fun equal => same equal.symm)]
        have kept : (sweepPayment olderThan bucket ⟨entryID, p⟩).1.lookup reqID =
            bucket.1.lookup reqID := by
          unfold sweepPayment
          by_cases old : p.storedAt < olderThan
          · rw [if_pos old]
            exact AList.lookup_erase_ne (fun equal => same equal.symm)
          · rw [if_neg old]
        rw [kept]

theorem swept_bucket_lookup (proxy : ProxyAddress) (bucket : PaymentBucket) (removed : Nat)
    (reqID : RequestID) :
    (((order.requests proxy).visit bucket).foldl (sweepPayment olderThan)
        (bucket, removed)).1.lookup reqID = (bucket.lookup reqID).filter (surviving olderThan) := by
  rw [sweep_payments_lookup olderThan _ (visit_distinct _ bucket), visit_lookup]
  cases bucket.lookup reqID with
  | none => rfl
  | some p => rfl

theorem sweep_proxies_payment (visited : List (Entry ProxyAddress PaymentBucket))
    (distinct : visited.NodupKeys) (payments : PaymentMap × Nat) (key : PaymentKey) :
    payment (visited.foldl (sweepProxy order olderThan) payments).1 key =
      match visited.dlookup key.1 with
      | none => payment payments.1 key
      | some bucket => (bucket.lookup key.2).filter (surviving olderThan) := by
  induction visited generalizing payments with
  | nil => rfl
  | cons entry visited ih =>
      obtain ⟨proxy, bucket⟩ := entry
      obtain ⟨fresh, restDistinct⟩ := List.nodupKeys_cons.mp distinct
      rw [List.foldl_cons, ih restDistinct]
      have step := payment_of_keep payments.1 proxy
        (((order.requests proxy).visit bucket).foldl (sweepPayment olderThan)
          (bucket, payments.2)).1 key
      rw [swept_bucket_lookup] at step
      by_cases same : key.1 = proxy
      · subst same
        rw [List.dlookup_eq_none.mpr fresh, List.dlookup_cons_eq]
        rw [if_pos rfl] at step
        exact step
      · rw [if_neg same] at step
        rw [List.dlookup_cons_ne _ _ same]
        cases visited.dlookup key.1 with
        | none => exact step
        | some later => rfl

theorem sweep_proxies_count (visited : List (Entry ProxyAddress PaymentBucket))
    (payments : PaymentMap × Nat) :
    (visited.foldl (sweepProxy order olderThan) payments).2 =
      payments.2 + (visited.map fun entry => ((order.requests entry.1).visit entry.2).countP
        fun request => decide (request.2.storedAt < olderThan)).sum := by
  induction visited generalizing payments with
  | nil => rfl
  | cons entry visited ih =>
      rw [List.foldl_cons, ih, List.map_cons, List.sum_cons]
      unfold sweepProxy
      rw [sweep_payments_count]
      omega

end Sweep

section Listing

variable (order : LoopOrders)

theorem mem_entries_of (proxy : ProxyAddress) (bucket : PaymentBucket)
    (entry : SignedPaymentEntry) :
    entry ∈ entriesOf order proxy bucket ↔
      bucket.lookup entry.requestID = some entry.payment := by
  rw [← mem_visit (order.requests proxy), entriesOf, List.mem_map]
  constructor
  · rintro ⟨visited, member, rfl⟩
    exact member
  · intro member
    exact ⟨_, member, rfl⟩

theorem entries_of_distinct (proxy : ProxyAddress) (bucket : PaymentBucket) :
    ((entriesOf order proxy bucket).map SignedPaymentEntry.requestID).Nodup := by
  rw [entriesOf, List.map_map]
  exact visit_distinct _ bucket

def table (payments : PaymentMap) : Table :=
  (order.proxies.visit payments).map fun entry => (entry.1, entriesOf order entry.1 entry.2)

theorem table_tabulates {store : Memory} {contents : Contents}
    (represents : Represents store contents) :
    Tabulates (table order store.payments) contents where
  proxies := by
    rw [table, List.map_map]
    exact visit_distinct _ store.payments
  requests := by
    intro bucket member
    obtain ⟨entry, -, rfl⟩ := List.mem_map.mp member
    exact entries_of_distinct order entry.1 entry.2
  complete := by
    intro proxy entry
    rw [← represents.payments (proxy, entry.requestID), payment, Option.bind_eq_some_iff]
    constructor
    · rintro ⟨bucket, found, stored⟩
      have visited := (mem_visit order.proxies store.payments proxy bucket).mpr found
      exact ⟨_, List.mem_map.mpr ⟨_, visited, rfl⟩,
        (mem_entries_of order proxy bucket entry).mpr stored⟩
    · rintro ⟨entries, inTable, present⟩
      obtain ⟨⟨owner, bucket⟩, visited, same⟩ := List.mem_map.mp inTable
      obtain ⟨rfl, rfl⟩ := Prod.mk.inj same
      have found := (mem_visit order.proxies store.payments owner bucket).mp visited
      exact ⟨bucket, found, (mem_entries_of order owner bucket entry).mp present⟩

end Listing

section Calls

variable (order : LoopOrders)

variable {store : Memory} {contents : Contents}

theorem put_client_represents (represents : Represents store contents) (proxy : ProxyAddress)
    (snap : ClientSCSnapshot) :
    Represents { store with clients := store.clients.insert proxy snap }
      (contents.next (.putClientSC proxy (some snap))) := by
  refine ⟨represents.root, ?_, represents.payments⟩
  intro other
  change _ = Function.update contents.clients proxy (some snap) other
  by_cases same : other = proxy
  · rw [same, Function.update_self, AList.lookup_insert]
  · rw [Function.update_of_ne same, AList.lookup_insert_ne same, represents.clients]

theorem delete_client_represents (represents : Represents store contents)
    (proxy : ProxyAddress) :
    Represents { store with clients := store.clients.erase proxy }
      (contents.next (.deleteClientSC proxy)) := by
  refine ⟨represents.root, ?_, represents.payments⟩
  intro other
  change _ = Function.update contents.clients proxy none other
  by_cases same : other = proxy
  · rw [same, Function.update_self, AList.lookup_erase]
  · rw [Function.update_of_ne same, AList.lookup_erase_ne same, represents.clients]

theorem change_bucket_represents (represents : Represents store contents) {proxy : ProxyAddress}
    {reqID : RequestID} {p : Option SignedPayment} {payments : PaymentMap}
    (bucket changed : PaymentBucket)
    (before : ∀ other, bucket.lookup other = contents.payments (proxy, other))
    (lookup : ∀ other, changed.lookup other = if other = reqID then p else bucket.lookup other)
    (after : ∀ key : PaymentKey, payment payments key =
      if key.1 = proxy then changed.lookup key.2 else payment store.payments key) :
    Represents { store with payments := payments } (contents.setPayment (proxy, reqID) p) := by
  refine ⟨represents.root, represents.clients, ?_⟩
  rintro ⟨owner, other⟩
  change _ = Function.update contents.payments (proxy, reqID) p (owner, other)
  rw [after]
  by_cases sameProxy : owner = proxy
  · subst sameProxy
    rw [if_pos rfl, lookup, before]
    by_cases sameRequest : other = reqID
    · rw [if_pos sameRequest, sameRequest, Function.update_self]
    · rw [if_neg sameRequest, Function.update_of_ne]
      exact fun same => sameRequest (congrArg Prod.snd same)
  · rw [if_neg sameProxy, represents.payments, Function.update_of_ne]
    exact fun same => sameProxy (congrArg Prod.fst same)

theorem put_payment_represents (represents : Represents store contents) (proxy : ProxyAddress)
    (reqID : RequestID) (p : SignedPayment) :
    Represents
      { store with
        payments := store.payments.insert proxy
          (((store.payments.lookup proxy).getD ∅).insert reqID p) }
      (contents.setPayment (proxy, reqID) (some p)) := by
  apply change_bucket_represents represents ((store.payments.lookup proxy).getD ∅)
  · intro other
    rw [← represents.payments, payment]
    cases store.payments.lookup proxy with
    | none => rfl
    | some bucket => rfl
  · intro other
    by_cases same : other = reqID
    · rw [if_pos same, same, AList.lookup_insert]
    · rw [if_neg same, AList.lookup_insert_ne same]
  · exact payment_of_insert store.payments proxy _

theorem delete_payment_writes (represents : Represents store contents) (proxy : ProxyAddress)
    (reqID : RequestID) :
    Writes Represents (deleteSignedPayment proxy reqID) store
      (contents.setPayment (proxy, reqID) none) := by
  unfold Writes
  rw [deleteSignedPayment, exec_bind_ok (exec_get store)]
  cases found : store.payments.lookup proxy with
  | none =>
      refine ⟨store, rfl, represents.root, represents.clients, ?_⟩
      intro key
      change _ = Function.update contents.payments (proxy, reqID) none key
      by_cases same : key = (proxy, reqID)
      · rw [same, Function.update_self, payment, found]
        rfl
      · rw [Function.update_of_ne same, represents.payments]
  | some bucket =>
      refine ⟨_, rfl, ?_⟩
      apply change_bucket_represents represents bucket
      · intro other
        rw [← represents.payments, payment, found]
        rfl
      · intro other
        by_cases same : other = reqID
        · rw [if_pos same, same, AList.lookup_erase]
        · rw [if_neg same, AList.lookup_erase_ne same]
      · exact payment_of_keep store.payments proxy _

theorem swept_payment (olderThan : Instant) (payments : PaymentMap) (key : PaymentKey) :
    payment ((order.proxies.visit payments).foldl (sweepProxy order olderThan)
        (payments, 0)).1 key =
      (payment payments key).filter (surviving olderThan) := by
  rw [sweep_proxies_payment order olderThan _ (visit_distinct _ payments), visit_lookup]
  cases found : payments.lookup key.1 with
  | none => simp [payment, found]
  | some bucket => simp [payment, found]

theorem swept_count (represents : Represents store contents) (olderThan : Instant) :
    ((order.proxies.visit store.payments).foldl (sweepProxy order olderThan)
        (store.payments, 0)).2 =
      (contents.expired olderThan).ncard := by
  rw [sweep_proxies_count, expired_count (table_tabulates order represents), table, List.map_map,
    Nat.zero_add]
  congr 1
  apply List.map_congr_left
  intro entry _
  rw [Function.comp_apply, entriesOf, List.countP_map]
  rfl

theorem exec_or_not_found {Value : Type} (value : Option Value) (store : Memory) :
    exec (orNotFound value : MemoryM Value) store = (reading value, store) := by
  cases value <;> rfl

theorem exec_get_payment (store : Memory) (proxy : ProxyAddress) (reqID : RequestID) :
    exec (getSignedPayment proxy reqID) store =
      (reading (payment store.payments (proxy, reqID)), store) := by
  rw [getSignedPayment, exec_bind_ok (exec_get store), payment]
  cases store.payments.lookup proxy with
  | none => rfl
  | some bucket => exact exec_or_not_found (bucket.lookup reqID) store

theorem exec_list_payments (store : Memory) (proxy : ProxyAddress) :
    exec (listSignedPayments order proxy) store =
      (.ok ((store.payments.lookup proxy).elim [] (entriesOf order proxy)), store) := by
  rw [listSignedPayments, exec_bind_ok (exec_get store)]
  cases store.payments.lookup proxy <;> rfl

theorem memory_implements :
    Implements Represents (fun _ => True) (memoryStore order) where
  getRoot := by
    intro store contents represents
    rw [← represents.root]
    exact exec_or_not_found store.root store
  putRoot := by
    intro store contents snap represents
    cases snap with
    | none => exact ⟨store, rfl, represents⟩
    | some snap => exact ⟨_, rfl, rfl, represents.clients, represents.payments⟩
  getClientSC := by
    intro store contents proxy represents _
    rw [← represents.clients]
    exact exec_or_not_found (store.clients.lookup proxy) store
  putClientSC := by
    intro store contents proxy snap represents _
    cases snap with
    | none => exact ⟨store, rfl, represents⟩
    | some snap => exact ⟨_, rfl, put_client_represents represents proxy snap⟩
  deleteClientSC := by
    intro store contents proxy represents _
    exact ⟨_, rfl, delete_client_represents represents proxy⟩
  putSignedPayment := by
    intro store contents proxy reqID p represents _
    cases p with
    | none => exact ⟨store, rfl, represents⟩
    | some p => exact ⟨_, rfl, put_payment_represents represents proxy reqID p⟩
  getSignedPayment := by
    intro store contents proxy reqID represents _
    rw [← represents.payments]
    exact exec_get_payment store proxy reqID
  deleteSignedPayment := by
    intro store contents proxy reqID represents _
    exact delete_payment_writes represents proxy reqID
  listSignedPayments := by
    intro store contents proxy represents _
    refine ⟨_, exec_list_payments order store proxy, ?_, ?_⟩
    · cases store.payments.lookup proxy with
      | none => exact List.nodup_nil
      | some bucket => exact List.Nodup.of_map _ (entries_of_distinct order proxy bucket)
    · intro entry
      rw [← represents.payments, payment]
      cases store.payments.lookup proxy with
      | none => simp
      | some bucket => exact mem_entries_of order proxy bucket entry
  gcSignedPayments := by
    intro store contents olderThan represents
    rw [← swept_count order represents olderThan]
    refine ⟨_, rfl, represents.root, represents.clients, ?_⟩
    intro key
    change _ = (contents.payments key).filter _
    rw [← represents.payments key]
    exact swept_payment order olderThan store.payments key

end Calls

end Gocoon.MemoryStore
