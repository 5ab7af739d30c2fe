import Gocoon.BoltDatabase
import Gocoon.StoreInterface

/-!
# The store in a bbolt file

The root snapshot has one key of the bucket `root`, client snapshots are keys of the
bucket `clients`, and the payments of a proxy have a top-level bucket of their own whose
name is the proxy behind `payments/`. A collection finds these buckets by that prefix.
Values are written with `encoding/gob`, of which only the round trip is known.
-/

namespace Gocoon.BoltStore

open Gocoon.GoProgram
open Gocoon.LittleEndianBytes
open Gocoon.TlPrimitives
open Gocoon.BoltDatabase
open Gocoon.StoreInterface

set_option autoImplicit false

/-- `gob` on one struct; an error is its text. -/
structure Codec (Value : Type) where
  encode : Value → Except GoString (List Byte)
  decode : List Byte → Except GoString Value
  inverse : ∀ value, ∃ blob, encode value = .ok blob ∧ decode blob = .ok value

structure Gob where
  root : Codec RootSnapshot
  client : Codec ClientSCSnapshot
  payment : Codec SignedPayment

def bucketRoot : GoString := ascii "root"

def bucketClients : GoString := ascii "clients"

def bucketPayments : GoString := ascii "payments"

def keyRootSnap : GoString := ascii "snapshot"

def boltText : BoltError → GoString
  | .keyRequired => ascii "key required"
  | .keyTooLarge => ascii "key too large"
  | .bucketNameRequired => ascii "bucket name required"

abbrev BoltM := GoM Database StoreError

def ofBolt {Value : Type} (program : GoM Database BoltError Value) : BoltM Value :=
  mapError (fun error => .backend (boltText error)) program

/-- `Open` on a file without buckets. -/
def openStore : BoltM Unit :=
  mapError (fun
    | .backend text => .backend (ascii "bbolt: init buckets: " ++ text)
    | .notFound => .notFound) <|
    update <| forM [bucketRoot, bucketClients, bucketPayments] fun name => do
      let _ ← ofBolt (createBucketIfNotExists name)

def decodeBlob {Value : Type} (codec : Codec Value) (blob : List Byte) : BoltM Value :=
  match codec.decode blob with
  | .ok value => pure value
  | .error text => fail (.backend text)

/-- What a getter returns for the bytes that `Get` found; nil is `ErrNotFound`. -/
def decodeFound {Value : Type} (codec : Codec Value) : Option (List Byte) → BoltM Value
  | none => fail .notFound
  | some blob => decodeBlob codec blob

/-- The body shared by `GetRoot` and `GetClientSC`. -/
def getSnapshot {Value : Type} (codec : Codec Value) (name key : GoString) : BoltM Value :=
  view do
    let bucket ← bucketNamed name
    let blob ← getValue bucket key
    decodeFound codec blob

def encodeBlob {Value : Type} (codec : Codec Value) (context : String) (value : Value) :
    BoltM (List Byte) :=
  match codec.encode value with
  | .ok blob => pure blob
  | .error text => fail (.backend (ascii context ++ text))

/-- The body shared by `PutRoot` and `PutClientSC`. -/
def putSnapshot {Value : Type} (codec : Codec Value) (context : String) (name key : GoString) :
    Option Value → BoltM Unit
  | none => pure ()
  | some snap => do
      let blob ← encodeBlob codec context snap
      update do
        let bucket ← bucketNamed name
        ofBolt (putValue bucket key blob)

def getRoot (gob : Gob) : BoltM RootSnapshot := getSnapshot gob.root bucketRoot keyRootSnap

def putRoot (gob : Gob) : Option RootSnapshot → BoltM Unit :=
  putSnapshot gob.root "bbolt: encode root: " bucketRoot keyRootSnap

def getClientSC (gob : Gob) (proxy : ProxyAddress) : BoltM ClientSCSnapshot :=
  getSnapshot gob.client bucketClients proxy

def putClientSC (gob : Gob) (proxy : ProxyAddress) : Option ClientSCSnapshot → BoltM Unit :=
  putSnapshot gob.client "bbolt: encode client sc: " bucketClients proxy

def deleteClientSC (proxy : ProxyAddress) : BoltM Unit :=
  update do
    let bucket ← bucketNamed bucketClients
    deleteKey bucket proxy

/-- `append(bucketPayments, '/')`, the prefix that a collection looks for. -/
def paymentsSlash : GoString := bucketPayments ++ ascii "/"

def paymentBucketName (proxy : ProxyAddress) : GoString := paymentsSlash ++ proxy

def putSignedPayment (gob : Gob) (proxy : ProxyAddress) (reqID : RequestID) :
    Option SignedPayment → BoltM Unit
  | none => pure ()
  | some p => do
      let blob ← encodeBlob gob.payment "bbolt: encode payment: " p
      update do
        let bucket ← ofBolt (createBucketIfNotExists (paymentBucketName proxy))
        ofBolt (putValue (some bucket) reqID.val blob)

def getSignedPayment (gob : Gob) (proxy : ProxyAddress) (reqID : RequestID) :
    BoltM SignedPayment :=
  view do
    let bucket ← bucketNamed (paymentBucketName proxy)
    match bucket with
    | none => fail .notFound
    | some name =>
        let blob ← getValue (some name) reqID.val
        decodeFound gob.payment blob

def deleteSignedPayment (proxy : ProxyAddress) (reqID : RequestID) : BoltM Unit :=
  update do
    let bucket ← bucketNamed (paymentBucketName proxy)
    match bucket with
    | none => pure ()
    | some name => deleteKey (some name) reqID.val

/-- The function that `ListSignedPayments` gives to `ForEach`. -/
def listEntry (gob : Gob) (binding : List Byte × List Byte) : BoltM SignedPaymentEntry := do
  if binding.1.length ≠ 32 then fail (.backend (ascii "bbolt: corrupt request id"))
  let p ← decodeBlob gob.payment binding.2
  pure ⟨copyInto 32 binding.1, p⟩

def listSignedPayments (gob : Gob) (proxy : ProxyAddress) : BoltM (List SignedPaymentEntry) :=
  view do
    let bucket ← bucketNamed (paymentBucketName proxy)
    match bucket with
    | none => pure []
    | some name =>
        let found ← bindings (some name)
        found.mapM (listEntry gob)

def expiredBlob (gob : Gob) (olderThan : Instant) (blob : List Byte) : Bool :=
  match gob.payment.decode blob with
  | .error _ => false
  | .ok p => p.storedAt < olderThan

def toDelete (gob : Gob) (olderThan : Instant) (found : List (List Byte × List Byte)) :
    List (List Byte) :=
  (found.filter fun binding => expiredBlob gob olderThan binding.2).map Prod.fst

/-- The function that `GCSignedPayments` gives to `tx.ForEach`, with `removed`. -/
def collectBucket (gob : Gob) (olderThan : Instant) (removed : Nat) (name : GoString) :
    BoltM Nat := do
  if paymentsSlash.isPrefixOf name then
    let found ← bindings (some name)
    (toDelete gob olderThan found).foldlM (fun count key => do
      deleteKey (some name) key
      pure (count + 1)) removed
  else pure removed

def gcSignedPayments (gob : Gob) (olderThan : Instant) : BoltM Nat :=
  update do
    let names ← bucketNames
    names.foldlM (collectBucket gob olderThan) 0

def boltStore (gob : Gob) : Store Database where
  getRoot := getRoot gob
  putRoot := putRoot gob
  getClientSC := getClientSC gob
  putClientSC := putClientSC gob
  deleteClientSC := deleteClientSC
  putSignedPayment := putSignedPayment gob
  getSignedPayment := getSignedPayment gob
  deleteSignedPayment := deleteSignedPayment
  listSignedPayments := listSignedPayments gob
  gcSignedPayments := gcSignedPayments gob

/-- The stored blobs decode to the contents, and the keys of a payment bucket are request
ids. -/
structure Represents (gob : Gob) (db : Database) (contents : Contents) : Prop where
  hasRoot : db.buckets[bucketRoot]?.isSome
  hasClients : db.buckets[bucketClients]?.isSome
  root : (db.value bucketRoot keyRootSnap).map gob.root.decode = contents.root.map .ok
  clients : ∀ proxy,
    (db.value bucketClients proxy).map gob.client.decode = (contents.clients proxy).map .ok
  payments : ∀ proxy (reqID : RequestID),
    (db.value (paymentBucketName proxy) reqID.val).map gob.payment.decode =
      (contents.payments (proxy, reqID)).map .ok
  requestKeys : ∀ proxy key,
    (db.value (paymentBucketName proxy) key).isSome → key.length = 32

/-- Non-empty proxies whose keys and bucket names the database accepts. -/
def WithinLimits : Op → Prop
  | .getClientSC proxy | .putClientSC proxy _ | .deleteClientSC proxy =>
      proxy ≠ [] ∧ proxy.length ≤ maxKeySize
  | .putSignedPayment proxy _ _ | .getSignedPayment proxy _ | .deleteSignedPayment proxy _
  | .listSignedPayments proxy =>
      proxy ≠ [] ∧ (paymentBucketName proxy).length ≤ maxKeySize
  | .getRoot | .putRoot _ | .gcSignedPayments _ => True

section Names

theorem bucket_name_injective {left right : ProxyAddress}
    (same : paymentBucketName left = paymentBucketName right) : left = right :=
  List.append_cancel_left same

/-- A payment bucket is neither `root` nor `clients`, whatever the proxy is called. -/
theorem bucket_name_slash (proxy : ProxyAddress) (name : GoString)
    (short : name.length < paymentsSlash.length) : paymentBucketName proxy ≠ name := by
  intro same
  have lengths := congrArg List.length same
  rw [paymentBucketName, List.length_append] at lengths
  omega

theorem root_not_payments (proxy : ProxyAddress) : paymentBucketName proxy ≠ bucketRoot :=
  bucket_name_slash proxy bucketRoot (by decide)

theorem clients_not_payments (proxy : ProxyAddress) : paymentBucketName proxy ≠ bucketClients :=
  bucket_name_slash proxy bucketClients (by decide)

theorem root_not_clients : bucketRoot ≠ bucketClients := by decide

end Names

section Blobs

variable {Value : Type} (codec : Codec Value)

theorem exec_decode_blob {blob : List Byte} {value : Value}
    (decoded : codec.decode blob = .ok value) (db : Database) :
    exec (decodeBlob codec blob) db = (.ok value, db) := by
  rw [decodeBlob, decoded]
  rfl

theorem exec_encode_blob (context : String) (value : Value) (db : Database) :
    ∃ blob, codec.decode blob = .ok value ∧
      exec (encodeBlob codec context value) db = (.ok blob, db) := by
  obtain ⟨blob, encoded, decoded⟩ := codec.inverse value
  refine ⟨blob, decoded, ?_⟩
  rw [encodeBlob, encoded]
  rfl

theorem exec_of_bolt {Result : Type} {program : GoM Database BoltError Result} {db after : Database}
    {result : Result} (ran : exec program db = (.ok result, after)) :
    exec (ofBolt program) db = (.ok result, after) := by
  rw [ofBolt, exec_map_error, ran]

theorem stored_cases {blob : Option (List Byte)} {value : Option Value}
    (holds : blob.map codec.decode = value.map .ok) :
    (blob = none ∧ value = none) ∨
      ∃ bytes found, blob = some bytes ∧ value = some found ∧ codec.decode bytes = .ok found := by
  cases blob with
  | none =>
      cases value with
      | none => exact .inl ⟨rfl, rfl⟩
      | some found => simp at holds
  | some bytes =>
      cases value with
      | none => simp at holds
      | some found => exact .inr ⟨bytes, found, rfl, rfl, Option.some.inj holds⟩

theorem exec_decode_found {blob : Option (List Byte)} {value : Option Value}
    (holds : blob.map codec.decode = value.map .ok) (db : Database) :
    exec (decodeFound codec blob) db = (reading value, db) := by
  rcases stored_cases codec holds with ⟨rfl, rfl⟩ | ⟨bytes, stored, rfl, rfl, decoded⟩
  · rfl
  · exact exec_decode_blob codec decoded db

theorem exec_get_snapshot {db : Database} {name key : GoString} {value : Option Value}
    (present : db.buckets[name]?.isSome)
    (holds : (db.value name key).map codec.decode = value.map .ok) :
    exec (getSnapshot codec name key) db = (reading value, db) := by
  obtain ⟨bucket, found⟩ := Option.isSome_iff_exists.mp present
  rw [getSnapshot, exec_view, exec_bind_ok exec_bucket_named, found, Option.map_some,
    exec_bind_ok exec_get_value, exec_decode_found codec holds]

theorem exec_put_snapshot {db : Database} {name key : GoString} (context : String) (snap : Value)
    (present : db.buckets[name]?.isSome) (nonempty : key ≠ []) (fits : key.length ≤ maxKeySize) :
    ∃ blob, codec.decode blob = .ok snap ∧
      exec (putSnapshot codec context name key (some snap)) db =
        (.ok (), db.changeBucket name (·.insert key blob)) := by
  obtain ⟨blob, decoded, encoded⟩ := exec_encode_blob codec context snap db
  obtain ⟨bucket, found⟩ := Option.isSome_iff_exists.mp present
  refine ⟨blob, decoded, ?_⟩
  rw [putSnapshot, exec_bind_ok encoded, exec_update, exec_bind_ok exec_bucket_named, found,
    Option.map_some, exec_of_bolt (exec_put_value blob nonempty fits)]

end Blobs

section Writing

variable {gob : Gob} {db after : Database} {contents : Contents}

theorem put_root_represents (represents : Represents gob db contents) {snap : RootSnapshot}
    {blob : List Byte} (decoded : gob.root.decode blob = .ok snap) :
    Represents gob (db.changeBucket bucketRoot (·.insert keyRootSnap blob))
      { contents with root := some snap } where
  hasRoot := by
    rw [bucket_present_of_change]
    exact represents.hasRoot
  hasClients := by
    rw [bucket_present_of_change]
    exact represents.hasClients
  root := by
    rw [value_of_put represents.hasRoot, if_pos ⟨rfl, rfl⟩, Option.map_some, decoded]
    rfl
  clients := by
    intro proxy
    rw [value_of_put represents.hasRoot, if_neg (fun same => root_not_clients same.1)]
    exact represents.clients proxy
  payments := by
    intro proxy reqID
    rw [value_of_put represents.hasRoot, if_neg (fun same => root_not_payments proxy same.1.symm)]
    exact represents.payments proxy reqID
  requestKeys := by
    intro proxy key
    rw [value_of_put represents.hasRoot, if_neg (fun same => root_not_payments proxy same.1.symm)]
    exact represents.requestKeys proxy key

theorem client_represents (represents : Represents gob db contents) {proxy : ProxyAddress}
    (blob : Option (List Byte)) (snap : Option ClientSCSnapshot)
    (decoded : blob.map gob.client.decode = snap.map .ok)
    (kept : ∀ name : GoString, after.buckets[name]?.isSome = db.buckets[name]?.isSome)
    (values : ∀ name key : GoString, after.value name key =
      if bucketClients = name ∧ proxy = key then blob else db.value name key) :
    Represents gob after
      { contents with clients := Function.update contents.clients proxy snap } where
  hasRoot := by
    rw [kept]
    exact represents.hasRoot
  hasClients := by
    rw [kept]
    exact represents.hasClients
  root := by
    rw [values, if_neg (fun same => root_not_clients same.1.symm)]
    exact represents.root
  clients := by
    intro other
    change _ = (Function.update contents.clients proxy snap other).map Except.ok
    rw [values]
    by_cases same : other = proxy
    · rw [same, if_pos ⟨rfl, rfl⟩, Function.update_self]
      exact decoded
    · rw [if_neg (fun equal => same equal.2.symm), Function.update_of_ne same]
      exact represents.clients other
  payments := by
    intro owner reqID
    rw [values, if_neg (fun same => clients_not_payments owner same.1.symm)]
    exact represents.payments owner reqID
  requestKeys := by
    intro owner key
    rw [values, if_neg (fun same => clients_not_payments owner same.1.symm)]
    exact represents.requestKeys owner key

theorem payment_represents (represents : Represents gob db contents) {proxy : ProxyAddress}
    {reqID : RequestID} (blob : Option (List Byte)) (p : Option SignedPayment)
    (decoded : blob.map gob.payment.decode = p.map .ok)
    (kept : ∀ name : GoString, db.buckets[name]?.isSome → after.buckets[name]?.isSome)
    (values : ∀ name key : GoString, after.value name key =
      if paymentBucketName proxy = name ∧ reqID.val = key then blob else db.value name key) :
    Represents gob after (contents.setPayment (proxy, reqID) p) where
  hasRoot := kept bucketRoot represents.hasRoot
  hasClients := kept bucketClients represents.hasClients
  root := by
    rw [values, if_neg (fun same => root_not_payments proxy same.1)]
    exact represents.root
  clients := by
    intro other
    rw [values, if_neg (fun same => clients_not_payments proxy same.1)]
    exact represents.clients other
  payments := by
    intro owner other
    change _ = (Function.update contents.payments (proxy, reqID) p (owner, other)).map Except.ok
    rw [values]
    by_cases same : (owner, other) = (proxy, reqID)
    · obtain ⟨rfl, rfl⟩ := Prod.mk.inj same
      rw [if_pos ⟨rfl, rfl⟩, Function.update_self]
      exact decoded
    · rw [Function.update_of_ne same, if_neg]
      · exact represents.payments owner other
      · rintro ⟨sameName, sameKey⟩
        exact same (Prod.ext (bucket_name_injective sameName).symm (Subtype.ext sameKey.symm))
  requestKeys := by
    intro owner key present
    by_cases same : paymentBucketName proxy = paymentBucketName owner ∧ reqID.val = key
    · rw [← same.2]
      exact reqID.property
    · rw [values, if_neg same] at present
      exact represents.requestKeys owner key present

theorem put_client_writes (represents : Represents gob db contents) (proxy : ProxyAddress)
    (snap : Option ClientSCSnapshot) (nonempty : proxy ≠ []) (fits : proxy.length ≤ maxKeySize) :
    Writes (Represents gob) (putClientSC gob proxy snap) db
      (contents.next (.putClientSC proxy snap)) := by
  cases snap with
  | none => exact ⟨db, rfl, represents⟩
  | some snap =>
      obtain ⟨blob, decoded, ran⟩ := exec_put_snapshot gob.client "bbolt: encode client sc: " snap
        represents.hasClients nonempty fits
      refine ⟨_, ran, ?_⟩
      apply client_represents represents (some blob) (some snap)
      · rw [Option.map_some, decoded]
        rfl
      · exact bucket_present_of_change _
      · exact value_of_put represents.hasClients blob

theorem delete_client_writes (represents : Represents gob db contents) (proxy : ProxyAddress) :
    Writes (Represents gob) (deleteClientSC proxy) db
      (contents.next (.deleteClientSC proxy)) := by
  obtain ⟨bucket, found⟩ := Option.isSome_iff_exists.mp represents.hasClients
  have ran : exec (deleteClientSC proxy) db =
      (.ok (), db.changeBucket bucketClients (·.erase proxy)) := by
    rw [deleteClientSC, exec_update, exec_bind_ok exec_bucket_named, found, Option.map_some,
      exec_delete_key]
  refine ⟨_, ran, ?_⟩
  apply client_represents represents none none rfl
  · exact bucket_present_of_change _
  · exact value_of_delete

theorem put_payment_writes (represents : Represents gob db contents) (proxy : ProxyAddress)
    (reqID : RequestID) (p : Option SignedPayment)
    (fits : (paymentBucketName proxy).length ≤ maxKeySize) :
    Writes (Represents gob) (putSignedPayment gob proxy reqID p) db
      (contents.next (.putSignedPayment proxy reqID p)) := by
  cases p with
  | none => exact ⟨db, rfl, represents⟩
  | some p =>
      obtain ⟨blob, decoded, encoded⟩ :=
        exec_encode_blob gob.payment "bbolt: encode payment: " p db
      have named : paymentBucketName proxy ≠ [] :=
        bucket_name_slash proxy [] (by decide)
      have keyed : reqID.val ≠ [] := List.ne_nil_of_length_eq_add_one reqID.property
      have keyFits : reqID.val.length ≤ maxKeySize := by
        rw [reqID.property]
        decide
      have added : (db.addBucket (paymentBucketName proxy)).buckets[
          paymentBucketName proxy]?.isSome := by
        rw [bucket_of_add, if_pos rfl]
        rfl
      have ran : exec (putSignedPayment gob proxy reqID (some p)) db =
          (.ok (), (db.addBucket (paymentBucketName proxy)).changeBucket (paymentBucketName proxy)
            (·.insert reqID.val blob)) := by
        rw [putSignedPayment, exec_bind_ok encoded, exec_update,
          exec_bind_ok (exec_of_bolt (exec_create_bucket named fits)),
          exec_of_bolt (exec_put_value blob keyed keyFits)]
      refine ⟨_, ran, ?_⟩
      apply payment_represents represents (some blob) (some p)
      · rw [Option.map_some, decoded]
        rfl
      · intro name present
        rw [bucket_present_of_change]
        exact bucket_present_of_add present
      · intro name key
        rw [value_of_put added, value_of_add]

theorem delete_payment_writes (represents : Represents gob db contents) (proxy : ProxyAddress)
    (reqID : RequestID) :
    Writes (Represents gob) (deleteSignedPayment proxy reqID) db
      (contents.next (.deleteSignedPayment proxy reqID)) := by
  have ran : exec (deleteSignedPayment proxy reqID) db =
      (.ok (), db.changeBucket (paymentBucketName proxy) (·.erase reqID.val)) := by
    rw [deleteSignedPayment, exec_update, exec_bind_ok exec_bucket_named]
    cases found : db.buckets[paymentBucketName proxy]? with
    | none =>
        unfold Database.changeBucket
        rw [found]
        rfl
    | some bucket => rfl
  refine ⟨_, ran, ?_⟩
  apply payment_represents represents none none rfl
  · intro name present
    rw [bucket_present_of_change]
    exact present
  · exact value_of_delete

theorem exec_get_payment (represents : Represents gob db contents) (proxy : ProxyAddress)
    (reqID : RequestID) :
    exec (getSignedPayment gob proxy reqID) db =
      (reading (contents.payments (proxy, reqID)), db) := by
  rw [getSignedPayment, exec_view, exec_bind_ok exec_bucket_named]
  have holds := represents.payments proxy reqID
  cases found : db.buckets[paymentBucketName proxy]? with
  | none =>
      have absent : contents.payments (proxy, reqID) = none := by
        rw [Database.value, found] at holds
        simpa using holds.symm
      rw [absent]
      rfl
  | some bucket =>
      rw [Option.map_some]
      rw [exec_bind_ok exec_get_value, exec_decode_found gob.payment holds]

end Writing

section Listing

variable {gob : Gob} {db : Database} {contents : Contents}

def entryOf (gob : Gob) (binding : List Byte × List Byte) : Option SignedPaymentEntry :=
  match gob.payment.decode binding.2 with
  | .error _ => none
  | .ok p => some ⟨copyInto 32 binding.1, p⟩

theorem entry_of_some {binding : List Byte × List Byte} {entry : SignedPaymentEntry} :
    entryOf gob binding = some entry ↔
      gob.payment.decode binding.2 = .ok entry.payment ∧
        copyInto 32 binding.1 = entry.requestID := by
  unfold entryOf
  cases gob.payment.decode binding.2 with
  | error text => simp
  | ok p =>
      obtain ⟨requestID, payment⟩ := entry
      simp [and_comm]

theorem exec_list_entries (found : List (List Byte × List Byte))
    (keyed : ∀ binding ∈ found, binding.1.length = 32)
    (decodes : ∀ binding ∈ found, ∃ p, gob.payment.decode binding.2 = .ok p) :
    exec (found.mapM (listEntry gob)) db = (.ok (found.filterMap (entryOf gob)), db) := by
  induction found with
  | nil => rfl
  | cons binding found ih =>
      obtain ⟨p, decoded⟩ := decodes binding List.mem_cons_self
      have first : exec (listEntry gob binding) db = (.ok ⟨copyInto 32 binding.1, p⟩, db) := by
        unfold listEntry
        rw [if_neg (not_not.mpr (keyed binding List.mem_cons_self))]
        change exec (decodeBlob gob.payment binding.2 >>= _) db = _
        rw [exec_bind_ok (exec_decode_blob gob.payment decoded db)]
        rfl
      have rest := ih (fun other member => keyed other (List.mem_cons_of_mem _ member))
        (fun other member => decodes other (List.mem_cons_of_mem _ member))
      have listed : entryOf gob binding = some ⟨copyInto 32 binding.1, p⟩ :=
        entry_of_some.mpr ⟨decoded, rfl⟩
      rw [List.mapM_cons, exec_bind_ok first, exec_bind_ok rest, List.filterMap_cons_some listed]
      rfl

variable {proxy : ProxyAddress} {bucket : Bucket}

theorem binding_value (found : db.buckets[paymentBucketName proxy]? = some bucket)
    (binding : List Byte × List Byte) :
    binding ∈ bucket.toList ↔
      db.value (paymentBucketName proxy) binding.1 = some binding.2 := by
  rw [Database.value, found]
  exact Std.ExtTreeMap.mem_toList_iff_getElem?_eq_some

theorem binding_keyed (represents : Represents gob db contents)
    (found : db.buckets[paymentBucketName proxy]? = some bucket)
    {binding : List Byte × List Byte} (member : binding ∈ bucket.toList) :
    binding.1.length = 32 := by
  apply represents.requestKeys proxy
  rw [(binding_value found binding).mp member]
  rfl

theorem binding_decodes (represents : Represents gob db contents)
    (found : db.buckets[paymentBucketName proxy]? = some bucket)
    {binding : List Byte × List Byte} (member : binding ∈ bucket.toList) :
    ∃ p, gob.payment.decode binding.2 = .ok p ∧
      contents.payments (proxy, copyInto 32 binding.1) = some p := by
  have keyed := binding_keyed represents found member
  have holds := represents.payments proxy ⟨binding.1, keyed⟩
  rw [(binding_value found binding).mp member] at holds
  have exact_key : copyInto 32 binding.1 = ⟨binding.1, keyed⟩ := copy_into_exact ⟨binding.1, keyed⟩
  rcases stored_cases gob.payment holds with ⟨absent, -⟩ | ⟨bytes, p, same, stored, decoded⟩
  · cases absent
  · obtain rfl := Option.some.inj same
    exact ⟨p, decoded, by rw [exact_key, stored]⟩

theorem mem_entries (represents : Represents gob db contents)
    (found : db.buckets[paymentBucketName proxy]? = some bucket) (entry : SignedPaymentEntry) :
    entry ∈ bucket.toList.filterMap (entryOf gob) ↔
      contents.payments (proxy, entry.requestID) = some entry.payment := by
  rw [List.mem_filterMap]
  constructor
  · rintro ⟨binding, member, listed⟩
    obtain ⟨decoded, key⟩ := entry_of_some.mp listed
    obtain ⟨p, decodedAgain, stored⟩ := binding_decodes represents found member
    obtain rfl := Except.ok.inj (decoded.symm.trans decodedAgain)
    rw [← key]
    exact stored
  · intro stored
    have holds := represents.payments proxy entry.requestID
    rw [stored] at holds
    rcases stored_cases gob.payment holds with ⟨-, absent⟩ | ⟨bytes, p, read, same, decoded⟩
    · cases absent
    · obtain rfl := Option.some.inj same
      refine ⟨(entry.requestID.val, bytes), (binding_value found _).mpr read, ?_⟩
      exact entry_of_some.mpr ⟨decoded, copy_into_exact entry.requestID⟩

theorem entries_distinct (represents : Represents gob db contents)
    (found : db.buckets[paymentBucketName proxy]? = some bucket) :
    ((bucket.toList.filterMap (entryOf gob)).map SignedPaymentEntry.requestID).Nodup := by
  rw [List.Nodup, List.pairwise_map, List.pairwise_filterMap]
  apply List.Pairwise.imp_of_mem _ Std.ExtTreeMap.distinct_keys_toList
  intro left right leftMember rightMember apart leftEntry leftListed rightEntry rightListed same
  have leftKey := (entry_of_some.mp leftListed).2
  have rightKey := (entry_of_some.mp rightListed).2
  have leftExact := copy_into_exact ⟨left.1, binding_keyed represents found leftMember⟩
  have rightExact := copy_into_exact ⟨right.1, binding_keyed represents found rightMember⟩
  apply apart
  have keys : left.1 = right.1 := by
    have equal := leftExact.symm.trans (leftKey.trans (same.trans (rightKey.symm.trans rightExact)))
    exact congrArg Subtype.val equal
  rw [keys]
  exact Std.ReflCmp.compare_self

theorem exec_list_payments (represents : Represents gob db contents) (proxy : ProxyAddress) :
    ∃ entries, exec (listSignedPayments gob proxy) db = (.ok entries, db) ∧ entries.Nodup ∧
      ∀ entry, entry ∈ entries ↔
        contents.payments (proxy, entry.requestID) = some entry.payment := by
  rw [listSignedPayments, exec_view, exec_bind_ok exec_bucket_named]
  cases found : db.buckets[paymentBucketName proxy]? with
  | none =>
      refine ⟨[], rfl, List.nodup_nil, ?_⟩
      intro entry
      have holds := represents.payments proxy entry.requestID
      rw [Database.value, found] at holds
      have absent : contents.payments (proxy, entry.requestID) = none := by simpa using holds.symm
      simp [absent]
  | some bucket =>
      refine ⟨bucket.toList.filterMap (entryOf gob), ?_,
        List.Nodup.of_map _ (entries_distinct represents found), mem_entries represents found⟩
      rw [Option.map_some]
      rw [exec_bind_ok (exec_bindings found), exec_list_entries]
      · intro binding member
        exact binding_keyed represents found member
      · intro binding member
        obtain ⟨p, decoded, -⟩ := binding_decodes represents found member
        exact ⟨p, decoded⟩

end Listing

section Collection

variable (gob : Gob) (olderThan : Instant)

def bucketAt (db : Database) (name : GoString) : Bucket := db.buckets[name]?.getD ∅

/-- What one round of the loop over the buckets does to the database. -/
def sweepName (db : Database) (name : GoString) : Database :=
  if paymentsSlash.isPrefixOf name then
    db.deleteAll name (toDelete gob olderThan (bucketAt db name).toList)
  else db

def expiredIn (db : Database) (name : GoString) : Nat :=
  if paymentsSlash.isPrefixOf name then
    (toDelete gob olderThan (bucketAt db name).toList).length
  else 0

theorem exec_delete_all (name : GoString) (keys : List (List Byte)) (db : Database)
    (removed : Nat) :
    exec (keys.foldlM (fun count key => do
        deleteKey (some name) key
        pure (count + 1)) removed : BoltM Nat) db =
      (.ok (removed + keys.length), db.deleteAll name keys) := by
  induction keys generalizing db removed with
  | nil => rfl
  | cons key keys ih =>
      have first : exec (do
            deleteKey (some name) key
            pure (removed + 1) : BoltM Nat) db =
          (.ok (removed + 1), db.changeBucket name (·.erase key)) := rfl
      rw [List.foldlM_cons, exec_bind_ok first, ih, List.length_cons, Nat.add_right_comm]
      rfl

theorem exec_collect_bucket {db : Database} {name : GoString} (present : db.buckets[name]?.isSome)
    (removed : Nat) :
    exec (collectBucket gob olderThan removed name) db =
      (.ok (removed + expiredIn gob olderThan db name), sweepName gob olderThan db name) := by
  obtain ⟨bucket, found⟩ := Option.isSome_iff_exists.mp present
  unfold collectBucket expiredIn sweepName
  by_cases named : paymentsSlash.isPrefixOf name
  · rw [if_pos named, if_pos named, if_pos named, exec_bind_ok (exec_bindings found),
      exec_delete_all, bucketAt, found]
    rfl
  · rw [if_neg named, if_neg named, if_neg named]
    rfl

theorem bucket_after_sweep {db : Database} {name other : GoString} (different : name ≠ other) :
    (sweepName gob olderThan db name).buckets[other]? = db.buckets[other]? := by
  unfold sweepName
  split
  · exact bucket_of_delete_all _ different
  · rfl

theorem exec_collect_all (names : List GoString) (distinct : names.Nodup) (db : Database)
    (present : ∀ name ∈ names, db.buckets[name]?.isSome) (removed : Nat) :
    exec (names.foldlM (collectBucket gob olderThan) removed) db =
      (.ok (removed + (names.map (expiredIn gob olderThan db)).sum),
        names.foldl (sweepName gob olderThan) db) := by
  induction names generalizing db removed with
  | nil => rfl
  | cons name names ih =>
      obtain ⟨fresh, restDistinct⟩ := List.nodup_cons.mp distinct
      have kept : ∀ other ∈ names,
          (sweepName gob olderThan db name).buckets[other]? = db.buckets[other]? := by
        intro other member
        apply bucket_after_sweep
        exact fun same => fresh (same ▸ member)
      have counts : names.map (expiredIn gob olderThan (sweepName gob olderThan db name)) =
          names.map (expiredIn gob olderThan db) := by
        apply List.map_congr_left
        intro other member
        rw [expiredIn, expiredIn, bucketAt, bucketAt, kept other member]
      have first := exec_collect_bucket gob olderThan (present name List.mem_cons_self) removed
      rw [List.foldlM_cons, exec_bind_ok first, ih restDistinct, counts, List.map_cons,
        List.sum_cons, Nat.add_assoc]
      · rfl
      · intro other member
        rw [kept other member]
        exact present other (List.mem_cons_of_mem _ member)

theorem mem_to_delete (bucket : Bucket) (key : List Byte) :
    key ∈ toDelete gob olderThan bucket.toList ↔
      ∃ blob, bucket[key]? = some blob ∧ expiredBlob gob olderThan blob = true := by
  unfold toDelete
  rw [List.mem_map]
  constructor
  · rintro ⟨binding, kept, rfl⟩
    obtain ⟨member, old⟩ := List.mem_filter.mp kept
    exact ⟨binding.2, Std.ExtTreeMap.mem_toList_iff_getElem?_eq_some.mp member, old⟩
  · rintro ⟨blob, stored, old⟩
    refine ⟨(key, blob), List.mem_filter.mpr ⟨?_, old⟩, rfl⟩
    exact Std.ExtTreeMap.mem_toList_iff_getElem?_eq_some.mpr stored

theorem value_after_sweep (db : Database) (name other key : GoString) :
    (sweepName gob olderThan db name).value other key =
      if name = other ∧ paymentsSlash.isPrefixOf name then
        (db.value other key).filter fun blob => !expiredBlob gob olderThan blob
      else db.value other key := by
  unfold sweepName
  by_cases named : paymentsSlash.isPrefixOf name
  · rw [if_pos named, value_of_delete_all]
    by_cases same : name = other
    · subst same
      have chosen : name = name ∧ paymentsSlash.isPrefixOf name = true := ⟨rfl, named⟩
      rw [if_pos chosen]
      have members := mem_to_delete gob olderThan (bucketAt db name) key
      have reads : db.value name key = (bucketAt db name)[key]? := by
        rw [Database.value, bucketAt]
        cases db.buckets[name]? <;> simp
      rw [reads]
      cases stored : (bucketAt db name)[key]? with
      | none => simp
      | some blob =>
          rw [stored] at members
          cases old : expiredBlob gob olderThan blob <;> simp [members, old, Option.filter]
    · rw [if_neg (fun both => same both.1), if_neg (fun both => same both.1)]
  · rw [if_neg named, if_neg (fun both => named both.2)]

theorem value_after_collection (names : List GoString) (db : Database) (other key : GoString) :
    (names.foldl (sweepName gob olderThan) db).value other key =
      if other ∈ names ∧ paymentsSlash.isPrefixOf other then
        (db.value other key).filter fun blob => !expiredBlob gob olderThan blob
      else db.value other key := by
  induction names generalizing db with
  | nil => simp
  | cons name names ih =>
      rw [List.foldl_cons, ih, value_after_sweep]
      by_cases named : paymentsSlash.isPrefixOf other
      · by_cases same : name = other
        · subst same
          by_cases later : name ∈ names
          · simp [named, later, Option.filter_filter]
          · simp [named, later]
        · have differs : other ≠ name := fun equal => same equal.symm
          simp [same, differs]
      · have unnamed : ¬ (name = other ∧ paymentsSlash.isPrefixOf name = true) := by
          rintro ⟨rfl, both⟩
          exact named both
        rw [if_neg unnamed, if_neg (fun both => named both.2), if_neg (fun both => named both.2)]

section Collected

variable {gob} {db : Database} {contents : Contents}

theorem collected_stored {blob : Option (List Byte)} {p : Option SignedPayment}
    (holds : blob.map gob.payment.decode = p.map .ok) :
    (blob.filter fun bytes => !expiredBlob gob olderThan bytes).map gob.payment.decode =
      (p.filter fun found => !decide (found.storedAt < olderThan)).map .ok := by
  rcases stored_cases gob.payment holds with ⟨rfl, rfl⟩ | ⟨bytes, found, rfl, rfl, decoded⟩
  · rfl
  · by_cases old : found.storedAt < olderThan
    · simp [Option.filter, expiredBlob, decoded, old]
    · simp [Option.filter, expiredBlob, decoded, old]

theorem payment_name_slash (proxy : ProxyAddress) :
    paymentsSlash.isPrefixOf (paymentBucketName proxy) = true := by
  rw [ List.isPrefixOf_iff_prefix]
  exact List.prefix_append paymentsSlash proxy

/-- A payment bucket that the loop does not visit does not exist. -/
theorem collected_payment (proxy : ProxyAddress) (key : GoString) :
    (db.buckets.keys.foldl (sweepName gob olderThan) db).value (paymentBucketName proxy) key =
      (db.value (paymentBucketName proxy) key).filter
        fun blob => !expiredBlob gob olderThan blob := by
  rw [value_after_collection]
  by_cases visited : paymentBucketName proxy ∈ db.buckets.keys
  · rw [if_pos ⟨visited, payment_name_slash proxy⟩]
  · have absent : db.buckets[paymentBucketName proxy]? = none := by
      rw [Std.ExtTreeMap.mem_keys] at visited
      exact Std.ExtTreeMap.getElem?_eq_none visited
    rw [if_neg (fun both => visited both.1), Database.value, absent]
    rfl

theorem collected_other {name : GoString} (other : ¬ paymentsSlash.isPrefixOf name)
    (key : GoString) :
    (db.buckets.keys.foldl (sweepName gob olderThan) db).value name key = db.value name key := by
  rw [value_after_collection, if_neg (fun both => other both.2)]

theorem bucket_present_after_collection (names : List GoString) (db : Database)
    (name : GoString) :
    (names.foldl (sweepName gob olderThan) db).buckets[name]?.isSome =
      db.buckets[name]?.isSome := by
  induction names generalizing db with
  | nil => rfl
  | cons first names ih =>
      rw [List.foldl_cons, ih]
      unfold sweepName
      split
      · exact bucket_present_of_delete_all _ name
      · rfl

theorem collected_represents (represents : Represents gob db contents) :
    Represents gob (db.buckets.keys.foldl (sweepName gob olderThan) db)
      (contents.collect olderThan) where
  hasRoot := by
    rw [bucket_present_after_collection]
    exact represents.hasRoot
  hasClients := by
    rw [bucket_present_after_collection]
    exact represents.hasClients
  root := by
    rw [collected_other olderThan (by decide)]
    exact represents.root
  clients := by
    intro proxy
    rw [collected_other olderThan (by decide)]
    exact represents.clients proxy
  payments := by
    intro proxy reqID
    rw [collected_payment]
    exact collected_stored olderThan (represents.payments proxy reqID)
  requestKeys := by
    intro proxy key present
    rw [collected_payment] at present
    apply represents.requestKeys proxy key
    cases stored : db.value (paymentBucketName proxy) key with
    | none => simp [stored] at present
    | some blob => rfl

def table (gob : Gob) (db : Database) : Table :=
  (db.buckets.keys.filter (paymentsSlash.isPrefixOf ·)).map fun name =>
    (name.drop paymentsSlash.length, (bucketAt db name).toList.filterMap (entryOf gob))

theorem slash_name {name : GoString} (named : paymentsSlash.isPrefixOf name) :
    paymentBucketName (name.drop paymentsSlash.length) = name := by
  obtain ⟨proxy, rfl⟩ := List.isPrefixOf_iff_prefix.mp named
  rw [List.drop_left]
  rfl

theorem mem_table {proxy : ProxyAddress} {entries : List SignedPaymentEntry} :
    (proxy, entries) ∈ table gob db ↔
      ∃ bucket, db.buckets[paymentBucketName proxy]? = some bucket ∧
        entries = bucket.toList.filterMap (entryOf gob) := by
  unfold table
  rw [List.mem_map]
  constructor
  · rintro ⟨name, listed, same⟩
    obtain ⟨rfl, rfl⟩ := Prod.mk.inj same
    obtain ⟨visited, named⟩ := List.mem_filter.mp listed
    rw [slash_name named]
    rw [Std.ExtTreeMap.mem_keys, Std.ExtTreeMap.mem_iff_isSome_getElem?] at visited
    obtain ⟨bucket, found⟩ := Option.isSome_iff_exists.mp visited
    refine ⟨bucket, found, ?_⟩
    rw [bucketAt, found]
    rfl
  · rintro ⟨bucket, found, rfl⟩
    refine ⟨paymentBucketName proxy, List.mem_filter.mpr ⟨?_, payment_name_slash proxy⟩, ?_⟩
    · rw [Std.ExtTreeMap.mem_keys, Std.ExtTreeMap.mem_iff_isSome_getElem?, found]
      rfl
    · rw [bucketAt, found, paymentBucketName, List.drop_left]
      rfl

theorem table_tabulates (represents : Represents gob db contents) :
    Tabulates (table gob db) contents where
  proxies := by
    unfold table
    rw [List.map_map]
    apply List.Nodup.map_on
    · intro left leftListed right rightListed same
      have leftName := slash_name (List.mem_filter.mp leftListed).2
      have rightName := slash_name (List.mem_filter.mp rightListed).2
      rw [← leftName, ← rightName]
      exact congrArg paymentBucketName same
    · exact Std.ExtTreeMap.nodup_keys.filter _
  requests := by
    rintro ⟨proxy, entries⟩ member
    obtain ⟨bucket, found, rfl⟩ := mem_table.mp member
    exact entries_distinct represents found
  complete := by
    intro proxy entry
    constructor
    · intro stored
      cases found : db.buckets[paymentBucketName proxy]? with
      | none =>
          have holds := represents.payments proxy entry.requestID
          rw [Database.value, found, stored] at holds
          simp at holds
      | some bucket =>
          exact ⟨_, mem_table.mpr ⟨bucket, found, rfl⟩,
            (mem_entries represents found entry).mpr stored⟩
    · rintro ⟨entries, member, present⟩
      obtain ⟨bucket, found, rfl⟩ := mem_table.mp member
      exact (mem_entries represents found entry).mp present

theorem expired_entries (found : List (List Byte × List Byte)) :
    (found.filterMap (entryOf gob)).countP (isExpired olderThan) =
      (toDelete gob olderThan found).length := by
  unfold toDelete
  rw [List.length_map, ← List.countP_eq_length_filter, List.countP_filterMap]
  apply List.countP_congr
  intro binding _
  unfold entryOf expiredBlob
  cases gob.payment.decode binding.2 <;> simp [isExpired]

theorem swept_count (represents : Represents gob db contents) :
    (db.buckets.keys.map (expiredIn gob olderThan db)).sum =
      (contents.expired olderThan).ncard := by
  rw [expired_count (table_tabulates represents), table, List.map_map]
  induction db.buckets.keys with
  | nil => rfl
  | cons name names ih =>
      rw [List.map_cons, List.sum_cons, ih, List.filter_cons]
      by_cases named : paymentsSlash.isPrefixOf name
      · rw [if_pos named, List.map_cons, List.sum_cons, Function.comp_apply, expired_entries,
          expiredIn, if_pos named]
      · rw [if_neg named, expiredIn, if_neg named, Nat.zero_add]

theorem exec_gc (represents : Represents gob db contents) :
    ∃ after, exec (gcSignedPayments gob olderThan) db =
      (.ok (contents.expired olderThan).ncard, after) ∧
        Represents gob after (contents.collect olderThan) := by
  refine ⟨_, ?_, collected_represents olderThan represents⟩
  rw [gcSignedPayments, exec_update, exec_bind_ok exec_bucket_names, exec_collect_all]
  · rw [swept_count olderThan represents, Nat.zero_add]
  · exact Std.ExtTreeMap.nodup_keys
  · intro name visited
    rwa [Std.ExtTreeMap.mem_keys, Std.ExtTreeMap.mem_iff_isSome_getElem?] at visited

end Collected

end Collection

def opened : Database :=
  ((Database.empty.addBucket bucketRoot).addBucket bucketClients).addBucket bucketPayments

theorem exec_create_one (db : Database) {name : GoString} (nonempty : name ≠ [])
    (fits : name.length ≤ maxKeySize) :
    exec (do let _ ← ofBolt (createBucketIfNotExists name) : BoltM Unit) db =
      (.ok (), db.addBucket name) := by
  rw [exec_bind_ok (exec_of_bolt (exec_create_bucket nonempty fits))]
  rfl

theorem exec_open : exec openStore Database.empty = (.ok (), opened) := by
  rw [openStore, exec_map_error, exec_update, List.forM_cons,
    exec_bind_ok (exec_create_one _ (by decide) (by decide)), List.forM_cons,
    exec_bind_ok (exec_create_one _ (by decide) (by decide)), List.forM_cons,
    exec_bind_ok (exec_create_one _ (by decide) (by decide)), List.forM_nil]
  rfl

theorem opened_represents (gob : Gob) : Represents gob opened Contents.empty := by
  have nothing : ∀ name key : GoString, opened.value name key = none := by
    intro name key
    unfold opened
    rw [value_of_add, value_of_add, value_of_add, Database.value, Database.empty]
    simp
  exact {
    hasRoot := bucket_present_of_add (bucket_present_of_add (by rw [bucket_of_add]; rfl))
    hasClients := bucket_present_of_add (by rw [bucket_of_add]; rfl)
    root := by rw [nothing]; rfl
    clients := fun proxy => by rw [nothing]; rfl
    payments := fun proxy reqID => by rw [nothing]; rfl
    requestKeys := fun proxy key present => by simp [nothing] at present }

theorem bolt_implements (gob : Gob) :
    Implements (Represents gob) WithinLimits (boltStore gob) where
  getRoot := fun represents => exec_get_snapshot gob.root represents.hasRoot represents.root
  putRoot := by
    intro db contents snap represents
    cases snap with
    | none => exact ⟨db, rfl, represents⟩
    | some snap =>
        obtain ⟨blob, decoded, ran⟩ := exec_put_snapshot gob.root "bbolt: encode root: " snap
          represents.hasRoot (by decide : keyRootSnap ≠ []) (by decide)
        exact ⟨_, ran, put_root_represents represents decoded⟩
  getClientSC := by
    intro db contents proxy represents _
    exact exec_get_snapshot gob.client represents.hasClients (represents.clients proxy)
  putClientSC := by
    intro db contents proxy snap represents limits
    exact put_client_writes represents proxy snap limits.1 limits.2
  deleteClientSC := by
    intro db contents proxy represents _
    exact delete_client_writes represents proxy
  putSignedPayment := by
    intro db contents proxy reqID p represents limits
    exact put_payment_writes represents proxy reqID p limits.2
  getSignedPayment := by
    intro db contents proxy reqID represents _
    exact exec_get_payment represents proxy reqID
  deleteSignedPayment := by
    intro db contents proxy reqID represents _
    exact delete_payment_writes represents proxy reqID
  listSignedPayments := by
    intro db contents proxy represents _
    exact exec_list_payments represents proxy
  gcSignedPayments := by
    intro db contents olderThan represents
    exact exec_gc olderThan represents

end Gocoon.BoltStore
