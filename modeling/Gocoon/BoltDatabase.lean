import Mathlib.Data.List.AList
import Gocoon.GoProgram

/-!
# An embedded key-value database with ordered buckets

A database holds top-level buckets under their names, and a bucket holds values under
their keys, both in byte order. A bucket handle is the name of a bucket that exists in the
transaction. `update` keeps the changes of a transaction that returns nil and drops those
of one that fails; `view` keeps none. A failing disk and a value beyond the size of a page
file are not part of the model.
-/

namespace Gocoon.BoltDatabase

open Gocoon.GoProgram

set_option autoImplicit false

abbrev Bytes := List UInt8

inductive BoltError where
  | keyRequired
  | keyTooLarge
  | bucketNameRequired
  deriving DecidableEq

abbrev Bucket := Std.ExtTreeMap Bytes Bytes

structure Database where
  buckets : Std.ExtTreeMap Bytes Bucket

namespace Database

def empty : Database := ⟨∅⟩

def value (db : Database) (name key : Bytes) : Option Bytes :=
  db.buckets[name]?.bind fun bucket => bucket[key]?

def changeBucket (db : Database) (name : Bytes) (change : Bucket → Bucket) : Database :=
  match db.buckets[name]? with
  | none => db
  | some bucket => ⟨db.buckets.insert name (change bucket)⟩

def addBucket (db : Database) (name : Bytes) : Database :=
  match db.buckets[name]? with
  | none => ⟨db.buckets.insert name ∅⟩
  | some _ => db

def deleteAll (db : Database) (name : Bytes) (keys : List Bytes) : Database :=
  keys.foldl (fun current key => current.changeBucket name (·.erase key)) db

end Database

def maxKeySize : Nat := 32768

section Transactions

variable {Err Value : Type}

def update (body : GoM Database Err Value) : GoM Database Err Value := do
  let before ← get
  let (outcome, after) := exec body before
  match outcome with
  | .ok value => do
      set after
      pure value
  | .error fault => lift (.error fault)

def view (body : GoM Database Err Value) : GoM Database Err Value := do
  let db ← get
  lift (exec body db).1

/-- `tx.Bucket`: nil when there is no bucket of this name. -/
def bucketNamed (name : Bytes) : GoM Database Err (Option Bytes) := do
  let db ← get
  pure (db.buckets[name]?.map fun _ => name)

/-- `b.Get` on a handle that may be nil. -/
def getValue (handle : Option Bytes) (key : Bytes) : GoM Database Err (Option Bytes) := do
  let db ← get
  match handle with
  | none => crash
  | some name => pure (db.value name key)

/-- `b.Delete` fails only on nested buckets, which this database does not have. -/
def deleteKey (handle : Option Bytes) (key : Bytes) : GoM Database Err Unit :=
  match handle with
  | none => crash
  | some name => modify (·.changeBucket name (·.erase key))

/-- The bindings that `b.ForEach` and a cursor visit. -/
def bindings (handle : Option Bytes) : GoM Database Err (List (Bytes × Bytes)) := do
  let db ← get
  match handle.bind fun name => db.buckets[name]? with
  | none => crash
  | some bucket => pure bucket.toList

/-- The names that `tx.ForEach` visits. -/
def bucketNames : GoM Database Err (List Bytes) := do
  let db ← get
  pure db.buckets.keys

end Transactions

def putValue (handle : Option Bytes) (key value : Bytes) : GoM Database BoltError Unit :=
  match handle with
  | none => crash
  | some name =>
      if key = [] then fail .keyRequired
      else if maxKeySize < key.length then fail .keyTooLarge
      else modify (·.changeBucket name (·.insert key value))

def createBucketIfNotExists (name : Bytes) : GoM Database BoltError Bytes := do
  if name = [] then fail .bucketNameRequired
  else if maxKeySize < name.length then fail .keyTooLarge
  else
    modify (·.addBucket name)
    pure name

section Reading

variable {Err Value : Type} {db : Database} {name key : Bytes}

theorem bucket_of_change (change : Bucket → Bucket) (other : Bytes) :
    (db.changeBucket name change).buckets[other]? =
      if name = other then db.buckets[name]?.map change else db.buckets[other]? := by
  unfold Database.changeBucket
  cases found : db.buckets[name]? with
  | none =>
      by_cases same : name = other
      · subst same
        simp [found]
      · simp [same]
  | some bucket => simp [Std.ExtTreeMap.getElem?_insert]

theorem bucket_of_add (other : Bytes) :
    (db.addBucket name).buckets[other]? =
      if name = other then some (db.buckets[name]?.getD ∅) else db.buckets[other]? := by
  unfold Database.addBucket
  cases found : db.buckets[name]? with
  | none => simp [Std.ExtTreeMap.getElem?_insert]
  | some bucket =>
      by_cases same : name = other
      · subst same
        simp [found]
      · simp [same]

theorem bucket_present_of_change (change : Bucket → Bucket) (other : Bytes) :
    (db.changeBucket name change).buckets[other]?.isSome = db.buckets[other]?.isSome := by
  rw [bucket_of_change]
  by_cases same : name = other
  · rw [if_pos same, same, Option.isSome_map]
  · rw [if_neg same]

theorem bucket_present_of_add {other : Bytes} (present : db.buckets[other]?.isSome) :
    (db.addBucket name).buckets[other]?.isSome := by
  rw [bucket_of_add]
  by_cases same : name = other
  · rw [if_pos same]
    rfl
  · rw [if_neg same]
    exact present

theorem value_of_put (present : db.buckets[name]?.isSome) (value other otherKey : Bytes) :
    (db.changeBucket name (·.insert key value)).value other otherKey =
      if name = other ∧ key = otherKey then some value else db.value other otherKey := by
  unfold Database.value
  rw [bucket_of_change]
  by_cases sameName : name = other
  · subst sameName
    obtain ⟨bucket, found⟩ := Option.isSome_iff_exists.mp present
    simp [found, Std.ExtTreeMap.getElem?_insert]
  · simp [sameName]

theorem value_of_delete (other otherKey : Bytes) :
    (db.changeBucket name (·.erase key)).value other otherKey =
      if name = other ∧ key = otherKey then none else db.value other otherKey := by
  unfold Database.value
  rw [bucket_of_change]
  by_cases sameName : name = other
  · subst sameName
    cases found : db.buckets[name]? with
    | none => simp
    | some bucket => simp [Std.ExtTreeMap.getElem?_erase]
  · simp [sameName]

theorem value_of_add (other otherKey : Bytes) :
    (db.addBucket name).value other otherKey = db.value other otherKey := by
  unfold Database.value
  rw [bucket_of_add]
  by_cases sameName : name = other
  · subst sameName
    cases found : db.buckets[name]? with
    | none => simp
    | some bucket => simp
  · simp [sameName]

theorem value_of_delete_all (keys : List Bytes) (other otherKey : Bytes) :
    (db.deleteAll name keys).value other otherKey =
      if name = other ∧ otherKey ∈ keys then none else db.value other otherKey := by
  unfold Database.deleteAll
  induction keys generalizing db with
  | nil => simp
  | cons first keys ih =>
      rw [List.foldl_cons, ih, value_of_delete]
      by_cases sameName : name = other
      · by_cases sameKey : first = otherKey
        · simp [sameName, sameKey]
        · have differs : otherKey ≠ first := fun equal => sameKey equal.symm
          simp [sameName, sameKey, differs]
      · simp [sameName]

theorem bucket_of_delete_all (keys : List Bytes) {other : Bytes} (different : name ≠ other) :
    (db.deleteAll name keys).buckets[other]? = db.buckets[other]? := by
  unfold Database.deleteAll
  induction keys generalizing db with
  | nil => rfl
  | cons first keys ih =>
      rw [List.foldl_cons, ih, bucket_of_change, if_neg different]

theorem bucket_present_of_delete_all (keys : List Bytes) (other : Bytes) :
    (db.deleteAll name keys).buckets[other]?.isSome = db.buckets[other]?.isSome := by
  unfold Database.deleteAll
  induction keys generalizing db with
  | nil => rfl
  | cons first keys ih => rw [List.foldl_cons, ih, bucket_present_of_change]

theorem exec_update (body : GoM Database Err Value) :
    exec (update body) db =
      match exec body db with
      | (.ok value, after) => (.ok value, after)
      | (.error fault, _) => (.error fault, db) := by
  rw [update, exec_bind_ok (exec_get db)]
  rcases exec body db with ⟨fault | value, after⟩
  · exact exec_lift _ db
  · rfl

theorem exec_view (body : GoM Database Err Value) :
    exec (view body) db = ((exec body db).1, db) := by
  rw [view, exec_bind_ok (exec_get db), exec_lift]

theorem exec_bucket_named :
    exec (bucketNamed name : GoM Database Err _) db =
      (.ok (db.buckets[name]?.map fun _ => name), db) := rfl

theorem exec_get_value :
    exec (getValue (some name) key : GoM Database Err _) db = (.ok (db.value name key), db) := rfl

theorem exec_delete_key :
    exec (deleteKey (some name) key : GoM Database Err _) db =
      (.ok (), db.changeBucket name (·.erase key)) := rfl

theorem exec_bindings {bucket : Bucket} (found : db.buckets[name]? = some bucket) :
    exec (bindings (some name) : GoM Database Err _) db = (.ok bucket.toList, db) := by
  rw [bindings, exec_bind_ok (exec_get db), Option.bind_some, found]
  rfl

theorem exec_bucket_names :
    exec (bucketNames : GoM Database Err _) db = (.ok db.buckets.keys, db) := rfl

theorem exec_put_value (value : Bytes) (nonempty : key ≠ []) (fits : key.length ≤ maxKeySize) :
    exec (putValue (some name) key value) db =
      (.ok (), db.changeBucket name (·.insert key value)) := by
  rw [putValue]
  rw [if_neg nonempty, if_neg (Nat.not_lt.mpr fits)]
  rfl

theorem exec_create_bucket (nonempty : name ≠ []) (fits : name.length ≤ maxKeySize) :
    exec (createBucketIfNotExists name) db = (.ok name, db.addBucket name) := by
  rw [createBucketIfNotExists, if_neg nonempty, if_neg (Nat.not_lt.mpr fits)]
  rfl

end Reading

end Gocoon.BoltDatabase
