import Gocoon.CellLayout
import Gocoon.TopUpPaths

/-!
# Bodies that can be read back

A body for the client contract is an op, a query id, the fields of the operation and an address.
The builders check an amount for nil and for its sign, and a secret hash for nil only; the widths
of the fields are left to the storing calls, which panic. So a body is refused, or it is built and
reads back as it was asked for, exactly if its values fit their fields and all of it fits into a
cell.
-/

namespace Gocoon.ClientMessages

open Gocoon.LittleEndianBytes
open Gocoon.GoProgram
open Gocoon.TlPrimitives
open Gocoon.CocoonErrors
open Gocoon.CellBuilder
open Gocoon.CellLayout
open Gocoon.TonChain
open Gocoon.ClientContract
open Gocoon.RegisterOnChain (sampleLib)
open Gocoon.TopUpPaths

set_option autoImplicit false

/-- `LoadAddr` of the library: an address that was stored is loaded again. -/
structure AddressLoader (lib : TonLib) where
  load : Slice → Option (lib.Address × Slice)
  loads : ∀ address rest, ∃ found,
    load ((Contents.ofBits (lib.bits address)).before rest) = some (found, rest) ∧
      lib.equals address found = true

/-! ## The fields of a body -/

/-- The values that stand between the query id and the address. -/
structure BodyFields where
  amount : Option Nat
  hash : Option Nat

def BodyFields.InRange (fields : BodyFields) : Prop :=
  (∀ value ∈ fields.amount, value < 2 ^ 120) ∧ ∀ value ∈ fields.hash, value < 2 ^ 256

def BodyFields.contents (fields : BodyFields) : Contents :=
  fields.amount.elim .empty CellLayout.amount ++ fields.hash.elim .empty (.word 256)

def bodyContents (op : UInt32) (fields : BodyFields) (address : List Bool) : Contents :=
  .word 32 op.toNat ++ (.word 64 0 ++ (fields.contents ++ .ofBits address))

structure ReadBody (lib : TonLib) where
  op : Nat
  queryID : Nat
  fields : BodyFields
  address : lib.Address

section Reading

variable {lib : TonLib}

def readWhere {Value : Type} (present : Bool) (load : Slice → Option (Value × Slice)) :
    GoM Slice Unit (Option Value) :=
  if present then reading () load >>= fun value => pure (some value) else pure none

/-- A reader of a body that has an amount, a hash, or both. -/
def readBody (loader : AddressLoader lib) (amount hash : Bool) : GoM Slice Unit (ReadBody lib) := do
  let op ← reading () (·.loadUInt 32)
  let queryID ← reading () (·.loadUInt 64)
  let amount ← readWhere amount (·.loadBigCoins)
  let hash ← readWhere hash (·.loadUInt 256)
  let address ← reading () loader.load
  pure ⟨op, queryID, ⟨amount, hash⟩, address⟩

/-- Op, query id, fields and address are read back from the cell, and nothing is left. -/
def ReadsBack (loader : AddressLoader lib) (op : UInt32) (fields : BodyFields)
    (address : lib.Address) (cell : Cell) : Prop :=
  ∃ found, lib.equals address found = true ∧
    exec (readBody loader fields.amount.isSome fields.hash.isSome) (beginParse cell) =
      (.ok ⟨op.toNat, 0, fields, found⟩, ⟨[], []⟩)

theorem consumes_where {Value : Type} {load : Slice → Option (Value × Slice)}
    {contents : Value → Contents} {field : Option Value}
    (loads : ∀ value ∈ field, ∀ rest, load ((contents value).before rest) = some (value, rest)) :
    Consumes (readWhere field.isSome load) (field.elim .empty contents) field := by
  cases field with
  | none => exact consumes_pure none
  | some value =>
      have read : Consumes (reading () load) (contents value) value :=
        consumes_reading (loads value rfl)
      exact read.map some

theorem reads_back (loader : AddressLoader lib) (op : UInt32) {fields : BodyFields}
    (inRange : fields.InRange) (address : lib.Address) :
    ReadsBack loader op fields address (bodyContents op fields (lib.bits address)).cell := by
  obtain ⟨found, loaded, same⟩ := loader.loads address ⟨[], []⟩
  refine ⟨found, same, ?_⟩
  have ops : Consumes (reading () (·.loadUInt 32)) (.word 32 op.toNat) op.toNat :=
    consumes_reading (load_word op.toNat_lt)
  have queries : Consumes (reading () (·.loadUInt 64)) (.word 64 0) 0 :=
    consumes_reading (load_word (by decide))
  have amounts := consumes_where fun value given => load_amount (inRange.1 value given)
  have hashes := consumes_where fun value given => load_word (inRange.2 value given)
  rw [← Contents.before_nothing, bodyContents, BodyFields.contents, Contents.append_assoc,
    Contents.append_before, Contents.append_before, Contents.append_before,
    Contents.append_before, readBody, exec_bind_ok (ops _), exec_bind_ok (queries _),
    exec_bind_ok (amounts _), exec_bind_ok (hashes _), reading, exec_bind,
    exec_bind_ok (exec_get _), loaded]
  rfl

end Reading

/-! ## Storing -/

section Storing

variable {lib : TonLib} {store : Builder → Option Builder} {fields : BodyFields}

theorem coins_outside {value : Int} (outside : ¬ (0 ≤ value ∧ value < 2 ^ 120))
    (builder : Builder) : builder.storeBigCoins value = none := by
  rw [Builder.storeBigCoins]
  split_ifs with positive
  · have absent : (List.range 16).find? (fun count => decide (value.toNat < 256 ^ count)) =
        none := by
      rw [List.find?_eq_none]
      intro count inside
      have bound : (256 : Nat) ^ count ≤ 256 ^ 15 :=
        Nat.pow_le_pow_right (by decide) (Nat.le_of_lt_succ (List.mem_range.mp inside))
      have top : (256 : Nat) ^ 15 = 2 ^ 120 := by norm_num
      rw [decide_eq_true_eq]
      omega
    rw [absent]
    rfl
  · rfl

theorem hash_outside {value : Int} (outside : ¬ (0 ≤ value ∧ value < 2 ^ 256))
    (builder : Builder) : builder.storeBigUInt value 256 = none := by
  rw [Builder.storeBigUInt]
  split_ifs with positive
  · have large : ¬ value.toNat < 2 ^ 256 := by omega
    rw [Builder.storeUInt, if_neg large]
  · rfl

def fieldsOf (amount hash : Option Int) : BodyFields :=
  ⟨amount.map Int.toNat, hash.map Int.toNat⟩

def InBounds (amount hash : Option Int) : Prop :=
  (∀ value ∈ amount, 0 ≤ value ∧ value < 2 ^ 120) ∧
    ∀ value ∈ hash, 0 ≤ value ∧ value < 2 ^ 256

theorem in_range {amount hash : Option Int} (bounds : InBounds amount hash) :
    (fieldsOf amount hash).InRange := by
  constructor
  · intro value given
    obtain ⟨asked, present, rfl⟩ := Option.mem_map.mp given
    have bound := bounds.1 asked present
    omega
  · intro value given
    obtain ⟨asked, present, rfl⟩ := Option.mem_map.mp given
    have bound := bounds.2 asked present
    omega

/-- A store of fields: it writes them if they are within bounds and fails otherwise. -/
structure Stores (store : Builder → Option Builder) (amount hash : Option Int) : Prop where
  writes : InBounds amount hash → Writes store (fieldsOf amount hash).contents
  fails : ¬ InBounds amount hash → ∀ builder, store builder = none

theorem stores_amount (value : Int) : Stores (·.storeBigCoins value) (some value) none where
  writes bounds := by
    have bound := bounds.1 value rfl
    have contents : (fieldsOf (some value) none).contents = CellLayout.amount value.toNat :=
      Contents.append_empty _
    rw [contents]
    exact writes_amount bound.1 bound.2
  fails outside := by
    apply coins_outside
    simpa [InBounds] using outside

theorem stores_hash (value : Int) : Stores (·.storeBigUInt value 256) none (some value) where
  writes bounds := by
    have bound := bounds.2 value rfl
    exact writes_big_uint bound.1 bound.2
  fails outside := by
    apply hash_outside
    simpa [InBounds] using outside

theorem stores_both (value secret : Int) :
    Stores (fun builder => (builder.storeBigCoins value).bind (·.storeBigUInt secret 256))
      (some value) (some secret) where
  writes bounds := by
    have bound := bounds.1 value rfl
    have secretBound := bounds.2 secret rfl
    exact (writes_amount bound.1 bound.2).andThen (writes_big_uint secretBound.1 secretBound.2)
  fails outside := by
    intro builder
    by_cases bound : 0 ≤ value ∧ value < 2 ^ 120
    · have secretOutside : ¬ (0 ≤ secret ∧ secret < 2 ^ 256) := by
        intro secretBound
        apply outside
        constructor
        · intro other same
          cases same
          exact bound
        · intro other same
          cases same
          exact secretBound
      simp only [hash_outside secretOutside, Option.bind_fun_none]
    · rw [coins_outside bound, Option.bind_none]

theorem message_body_eq (op : UInt32) (writes : Writes store fields.contents)
    (address : List Bool) :
    messageBody op 0 store address =
      if (bodyContents op fields address).Fits
      then .ok (bodyContents op fields address).cell else .error .panicked := by
  have query : Writes (·.storeUInt 0 64) (.word 64 0) := writes_word (by decide)
  have chain := (((writes_uint32 op).andThen query).andThen writes).andThen (writes_bits address)
  have same : Contents.word 32 op.toNat ++ .word 64 0 ++ fields.contents ++ .ofBits address =
      bodyContents op fields address := by
    rw [bodyContents, Contents.append_assoc, Contents.append_assoc]
  rw [same] at chain
  have whole := chain.builds
  unfold messageBody
  simp only [Option.bind_eq_bind, Option.bind_assoc] at whole ⊢
  change built (Option.bind _ _) = _
  rw [UInt64.toNat_zero, whole]
  split_ifs with fits
  · rfl
  · rfl

theorem message_body_panics (op : UInt32) (fails : ∀ builder, store builder = none)
    (address : List Bool) : messageBody op 0 store address = .error .panicked := by
  unfold messageBody
  simp only [fails, Option.bind_eq_bind, Option.bind_none, Option.bind_fun_none]
  rfl

end Storing

/-! ## The builders -/

section Builders

variable {lib : TonLib}

/-- An error is returned, or a cell is and everything can be read back from it. -/
def Readable (loader : AddressLoader lib) (op : UInt32) (fields : BodyFields)
    (address : lib.Address) (outcome : Except (Fault CocoonError) Cell) : Prop :=
  (∃ error, outcome = .error (.returned error)) ∨
    ∃ cell, outcome = .ok cell ∧ ReadsBack loader op fields address cell

def BodyFields.size (fields : BodyFields) : Nat :=
  fields.amount.elim 0 (fun value => 4 + 8 * leastBytes value) +
    fields.hash.elim 0 fun _ => 256

/-- Op, query id, fields and address are no longer than a cell. -/
def HasRoom (fields : BodyFields) (address : lib.Address) : Prop :=
  32 + 64 + fields.size + (lib.bits address).length ≤ maxBits

theorem body_fits_iff (op : UInt32) (fields : BodyFields) (address : lib.Address) :
    (bodyContents op fields (lib.bits address)).Fits ↔ HasRoom fields address := by
  have refs : (bodyContents op fields (lib.bits address)).refs.length ≤ maxRefs := by
    obtain ⟨amount, hash⟩ := fields
    cases amount <;> cases hash <;> exact Nat.zero_le _
  have bits : (bodyContents op fields (lib.bits address)).bits.length =
      32 + 64 + fields.size + (lib.bits address).length := by
    obtain ⟨amount, hash⟩ := fields
    cases amount <;> cases hash <;>
      simp only [bodyContents, BodyFields.contents, BodyFields.size, Option.elim, CellLayout.amount,
        sizedAmount, Contents.bits_append, Contents.word, Contents.ofBits, Contents.empty,
        List.length_append, List.length_nil, number_bits_length] <;>
      omega
  constructor
  · intro fits
    rw [HasRoom, ← bits]
    exact fits.1
  · intro room
    rw [HasRoom, ← bits] at room
    exact ⟨room, refs⟩

variable {loader : AddressLoader lib} {op : UInt32} {fields : BodyFields} {address : lib.Address}
  {store : Builder → Option Builder}

theorem panic_unreadable : ¬ Readable loader op fields address (.error .panicked) := by
  intro readable
  rcases readable with ⟨error, same⟩ | ⟨cell, same, -⟩
  · cases same
  · cases same

theorem readable_iff (loader : AddressLoader lib) (op : UInt32) (address : lib.Address)
    {amount hash : Option Int} (stores : Stores store amount hash) :
    Readable loader op (fieldsOf amount hash) address
        (messageBody op 0 store (lib.bits address)) ↔
      InBounds amount hash ∧ HasRoom (fieldsOf amount hash) address := by
  by_cases bounds : InBounds amount hash
  · rw [message_body_eq op (stores.writes bounds), ← body_fits_iff op, and_iff_right bounds]
    split_ifs with fits
    · exact iff_of_true (Or.inr ⟨_, rfl, reads_back loader op (in_range bounds) address⟩) fits
    · exact iff_of_false panic_unreadable fits
  · rw [message_body_panics op (stores.fails bounds)]
    exact iff_of_false panic_unreadable fun held => bounds held.1

/-- The amount is refused, or it fits its field and the body fits into a cell. -/
def AmountFits (amount : Option Int) (address : lib.Address) : Prop :=
  ∀ value ∈ amount, 0 ≤ value → value < 2 ^ 120 ∧ HasRoom (fieldsOf (some value) none) address

/-- The same for a hash, whose sign is not looked at. -/
def HashFits (hash : Option Int) (address : lib.Address) : Prop :=
  ∀ value ∈ hash, (0 ≤ value ∧ value < 2 ^ 256) ∧ HasRoom (fieldsOf none (some value)) address

/-- The same for both in one body. -/
def BothFit (amount hash : Option Int) (address : lib.Address) : Prop :=
  ∀ value ∈ amount, 0 ≤ value → ∀ secret ∈ hash,
    value < 2 ^ 120 ∧ (0 ≤ secret ∧ secret < 2 ^ 256) ∧
      HasRoom (fieldsOf (some value) (some secret)) address

theorem amount_body_iff (op : UInt32) (invalid : String) (amount : Option Int) :
    Readable loader op (fieldsOf amount none) address
      (amountBody op invalid amount (.ok (lib.bits address))) ↔ AmountFits amount address := by
  cases amount with
  | none =>
      have refused : AmountFits none address := fun _ given => absurd given (by simp)
      exact iff_of_true (Or.inl ⟨_, rfl⟩) refused
  | some value =>
      simp only [amountBody, AmountFits, Option.mem_def, Option.some.injEq, forall_eq']
      split_ifs with negative
      · exact iff_of_true (Or.inl ⟨_, rfl⟩) fun positive => absurd positive (not_le.mpr negative)
      have positive : 0 ≤ value := not_lt.mp negative
      have whole := readable_iff loader op address (stores_amount value)
      simp only [InBounds, Option.mem_def, Option.some.injEq, forall_eq', positive, true_and,
        reduceCtorEq, false_implies, implies_true, and_true] at whole
      rw [forall_prop_of_true positive]
      exact whole

theorem hash_body_iff (hash : Option Int) :
    Readable loader opOwnerClientChangeSecretHash (fieldsOf none hash) address
      (buildOwnerChangeSecretHash lib hash (some address)) ↔ HashFits hash address := by
  cases hash with
  | none =>
      have refused : HashFits none address := fun _ given => absurd given (by simp)
      exact iff_of_true (Or.inl ⟨_, rfl⟩) refused
  | some value =>
      rw [buildOwnerChangeSecretHash]
      have whole := readable_iff loader opOwnerClientChangeSecretHash address (stores_hash value)
      simpa [InBounds, HashFits] using whole

theorem both_body_iff (amount hash : Option Int) :
    Readable loader opOwnerClientChangeSecretHashAndTopUp (fieldsOf amount hash) address
      (buildOwnerChangeSecretHashAndTopUp lib amount hash (some address)) ↔
        BothFit amount hash address := by
  cases amount with
  | none =>
      have refused : BothFit none hash address := fun _ given => absurd given (by simp)
      exact iff_of_true (Or.inl ⟨_, rfl⟩) refused
  | some value =>
      simp only [buildOwnerChangeSecretHashAndTopUp, BothFit, Option.mem_def, Option.some.injEq,
        forall_eq']
      split_ifs with negative
      · exact iff_of_true (Or.inl ⟨_, rfl⟩) fun positive => absurd positive (not_le.mpr negative)
      have positive : 0 ≤ value := not_lt.mp negative
      rw [forall_prop_of_true positive]
      cases hash with
      | none => exact iff_of_true (Or.inl ⟨_, rfl⟩) fun _ given => absurd given (by simp)
      | some secret =>
          have whole := readable_iff loader opOwnerClientChangeSecretHashAndTopUp address
            (stores_both value secret)
          simp only [Option.some.injEq, forall_eq']
          simpa [InBounds, positive, and_assoc] using whole

end Builders

/-- Each builder refuses its values or builds a body that reads back, exactly if they fit. -/
theorem message_builders_total_iff (lib : TonLib) (loader : AddressLoader lib)
    (amount hash : Option Int) (address : lib.Address) :
    (Readable loader opExtClientTopUp (fieldsOf amount none) address
      (buildExtTopUp lib amount (some address)) ↔ AmountFits amount address) ∧
    (Readable loader opOwnerClientIncreaseStake (fieldsOf amount none) address
      (buildOwnerIncreaseStake lib amount (some address)) ↔ AmountFits amount address) ∧
    (Readable loader opOwnerClientChangeSecretHash (fieldsOf none hash) address
      (buildOwnerChangeSecretHash lib hash (some address)) ↔ HashFits hash address) ∧
    (Readable loader opOwnerClientChangeSecretHashAndTopUp (fieldsOf amount hash) address
      (buildOwnerChangeSecretHashAndTopUp lib amount hash (some address)) ↔
        BothFit amount hash address) :=
  ⟨amount_body_iff _ _ amount, amount_body_iff _ _ amount, hash_body_iff hash,
    both_body_iff amount hash⟩

def byteLib : TonLib where
  Address := Byte
  parseAddr := fun text => .ok (text.headD 0)
  newAddress := fun _ _ raw => raw.val.headD 0
  string := fun address => [address]
  stringRaw := fun address => [address]
  equals := fun left right => left == right
  bits := fun address => numberBits 8 address.toNat
  nilBits := [false, false]
  equals_bits := by
    intro left right same
    rw [beq_iff_eq.mp same]
  hash := fun cell => [UInt8.ofNat cell.bits.length]
  sign := fun _ _ => copyInto 64 []
  publicKey := fun _ => List.replicate 32 0

theorem byte_loads (address : Byte) (rest : Slice) :
    (((Contents.word 8 address.toNat).before rest).loadUInt 8).map
        (fun loaded => (UInt8.ofNat loaded.1, loaded.2)) = some (address, rest) := by
  have loaded := load_word (show address.toNat < 2 ^ 8 from UInt8.toNat_lt address) rest
  rw [loaded, Option.map_some]
  change some (UInt8.ofNat address.toNat, rest) = some (address, rest)
  rw [UInt8.ofNat_toNat]

def byteLoader : AddressLoader byteLib where
  load := fun slice => (slice.loadUInt 8).map fun loaded => (UInt8.ofNat loaded.1, loaded.2)
  loads := by
    intro address rest
    refine ⟨address, ?_, beq_iff_eq.mpr rfl⟩
    exact byte_loads address rest

theorem small_amount_readable :
    Readable byteLoader opExtClientTopUp (fieldsOf (some 1000000000) none) (7 : Byte)
      (buildExtTopUp byteLib (some 1000000000) (some (7 : Byte))) := by
  have room : @AmountFits byteLib (some 1000000000) (7 : Byte) := by
    intro value given _
    cases given
    refine ⟨by decide, ?_⟩
    unfold HasRoom
    decide +kernel
  exact (message_builders_total_iff byteLib byteLoader (some 1000000000) none (7 : Byte)).1.mpr room

def largeAmount : GoString := ascii "1329227995784915872903807060280344576"

/-- The top-up endpoint accepts the amount, and the builder panics on it. So do the prepared
messages, and the builders for a hash of minus one and for one of 257 bits. -/
theorem large_amount_panics :
    @buildRequestBody sampleLib [1] (ascii "topup") largeAmount = .error .panicked ∧
      (⟨[1], [2]⟩ : ChannelOps sampleLib).prepareTopUp (2 ^ 120) = .error .panicked ∧
      (⟨[1], [2]⟩ : ChannelOps sampleLib).prepareIncreaseStake (2 ^ 120) = .error .panicked ∧
      buildOwnerChangeSecretHash sampleLib (some (-1)) (some [1]) = .error .panicked ∧
      buildOwnerChangeSecretHashAndTopUp sampleLib (some 5) (some (2 ^ 256)) (some [1]) =
        .error .panicked := by
  have accepted : requestedAmount largeAmount = .ok (2 ^ 120) := by decide +kernel
  have amounts : ∀ (op : UInt32) (address : List Bool),
      messageBody op 0 (·.storeBigCoins (2 ^ 120)) address = .error .panicked := fun op address =>
    message_body_panics op (coins_outside (by decide)) address
  have topUp : ∀ address : sampleLib.Address,
      buildExtTopUp sampleLib (some (2 ^ 120)) (some address) = .error .panicked :=
    fun address => amounts opExtClientTopUp (sampleLib.bits address)
  have stake : ∀ address : sampleLib.Address,
      buildOwnerIncreaseStake sampleLib (some (2 ^ 120)) (some address) = .error .panicked :=
    fun address => amounts opOwnerClientIncreaseStake (sampleLib.bits address)
  have request : @buildRequestBody sampleLib [1] (ascii "topup") largeAmount =
      buildExtTopUp sampleLib (some (2 ^ 120)) (some [1]) := by
    unfold buildRequestBody
    rw [if_neg (by decide), if_neg (by decide), if_pos rfl, accepted]
    rfl
  have both := (stores_both 5 (2 ^ 256)).fails (by simp [InBounds])
  refine ⟨request.trans (topUp _), ?_, ?_, ?_, ?_⟩
  · rw [ChannelOps.prepareTopUp, topUp]
    rfl
  · rw [ChannelOps.prepareIncreaseStake, stake]
    rfl
  · exact message_body_panics _ (hash_outside (by decide)) _
  · exact message_body_panics opOwnerClientChangeSecretHashAndTopUp both (sampleLib.bits [1])

end Gocoon.ClientMessages
