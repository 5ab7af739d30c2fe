import Mathlib.Data.List.Induction
import Gocoon.CellLayout
import Gocoon.RegisterOnChain

/-!
# One layout for the storage of the client contract

The storage cell of `cocoon_client` is built by two packages, `root` with the proxy's key as
bytes and `client` with the key as a number, and read by two others: the registration reads
the balance and the command line the fields in front of the secret hash. Both builders write
the same layout, and both readers find in it what was put there. An address that is too long
for the inner cell makes both builders panic.
-/

namespace Gocoon.ClientStorage

open Gocoon.LittleEndianBytes
open Gocoon.GoProgram
open Gocoon.TlPrimitives
open Gocoon.CocoonErrors
open Gocoon.CellBuilder
open Gocoon.CellLayout
open Gocoon.RootSnapshot
open Gocoon.TonChain
open Gocoon.ClientContract
open Gocoon.RegisterOnChain

set_option autoImplicit false

def storeSlice (bytes : List Byte) (size : Nat) (builder : Builder) : Option Builder :=
  if size ≤ 8 * bytes.length then
    builder.storeBits ((bytes.flatMap fun byte => numberBits 8 byte.toNat).take size)
  else none

section Root

variable (lib : TonLib)

def initDataCell (owner proxy : lib.Address) (proxyPubKey : FixedBytes 32) (minClientStake : Int)
    (params : Cell) : Option Cell := do
  let constData ← ((beginCell.storeBits (lib.bits owner)).bind
    (·.storeBits (lib.bits proxy))).bind (storeSlice proxyPubKey.val 256)
  let funded ← ((beginCell.storeUInt 0 2).bind (·.storeBigCoins 0)).bind
    (·.storeBigCoins minClientStake)
  let used ← (funded.storeUInt 0 64).bind (·.storeUInt 0 32)
  let hashed ← used.storeUInt 0 256
  let linked ← (hashed.storeRef constData.endCell).bind (·.storeRef params)
  some linked.endCell

def clientInitData (owner proxy : Option lib.Address) (proxyPubKey : FixedBytes 32)
    (minClientStake : Option Int) (paramsFn : Except (Fault CocoonError) Cell) :
    Except (Fault CocoonError) Cell :=
  match owner, proxy with
  | some owner, some proxy =>
      match minClientStake with
      | none => .error (.returned (.text "root: missing min client stake"))
      | some stake => do
          let params ← paramsFn
          built (initDataCell lib owner proxy proxyPubKey stake params)
  | _, _ => .error (.returned (.text "root: missing init addresses"))

def clientStateInitData (snapshot : StateSnapshot) (owner proxy : Option lib.Address)
    (proxyPubKey : FixedBytes 32) : Except (Fault CocoonError) Cell :=
  clientInitData lib owner proxy proxyPubKey snapshot.minClientStake
    (built snapshot.clientParamsCell)

end Root

structure ParsedClientSCData where
  state : UInt8
  balance : Int
  stake : Int
  tokensUsed : UInt64
  unlockTs : UInt32
  deriving DecidableEq

/-- A load of the command line; the cause is the slice's own error. -/
def dataField {Value : Type} (context : String) (load : Slice → Option (Value × Slice)) :
    GoM Slice CocoonError Value :=
  reading (.wrapped context (.library 0)) load

def readClientSCData : GoM Slice CocoonError ParsedClientSCData := do
  let state ← dataField "channel info: parse state" (·.loadUInt 2)
  let balance ← dataField "channel info: parse balance" (·.loadBigCoins)
  let stake ← dataField "channel info: parse stake" (·.loadBigCoins)
  let tokensUsed ← dataField "channel info: parse tokens_used" (·.loadUInt 64)
  let unlockTs ← dataField "channel info: parse unlock_ts" (·.loadUInt 32)
  pure {
    state := UInt8.ofNat state
    balance := balance
    stake := stake
    tokensUsed := UInt64.ofNat tokensUsed
    unlockTs := UInt32.ofNat unlockTs }

def parseClientSCData (data : Cell) : Except (Fault CocoonError) ParsedClientSCData :=
  (exec readClientSCData (beginParse data)).1

/-! ## The key as bytes and as a number -/

theorem big_endian_concat (bytes : List Byte) (byte : Byte) :
    bigEndian (bytes ++ [byte]) = 256 * bigEndian bytes + byte.toNat := by
  rw [bigEndian, List.foldl_append]
  rfl

theorem big_endian_bits (bytes : List Byte) :
    numberBits (8 * bytes.length) (bigEndian bytes) =
      bytes.flatMap fun byte => numberBits 8 byte.toNat := by
  induction bytes using List.reverseRecOn with
  | nil => rfl
  | append_singleton bytes byte induction =>
      have small : byte.toNat < 2 ^ 8 := byte.toNat_lt
      have value : bigEndian (bytes ++ [byte]) = 2 ^ 8 * bigEndian bytes + byte.toNat :=
        big_endian_concat bytes byte
      have front : bigEndian (bytes ++ [byte]) >>> 8 = bigEndian bytes := by
        rw [value, Nat.shiftRight_eq_div_pow]
        omega
      have last : numberBits 8 (bigEndian (bytes ++ [byte])) = numberBits 8 byte.toNat := by
        apply number_bits_congr
        intro index inside
        rw [value, Nat.testBit_two_pow_mul_add _ small, if_pos inside]
      rw [List.length_append, List.length_singleton, Nat.mul_add, Nat.mul_one, number_bits_append,
        front, last, induction, List.flatMap_append, List.flatMap_singleton]

theorem big_endian_lt (bytes : List Byte) : bigEndian bytes < 2 ^ (8 * bytes.length) := by
  induction bytes using List.reverseRecOn with
  | nil => exact Nat.one_pos
  | append_singleton bytes byte induction =>
      have small : byte.toNat < 256 := byte.toNat_lt
      rw [big_endian_concat, List.length_append, List.length_singleton, Nat.mul_add, Nat.mul_one,
        Nat.pow_add]
      omega

theorem store_key (key : FixedBytes 32) (builder : Builder) :
    builder.storeBigUInt (bigEndian key.val) 256 = storeSlice key.val 256 builder := by
  have size : 8 * key.val.length = 256 := by rw [key.property]
  have small := big_endian_lt key.val
  have bits := big_endian_bits key.val
  rw [size] at small bits
  have length : (key.val.flatMap fun byte => numberBits 8 byte.toNat).length = 256 := by
    rw [← bits, number_bits_length]
  have positive : (0 : Int) ≤ bigEndian key.val := Int.natCast_nonneg _
  rw [Builder.storeBigUInt, if_pos positive, Int.toNat_natCast, Builder.storeUInt, if_pos small,
    storeSlice, if_pos size.ge, bits, List.take_of_length_le length.le]

section Layouts

variable {lib : TonLib}

/-- The two builders write the same cell, or none. -/
theorem init_data_cell (owner proxy : lib.Address) (key : FixedBytes 32) (stake : Int)
    (params : Cell) :
    initDataCell lib owner proxy key stake params =
      storageCell lib (clientStorage stake owner proxy key params) owner proxy
        (bigEndian key.val) := by
  unfold initDataCell storageCell clientStorage
  simp only [store_key, Option.getD_some]
  rfl

def constContents (owner proxy : lib.Address) (key : Nat) : Contents :=
  .ofBits (lib.bits owner) ++ .ofBits (lib.bits proxy) ++ .word 256 key

def storageContents (storage : Storage lib) (constData : Cell) : Contents :=
  .word 2 storage.state.toNat ++
  (amount (storage.balance.getD 0).toNat ++
  (amount (storage.stake.getD 0).toNat ++
  (.word 64 storage.tokensUsed.toNat ++
  (.word 32 storage.unlockTs.toNat ++
  (.word 256 (storage.secretHash.getD 0).toNat ++
  (.ofRef constData ++ .ofRef (storage.params.getD beginCell.endCell)))))))

/-- The values that the fields of the storage can hold. A nil amount or hash counts as zero. -/
structure Storable (storage : Storage lib) : Prop where
  state : storage.state < 4
  balance : 0 ≤ storage.balance.getD 0 ∧ storage.balance.getD 0 < 2 ^ 120
  stake : 0 ≤ storage.stake.getD 0 ∧ storage.stake.getD 0 < 2 ^ 120
  secretHash : 0 ≤ storage.secretHash.getD 0 ∧ storage.secretHash.getD 0 < 2 ^ 256

def AddressesFit (owner proxy : lib.Address) : Prop :=
  (lib.bits owner).length + (lib.bits proxy).length + 256 ≤ maxBits

theorem const_writes (owner proxy : lib.Address) {key : Int} (positive : 0 ≤ key)
    (small : key < 2 ^ 256) :
    Writes (fun builder => ((builder.storeBits (lib.bits owner)).bind
      (·.storeBits (lib.bits proxy))).bind (·.storeBigUInt key 256))
      (constContents owner proxy key.toNat) :=
  ((writes_bits _).andThen (writes_bits _)).andThen (writes_big_uint positive small)

theorem const_fits_iff (owner proxy : lib.Address) (key : Nat) :
    (constContents owner proxy key).Fits ↔ AddressesFit owner proxy := by
  have size : (constContents owner proxy key).bits.length =
      (lib.bits owner).length + (lib.bits proxy).length + 256 := by
    simp only [constContents, Contents.bits_append, List.length_append, Contents.ofBits,
      Contents.word, number_bits_length]
  constructor
  · rintro ⟨bits, -⟩
    rw [size] at bits
    exact bits
  · intro fits
    refine ⟨?_, Nat.zero_le _⟩
    rw [size]
    exact fits

theorem storage_fits {storage : Storage lib} (storable : Storable storage) (constData : Cell) :
    (storageContents storage constData).Fits := by
  obtain ⟨-, ⟨balancePositive, balanceSmall⟩, ⟨stakePositive, stakeSmall⟩, -⟩ := storable
  have balance : (storage.balance.getD 0).toNat < 2 ^ 120 := by omega
  have stake : (storage.stake.getD 0).toNat < 2 ^ 120 := by omega
  have whole : (storageContents storage constData).Within 602 2 :=
    (Contents.word_within 2 _).append <|
    (amount_within balance).append <|
    (amount_within stake).append <|
    (Contents.word_within 64 _).append <|
    (Contents.word_within 32 _).append <|
    (Contents.word_within 256 _).append <|
    (Contents.of_ref_within _).append <|
    Contents.of_ref_within _
  exact ⟨whole.1.trans (by decide), whole.2.trans (by decide)⟩

theorem storage_cell {storage : Storage lib} (storable : Storable storage)
    {owner proxy : lib.Address} {key : Int} (positive : 0 ≤ key) (small : key < 2 ^ 256)
    (fits : AddressesFit owner proxy) :
    storageCell lib storage owner proxy key =
      some (storageContents storage (constContents owner proxy key.toNat).cell).cell := by
  have inner := const_writes owner proxy positive small beginCell
  have innerFits := (const_fits_iff owner proxy key.toNat).mpr fits
  rw [extend_eq (Contents.empty_append _) innerFits] at inner
  have state : storage.state.toNat < 2 ^ 2 := storable.state
  have begun := writes_word state beginCell
  dsimp only at inner begun
  unfold storageCell
  rw [inner]
  simp only [Option.bind_eq_bind, Option.bind_assoc, Option.bind_some]
  rw [begun, extend_store (writes_amount storable.balance.1 storable.balance.2),
    extend_store (writes_amount storable.stake.1 storable.stake.2),
    extend_store (writes_word storage.tokensUsed.toNat_lt),
    extend_store (writes_uint32 storage.unlockTs),
    extend_store (writes_big_uint storable.secretHash.1 storable.secretHash.2),
    extend_store (writes_ref _), extend_store (writes_ref _)]
  apply built_cell _ (storage_fits storable (constContents owner proxy key.toNat).cell)
  simp only [Contents.append_assoc]
  rfl

theorem storage_cell_overflows {storage : Storage lib} {owner proxy : lib.Address} {key : Int}
    (positive : 0 ≤ key) (small : key < 2 ^ 256) (large : ¬ AddressesFit owner proxy) :
    storageCell lib storage owner proxy key = none := by
  have tooLong : ¬ (constContents owner proxy key.toNat).Fits := by
    rw [const_fits_iff]
    exact large
  have inner := (const_writes owner proxy positive small).overflows tooLong
  unfold storageCell
  rw [inner]
  rfl

/-! ## Reading the storage back -/

def parsedStorage (storage : Storage lib) : ParsedClientSCData where
  state := storage.state
  balance := storage.balance.getD 0
  stake := storage.stake.getD 0
  tokensUsed := storage.tokensUsed
  unlockTs := storage.unlockTs

theorem consumes_amount {context : String} {value : Int}
    (carried : 0 ≤ value ∧ value < 2 ^ 120) :
    Consumes (dataField context Slice.loadBigCoins) (amount value.toNat) value.toNat := by
  have below : value.toNat < 2 ^ 120 := by omega
  exact consumes_reading fun rest => load_amount below rest

theorem consumes_word {context : String} {width value : Nat} (small : value < 2 ^ width) :
    Consumes (dataField context (·.loadUInt width)) (.word width value) value :=
  consumes_reading fun rest => load_word small rest

theorem storage_read {storage : Storage lib} (storable : Storable storage) :
    Consumes readClientSCData
      (.word 2 storage.state.toNat ++
      (amount (storage.balance.getD 0).toNat ++
      (amount (storage.stake.getD 0).toNat ++
      (.word 64 storage.tokensUsed.toNat ++ .word 32 storage.unlockTs.toNat))))
      (parsedStorage storage) := by
  have balance := Int.toNat_of_nonneg storable.balance.1
  have stake := Int.toNat_of_nonneg storable.stake.1
  have parsed : parsedStorage storage = {
      state := UInt8.ofNat storage.state.toNat
      balance := (storage.balance.getD 0).toNat
      stake := (storage.stake.getD 0).toNat
      tokensUsed := UInt64.ofNat storage.tokensUsed.toNat
      unlockTs := UInt32.ofNat storage.unlockTs.toNat } := by
    rw [balance, stake, UInt8.ofNat_toNat, UInt64.ofNat_toNat, UInt32.ofNat_toNat]
    rfl
  rw [parsed]
  unfold readClientSCData
  apply (consumes_word (show storage.state.toNat < 2 ^ 2 from storable.state)).bind
  apply (consumes_amount storable.balance).bind
  apply (consumes_amount storable.stake).bind
  apply (consumes_word storage.tokensUsed.toNat_lt).bind
  exact (consumes_word storage.unlockTs.toNat_lt).map _

theorem storage_parsed {storage : Storage lib} (storable : Storable storage) (constData : Cell) :
    parseClientSCData (storageContents storage constData).cell = .ok (parsedStorage storage) := by
  have split : storageContents storage constData =
      (.word 2 storage.state.toNat ++
      (amount (storage.balance.getD 0).toNat ++
      (amount (storage.stake.getD 0).toNat ++
      (.word 64 storage.tokensUsed.toNat ++ .word 32 storage.unlockTs.toNat)))) ++
      (.word 256 (storage.secretHash.getD 0).toNat ++
      (.ofRef constData ++ .ofRef (storage.params.getD beginCell.endCell))) := by
    simp only [storageContents, Contents.append_assoc]
  rw [parseClientSCData, ← Contents.before_nothing, split, Contents.append_before,
    storage_read storable]

theorem balance_decoded {storage : Storage lib} (storable : Storable storage) (constData : Cell) :
    decodeClientRequestBalance (storageContents storage constData).cell =
      .ok (storage.balance.getD 0) := by
  have state := load_word (show storage.state.toNat < 2 ^ 2 from storable.state)
  have small : (storage.balance.getD 0).toNat < 2 ^ 120 := by
    have := storable.balance
    omega
  have same := Int.toNat_of_nonneg storable.balance.1
  rw [decodeClientRequestBalance, ← Contents.before_nothing, storageContents,
    Contents.append_before, state, Option.bind_some]
  dsimp only
  rw [Contents.append_before, load_amount small]
  dsimp only
  rw [same]

structure Addressed (storage : Storage lib) (owner proxy : lib.Address) (key : Int) : Prop where
  owned : storage.ownerAddress = some owner
  served : storage.proxyAddress = some proxy
  keyed : storage.proxyPubKey = some key
  positive : 0 ≤ key
  small : key < 2 ^ 256

theorem encode_eq {storage : Storage lib} {owner proxy : lib.Address} {key : Int}
    (addressed : Addressed storage owner proxy key) :
    encodeStorage lib storage = built (storageCell lib storage owner proxy key) := by
  rw [encodeStorage, addressed.owned, addressed.served]
  dsimp only
  rw [addressed.keyed]

theorem encoded_iff {storage : Storage lib} {owner proxy : lib.Address} {key : Int}
    (storable : Storable storage) (addressed : Addressed storage owner proxy key) :
    (∃ cell, encodeStorage lib storage = .ok cell) ↔ AddressesFit owner proxy := by
  rw [encode_eq addressed]
  constructor
  · rintro ⟨cell, encoded⟩
    by_contra large
    rw [storage_cell_overflows addressed.positive addressed.small large] at encoded
    cases encoded
  · intro fits
    rw [storage_cell storable addressed.positive addressed.small fits]
    exact ⟨_, rfl⟩

theorem encoded_read {storage : Storage lib} {owner proxy : lib.Address} {key : Int}
    (storable : Storable storage) (addressed : Addressed storage owner proxy key) {cell : Cell}
    (encoded : encodeStorage lib storage = .ok cell) :
    parseClientSCData cell = .ok (parsedStorage storage) ∧
      decodeClientRequestBalance cell = .ok (storage.balance.getD 0) := by
  have fits := (encoded_iff storable addressed).mp ⟨cell, encoded⟩
  rw [encode_eq addressed, storage_cell storable addressed.positive addressed.small fits] at encoded
  cases encoded
  exact ⟨storage_parsed storable _, balance_decoded storable _⟩

theorem initial_storable (owner proxy : lib.Address) (key : FixedBytes 32) (params : Cell)
    {stake : Int} (positive : 0 ≤ stake) (small : stake < 2 ^ 120) :
    Storable (clientStorage stake owner proxy key params) where
  state := by
    change (0 : UInt8) < 4
    decide
  balance := ⟨Int.le_refl 0, by norm_num [clientStorage]⟩
  stake := ⟨positive, small⟩
  secretHash := ⟨Int.le_refl 0, by norm_num [clientStorage]⟩

theorem initial_addressed (owner proxy : lib.Address) (key : FixedBytes 32) (params : Cell)
    (stake : Int) :
    Addressed (clientStorage stake owner proxy key params) owner proxy (bigEndian key.val) where
  owned := rfl
  served := rfl
  keyed := rfl
  positive := Int.natCast_nonneg _
  small := by
    have below := big_endian_lt key.val
    rw [key.property] at below
    exact_mod_cast below

theorem init_data_eq (owner proxy : lib.Address) (key : FixedBytes 32) (stake : Int)
    (params : Cell) :
    clientInitData lib (some owner) (some proxy) key (some stake) (.ok params) =
      encodeStorage lib (clientStorage stake owner proxy key params) := by
  rw [encode_eq (initial_addressed owner proxy key params stake), ← init_data_cell]
  rfl

end Layouts

/-- The initial storage is the same from both packages, and it is built exactly if the addresses
fit into the inner cell; what is read from a storage cell is what was stored. -/
theorem client_storage_has_one_layout (lib : TonLib) :
    (∀ (owner proxy : lib.Address) (key : FixedBytes 32) (stake : Int) (params : Cell),
      0 ≤ stake → stake < 2 ^ 120 →
        clientInitData lib (some owner) (some proxy) key (some stake) (.ok params) =
          encodeStorage lib (clientStorage stake owner proxy key params) ∧
        ((∃ cell, encodeStorage lib (clientStorage stake owner proxy key params) = .ok cell) ↔
          AddressesFit owner proxy)) ∧
    (∀ (snapshot : StateSnapshot) (owner proxy : lib.Address) (key : FixedBytes 32) (stake : Int)
        (params : Cell), snapshot.minClientStake = some stake →
      snapshot.clientParamsCell = some params →
        clientStateInitData lib snapshot (some owner) (some proxy) key =
          encodeStorage lib (clientStorage stake owner proxy key params)) ∧
    (∀ (storage : Storage lib) (owner proxy : lib.Address) (key : Int), Storable storage →
      Addressed storage owner proxy key →
        ((∃ cell, encodeStorage lib storage = .ok cell) ↔ AddressesFit owner proxy) ∧
        ∀ cell, encodeStorage lib storage = .ok cell →
          parseClientSCData cell = .ok (parsedStorage storage) ∧
          decodeClientRequestBalance cell = .ok (storage.balance.getD 0)) := by
  refine ⟨?_, ?_, ?_⟩
  · intro owner proxy key stake params positive small
    have storable := initial_storable owner proxy key params positive small
    exact ⟨init_data_eq owner proxy key stake params,
      encoded_iff storable (initial_addressed owner proxy key params stake)⟩
  · intro snapshot owner proxy key stake params staked coded
    rw [← init_data_eq, clientStateInitData, staked, coded]
    rfl
  · intro storage owner proxy key storable addressed
    exact ⟨encoded_iff storable addressed, fun _ encoded =>
      encoded_read storable addressed encoded⟩

def sampleStorage : Storage sampleLib where
  state := 1
  balance := some 1000
  stake := none
  tokensUsed := 12
  unlockTs := 34
  secretHash := some 5
  ownerAddress := some [1]
  proxyAddress := some [2]
  proxyPubKey := some 7
  params := none

theorem sample_storage_read :
    (clientInitData sampleLib (some [1]) (some [2]) (copyInto 32 [0, 0, 9]) (some 300)
        (.ok (.mk [true] [])) =
      encodeStorage sampleLib
        (clientStorage 300 [1] [2] (copyInto 32 [0, 0, 9]) (.mk [true] []))) ∧
    ∃ cell, encodeStorage sampleLib sampleStorage = .ok cell ∧
      parseClientSCData cell = .ok ⟨1, 1000, 0, 12, 34⟩ ∧
      decodeClientRequestBalance cell = .ok 1000 := by
  obtain ⟨initial, -, stored⟩ := client_storage_has_one_layout sampleLib
  have storable : Storable sampleStorage :=
    ⟨by decide, by decide, by decide, by decide⟩
  have addressed : Addressed sampleStorage [1] [2] 7 :=
    ⟨rfl, rfl, rfl, by decide, by decide⟩
  obtain ⟨encoded, read⟩ := stored sampleStorage [1] [2] 7 storable addressed
  obtain ⟨cell, done⟩ := encoded.mpr (by unfold AddressesFit; decide)
  exact ⟨(initial [1] [2] (copyInto 32 [0, 0, 9]) 300 (.mk [true] []) (by decide) (by decide)).1,
    cell, done, read cell done⟩

end Gocoon.ClientStorage
