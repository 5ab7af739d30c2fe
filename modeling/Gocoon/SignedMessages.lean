import Mathlib.Data.List.Forall2
import Gocoon.ClientMessages

/-!
# What a signed wallet message means

The body of an external message names the subwallet, the validity and the sequence number, and
then every outbound message with a mode and a reference; the referenced cell is an internal
message. All of it is read back from the cell that is sent. The number of messages is never
looked at, and each of them takes one of the four references of the body, so a fifth panics.
-/

namespace Gocoon.SignedMessages

open Gocoon.LittleEndianBytes
open Gocoon.GoProgram
open Gocoon.TlPrimitives
open Gocoon.CocoonErrors
open Gocoon.CellBuilder
open Gocoon.CellLayout
open Gocoon.TonChain
open Gocoon.WalletMessage
open Gocoon.ClientMessages (AddressLoader byteLib byteLoader)

set_option autoImplicit false

/-! ## Internal messages -/

/-- The bits in front of the destination; the source is `addr_none`, which is two zero bits. -/
structure MessageFlags where
  tag : Bool
  ihrDisabled : Bool
  bounce : Bool
  bounced : Bool
  source : Nat

/-- The fields between the value and the state of a new contract. -/
structure MessageFees where
  extraCurrencies : Option Cell
  ihrFee : Nat
  fwdFee : Nat
  createdLt : Nat
  createdAt : Nat

structure InternalMessage (lib : TonLib) where
  flags : MessageFlags
  dest : lib.Address
  value : Nat
  fees : MessageFees
  init : Option Cell
  body : Option Cell

def readFlags : GoM Slice Unit MessageFlags := do
  let tag ← reading () (·.loadBoolBit)
  let ihrDisabled ← reading () (·.loadBoolBit)
  let bounce ← reading () (·.loadBoolBit)
  let bounced ← reading () (·.loadBoolBit)
  let source ← reading () (·.loadUInt 2)
  pure ⟨tag, ihrDisabled, bounce, bounced, source⟩

def readFees : GoM Slice Unit MessageFees := do
  let extraCurrencies ← reading () (·.loadMaybeRef)
  let ihrFee ← reading () (·.loadBigCoins)
  let fwdFee ← reading () (·.loadBigCoins)
  let createdLt ← reading () (·.loadUInt 64)
  let createdAt ← reading () (·.loadUInt 32)
  pure ⟨extraCurrencies, ihrFee, fwdFee, createdLt, createdAt⟩

/-- `Maybe (Either StateInit ^StateInit)`, of which only the reference is read. -/
def readInit : GoM Slice Unit (Option Cell) := do
  let present ← reading () (·.loadBoolBit)
  if present then
    let apart ← reading () (·.loadBoolBit)
    if apart then reading () (·.loadRef) >>= fun cell => pure (some cell) else fail ()
  else pure none

section Messages

variable {lib : TonLib}

/-- What follows the destination. A body that is not in a reference is what the reader leaves. -/
def readContent (flags : MessageFlags) (dest : lib.Address) :
    GoM Slice Unit (InternalMessage lib) := do
  let value ← reading () (·.loadBigCoins)
  let fees ← readFees
  let init ← readInit
  let body ← reading () (·.loadMaybeRef)
  pure ⟨flags, dest, value, fees, init, body⟩

def readInternal (loader : AddressLoader lib) : GoM Slice Unit (InternalMessage lib) := do
  let flags ← readFlags
  let dest ← reading () loader.load
  readContent flags dest

def bounces (message : OutboundMessage lib) : Bool := message.bounce && message.init.isNone

def asked (message : OutboundMessage lib) (dest : lib.Address) : InternalMessage lib where
  flags := ⟨false, true, bounces message, false, 0⟩
  dest := dest
  value := message.value.toNat
  fees := ⟨none, 0, 0, 0, 0⟩
  init := message.init
  body := message.body

/-- The cell is the internal message that is asked for, and nothing is left of it. -/
def Carries (loader : AddressLoader lib) (message : OutboundMessage lib) (cell : Cell) : Prop :=
  ∃ dest ∈ message.toAddr, ∃ found, lib.equals dest found = true ∧
    exec (readInternal loader) (beginParse cell) = (.ok (asked message found), ⟨[], []⟩)

def initContents : Option Cell → Contents
  | none => .ofBits [false]
  | some cell => .ofBits [true] ++ (.ofBits [true] ++ .ofRef cell)

def destBits (message : OutboundMessage lib) : List Bool := message.toAddr.elim [] lib.bits

def contentContents (message : OutboundMessage lib) : Contents :=
  CellLayout.amount message.value.toNat ++
    (.word 105 0 ++ (initContents message.init ++ .maybeRef message.body))

def messageContents (message : OutboundMessage lib) : Contents :=
  .word 6 (bounceFlag lib message) ++ (.ofBits (destBits message) ++ contentContents message)

theorem flags_contents (message : OutboundMessage lib) :
    .word 6 (bounceFlag lib message) =
      Contents.ofBits [false] ++ (.ofBits [true] ++ (.ofBits [bounces message] ++
        (.ofBits [false] ++ .word 2 0))) := by
  unfold bounceFlag bounces
  cases message.init with
  | some cell =>
      rw [if_pos Option.isSome_some, Option.isNone_some, Bool.and_false]
      rfl
  | none =>
      rw [Option.isNone_none, Bool.and_true]
      cases message.bounce with
      | true => rfl
      | false => rfl

theorem consumes_flags (message : OutboundMessage lib) :
    Consumes readFlags (.word 6 (bounceFlag lib message))
      ⟨false, true, bounces message, false, 0⟩ := by
  have bit : ∀ value, Consumes (reading () (·.loadBoolBit)) (.ofBits [value]) value :=
    fun value => consumes_reading (load_bool value)
  have source : Consumes (reading () (·.loadUInt 2)) (.word 2 0) 0 :=
    consumes_reading (load_word (by decide))
  rw [flags_contents]
  exact (bit false).bind ((bit true).bind ((bit _).bind ((bit false).bind (source.map _))))

theorem consumes_fees : Consumes readFees (.word 105 0) ⟨none, 0, 0, 0, 0⟩ := by
  have extra : Consumes (reading () (·.loadMaybeRef)) (.maybeRef none) none :=
    consumes_reading (load_maybe_ref none)
  have fee : Consumes (reading () (·.loadBigCoins)) (CellLayout.amount 0) 0 :=
    consumes_reading (load_amount (by decide))
  have time : Consumes (reading () (·.loadUInt 64)) (.word 64 0) 0 :=
    consumes_reading (load_word (by decide))
  have clock : Consumes (reading () (·.loadUInt 32)) (.word 32 0) 0 :=
    consumes_reading (load_word (by decide))
  have zeros : Contents.word 105 0 = .maybeRef none ++ (CellLayout.amount 0 ++
      (CellLayout.amount 0 ++ (.word 64 0 ++ .word 32 0))) := rfl
  rw [zeros]
  exact extra.bind (fee.bind (fee.bind (time.bind (clock.map _))))

theorem consumes_init (init : Option Cell) : Consumes readInit (initContents init) init := by
  have bit : ∀ value, Consumes (reading () (·.loadBoolBit)) (.ofBits [value]) value :=
    fun value => consumes_reading (load_bool value)
  cases init with
  | none =>
      have whole := (bit false).map fun _ : Bool => (none : Option Cell)
      exact whole
  | some cell =>
      have ref : Consumes (reading () (·.loadRef)) (.ofRef cell) cell :=
        consumes_reading (load_ref cell)
      exact (bit true).bind ((bit true).bind (ref.map some))

theorem consumes_content (message : OutboundMessage lib) (dest : lib.Address) :
    Consumes (readContent (asked message dest).flags dest) (contentContents message)
      (asked message dest) := by
  have small : message.value.toNat < 2 ^ 120 := message.value.toNat_lt.trans (by decide)
  have value : Consumes (reading () (·.loadBigCoins)) (CellLayout.amount message.value.toNat)
      message.value.toNat := consumes_reading (load_amount small)
  have body : Consumes (reading () (·.loadMaybeRef)) (.maybeRef message.body) message.body :=
    consumes_reading (load_maybe_ref message.body)
  apply value.bind
  apply consumes_fees.bind
  apply (consumes_init message.init).bind
  exact body.map _

theorem message_carried (loader : AddressLoader lib) {message : OutboundMessage lib}
    (addressed : message.toAddr.isSome) :
    Carries loader message (messageContents message).cell := by
  obtain ⟨dest, given⟩ := Option.isSome_iff_exists.mp addressed
  have bits : destBits message = lib.bits dest := by
    rw [destBits, given, Option.elim_some]
  obtain ⟨found, loaded, same⟩ := loader.loads dest ((contentContents message).before ⟨[], []⟩)
  refine ⟨dest, given, found, same, ?_⟩
  rw [← Contents.before_nothing, messageContents, bits, Contents.append_before,
    Contents.append_before, readInternal, exec_bind_ok (consumes_flags message _), reading,
    exec_bind, exec_bind_ok (exec_get _), loaded]
  exact consumes_content message found ⟨[], []⟩

/-! ## Building one message -/

theorem flag_lt (message : OutboundMessage lib) : bounceFlag lib message < 2 ^ 6 := by
  unfold bounceFlag
  split_ifs
  · decide
  · decide
  · decide

theorem writes_init (init : Option Cell) : Writes (storeInit init) (initContents init) := by
  have one : Writes (·.storeUInt 1 1) (.ofBits [true]) := writes_word (by decide)
  have zero : Writes (·.storeUInt 0 1) (.ofBits [false]) := writes_word (by decide)
  cases init with
  | none => exact zero
  | some cell =>
      have whole := (one.andThen one).andThen (writes_ref cell)
      rw [Contents.append_assoc] at whole
      exact whole

theorem writes_body (body : Option Cell) : Writes (storeBody body) (.maybeRef body) := by
  have one : Writes (·.storeUInt 1 1) (.ofBits [true]) := writes_word (by decide)
  have zero : Writes (·.storeUInt 0 1) (.ofBits [false]) := writes_word (by decide)
  cases body with
  | none => exact zero
  | some cell => exact one.andThen (writes_ref cell)

theorem message_cell_eq {message : OutboundMessage lib} (addressed : message.toAddr.isSome) :
    buildOutboundMessageCell lib message =
      if (messageContents message).Fits then .ok (messageContents message).cell
      else .error .panicked := by
  obtain ⟨dest, given⟩ := Option.isSome_iff_exists.mp addressed
  have bits : destBits message = lib.bits dest := by
    rw [destBits, given, Option.elim_some]
  have positive : (0 : Int) ≤ message.value.toNat := Int.natCast_nonneg _
  have small : (message.value.toNat : Int) < 2 ^ 120 := by
    have below := message.value.toNat_lt
    omega
  have flag : Writes (·.storeUInt (bounceFlag lib message) 6)
      (.word 6 (bounceFlag lib message)) := writes_word (flag_lt message)
  have coins := writes_amount positive small
  have zeros : Writes (·.storeUInt 0 105) (.word 105 0) := writes_word (by decide)
  have chain := ((((flag.andThen (writes_bits (lib.bits dest))).andThen coins).andThen
    zeros).andThen (writes_init message.init)).andThen (writes_body message.body)
  have same : Contents.word 6 (bounceFlag lib message) ++ .ofBits (lib.bits dest) ++
      CellLayout.amount message.value.toNat ++ .word 105 0 ++ initContents message.init ++
        .maybeRef message.body = messageContents message := by
    simp only [messageContents, contentContents, bits, Contents.append_assoc]
  rw [Int.toNat_natCast, same] at chain
  have whole := chain.builds
  unfold buildOutboundMessageCell
  rw [given]
  simp only [Option.bind_eq_bind, Option.bind_assoc] at whole ⊢
  change built (Option.bind _ _) = _
  rw [whole]
  split_ifs with fits
  · rfl
  · rfl

/-- Flags, destination, value, fees, state and body are no longer than a cell. -/
def HasRoom (message : OutboundMessage lib) : Prop :=
  6 + (destBits message).length + (4 + 8 * leastBytes message.value.toNat) + 105 +
    (if message.init.isSome then 2 else 1) + 1 ≤ maxBits

instance (message : OutboundMessage lib) : Decidable (HasRoom message) :=
  inferInstanceAs (Decidable (_ ≤ _))

theorem message_fits_iff (message : OutboundMessage lib) :
    (messageContents message).Fits ↔ HasRoom message := by
  have bits : (messageContents message).bits.length =
      6 + (destBits message).length + (4 + 8 * leastBytes message.value.toNat) + 105 +
        (if message.init.isSome then 2 else 1) + 1 := by
    simp only [messageContents, contentContents, CellLayout.amount, sizedAmount,
      Contents.bits_append, Contents.word, Contents.ofBits, List.length_append, number_bits_length]
    cases message.init <;> cases message.body <;>
      simp [initContents, Contents.maybeRef, Contents.ofBits, Contents.ofRef] <;> omega
  have refs : (messageContents message).refs.length ≤ maxRefs := by
    simp only [messageContents, contentContents, CellLayout.amount, sizedAmount,
      Contents.refs_append, Contents.word, Contents.ofBits, List.nil_append]
    cases message.init <;> cases message.body <;>
      simp [initContents, Contents.maybeRef, Contents.ofBits, Contents.ofRef, maxRefs]
  rw [HasRoom, ← bits]
  exact ⟨fun fits => fits.1, fun room => ⟨room, refs⟩⟩

/-! ## The body -/

def askedMode (message : OutboundMessage lib) : UInt8 :=
  if message.modeSet then message.mode else 1

def entryContents (message : OutboundMessage lib) : Contents :=
  .word 8 (askedMode message).toNat ++ .ofRef (messageContents message).cell

def entriesContents : List (OutboundMessage lib) → Contents
  | [] => .empty
  | message :: messages => entryContents message ++ entriesContents messages

def orPanic (builder : Option Builder) : Except (Fault CocoonError) Builder :=
  builder.elim (.error .panicked) .ok

theorem store_message_eq {message : OutboundMessage lib} (addressed : message.toAddr.isSome)
    (builder : Builder) :
    storeMessage lib builder message =
      if (messageContents message).Fits then orPanic (extend builder (entryContents message))
      else .error .panicked := by
  have stored : (builder.storeUInt (askedMode message).toNat 8).bind
      (·.storeRef (messageContents message).cell) = extend builder (entryContents message) :=
    ((writes_word (askedMode message).toNat_lt).andThen (writes_ref _)) builder
  rw [askedMode] at stored
  unfold storeMessage
  rw [message_cell_eq addressed]
  by_cases fits : (messageContents message).Fits
  · simp only [if_pos fits, bind, Except.bind, stored]
    cases extend builder (entryContents message) with
    | none => rfl
    | some next => rfl
  · rw [if_neg fits, if_neg fits]
    rfl

theorem store_messages_eq {messages : List (OutboundMessage lib)}
    (addressed : ∀ message ∈ messages, message.toAddr.isSome) (builder : Builder) :
    messages.foldlM (storeMessage lib) builder =
      if ∀ message ∈ messages, (messageContents message).Fits then
        orPanic (extend builder (entriesContents messages))
      else .error .panicked := by
  induction messages generalizing builder with
  | nil =>
      rw [entriesContents, extend_empty]
      rfl
  | cons message messages induction =>
      have first := store_message_eq (addressed message List.mem_cons_self) builder
      have others := induction fun other inside =>
        addressed other (List.mem_cons_of_mem message inside)
      rw [List.foldlM_cons, first, entriesContents, ← extend_extend]
      simp only [List.forall_mem_cons]
      by_cases fits : (messageContents message).Fits
      · simp only [fits, if_true, true_and]
        cases extend builder (entryContents message) with
        | none =>
            rw [Option.bind_none]
            exact (ite_self _).symm
        | some next => exact others next
      · simp only [fits, if_false, false_and]
        rfl

def askedValidUntil (opts : SignedExternalMessageOpts) (now : UInt32) : UInt32 :=
  if opts.validUntil = 0 then now + 3600 else opts.validUntil

def signedContents (opts : SignedExternalMessageOpts) (now : UInt32)
    (messages : List (OutboundMessage lib)) : Contents :=
  .word 32 opts.subwalletID.toNat ++ (.word 32 (askedValidUntil opts now).toNat ++
    (.word 32 opts.seqno.toNat ++ entriesContents messages))

structure SignedBody where
  subwalletID : Nat
  validUntil : Nat
  seqno : Nat
  entries : List (Nat × Cell)

def readEntries : Nat → GoM Slice Unit (List (Nat × Cell))
  | 0 => pure []
  | count + 1 => do
      let mode ← reading () (·.loadUInt 8)
      let cell ← reading () (·.loadRef)
      let entries ← readEntries count
      pure ((mode, cell) :: entries)

def readSigned (count : Nat) : GoM Slice Unit SignedBody := do
  let subwalletID ← reading () (·.loadUInt 32)
  let validUntil ← reading () (·.loadUInt 32)
  let seqno ← reading () (·.loadUInt 32)
  let entries ← readEntries count
  pure ⟨subwalletID, validUntil, seqno, entries⟩

def EntryOf (loader : AddressLoader lib) (message : OutboundMessage lib) (entry : Nat × Cell) :
    Prop :=
  entry.1 = (askedMode message).toNat ∧ Carries loader message entry.2

/-- The body, read with one entry for each of its references, is what is asked for. -/
def BodyOf (loader : AddressLoader lib) (opts : SignedExternalMessageOpts) (now : UInt32)
    (messages : List (OutboundMessage lib)) (body : Cell) : Prop :=
  ∃ entries, List.Forall₂ (EntryOf loader) messages entries ∧
    exec (readSigned body.refs.length) (beginParse body) =
      (.ok ⟨opts.subwalletID.toNat, (askedValidUntil opts now).toNat, opts.seqno.toNat, entries⟩,
        ⟨[], []⟩)

def entryOf (message : OutboundMessage lib) : Nat × Cell :=
  ((askedMode message).toNat, (messageContents message).cell)

theorem consumes_entries (messages : List (OutboundMessage lib)) :
    Consumes (readEntries messages.length) (entriesContents messages) (messages.map entryOf) := by
  induction messages with
  | nil => exact consumes_pure []
  | cons message messages induction =>
      have mode : Consumes (reading () (·.loadUInt 8)) (.word 8 (askedMode message).toNat)
          (askedMode message).toNat := consumes_reading (load_word (askedMode message).toNat_lt)
      have ref : Consumes (reading () (·.loadRef)) (.ofRef (messageContents message).cell)
          (messageContents message).cell := consumes_reading (load_ref _)
      rw [entriesContents, entryContents, Contents.append_assoc]
      apply mode.bind
      apply ref.bind
      exact induction.map _

theorem entries_size (messages : List (OutboundMessage lib)) :
    (entriesContents messages).bits.length = 8 * messages.length ∧
      (entriesContents messages).refs.length = messages.length := by
  induction messages with
  | nil => exact ⟨rfl, rfl⟩
  | cons message messages induction =>
      obtain ⟨bits, refs⟩ := induction
      constructor
      · simp only [entriesContents, entryContents, Contents.bits_append, Contents.word,
          Contents.ofBits, Contents.ofRef, List.length_append, List.length_cons, List.length_nil,
          number_bits_length, bits]
        omega
      · simp only [entriesContents, entryContents, Contents.refs_append, Contents.word,
          Contents.ofBits, Contents.ofRef, List.length_append, List.length_cons, List.length_nil,
          refs]
        omega

variable {opts : SignedExternalMessageOpts} {now : UInt32}
  {messages : List (OutboundMessage lib)}

variable (opts now messages) in
theorem signed_size :
    (signedContents opts now messages).bits.length = 96 + 8 * messages.length ∧
      (signedContents opts now messages).refs.length = messages.length := by
  obtain ⟨bits, refs⟩ := entries_size messages
  constructor
  · simp only [signedContents, Contents.bits_append, Contents.word, Contents.ofBits,
      List.length_append, number_bits_length, bits]
    omega
  · exact refs

theorem signed_fits_iff : (signedContents opts now messages).Fits ↔ messages.length ≤ 4 := by
  obtain ⟨bits, refs⟩ := signed_size opts now messages
  rw [Contents.Fits, Contents.Within, bits, refs, maxBits, maxRefs]
  omega

theorem signed_body (loader : AddressLoader lib)
    (addressed : ∀ message ∈ messages, message.toAddr.isSome) :
    BodyOf loader opts now messages (signedContents opts now messages).cell := by
  refine ⟨messages.map entryOf, ?_, ?_⟩
  · rw [List.forall₂_map_right_iff, List.forall₂_same]
    intro message inside
    exact ⟨rfl, message_carried loader (addressed message inside)⟩
  · have word : ∀ value : UInt32, Consumes (reading () (·.loadUInt 32)) (.word 32 value.toNat)
        value.toNat := fun value => consumes_reading (load_word value.toNat_lt)
    have whole : Consumes (readSigned messages.length) (signedContents opts now messages)
        ⟨opts.subwalletID.toNat, (askedValidUntil opts now).toNat, opts.seqno.toNat,
          messages.map entryOf⟩ := by
      apply (word _).bind
      apply (word _).bind
      apply (word _).bind
      exact (consumes_entries messages).map _
    have count : (signedContents opts now messages).cell.refs.length = messages.length :=
      (signed_size opts now messages).2
    rw [count, ← Contents.before_nothing]
    exact whole ⟨[], []⟩

/-! ## The signature -/

theorem bytes_bits_length (bytes : List Byte) : (bytesBits bytes).length = 8 * bytes.length := by
  induction bytes with
  | nil => rfl
  | cons byte bytes induction =>
      rw [bytesBits, List.flatMap_cons, List.length_append, number_bits_length, ← bytesBits,
        induction, List.length_cons]
      omega

/-- The cell is the signature of the hash of the body, and all of the body. -/
def SignedWith (lib : TonLib) (secretKey : List Byte) (body cell : Cell) : Prop :=
  cell.bits = bytesBits (lib.sign secretKey (lib.hash body)).val ++ body.bits ∧
    cell.refs = body.refs

/-- An error is returned, or a signed cell is whose body means what is asked for. -/
def Sound (loader : AddressLoader lib) (messages : List (OutboundMessage lib))
    (secretKey : List Byte) (opts : SignedExternalMessageOpts) (now : UInt32)
    (outcome : Except (Fault CocoonError) Cell) : Prop :=
  (∃ error, outcome = .error (.returned error)) ∨
    ∃ cell body, outcome = .ok cell ∧ SignedWith lib secretKey body cell ∧
      BodyOf loader opts now messages body

theorem signature_fits (bytes : FixedBytes 64) (few : messages.length ≤ 4) :
    (.ofBits (bytesBits bytes.val) ++ signedContents opts now messages : Contents).Fits := by
  obtain ⟨bits, refs⟩ := signed_size opts now messages
  have signature : (bytesBits bytes.val).length = 8 * 64 := by
    rw [bytes_bits_length, bytes.property]
  constructor
  · rw [Contents.bits_append, List.length_append, bits, maxBits]
    change (bytesBits bytes.val).length + _ ≤ _
    omega
  · change ([] ++ (signedContents opts now messages).refs).length ≤ 4
    rw [List.nil_append, refs]
    exact few

def headContents (opts : SignedExternalMessageOpts) (now : UInt32) : Contents :=
  .word 32 opts.subwalletID.toNat ++ .word 32 (askedValidUntil opts now).toNat ++
    .word 32 opts.seqno.toNat

theorem head_fits : (headContents opts now).Fits := by
  have within := ((Contents.word_within 32 opts.subwalletID.toNat).append
    (Contents.word_within 32 (askedValidUntil opts now).toNat)).append
      (Contents.word_within 32 opts.seqno.toNat)
  exact ⟨within.1.trans (by decide), within.2.trans (by decide)⟩

theorem create_signed_eq {secretKey : List Byte} (sized : secretKey.length = 64) :
    createSignedExternalMessage lib messages secretKey opts now =
      (messages.foldlM (storeMessage lib) (holding (headContents opts now) head_fits) >>=
        fun body => built (((beginCell.storeBits (bytesBits
          (lib.sign secretKey (lib.hash body.endCell)).val)).bind (·.storeCell body.endCell)).bind
            fun last => some last.endCell)) := by
  have head := ((writes_uint32 opts.subwalletID).andThen
    (writes_uint32 (askedValidUntil opts now))).andThen (writes_uint32 opts.seqno)
  have headed : ((beginCell.storeUInt opts.subwalletID.toNat 32).bind
      (·.storeUInt (askedValidUntil opts now).toNat 32)).bind (·.storeUInt opts.seqno.toNat 32) =
        some (holding (headContents opts now) head_fits) :=
    (head beginCell).trans (extend_eq (Contents.empty_append (headContents opts now)) head_fits)
  unfold createSignedExternalMessage
  rw [if_neg (not_not.mpr sized)]
  rw [askedValidUntil] at headed
  simp only [headed]
  simp only [Option.bind_assoc]
  rfl

theorem extend_head :
    extend (holding (headContents opts now) head_fits) (entriesContents messages) =
      extend beginCell (signedContents opts now messages) := by
  have same : headContents opts now ++ entriesContents messages =
      signedContents opts now messages := by
    rw [headContents, signedContents, Contents.append_assoc, Contents.append_assoc]
  have first : extend beginCell (headContents opts now) =
      some (holding (headContents opts now) head_fits) :=
    extend_eq (Contents.empty_append _) head_fits
  rw [← same, ← extend_extend, first, Option.bind_some]

theorem signed_outcome {secretKey : List Byte} (sized : secretKey.length = 64)
    (addressed : ∀ message ∈ messages, message.toAddr.isSome) :
    createSignedExternalMessage lib messages secretKey opts now =
      if messages.length ≤ 4 ∧ ∀ message ∈ messages, HasRoom message then
        .ok (.ofBits (bytesBits (lib.sign secretKey
          (lib.hash (signedContents opts now messages).cell)).val) ++
            signedContents opts now messages : Contents).cell
      else .error .panicked := by
  have rooms : (∀ message ∈ messages, (messageContents message).Fits) ↔
      ∀ message ∈ messages, HasRoom message :=
    forall₂_congr fun message _ => message_fits_iff message
  rw [create_signed_eq sized, store_messages_eq addressed, extend_head]
  simp only [rooms]
  by_cases room : ∀ message ∈ messages, HasRoom message
  · rw [if_pos room]
    by_cases few : messages.length ≤ 4
    · have fits : (signedContents opts now messages).Fits := signed_fits_iff.mpr few
      rw [if_pos ⟨few, room⟩, extend_eq (Contents.empty_append _) fits]
      have final := (writes_bits (bytesBits (lib.sign secretKey
        (lib.hash (signedContents opts now messages).cell)).val)).andThen
          (writes_cell (signedContents opts now messages))
      have whole := final.builds
      rw [if_pos (signature_fits _ few)] at whole
      change built (Option.bind _ _) = _
      exact congrArg built whole
    · have large : ¬ (held beginCell ++ signedContents opts now messages).Fits :=
        fun fits => few (signed_fits_iff.mp fits)
      rw [if_neg fun both => few both.1, extend, dif_neg large]
      rfl
  · rw [if_neg room, if_neg fun both => room both.2]
    rfl

end Messages

/-- A signed message means what was asked exactly if the key has a wrong size, which is refused,
or there are at most four messages and each fits into a cell. -/
theorem signed_message_sound_iff (lib : TonLib) (loader : AddressLoader lib)
    (messages : List (OutboundMessage lib))
    (addressed : ∀ message ∈ messages, message.toAddr.isSome) (secretKey : List Byte)
    (opts : SignedExternalMessageOpts) (now : UInt32) :
    Sound loader messages secretKey opts now
        (createSignedExternalMessage lib messages secretKey opts now) ↔
      secretKey.length ≠ 64 ∨
        messages.length ≤ 4 ∧ ∀ message ∈ messages, HasRoom message := by
  by_cases sized : secretKey.length = 64
  · rw [signed_outcome sized addressed, or_iff_right (not_not.mpr sized)]
    split_ifs with held
    · apply iff_of_true _ held
      exact Or.inr ⟨_, _, rfl, ⟨rfl, rfl⟩, signed_body loader addressed⟩
    · apply iff_of_false _ held
      intro sound
      rcases sound with ⟨error, same⟩ | ⟨cell, body, same, -⟩
      · cases same
      · cases same
  · apply iff_of_true _ (Or.inl sized)
    refine Or.inl ⟨.text "wallet: secret key must be 64 bytes", ?_⟩
    unfold createSignedExternalMessage
    rw [if_pos sized]

def transfer (value : UInt64) : OutboundMessage byteLib where
  toAddr := some (7 : Byte)
  value := value
  body := none
  init := none
  mode := 3
  modeSet := false
  bounce := true

def sampleOpts : SignedExternalMessageOpts := ⟨5, 0, 1700000000⟩

theorem one_transfer_sound :
    Sound byteLoader [transfer 1000] (List.replicate 64 0) sampleOpts 0
      (createSignedExternalMessage byteLib [transfer 1000] (List.replicate 64 0) sampleOpts 0) := by
  have addressed : ∀ message ∈ [transfer 1000], message.toAddr.isSome = true := by
    intro message inside
    rw [List.mem_singleton.mp inside]
    rfl
  have room : ∀ message ∈ [transfer 1000], HasRoom message := by
    intro message inside
    rw [List.mem_singleton.mp inside]
    unfold HasRoom
    decide +kernel
  exact (signed_message_sound_iff byteLib byteLoader [transfer 1000] addressed _ sampleOpts 0).mpr
    (Or.inr ⟨by decide, room⟩)

/-- Five transfers, each with a destination, in one message. -/
theorem five_transfers_panic :
    createSignedExternalMessage byteLib
      [transfer 1, transfer 2, transfer 3, transfer 4, transfer 5] (List.replicate 64 0)
        sampleOpts 0 = .error .panicked := by
  have addressed : ∀ message ∈ [transfer 1, transfer 2, transfer 3, transfer 4, transfer 5],
      message.toAddr.isSome = true := by
    simp only [List.forall_mem_cons]
    exact ⟨rfl, rfl, rfl, rfl, rfl, by simp⟩
  rw [signed_outcome (List.length_replicate) addressed]
  exact if_neg fun held => absurd held.1 (by decide)

end Gocoon.SignedMessages
