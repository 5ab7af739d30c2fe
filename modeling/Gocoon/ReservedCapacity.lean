import Gocoon.ObservedDecoders
import Gocoon.ReaderGrammars

/-!
# Memory reserved for claimed counts

A vector starts with its count, and the decoders ask `make` for all of its elements before they
read the first one. Each reservation is noted with the bytes that are still unread. An element
takes a known number of bytes at least, so the unread bytes justify only so many. Nothing compares
the two: the reservations are justified exactly on inputs whose counts are.
-/

namespace Gocoon.ReservedCapacity

open Gocoon.LittleEndianBytes
open Gocoon.GoProgram
open Gocoon.TlPrimitives
open Gocoon.TlTypes
open Gocoon.TlVector
open Gocoon.ProxyHandshakeCodec
open Gocoon.ProxyAnswers
open Gocoon.ReaderSafety
open Gocoon.ReaderGrammars
open Gocoon.ObservedPrograms
open Gocoon.ObservedDecoders

set_option autoImplicit false

/-- The unread bytes could hold that many elements. -/
def Justified (reservation : Reservation) : Prop :=
  reservation.count ≤ reservation.unread / reservation.width

instance (reservation : Reservation) : Decidable (Justified reservation) :=
  inferInstanceAs (Decidable (_ ≤ _))

def Frugal (effort : Effort) : Prop := ∀ made ∈ effort.reservations, Justified made

/-! ## Where the reservations are justified -/

section Admission

variable {Err Item : Type}

def RoomFor (width count : Nat) (reader : Reader) : Prop :=
  count ≤ (reader.buf.length - reader.pos) / width

/-- Every item that the loop reaches may reserve what it does. -/
def EachItem (item : GoM Reader Err Item) (allowed : Reader → Prop) : Nat → Reader → Prop
  | 0, _ => True
  | count + 1, reader => allowed reader ∧ ∀ value after,
      exec item reader = (.ok value, after) → EachItem item allowed count after

theorem admits_reserve (width elementSize count : Nat) :
    Admits Frugal (reserve width elementSize count : EffortM Err Unit)
      (makeSlice elementSize count) (RoomFor width count) := by
  have judged : ∀ (reader : Reader) (effort : Effort),
      Frugal { effort with reservations :=
        effort.reservations ++ [⟨count, width, reader.buf.length - reader.pos⟩] } ↔
        Frugal effort ∧ RoomFor width count reader := by
    intro reader effort
    simp only [Frugal, List.forall_mem_append, List.forall_mem_singleton]
    rfl
  apply ((admits_quiet _).note_bind judged).congr
  intro reader
  rw [and_true]

theorem admits_items {observed : EffortM Err Item} {item : GoM Reader Err Item}
    {allowed : Reader → Prop} (admits : Admits Frugal observed item allowed) (count : Nat) :
    Admits Frugal (observedItems observed count) (readItems item count)
      (EachItem item allowed count) := by
  induction count with
  | zero => exact admits_pure []
  | succ count induction =>
      -- an iteration is no reservation
      have judged : ∀ (reader : Reader) (effort : Effort),
          Frugal { effort with iterations := effort.iterations + 1 } ↔ Frugal effort ∧ True :=
        fun _ _ => (and_true _).symm ▸ Iff.rfl
      apply ((admits.bind fun first => induction.bind fun rest =>
        admits_pure (first :: rest)).note_bind judged).congr
      intro reader
      simp only [EachItem, implies_true, and_true, true_and]

theorem each_item_quiet (item : GoM Reader Err Item) (count : Nat) (reader : Reader) :
    EachItem item (fun _ => True) count reader := by
  induction count generalizing reader with
  | zero => trivial
  | succ count induction => exact ⟨trivial, fun _ after _ => induction after⟩

theorem admits_flat_items (item : GoM Reader Err Item) (count : Nat) :
    Admits Frugal (observedItems (quiet item) count) (readItems item count)
      fun _ => True :=
  (admits_items (admits_quiet item) count).congr fun reader =>
    iff_true_intro (each_item_quiet item count reader)

theorem admits_vector {Item : Type} (width elementSize : Nat) (item : ReadM Item) :
    Admits Frugal (observedVector width elementSize item)
      (readVector elementSize item) fun reader =>
        ∀ count after, exec readVectorLen reader = (.ok count, after) →
          RoomFor width count after := by
  apply ((admits_quiet readVectorLen).bind fun count =>
    (admits_reserve width elementSize count).bind fun _ =>
      admits_flat_items item count).congr
  intro reader
  simp only [implies_true, and_true, true_and]

/-- The one reservation of a model. -/
def WorkersFit (reader : Reader) : Prop :=
  ∀ name middle, exec (plain readString) reader = (.ok name, middle) →
    ∀ count after, exec (plain readVectorLen) middle = (.ok count, after) →
      RoomFor 16 count after

theorem admits_worker_type :
    Admits Frugal observedWorkerType readWorkerType WorkersFit := by
  have workers := fun (name : GoString) (count : Nat) =>
    (admits_flat_items readWorkerInstance count).bind fun workers =>
      admits_pure (WorkerType.mk name workers)
  apply ((admits_quiet (plain readString)).bind fun name =>
    (admits_quiet (plain readVectorLen)).bind fun count =>
      (admits_reserve 16 12 count).bind fun _ => workers name count).congr
  intro reader
  simp only [implies_true, and_true, true_and, WorkersFit]

/-- The reservations behind the constructor of an answer. -/
def ModelsFit (reader : Reader) : Prop :=
  ∀ count after, exec (plain readVectorLen) reader = (.ok count, after) →
    RoomFor 8 count after ∧ ∀ made loop, exec (makeSlice 40 count : DecodeM Unit) after =
      (.ok made, loop) → EachItem readWorkerType WorkersFit count loop

theorem admits_worker_types :
    Admits Frugal observedWorkerTypes readWorkerTypesV2 fun reader =>
      ∀ after, exec (plain readUint32) reader = (.ok idClientWorkerTypesV2, after) →
        ModelsFit after := by
  apply ((admits_quiet (plain readUint32)).bind fun id =>
    (admits_fail _).if_then ((admits_quiet (plain readVectorLen)).bind fun count =>
      (admits_reserve 8 40 count).bind fun _ =>
        (admits_items admits_worker_type count).bind fun out =>
          (admits_fail _).if_then (admits_pure out))).congr
  intro reader
  simp only [ModelsFit, ite_self, implies_true, and_true, true_and]
  constructor
  · intro every after ran
    have here := every idClientWorkerTypesV2 after ran
    rwa [if_neg (not_not.mpr rfl)] at here
  · intro known id after ran
    by_cases same : id = idClientWorkerTypesV2
    · rw [if_neg (not_not.mpr same)]
      rw [same] at ran
      exact known after ran
    · rw [if_pos same]
      trivial

end Admission

/-! ## Positions in a buffer -/

def standing (front unread : List Byte) : Reader := ⟨front ++ unread, front.length⟩

section Positions

variable {Err Value Other : Type}

theorem room_standing {width count : Nat} {front unread : List Byte} :
    RoomFor width count (standing front unread) ↔ count ≤ unread.length / width := by
  simp [RoomFor, standing]

theorem exec_standing_iff {program : GoM Reader Err Value} {form : List Byte → Value → Prop}
    {errors : Err → Prop} (follows : Follows program (Written form) errors)
    {front unread : List Byte} {value : Value} {after : Reader} :
    exec program (standing front unread) = (.ok value, after) ↔ ∃ bytes rest,
      unread = bytes ++ rest ∧ form bytes value ∧ after = standing (front ++ bytes) rest := by
  have read : ∀ bytes rest, form bytes value → exec program (standing front (bytes ++ rest)) =
      (.ok value, standing (front ++ bytes) rest) := by
    intro bytes rest written
    have ran := follows.reads written front rest
    rw [List.append_assoc] at ran
    rw [standing, ran, standing, List.append_assoc, List.length_append]
  constructor
  · intro ran
    obtain ⟨bytes, written, split⟩ := follows.heeds _ _ _ ran
    have unreadSplit : unread = bytes ++ after.buf.drop after.pos := by
      rw [← split]
      exact (List.drop_left' rfl).symm
    have again := read bytes (after.buf.drop after.pos) written
    rw [← unreadSplit, ran] at again
    exact ⟨bytes, _, unreadSplit, written, (Prod.mk.inj again).2⟩
  · rintro ⟨bytes, rest, rfl, written, rfl⟩
    exact read bytes rest written

theorem follows_put {program : GoM Reader Err Value} {put : Value → List Byte}
    {errors : Err → Prop}
    (follows : Follows program (fun input value rest => input = put value ++ rest) errors) :
    Follows program (Written fun bytes value => bytes = put value) errors :=
  follows.congr fun _ _ _ => by simp [Written]

theorem follows_len : Follows readVectorLen (Written fun bytes count =>
    ∃ word, bytes = putUint32 word ∧ count = word.toNat) CutOff := by
  apply follows_vector_len.congr
  intro input count rest
  constructor
  · rintro ⟨word, rfl, rfl⟩
    exact ⟨_, ⟨word, rfl, rfl⟩, rfl⟩
  · rintro ⟨_, ⟨word, rfl, rfl⟩, rfl⟩
    exact ⟨word, rfl, rfl⟩

theorem follows_plain {program : ReadM Value} {grammar : List Byte → Value → List Byte → Prop}
    {errors : TlError → Prop} (follows : Follows program grammar errors) :
    Follows (plain program) grammar fun _ => True :=
  follows.mapError fun _ _ => trivial

/-- The program succeeds exactly in front of one of the forms, and stops behind it. -/
def Consumes (program : GoM Reader Err Value) (form : List Byte → Prop) : Prop :=
  ∀ front unread after, (∃ value, exec program (standing front unread) = (.ok value, after)) ↔
    ∃ bytes rest, unread = bytes ++ rest ∧ form bytes ∧ after = standing (front ++ bytes) rest

theorem Consumes.congr {program : GoM Reader Err Value} {form other : List Byte → Prop}
    (consumes : Consumes program form) (same : ∀ bytes, form bytes ↔ other bytes) :
    Consumes program other := by
  intro front unread after
  rw [consumes]
  simp only [same]

theorem consumes_of_follows {program : GoM Reader Err Value} {form : List Byte → Value → Prop}
    {errors : Err → Prop} (follows : Follows program (Written form) errors) :
    Consumes program fun bytes => ∃ value, form bytes value := by
  intro front unread after
  simp only [exec_standing_iff follows]
  constructor
  · rintro ⟨value, bytes, rest, split, written, place⟩
    exact ⟨bytes, rest, split, ⟨value, written⟩, place⟩
  · rintro ⟨bytes, rest, split, ⟨value, written⟩, place⟩
    exact ⟨value, bytes, rest, split, written, place⟩

/-- What is consumed second may depend on what was consumed first. -/
theorem Consumes.bind {program : GoM Reader Err Value} {next : Value → GoM Reader Err Other}
    {form : List Byte → Prop} {nextForm : List Byte → List Byte → Prop}
    (first : Consumes program form)
    (second : ∀ front here rest value, form here →
      exec program (standing front (here ++ rest)) = (.ok value, standing (front ++ here) rest) →
      Consumes (next value) (nextForm here)) :
    Consumes (program >>= next) fun bytes => ∃ here back,
      bytes = here ++ back ∧ form here ∧ nextForm here back := by
  intro front unread after
  constructor
  · intro ran
    obtain ⟨out, ran⟩ := ran
    obtain ⟨value, middle, begun, ended⟩ := exec_bind_returned ran
    obtain ⟨here, rest, rfl, written, rfl⟩ := (first front unread middle).mp ⟨value, begun⟩
    obtain ⟨back, behind, rfl, continued, rfl⟩ :=
      (second front here rest value written begun _ rest after).mp ⟨out, ended⟩
    exact ⟨here ++ back, behind, (List.append_assoc _ _ _).symm,
      ⟨here, back, rfl, written, continued⟩, by rw [List.append_assoc]⟩
  · intro split
    obtain ⟨_, behind, rfl, ⟨here, back, rfl, written, continued⟩, rfl⟩ := split
    obtain ⟨value, begun⟩ := (first front (here ++ (back ++ behind)) _).mpr
      ⟨here, back ++ behind, rfl, written, rfl⟩
    obtain ⟨out, ended⟩ := (second front here _ value written begun (front ++ here) _ _).mpr
      ⟨back, behind, rfl, continued, rfl⟩
    exact ⟨out, by rw [List.append_assoc, exec_bind_ok begun, ended, List.append_assoc]⟩

/-- Behind a value that the grammar names, it may depend on the value. -/
theorem consumes_bind {program : GoM Reader Err Value} {next : Value → GoM Reader Err Other}
    {form : List Byte → Value → Prop} {nextForm : Value → List Byte → Prop} {errors : Err → Prop}
    (first : Follows program (Written form) errors)
    (second : ∀ bytes value, form bytes value → Consumes (next value) (nextForm value)) :
    Consumes (program >>= next) fun bytes => ∃ front back value,
      bytes = front ++ back ∧ form front value ∧ nextForm value back := by
  have behind : ∀ front here rest value, (∃ named, form here named) →
      exec program (standing front (here ++ rest)) = (.ok value, standing (front ++ here) rest) →
      Consumes (next value) fun back => ∃ named, form here named ∧ nextForm named back := by
    rintro front here rest value ⟨known, written⟩ begun
    have returned : ∀ named, form here named → named = value := by
      intro named shown
      have again := (exec_standing_iff first).mpr
        ⟨here, rest, rfl, shown, (rfl : _ = standing (front ++ here) rest)⟩
      rw [begun] at again
      cases again
      rfl
    obtain rfl := returned known written
    apply (second here known written).congr
    intro back
    constructor
    · exact fun continued => ⟨known, written, continued⟩
    · rintro ⟨named, shown, continued⟩
      rwa [returned named shown] at continued
  apply ((consumes_of_follows first).bind behind).congr
  intro bytes
  constructor
  · rintro ⟨here, back, split, _, value, written, continued⟩
    exact ⟨here, back, value, split, written, continued⟩
  · rintro ⟨here, back, value, split, written, continued⟩
    exact ⟨here, back, split, ⟨value, written⟩, value, written, continued⟩

/-- A program that succeeds on any `size` bytes and takes them. -/
def Fixed (size : Nat) (program : GoM Reader Err Value) : Prop :=
  Consumes program fun bytes => bytes.length = size

theorem fixed_pure (value : Value) : Fixed 0 (pure value : GoM Reader Err Value) := by
  intro front unread after
  constructor
  · intro ran
    obtain ⟨_, ran⟩ := ran
    cases ran
    exact ⟨[], unread, rfl, rfl, by rw [List.append_nil]⟩
  · intro split
    obtain ⟨bytes, rest, rfl, empty, rfl⟩ := split
    obtain rfl := List.length_eq_zero_iff.mp empty
    exact ⟨value, by rw [exec_pure, List.append_nil, List.nil_append]⟩

theorem Fixed.bind {size more : Nat} {program : GoM Reader Err Value}
    {next : Value → GoM Reader Err Other} (first : Fixed size program)
    (second : ∀ value, Fixed more (next value)) : Fixed (size + more) (program >>= next) := by
  apply (Consumes.bind first fun _ _ _ value _ _ => second value).congr
  intro bytes
  constructor
  · rintro ⟨front, back, rfl, long, longer⟩
    rw [List.length_append, long, longer]
  · intro whole
    refine ⟨bytes.take size, bytes.drop size, (List.take_append_drop size bytes).symm,
      List.length_take_of_le (by omega), ?_⟩
    rw [List.length_drop]
    omega

theorem fixed_items {size : Nat} {item : GoM Reader Err Value} (fixed : Fixed size item)
    (count : Nat) : Fixed (size * count) (readItems item count) := by
  induction count with
  | zero => exact fixed_pure []
  | succ count induction =>
      have whole := fixed.bind fun first => induction.bind fun rest => fixed_pure (first :: rest)
      rw [Nat.mul_succ, Nat.add_comm]
      exact whole

theorem fixed_flags : Fixed 4 (plain readFlags) := by
  apply (consumes_of_follows (follows_plain (follows_put follows_uint32))).congr
  intro bytes
  constructor
  · rintro ⟨word, rfl⟩
    exact put_uint32_length word
  · exact fun size => ⟨_, (put_uint32_of_bytes bytes size).symm⟩

theorem fixed_int32 : Fixed 4 (plain readInt32) := by
  apply (consumes_of_follows (follows_plain (follows_put follows_int32))).congr
  intro bytes
  constructor
  · rintro ⟨word, rfl⟩
    exact put_uint32_length _
  · intro size
    refine ⟨(uint32 bytes).toInt32, ?_⟩
    rw [UInt32.toUInt32_toInt32, put_uint32_of_bytes bytes size]

theorem fixed_worker_instance : Fixed 16 readWorkerInstance :=
  fixed_flags.bind fun _ => fixed_int32.bind fun _ => fixed_int32.bind fun _ =>
    fixed_int32.bind fun _ => fixed_pure _

theorem fixed_make_slice {elementSize count : Nat} (small : elementSize ≤ 2 ^ 16)
    (counted : count < 2 ^ 32) : Fixed 0 (makeSlice elementSize count : GoM Reader Err Unit) := by
  rw [make_slice_counted small counted]
  exact fixed_pure ()

end Positions

/-! ## Written models -/

/-- A model as it is written: its name, the count of its workers and sixteen bytes for each. -/
def ModelForm (bytes : List Byte) : Prop :=
  ∃ written name workers details, StringForm written name ∧
    details.length = 16 * (workers : UInt32).toNat ∧
    bytes = written ++ (putUint32 workers ++ details)

theorem consumes_worker_type : Consumes readWorkerType ModelForm := by
  have details : ∀ (name : GoString) (count : Nat), count < 2 ^ 32 →
      Fixed (16 * count) (makeSlice 12 count >>= fun _ => readItems readWorkerInstance count >>=
        fun workers => pure (WorkerType.mk name workers) : DecodeM WorkerType) := by
    intro name count counted
    have made : Fixed 0 (makeSlice 12 count : DecodeM Unit) :=
      fixed_make_slice (by decide) counted
    have whole := made.bind fun _ => (fixed_items fixed_worker_instance count).bind
      fun workers => fixed_pure (WorkerType.mk name workers)
    rw [Nat.add_zero, Nat.zero_add] at whole
    exact whole
  have counted : ∀ name : GoString, Consumes (plain readVectorLen >>= fun count =>
      makeSlice 12 count >>= fun _ => readItems readWorkerInstance count >>= fun workers =>
        pure (WorkerType.mk name workers)) fun bytes => ∃ front back count,
        bytes = front ++ back ∧ (∃ word, front = putUint32 word ∧ count = word.toNat) ∧
          back.length = 16 * count := by
    intro name
    apply consumes_bind (follows_plain follows_len)
    intro bytes count written
    obtain ⟨word, -, rfl⟩ := written
    exact details name word.toNat word.toNat_lt
  have whole := consumes_bind (follows_plain follows_bytes) fun bytes name _ => counted name
  apply whole.congr
  intro bytes
  constructor
  · intro found
    obtain ⟨written, _, name, rfl, form, _, back, _, rfl, ⟨workers, rfl, rfl⟩, long⟩ := found
    exact ⟨written, name, workers, back, form, long, rfl⟩
  · intro model
    obtain ⟨written, name, workers, back, form, long, rfl⟩ := model
    exact ⟨written, _, name, rfl, form, _, back, _, rfl, ⟨workers, rfl, rfl⟩, long⟩

/-- A loop reaches an item exactly behind as many written items as it has done rounds. -/
theorem each_item_iff {Err Item : Type} {item : GoM Reader Err Item} {form : List Byte → Prop}
    (consumes : Consumes item form) (allowed : Reader → Prop) (count : Nat)
    (front unread : List Byte) :
    EachItem item allowed count (standing front unread) ↔
      ∀ (items : List (List Byte)) rest, items.length < count → (∀ bytes ∈ items, form bytes) →
        unread = items.flatten ++ rest → allowed (standing (front ++ items.flatten) rest) := by
  induction count generalizing front unread with
  | zero => simp [EachItem]
  | succ count induction =>
      rw [EachItem]
      constructor
      · intro each items rest early written split
        cases items with
        | nil =>
            rw [List.flatten_nil, List.nil_append] at split
            rw [List.flatten_nil, List.append_nil, ← split]
            exact each.1
        | cons bytes later =>
            obtain ⟨here, behind⟩ := List.forall_mem_cons.mp written
            rw [List.flatten_cons, List.append_assoc] at split
            obtain ⟨value, ran⟩ := (consumes front unread _).mpr ⟨bytes, _, split, here, rfl⟩
            have next := (induction _ _).mp (each.2 value _ ran) later rest
              (Nat.lt_of_succ_lt_succ early) behind rfl
            rw [List.flatten_cons, ← List.append_assoc]
            exact next
      · intro every
        constructor
        · have first := every [] unread (Nat.succ_pos count) (List.forall_mem_nil _) rfl
          rwa [List.flatten_nil, List.append_nil] at first
        · intro value after ran
          obtain ⟨bytes, behind, rfl, here, rfl⟩ := (consumes front unread after).mp ⟨value, ran⟩
          rw [induction]
          intro items rest early written split
          have next := every (bytes :: items) rest (Nat.succ_lt_succ early)
            (List.forall_mem_cons.mpr ⟨here, written⟩)
            (by rw [List.flatten_cons, List.append_assoc, split])
          rw [List.flatten_cons, ← List.append_assoc] at next
          exact next

/-- The count in front of the unread bytes is no larger than they allow. -/
def CountFits (width : Nat) (unread : List Byte) : Prop :=
  ∀ (count : UInt32) rest, unread = putUint32 count ++ rest → count.toNat ≤ rest.length / width

theorem vector_fits_iff {width : Nat} {front unread : List Byte} :
    (∀ count after, exec readVectorLen (standing front unread) = (.ok count, after) →
      RoomFor width count after) ↔ CountFits width unread := by
  constructor
  · intro every count rest split
    have ran := (exec_standing_iff follows_len).mpr
      ⟨putUint32 count, rest, split, ⟨count, rfl, rfl⟩, (rfl : _ = standing (front ++ _) _)⟩
    exact room_standing.mp (every _ _ ran)
  · intro fits count after ran
    obtain ⟨_, rest, split, ⟨word, rfl, rfl⟩, rfl⟩ := (exec_standing_iff follows_len).mp ran
    exact room_standing.mpr (fits word rest split)

/-- The workers' count of a model that starts here. -/
def ModelFits (unread : List Byte) : Prop :=
  ∀ written name rest, StringForm written name → unread = written ++ rest → CountFits 16 rest

/-- The counts of an answer: that of its models, and that of the workers of every model that the
loop reaches. -/
def AnswerFits (payload : List Byte) : Prop :=
  ∀ (count : UInt32) rest,
    payload = putUint32 idClientWorkerTypesV2 ++ (putUint32 count ++ rest) →
      count.toNat ≤ rest.length / 8 ∧
        ∀ (models : List (List Byte)) behind, models.length < count.toNat →
          (∀ model ∈ models, ModelForm model) → rest = models.flatten ++ behind → ModelFits behind

theorem workers_fit_iff {front unread : List Byte} :
    WorkersFit (standing front unread) ↔ ModelFits unread := by
  have names := follows_plain follows_bytes
  constructor
  · intro every written name rest form split count behind counts
    subst counts
    have named := (exec_standing_iff names).mpr
      ⟨written, _, split, form, (rfl : _ = standing (front ++ written) _)⟩
    have counted := (exec_standing_iff (follows_plain follows_len)).mpr
      ⟨putUint32 count, behind, rfl, ⟨count, rfl, rfl⟩,
        (rfl : _ = standing (front ++ written ++ _) _)⟩
    exact room_standing.mp (every _ _ named _ _ counted)
  · intro fits name middle named count after counted
    obtain ⟨written, rest, split, form, rfl⟩ := (exec_standing_iff names).mp named
    obtain ⟨_, behind, rfl, ⟨word, rfl, rfl⟩, rfl⟩ :=
      (exec_standing_iff (follows_plain follows_len)).mp counted
    exact room_standing.mpr (fits written name _ form split word behind rfl)

theorem answer_fits_iff (payload : List Byte) :
    (∀ after, exec (plain readUint32) (newReader payload) = (.ok idClientWorkerTypesV2, after) →
      ModelsFit after) ↔ AnswerFits payload := by
  have numbers := follows_plain (follows_put follows_uint32)
  have counts := follows_plain follows_len
  have start : newReader payload = standing [] payload := rfl
  have made : ∀ (word : UInt32) (reader : Reader),
      exec (makeSlice 40 word.toNat : DecodeM Unit) reader = (.ok (), reader) := by
    intro word reader
    rw [make_slice_counted (by decide) word.toNat_lt, exec_pure]
  rw [start]
  constructor
  · intro every count rest split
    have numbered := (exec_standing_iff numbers).mpr
      ⟨_, _, split, rfl, (rfl : _ = standing ([] ++ _) _)⟩
    have counted := (exec_standing_iff counts).mpr ⟨putUint32 count, rest, rfl,
      ⟨count, rfl, rfl⟩, (rfl : _ = standing ([] ++ putUint32 idClientWorkerTypesV2 ++ _) _)⟩
    obtain ⟨room, loop⟩ := every _ numbered _ _ counted
    have each := (each_item_iff consumes_worker_type WorkersFit _ _ _).mp
      (loop () _ (made count _))
    refine ⟨room_standing.mp room, ?_⟩
    intro models behind early written split
    exact workers_fit_iff.mp (each models behind early written split)
  · intro fits after numbered count middle counted
    obtain ⟨_, rest, split, rfl, rfl⟩ := (exec_standing_iff numbers).mp numbered
    obtain ⟨_, behind, rfl, ⟨word, rfl, rfl⟩, rfl⟩ := (exec_standing_iff counts).mp counted
    obtain ⟨room, models⟩ := fits word behind split
    refine ⟨room_standing.mpr room, ?_⟩
    intro _ loop ran
    rw [made word _] at ran
    obtain ⟨-, rfl⟩ := Prod.mk.inj ran
    rw [each_item_iff consumes_worker_type]
    intro items rest early written split
    exact workers_fit_iff.mpr (models items rest early written split)

theorem admitted_iff {Err Value : Type} {observed : EffortM Err Value}
    {program : GoM Reader Err Value} {allowed : Reader → Prop}
    (admits : Admits Frugal observed program allowed) (reader : Reader) :
    Frugal (effortOf observed reader) ↔ allowed reader := by
  rw [effortOf, admits.keeps]
  simp [Frugal]

/-- The observed decoders are the decoders, and each one reserves no more than the unread bytes
justify exactly on inputs whose counts fit. -/
theorem reservations_justified_iff (payload front unread : List Byte) :
    (exec observedWorkerTypes ⟨newReader payload, ⟨0, []⟩⟩).1 = decodeWorkerTypesV2 payload ∧
    ((∀ made ∈ (effortOf observedWorkerTypes (newReader payload)).reservations, Justified made) ↔
      AnswerFits payload) ∧
    (exec (observedVector 4 24 readBytes) ⟨standing front unread, ⟨0, []⟩⟩).1 =
      (exec readVectorBytes (standing front unread)).1 ∧
    (exec (observedVector 4 16 readString) ⟨standing front unread, ⟨0, []⟩⟩).1 =
      (exec readVectorString (standing front unread)).1 ∧
    (exec (observedVector 32 32 readInt256) ⟨standing front unread, ⟨0, []⟩⟩).1 =
      (exec readVectorInt256 (standing front unread)).1 ∧
    ((∀ made ∈ (effortOf (observedVector 4 24 readBytes) (standing front unread)).reservations,
      Justified made) ↔ CountFits 4 unread) ∧
    ((∀ made ∈ (effortOf (observedVector 4 16 readString) (standing front unread)).reservations,
      Justified made) ↔ CountFits 4 unread) ∧
    ((∀ made ∈ (effortOf (observedVector 32 32 readInt256) (standing front unread)).reservations,
      Justified made) ↔ CountFits 32 unread) := by
  have answers := observes_worker_types ⟨newReader payload, ⟨0, []⟩⟩
  have vector := fun {Item : Type} (width elementSize : Nat) (item : ReadM Item) =>
    congrArg Prod.fst (observes_vector width elementSize item ⟨standing front unread, ⟨0, []⟩⟩)
  refine ⟨(congrArg Prod.fst answers).symm, ?_, (vector 4 24 readBytes).symm,
    (vector 4 16 readString).symm, (vector 32 32 readInt256).symm, ?_, ?_, ?_⟩
  · rw [← answer_fits_iff]
    exact admitted_iff admits_worker_types _
  · rw [← vector_fits_iff]
    exact admitted_iff (admits_vector 4 24 readBytes) _
  · rw [← vector_fits_iff]
    exact admitted_iff (admits_vector 4 16 readString) _
  · rw [← vector_fits_iff]
    exact admitted_iff (admits_vector 32 32 readInt256) _

def emptyClaim : List Byte := putUint32 idClientWorkerTypesV2 ++ putUint32 0xffffffff

/-- Eight bytes reserve room for 4294967295 models of 40 bytes, and four bytes for as many
slices. -/
theorem claimed_count_reserved :
    (effortOf observedWorkerTypes (newReader emptyClaim)).reservations =
        [⟨4294967295, 8, 0⟩] ∧
      (effortOf (observedVector 4 24 readBytes) (newReader (putUint32 0xffffffff))).reservations =
        [⟨4294967295, 4, 0⟩] ∧
      ¬ Justified ⟨4294967295, 8, 0⟩ ∧
      ¬ Justified ⟨4294967295, 4, 0⟩ := by
  have models : (effortOf observedWorkerTypes (newReader emptyClaim)).reservations =
      [⟨4294967295, 8, 0⟩] := by
    decide +kernel
  have slices : (effortOf (observedVector 4 24 readBytes)
      (newReader (putUint32 0xffffffff))).reservations = [⟨4294967295, 4, 0⟩] := by
    decide +kernel
  exact ⟨models, slices, by decide, by decide⟩

end Gocoon.ReservedCapacity
