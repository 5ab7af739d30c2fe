import Gocoon.ObservedDecoders
import Gocoon.ReaderSafety

/-!
# How long hostile answers keep a decoder busy

A loop over a claimed count ends because an iteration has to consume bytes. The count of
iterations never runs ahead of the cursor: the charge, iterations minus position, falls by what an
iteration reads and rises by one at its head, so a decoder that starts at the front of its payload
makes at most as many iterations as the payload has bytes, nested loops included.
-/

namespace Gocoon.DecoderIterations

open Gocoon.LittleEndianBytes
open Gocoon.GoProgram
open Gocoon.ObservedPrograms
open Gocoon.ObservedDecoders
open Gocoon.TlPrimitives
open Gocoon.TlVector
open Gocoon.TlTcpPacket
open Gocoon.ProxyHandshakeCodec
open Gocoon.InferencePackets
open Gocoon.ProxyAnswers
open Gocoon.ReaderSafety

set_option autoImplicit false

/-- Iterations not yet paid for by consumed bytes. -/
def charge (state : Observed Reader Effort) : Int := state.notes.iterations - state.world.pos

section Charges

variable {Err Value Item Other : Type}

/-- Started with at most the charge `before`, the program returns with at most `after`, or fails
with at most `stopped`. -/
def Spends (program : EffortM Err Value) (before : Int) (after : Value → Int)
    (stopped : Int) : Prop :=
  ∀ state, Inside state.world → charge state ≤ before →
    Ends program state
      (fun value later => Inside later.world ∧ charge later ≤ after value ∧
        later.world.buf = state.world.buf)
      (fun later => Inside later.world ∧ charge later ≤ stopped ∧
        later.world.buf = state.world.buf)

theorem spends_pure {value : Value} {before stopped : Int} {after : Value → Int}
    (paid : before ≤ after value) :
    Spends (pure value : EffortM Err Value) before after stopped :=
  fun _ inside charged => ends_pure ⟨inside, charged.trans paid, rfl⟩

theorem spends_fail {error : Err} {before stopped : Int} {after : Value → Int}
    (paid : before ≤ stopped) :
    Spends (fail error : EffortM Err Value) before after stopped :=
  fun _ inside charged => ends_fail ⟨inside, charged.trans paid, rfl⟩

theorem spends_crash {before stopped : Int} {after : Value → Int} (paid : before ≤ stopped) :
    Spends (crash : EffortM Err Value) before after stopped :=
  fun _ inside charged => ends_crash ⟨inside, charged.trans paid, rfl⟩

theorem Spends.bind {program : EffortM Err Value}
    {next : Value → EffortM Err Other} {before stopped : Int}
    {middle : Value → Int} {after : Other → Int} (first : Spends program before middle stopped)
    (rest : ∀ value, Spends (next value) (middle value) after stopped) :
    Spends (program >>= next) before after stopped := by
  intro state inside charged
  apply Ends.bind
  refine (first state inside charged).mono ?_ fun _ holds => holds
  rintro value later ⟨laterInside, laterCharged, sameBuf⟩
  have continued := rest value later laterInside laterCharged
  rw [sameBuf] at continued
  exact continued

theorem Spends.mono {program : EffortM Err Value} {before stopped more : Int}
    {after larger : Value → Int} (spends : Spends program before after stopped)
    (afterLarger : ∀ value, after value ≤ larger value) (stoppedMore : stopped ≤ more) :
    Spends program before larger more := by
  intro state inside charged
  refine (spends state inside charged).mono ?_ ?_
  · rintro value later ⟨laterInside, laterCharged, sameBuf⟩
    exact ⟨laterInside, laterCharged.trans (afterLarger value), sameBuf⟩
  · rintro later ⟨laterInside, laterCharged, sameBuf⟩
    exact ⟨laterInside, laterCharged.trans stoppedMore, sameBuf⟩

theorem spends_tick {before stopped : Int} :
    Spends (tick : EffortM Err Unit) before (fun _ => before + 1) stopped := by
  intro state inside charged
  refine ⟨inside, ?_, rfl⟩
  unfold charge at charged ⊢
  push_cast
  omega

/-- A confined part pays with the bytes it takes. -/
theorem spends_quiet {least : Nat} {program : GoM Reader Err Value} {before stopped : Int}
    (confined : Confined least program) (paid : before ≤ stopped) :
    Spends (quiet program) before (fun _ => before - least) stopped := by
  intro state inside charged
  have moved := confined state.world inside
  unfold Ends
  rw [exec_quiet]
  generalize exec program state.world = ran at moved ⊢
  unfold charge at charged
  rcases ran with ⟨(error | _) | value, after⟩
  · have forward := moved.forward
    refine ⟨moved.inside, ?_, moved.sameBuf⟩
    simp only [charge]
    omega
  · exact moved.elim
  · have forward := moved.forward
    refine ⟨moved.inside, ?_, moved.sameBuf⟩
    simp only [charge]
    omega

/-- A byte string pays with its own length. -/
theorem spends_bytes {before stopped : Int} (paid : before ≤ stopped) :
    Spends (quiet readBytes) before (fun out => before - out.length) stopped := by
  intro state inside charged
  unfold Ends
  rw [exec_quiet]
  unfold charge at charged
  rcases exec_read_bytes state.world with
    ⟨error, after, failed, -, moved⟩ | ⟨out, after, read, between⟩
  · have forward := (moved inside).forward
    rw [failed]
    refine ⟨(moved inside).inside, ?_, (moved inside).sameBuf⟩
    simp only [charge]
    omega
  · obtain ⟨header, pad, -, -, -, sameBuf, position, laterInside⟩ := between
    rw [read]
    refine ⟨laterInside, ?_, sameBuf⟩
    simp only [charge]
    omega

theorem spends_if {condition : Prop} [Decidable condition]
    {left right : EffortM Err Value} {before stopped : Int} {after : Value → Int}
    (whenTrue : Spends left before after stopped) (whenFalse : Spends right before after stopped) :
    Spends (if condition then left else right) before after stopped := by
  split
  · exact whenTrue
  · exact whenFalse

theorem spends_attempt {program : EffortM Err Value} {before after stopped : Int}
    (spends : Spends program before (fun _ => after) after) (paid : after ≤ stopped) :
    Spends (attempt program) before (fun _ => after) stopped := by
  intro state inside charged
  refine ends_attempt (spends state inside charged) ?_ ?_
  · intro error later caught
    exact caught
  · rintro later ⟨laterInside, laterCharged, sameBuf⟩
    exact ⟨laterInside, laterCharged.trans paid, sameBuf⟩

/-- A loop whose body takes at least one byte never gets ahead of the cursor by more than the
iteration that fails. -/
theorem spends_items {item : EffortM Err Item} (before : Int)
    (body : Spends item (before + 1) (fun _ => before) (before + 1)) (count : Nat) :
    Spends (observedItems item count) before (fun _ => before) (before + 1) := by
  induction count with
  | zero => exact spends_pure (Int.le_refl _)
  | succ count ih =>
      refine spends_tick.bind fun _ => body.bind fun first => ih.bind fun rest => ?_
      exact spends_pure (Int.le_refl _)

theorem spends_flat {least : Nat} {item : GoM Reader Err Item} (consumes : 1 ≤ least)
    (confined : Confined least item) (before : Int) :
    Spends (quiet item) (before + 1) (fun _ => before) (before + 1) :=
  (spends_quiet confined (Int.le_refl _)).mono (fun _ => by omega) (Int.le_refl _)

end Charges

section Decoders

theorem spends_headers (before : Int) (count : Nat) :
    Spends (observedHeaders count) before (fun _ => before) (before + 1) := by
  induction count with
  | zero => exact spends_pure (Int.le_refl _)
  | succ count ih =>
      refine spends_tick.bind fun _ => ?_
      refine (spends_quiet confined_bytes (Int.le_refl _)).bind fun _ => ?_
      refine Spends.bind ?_ fun _ => ih
      exact (spends_quiet confined_bytes (by omega)).mono (fun _ => by omega) (Int.le_refl _)

theorem spends_http_response (before : Int) :
    Spends observedHTTPResponse before (fun _ => before) before := by
  refine (spends_quiet confined_uint32 (Int.le_refl _)).bind fun id => ?_
  refine spends_if (spends_fail (by omega)) ?_
  refine (spends_quiet confined_bytes (by omega)).bind fun _ => ?_
  refine (spends_quiet confined_int32 (by omega)).bind fun _ => ?_
  refine (spends_quiet confined_bytes (by omega)).bind fun _ => ?_
  refine (spends_quiet confined_vector_len (by omega)).bind fun count => ?_
  refine ((spends_headers _ count).mono (fun _ => Int.le_refl _) (by omega)).bind fun _ => ?_
  exact (spends_quiet confined_bytes (by omega)).mono (fun _ => by omega) (Int.le_refl _)

theorem spends_timings (before : Int) :
    Spends observedTimings before (fun _ => before) (before + 1) :=
  (spends_items before (spends_flat (by decide) confined_uint64 before) 4).bind
    fun _ => spends_pure (Int.le_refl _)

theorem spends_final_info (before : Int) :
    Spends observedFinalInfo before (fun _ => before) before := by
  refine (spends_quiet confined_uint32 (Int.le_refl _)).bind fun flags => ?_
  refine (spends_quiet confined_tokens_used (by omega)).bind fun _ => ?_
  refine (spends_quiet (confined_read_if _ () confined_debug_strings) (by omega)).bind fun _ => ?_
  apply spends_if ?_ (spends_pure (by omega))
  exact (spends_timings _).mono (fun _ => by omega) (by omega)

theorem spends_skipped (final : Bool) (before : Int) :
    Spends (observedSkipped final) before (fun _ => before) before :=
  spends_if (spends_attempt (spends_final_info before) (Int.le_refl _))
    (spends_pure (Int.le_refl _))

/-- The inner decoder makes at most as many iterations as the answer has bytes. -/
theorem spends_unwrap (whole : Bool) (body : List Byte) (before stopped : Int)
    (paid : before + body.length ≤ stopped) :
    Spends (observedUnwrap whole body) before (fun _ => before + body.length) stopped := by
  refine spends_if ?_ (spends_pure (by omega))
  have called : Spends (nested (newReader body) observedHTTPResponse :
      EffortM TlError _) before (fun _ => before + body.length) stopped := by
    intro state inside charged
    have inner := (spends_http_response state.notes.iterations ⟨newReader body, state.notes⟩
      (Nat.zero_le _) (by simp [charge, newReader])).final
    obtain ⟨innerInside, innerCharged, innerBuf⟩ := inner
    unfold Ends
    rw [exec_nested]
    refine ⟨inside, ?_, rfl⟩
    unfold Inside at innerInside
    rw [innerBuf] at innerInside
    change _ ≤ body.length at innerInside
    unfold charge at innerCharged charged ⊢
    simp only
    omega
  refine called.bind fun outcome => ?_
  rcases outcome with (error | _) | payload
  · exact spends_pure (Int.le_refl _)
  · exact spends_crash paid
  · exact spends_pure (Int.le_refl _)

theorem spends_answer_ex (whole : Bool) (before : Int) :
    Spends (observedAnswerEx whole) before (fun _ => before) before := by
  refine (spends_quiet confined_int256 (Int.le_refl _)).bind fun _ => ?_
  refine (spends_bytes (by omega)).bind fun body => ?_
  refine (spends_quiet confined_uint32 (by omega)).bind fun flags => ?_
  refine ((spends_skipped _ _).mono (fun _ => Int.le_refl _) (by omega)).bind fun _ => ?_
  refine (spends_unwrap whole body _ _ (by omega)).bind fun _ => spends_pure (by omega)

theorem spends_query_part : Spends observedQueryPart 0 (fun _ => 0) 0 := by
  have part : Confined 0 readAnswer :=
    confined_bytes.andThen fun _ => confined_bool.andThen fun _ => confined_int256.andThen
      fun _ => confined_tokens_used.andThen fun _ => confined_pure _
  have error : Confined 0 readAnswerError :=
    confined_int32.andThen fun _ => confined_bytes.andThen fun _ => confined_int256.andThen
      fun _ => (confined_attempt confined_tokens_used).andThen fun _ => confined_pure _
  refine (spends_quiet confined_uint32 (Int.le_refl _)).bind fun id => ?_
  refine spends_if ?_ (spends_if ?_ (spends_if ?_ (spends_if ?_ (spends_fail (by decide)))))
  · exact (spends_quiet part (by decide)).mono (fun _ => by decide) (Int.le_refl _)
  · exact (spends_answer_ex _ _).mono (fun _ => by decide) (by decide)
  · exact (spends_quiet error (by decide)).mono (fun _ => by decide) (Int.le_refl _)
  · refine (spends_quiet confined_int256 (by decide)).bind fun _ => ?_
    refine (spends_quiet confined_int32 (by decide)).bind fun _ => ?_
    refine (spends_quiet confined_bytes (by decide)).bind fun _ => ?_
    refine (spends_quiet confined_uint32 (by decide)).bind fun flags => ?_
    refine ((spends_skipped _ _).mono (fun _ => Int.le_refl _) (by decide)).bind fun _ => ?_
    exact spends_pure (by decide)

theorem spends_reserve {Err : Type} (width elementSize count : Nat) {before stopped : Int}
    (paid : before ≤ stopped) :
    Spends (reserve width elementSize count : EffortM Err Unit) before (fun _ => before)
      stopped := by
  intro state inside charged
  unfold Ends reserve
  rw [exec_bind_ok (exec_note _ state), exec_quiet, makeSlice]
  split_ifs
  · exact ⟨inside, charged, rfl⟩
  · exact ⟨inside, charged.trans paid, rfl⟩

theorem spends_worker_type (before : Int) :
    Spends observedWorkerType (before + 1) (fun _ => before) (before + 1) := by
  have instances := fun charge : Int =>
    spends_items charge (spends_flat (by decide) confined_worker_instance charge)
  refine (spends_quiet (confined_plain confined_bytes) (Int.le_refl _)).bind fun _ => ?_
  refine (spends_quiet (confined_plain confined_vector_len) (by omega)).bind fun count => ?_
  refine (spends_reserve 16 12 count (by omega)).bind fun _ => ?_
  refine ((instances _ count).mono (fun _ => Int.le_refl _) (by omega)).bind fun _ => ?_
  exact spends_pure (by omega)

theorem spends_worker_types : Spends observedWorkerTypes 0 (fun _ => 0) 0 := by
  refine (spends_quiet (confined_plain confined_uint32) (Int.le_refl _)).bind fun id => ?_
  refine spends_if (spends_fail (by decide)) ?_
  refine (spends_quiet (confined_plain confined_vector_len) (by decide)).bind fun count => ?_
  refine (spends_reserve 8 40 count (by decide)).bind fun _ => ?_
  refine ((spends_items _ (spends_worker_type _) count).mono (fun _ => Int.le_refl _)
    (by decide)).bind fun out => ?_
  exact spends_if (spends_fail (by decide)) (spends_pure (by decide))

theorem spends_vector {Item : Type} {least : Nat} {item : ReadM Item}
    (width elementSize : Nat) (consumes : 1 ≤ least) (confined : Confined least item)
    (before : Int) :
    Spends (observedVector width elementSize item) before (fun _ => before) before := by
  have items := fun charge : Int => spends_items charge (spends_flat consumes confined charge)
  refine (spends_quiet confined_vector_len (Int.le_refl _)).bind fun count => ?_
  refine (spends_reserve width elementSize count (by omega)).bind fun _ => ?_
  exact (items _ count).mono (fun _ => by omega) (by omega)

theorem iterations_paid {Err Value : Type} {program : EffortM Err Value}
    {reader : Reader} (inside : Inside reader)
    (spends : Spends program (-reader.pos) (fun _ => -reader.pos) (-reader.pos)) :
    (effortOf program reader).iterations ≤ reader.buf.length - reader.pos := by
  obtain ⟨laterInside, paid, sameBuf⟩ :=
    (spends ⟨reader, ⟨0, []⟩⟩ inside (by simp [charge])).final
  unfold Inside at laterInside
  rw [sameBuf] at laterInside
  change _ ≤ reader.buf.length at laterInside
  unfold charge at paid
  unfold effortOf
  omega

end Decoders

structure ByteSlice where
  bytes : List Byte
  allocated : bytes.length ≤ maxAlloc

/-- No answer makes a reader leave its buffer or a decoder loop longer than the answer is: any
operations in any order keep the cursor inside and moving forward, a byte string is read exactly
between its header and its padding, and the decoders return on every input. -/
theorem hostile_answers_stay_in_bounds :
    (∀ (buf : ByteSlice) (start : Nat), start ≤ buf.bytes.length →
      ∀ (ops : List ReaderOp) (op : ReaderOp),
        Moves 0 ⟨buf.bytes, start⟩ (performAll ops ⟨buf.bytes, start⟩) ∧
        Performed op (performAll ops ⟨buf.bytes, start⟩)
          (exec op.perform (performAll ops ⟨buf.bytes, start⟩))) ∧
    (∀ reader after out, exec readBytes reader = (.ok out, after) →
      Delimited reader after out) ∧
    (∀ payload : List Byte,
      decodeTCPPacket payload ≠ .error .panicked ∧
      decodeConnectedToProxy payload ≠ .error .panicked ∧
      decodeAuthorizationWithProxy payload ≠ .error .panicked ∧
      decodePaymentStatus payload ≠ .error .panicked ∧
      tryDecodeQueryPart payload ≠ .error .panicked ∧
      decodeHTTPResponsePayload payload ≠ .error .panicked ∧
      decodeWorkerTypesV2 payload ≠ .error .panicked) ∧
    (Observes observedQueryPart readQueryPart ∧
      Observes observedHTTPResponse readHTTPResponsePayload ∧
      Observes observedWorkerTypes readWorkerTypesV2 ∧
      ∀ payload : List Byte,
        (effortOf observedQueryPart (newReader payload)).iterations ≤ payload.length ∧
        (effortOf observedHTTPResponse (newReader payload)).iterations ≤ payload.length ∧
        (effortOf observedWorkerTypes (newReader payload)).iterations ≤ payload.length) ∧
    (Observes (observedVector 4 24 readBytes) readVectorBytes ∧
      Observes (observedVector 4 16 readString) readVectorString ∧
      Observes (observedVector 32 32 readInt256) readVectorInt256 ∧
      ∀ reader, Inside reader →
        (effortOf (observedVector 4 24 readBytes) reader).iterations ≤
          reader.buf.length - reader.pos ∧
        (effortOf (observedVector 4 16 readString) reader).iterations ≤
          reader.buf.length - reader.pos ∧
        (effortOf (observedVector 32 32 readInt256) reader).iterations ≤
          reader.buf.length - reader.pos) := by
  refine ⟨?_, fun _ _ _ => read_bytes_delimited, ?_, ⟨observes_query_part, observes_http_response,
    observes_worker_types, ?_⟩, ⟨observes_vector 4 24 readBytes, observes_vector 4 16 readString,
    observes_vector 32 32 readInt256, ?_⟩⟩
  · intro buf start inside ops op
    have moved := perform_all_moves ops ⟨buf.bytes, start⟩ inside buf.allocated
    refine ⟨moved, operation_performed op _ moved.inside ?_⟩
    rw [moved.sameBuf]
    exact buf.allocated
  · intro payload
    exact ⟨confined_tcp_packet.no_panic payload, confined_connected_to_proxy.no_panic payload,
      confined_authorization_with_proxy.no_panic payload,
      confined_payment_status.no_panic payload, query_part_never_panics payload,
      http_response_never_panics payload, confined_worker_types.no_panic payload⟩
  · intro payload
    have front : Inside (newReader payload) := Nat.zero_le _
    exact ⟨iterations_paid front spends_query_part,
      iterations_paid front (spends_http_response _), iterations_paid front spends_worker_types⟩
  · intro reader inside
    exact ⟨iterations_paid inside (spends_vector 4 24 (by decide) confined_bytes _),
      iterations_paid inside (spends_vector 4 16 (by decide) confined_bytes _),
      iterations_paid inside (spends_vector 32 32 (by decide) confined_int256 _)⟩

theorem truncated_length_stays_in_bounds :
    (1 ≤ (⟨[9, 0xfe, 1], by simp [maxAlloc]⟩ : ByteSlice).bytes.length) ∧
      Performed .readBytes (performAll [.readUint32] ⟨[9, 0xfe, 1], 1⟩)
        (exec ReaderOp.readBytes.perform (performAll [.readUint32] ⟨[9, 0xfe, 1], 1⟩)) :=
  ⟨by decide, (hostile_answers_stay_in_bounds.1 ⟨[9, 0xfe, 1], by simp [maxAlloc]⟩ 1 (by decide)
    [.readUint32] .readBytes).2⟩

end Gocoon.DecoderIterations
