import Gocoon.InferenceStreams
import Gocoon.ObjectHeap

/-!
# The invariant of an inference session

The map lists exactly the streams whose close body has not deleted them, the data channel
is closed exactly with the body, and what was received together with what still waits is
what `send` accepted.
-/

namespace Gocoon.InferenceStreamInvariant

open Gocoon.LittleEndianBytes
open Gocoon.BufferedChannel
open Gocoon.CocoonErrors
open Gocoon.TlPrimitives
open Gocoon.InferencePackets
open Gocoon.InferenceStreams
open Gocoon.TransitionRuns

set_option autoImplicit false

def acceptedChunks (sends : List SendRecord) : List Chunk :=
  (sends.filter (·.accepted)).map (·.chunk)

def listed : CloseState → Bool
  | .idle | .entered => true
  | .unlisted | .finished => false

structure ChannelOk (stream : Stream) : Prop where
  capacity : stream.ch.capacity = streamCapacity
  closedWithDone : stream.ch.closed = stream.done
  doneFinished : stream.done = true ↔ stream.closeOnce = .finished
  accounted : stream.received ++ stream.ch.buffer = acceptedChunks stream.sends
  drained : stream.drained = true → stream.done = true ∧ stream.ch.buffer = []

theorem new_stream_ok (reqID : RequestID) : ChannelOk (newStream reqID) where
  capacity := rfl
  closedWithDone := rfl
  doneFinished := by simp [newStream]
  accounted := rfl
  drained := by simp [newStream]

theorem send_cases {stream sent : Stream} {sender : Sender} {chunk : Chunk}
    (result : stream.send sender chunk = some sent) :
    (stream.done = false ∧ ∃ room : stream.ch.buffer.length < stream.ch.capacity,
      sent = { stream with ch := stream.ch.push chunk room }.record sender chunk true) ∨
    ((stream.done = true ∨ stream.ch.capacity ≤ stream.ch.buffer.length) ∧
      sent = stream.record sender chunk false) := by
  unfold Stream.send at result
  by_cases doneSet : stream.done = true
  · rw [if_pos doneSet] at result
    exact .inr ⟨.inl doneSet, (Option.some.inj result).symm⟩
  rw [if_neg doneSet] at result
  unfold Channel.trySend at result
  by_cases shut : stream.ch.closed = true
  · simp [shut] at result
  by_cases room : stream.ch.buffer.length < stream.ch.capacity
  · simp only [shut, room, dif_pos, if_neg, Bool.false_eq_true, not_false_eq_true] at result
    exact .inl ⟨by simpa using doneSet, room, (Option.some.inj result).symm⟩
  · simp only [shut, room, dif_neg, if_neg, Bool.false_eq_true, not_false_eq_true] at result
    exact .inr ⟨.inr (Nat.le_of_not_lt room), (Option.some.inj result).symm⟩

theorem accepted_append (sends : List SendRecord) (record : SendRecord) :
    acceptedChunks (sends ++ [record]) =
      acceptedChunks sends ++ if record.accepted then [record.chunk] else [] := by
  by_cases taken : record.accepted = true
  · simp [acceptedChunks, taken]
  · simp [acceptedChunks, taken]

theorem send_ok {stream sent : Stream} {sender : Sender} {chunk : Chunk} (ok : ChannelOk stream)
    (result : stream.send sender chunk = some sent) :
    ChannelOk sent ∧ sent.reqID = stream.reqID ∧ sent.closeOnce = stream.closeOnce ∧
      sent.caller = stream.caller ∧ sent.watcher = stream.watcher ∧
      ∃ accepted, sent.sends = stream.sends ++ [⟨sender, chunk, accepted⟩] ∧
        (accepted = true ↔ stream.done = false ∧ stream.ch.buffer.length < streamCapacity) := by
  have accounted := ok.accounted
  have capacity := ok.capacity
  rcases send_cases result with ⟨opened, room, rfl⟩ | ⟨refused, rfl⟩
  · refine ⟨⟨capacity, ok.closedWithDone, ok.doneFinished, ?_, ?_⟩, rfl, rfl, rfl, rfl, true,
      rfl, ?_⟩
    · simp only [Stream.record, Channel.push, accepted_append, if_true]
      rw [← accounted, List.append_assoc]
    · intro drained
      have doneSet := (ok.drained drained).1
      rw [opened] at doneSet
      cases doneSet
    · rw [capacity] at room
      simp [opened, room]
  · refine ⟨⟨capacity, ok.closedWithDone, ok.doneFinished, ?_, ok.drained⟩, rfl, rfl, rfl, rfl,
      false, rfl, ?_⟩
    · simp only [Stream.record, accepted_append, Bool.false_eq_true, if_false, List.append_nil]
      exact accounted
    · rw [capacity] at refused
      constructor
      · intro impossible
        cases impossible
      · rintro ⟨opened, room⟩
        rcases refused with doneSet | full
        · rw [opened] at doneSet
          cases doneSet
        · omega

/-- The data channel is closed only together with `done`, so a send never meets a closed
channel. -/
theorem send_never_panics {stream : Stream} (ok : ChannelOk stream) (sender : Sender)
    (chunk : Chunk) : ∃ sent, stream.send sender chunk = some sent := by
  unfold Stream.send Channel.trySend
  by_cases doneSet : stream.done = true
  · exact ⟨_, if_pos doneSet⟩
  · have opened : stream.ch.closed ≠ true := by
      rw [ok.closedWithDone]
      exact doneSet
    by_cases room : stream.ch.buffer.length < stream.ch.capacity
    · simp [doneSet, opened, room]
    · simp [doneSet, opened, room]

theorem close_both_ok {stream changed : Stream} (ok : ChannelOk stream)
    (closed : stream.closeBoth = some changed) :
    changed = { stream with done := true, ch := { stream.ch with closed := true },
                            closeOnce := .finished } ∧ ChannelOk changed := by
  unfold Stream.closeBoth at closed
  by_cases doneSet : stream.done = true
  · rw [if_pos doneSet] at closed
    cases closed
  rw [if_neg doneSet] at closed
  obtain ⟨channel, shut, rfl⟩ := Option.map_eq_some_iff.mp closed
  unfold Channel.close at shut
  split_ifs at shut
  obtain rfl := Option.some.inj shut
  refine ⟨rfl, ok.capacity, rfl, by simp, ok.accounted, ?_⟩
  intro drained
  exact ⟨rfl, (ok.drained drained).2⟩

theorem not_done_before_finish {stream : Stream} (ok : ChannelOk stream)
    (unfinished : stream.closeOnce ≠ .finished) : stream.done = false := by
  rw [Bool.eq_false_iff, Ne, ok.doneFinished]
  exact unfinished

theorem received_ok {stream : Stream} {chunk : Chunk} {channel : Channel Chunk}
    (ok : ChannelOk stream) (taken : stream.ch.receive = some (some chunk, channel)) :
    ChannelOk { stream with ch := channel, received := stream.received ++ [chunk] } := by
  obtain ⟨held, capacity, closed⟩ := Channel.receive_item taken
  refine ⟨capacity.trans ok.capacity, closed.trans ok.closedWithDone, ok.doneFinished, ?_, ?_⟩
  · have accounted := ok.accounted
    rw [held] at accounted
    simpa using accounted
  · intro drained
    have empty := (ok.drained drained).2
    rw [held] at empty
    cases empty

theorem drained_ok {stream : Stream} {channel : Channel Chunk} (ok : ChannelOk stream)
    (taken : stream.ch.receive = some (none, channel)) :
    ChannelOk { stream with drained := true } := by
  obtain ⟨empty, shut⟩ := Channel.receive_drained taken
  rw [ok.closedWithDone] at shut
  exact ⟨ok.capacity, ok.closedWithDone, ok.doneFinished, ok.accounted, fun _ => ⟨shut, empty⟩⟩

theorem stream_step_ok {loopClosing : Bool} {stream changed : Stream} {label : StreamStep}
    (ok : ChannelOk stream)
    (moved : streamStep loopClosing stream label = some (some changed)) :
    ChannelOk changed ∧ changed.reqID = stream.reqID ∧
      (listed changed.closeOnce = true ↔
        listed stream.closeOnce = true ∧ ∀ ref, label ≠ .closeDelete ref) := by
  have plain : ∀ {after : Stream}, after.ch = stream.ch → after.done = stream.done →
      after.closeOnce = stream.closeOnce → after.received = stream.received →
      after.sends = stream.sends → after.drained = stream.drained → ChannelOk after := by
    intro after sameCh sameDone sameClose sameReceived sameSends sameDrained
    constructor
    · rw [sameCh]
      exact ok.capacity
    · rw [sameCh, sameDone]
      exact ok.closedWithDone
    · rw [sameDone, sameClose]
      exact ok.doneFinished
    · rw [sameReceived, sameCh, sameSends]
      exact ok.accounted
    · rw [sameDrained, sameDone, sameCh]
      exact ok.drained
  cases stream_step_case moved with
  | written ref sending same | unwritten ref sending same | gaveUp ref calling finished same
  | fired ref cause watching same | ended ref ending finished same =>
      subst same
      exact ⟨plain rfl rfl rfl rfl rfl rfl, rfl, by simp⟩
  | entered ref idle waits same =>
      subst same
      have opened := not_done_before_finish ok (by simp [idle])
      exact ⟨⟨ok.capacity, ok.closedWithDone, by simp [opened], ok.accounted, ok.drained⟩, rfl,
        by simp [idle, listed]⟩
  | unlisted ref entered same =>
      subst same
      have opened := not_done_before_finish ok (by simp [entered])
      exact ⟨⟨ok.capacity, ok.closedWithDone, by simp [opened], ok.accounted, ok.drained⟩, rfl,
        by simp [listed]⟩
  | closed ref unlisted closes =>
      obtain ⟨rfl, okay⟩ := close_both_ok ok closes
      exact ⟨okay, rfl, by simp [unlisted, listed]⟩
  | sent ref chunk after sending result same =>
      subst same
      obtain ⟨okay, sameID, sameClose, -⟩ := send_ok ok result
      exact ⟨⟨okay.capacity, okay.closedWithDone, okay.doneFinished, okay.accounted,
        okay.drained⟩, sameID, by simp [sameClose]⟩
  | took ref chunk channel taken same =>
      subst same
      exact ⟨received_ok ok taken, rfl, by simp⟩
  | drained ref channel taken same =>
      subst same
      exact ⟨drained_ok ok taken, rfl, by simp⟩

/-- No goroutine of a consistent stream panics: it closes its channels once and never sends on
a closed one. -/
theorem stream_never_panics {loopClosing : Bool} {stream : Stream} {label : StreamStep}
    (ok : ChannelOk stream) : streamStep loopClosing stream label ≠ some none := by
  intro panics
  cases label with
  | closeChannels ref =>
      simp only [streamStep] at panics
      split_ifs at panics with unlisted
      have opened := not_done_before_finish ok (by simp [unlisted])
      simp [Stream.closeBoth, Channel.close, ok.closedWithDone, opened] at panics
  | watcherSend ref =>
      simp only [streamStep] at panics
      split at panics
      · next chunk sending =>
          obtain ⟨sent, result⟩ := send_never_panics ok .watcher chunk
          simp [result] at panics
      · cases panics
  | receive ref =>
      simp only [streamStep] at panics
      split_ifs at panics
      split at panics <;> simp at panics
  | runQuery | dispatch | loopSend | loopReturns => cases panics
  | _ =>
      simp only [streamStep] at panics
      split_ifs at panics
      all_goals cases panics

structure SessionInvariant (session : Session) : Prop where
  owned : ∀ id ref, session.streams.lookup id = some ref →
    ∃ stream, session.heap[ref]? = some stream ∧ stream.reqID = id
  distinct : ∀ (left right : Nat) leftStream rightStream,
    session.heap[left]? = some leftStream → session.heap[right]? = some rightStream →
    leftStream.reqID = rightStream.reqID → left = right
  listing : ∀ (ref : Nat) stream, session.heap[ref]? = some stream →
    (session.streams.lookup stream.reqID = some ref ↔ listed stream.closeOnce = true)
  channels : ∀ (ref : Nat) stream, session.heap[ref]? = some stream → ChannelOk stream

theorem new_session_invariant : SessionInvariant newSession where
  owned := by intro id ref found; simp [newSession] at found
  distinct := by intro left right leftStream rightStream found; simp [newSession] at found
  listing := by intro ref stream found; simp [newSession] at found
  channels := by intro ref stream found; simp [newSession] at found

theorem invariant_of_same {session next : Session} (holds : SessionInvariant session)
    (sameStreams : next.streams = session.streams) (sameHeap : next.heap = session.heap) :
    SessionInvariant next where
  owned := by rw [sameStreams, sameHeap]; exact holds.owned
  distinct := by rw [sameHeap]; exact holds.distinct
  listing := by rw [sameStreams, sameHeap]; exact holds.listing
  channels := by rw [sameHeap]; exact holds.channels

theorem started_invariant (session : Session) (reqID : RequestID)
    (holds : SessionInvariant session) (fresh : ∀ stream ∈ session.heap, stream.reqID ≠ reqID) :
    SessionInvariant { session with
      streams := session.streams.insert reqID session.heap.length
      heap := session.heap ++ [newStream reqID] } := by
  have old : ∀ (ref : Nat) stream, session.heap[ref]? = some stream → stream.reqID ≠ reqID :=
    fun ref stream present => fresh stream (List.mem_of_getElem? present)
  constructor
  · intro id ref found
    by_cases same : id = reqID
    · subst same
      rw [AList.lookup_insert] at found
      obtain rfl := Option.some.inj found
      exact ⟨newStream id, by simp, rfl⟩
    · rw [AList.lookup_insert_ne same] at found
      obtain ⟨stream, present, sameID⟩ := holds.owned id ref found
      exact ⟨stream, ObjectHeap.kept_after_allocation present, sameID⟩
  · intro left right leftStream rightStream leftPresent rightPresent same
    rcases ObjectHeap.allocated leftPresent with leftOld | ⟨rfl, rfl⟩ <;>
      rcases ObjectHeap.allocated rightPresent with rightOld | ⟨rfl, rfl⟩
    · exact holds.distinct left right leftStream rightStream leftOld rightOld same
    · exact absurd same (old left leftStream leftOld)
    · exact absurd same.symm (old right rightStream rightOld)
    · rfl
  · intro ref stream present
    rcases ObjectHeap.allocated present with before | ⟨rfl, rfl⟩
    · rw [AList.lookup_insert_ne (old ref stream before)]
      exact holds.listing ref stream before
    · simp [newStream, listed]
  · intro ref stream present
    rcases ObjectHeap.allocated present with before | ⟨-, rfl⟩
    · exact holds.channels ref stream before
    · exact new_stream_ok reqID

theorem replaced_invariant (session : Session) (ref : Nat) (stream changed : Stream)
    (streams : AList fun _ : RequestID => Nat) (holds : SessionInvariant session)
    (present : session.heap[ref]? = some stream) (sameID : changed.reqID = stream.reqID)
    (ok : ChannelOk changed)
    (others : ∀ id, id ≠ stream.reqID → streams.lookup id = session.streams.lookup id)
    (own : streams.lookup stream.reqID = session.streams.lookup stream.reqID ∨
      streams.lookup stream.reqID = none)
    (state : streams.lookup stream.reqID = some ref ↔ listed changed.closeOnce = true) :
    SessionInvariant { session with streams := streams, heap := session.heap.set ref changed } := by
  constructor
  · intro id other found
    have before : session.streams.lookup id = some other := by
      by_cases same : id = stream.reqID
      · subst same
        rcases own with kept | gone
        · rw [← kept]
          exact found
        · rw [gone] at found
          cases found
      · rw [← others id same]
        exact found
    obtain ⟨owner, ownerPresent, ownerID⟩ := holds.owned id other before
    by_cases same : other = ref
    · subst same
      obtain rfl := Option.some.inj (present.symm.trans ownerPresent)
      exact ⟨changed, ObjectHeap.stored_after_set present, sameID.trans ownerID⟩
    · exact ⟨owner, ObjectHeap.kept_after_set same ownerPresent, ownerID⟩
  · intro left right leftStream rightStream leftPresent rightPresent same
    rcases ObjectHeap.overwritten leftPresent with ⟨rfl, rfl⟩ | ⟨-, leftOld⟩ <;>
      rcases ObjectHeap.overwritten rightPresent with ⟨rfl, rfl⟩ | ⟨-, rightOld⟩
    · rfl
    · exact holds.distinct left right stream rightStream present rightOld (sameID.symm.trans same)
    · exact holds.distinct left right leftStream stream leftOld present (same.trans sameID)
    · exact holds.distinct left right leftStream rightStream leftOld rightOld same
  · intro other found stored
    rcases ObjectHeap.overwritten stored with ⟨rfl, rfl⟩ | ⟨different, old⟩
    · rw [sameID]
      exact state
    · have differentID : found.reqID ≠ stream.reqID := by
        intro same
        exact different (holds.distinct other ref found stream old present same)
      rw [others _ differentID]
      exact holds.listing other found old
  · intro other found stored
    rcases ObjectHeap.overwritten stored with ⟨rfl, rfl⟩ | ⟨-, old⟩
    · exact ok
    · exact holds.channels other found old

theorem dispatched_same (session : Session) (payload : List Byte) :
    (session.dispatchPacket payload).streams = session.streams ∧
      (session.dispatchPacket payload).heap = session.heap := by
  unfold Session.dispatchPacket
  split
  · exact ⟨rfl, rfl⟩
  · exact ⟨rfl, rfl⟩
  · split <;> exact ⟨rfl, rfl⟩

theorem apply_stream_cases {session next : Session} {ref : Nat} {stream : Stream}
    {label : StreamStep} (applied : session.applyStream ref stream label = some next) :
    (streamStep (session.readLoop = .closing ref) stream label = some none ∧
      next = session.panic) ∨ ∃ changed,
      streamStep (session.readLoop = .closing ref) stream label = some (some changed) ∧
      next = { session with
        streams := label.listing session.streams stream.reqID
        heap := session.heap.set ref changed } := by
  obtain ⟨outcome, moved, rfl⟩ := Option.map_eq_some_iff.mp applied
  cases outcome with
  | none => exact .inl ⟨moved, rfl⟩
  | some changed => exact .inr ⟨changed, moved, rfl⟩

theorem listing_cases (label : StreamStep) (streams : AList fun _ : RequestID => Nat)
    (reqID : RequestID) :
    (label.listing streams reqID = streams ∧ ∀ ref, label ≠ .closeDelete ref) ∨
      (label.listing streams reqID = streams.erase reqID ∧ ∃ ref, label = .closeDelete ref) := by
  cases label <;> simp [StreamStep.listing]

theorem step_invariant (session next : Session) (label : StreamStep)
    (holds : SessionInvariant session) (taken : step session label = some next) :
    SessionInvariant next := by
  cases step_case session next label taken with
  | rejected ready installed model reqID same => exact same ▸ holds
  | started ready installed model reqID fresh same =>
      exact same ▸ started_invariant session reqID holds fresh
  | dispatched payload free same =>
      obtain ⟨sameStreams, sameHeap⟩ := dispatched_same session payload
      exact invariant_of_same holds (same ▸ sameStreams) (same ▸ sameHeap)
  | handed ref chunk stream sending present same =>
      subst same
      unfold Session.dispatchSend
      split
      · exact invariant_of_same holds rfl rfl
      · next sent result =>
          obtain ⟨ok, sameID, sameClose, -⟩ := send_ok (holds.channels ref stream present) result
          refine invariant_of_same (replaced_invariant session ref stream sent session.streams
            holds present sameID ok (fun _ _ => rfl) (.inl rfl) ?_) rfl rfl
          rw [sameClose]
          exact holds.listing ref stream present
  | returned ref stream closing present finished same =>
      exact same ▸ invariant_of_same holds rfl rfl
  | moved label ref stream about present applied =>
      rcases apply_stream_cases applied with ⟨-, rfl⟩ | ⟨changed, moved, rfl⟩
      · exact invariant_of_same holds rfl rfl
      obtain ⟨ok, sameID, state⟩ := stream_step_ok (holds.channels ref stream present) moved
      have before := holds.listing ref stream present
      rcases listing_cases label session.streams stream.reqID with ⟨same, keeps⟩ | ⟨same, deletes⟩
      · rw [same]
        refine replaced_invariant session ref stream changed session.streams holds present sameID
          ok (fun _ _ => rfl) (.inl rfl) ?_
        rw [before, state]
        exact ⟨fun old => ⟨old, keeps⟩, fun new => new.1⟩
      · rw [same]
        refine replaced_invariant session ref stream changed _ holds present sameID ok
          (fun id different => AList.lookup_erase_ne different)
          (.inr (AList.lookup_erase _ _)) ?_
        rw [AList.lookup_erase, state]
        obtain ⟨deleted, isDelete⟩ := deletes
        constructor
        · intro impossible
          cases impossible
        · intro new
          exact absurd isDelete (new.2 deleted)

/-- The read loop only ever works on streams that exist. -/
structure LoopInHeap (session : Session) : Prop where
  sending : ∀ ref chunk, session.readLoop = .sending ref chunk → ref < session.heap.length
  closing : ∀ ref, session.readLoop = .closing ref → ref < session.heap.length

theorem new_session_loop : LoopInHeap newSession where
  sending := by intro ref chunk loop; cases loop
  closing := by intro ref loop; cases loop

theorem loop_in_heap_of_same {session next : Session} (inside : LoopInHeap session)
    (sameLoop : next.readLoop = session.readLoop)
    (grown : session.heap.length ≤ next.heap.length) : LoopInHeap next where
  sending := by
    intro ref chunk loop
    exact Nat.lt_of_lt_of_le (inside.sending ref chunk (sameLoop.symm.trans loop)) grown
  closing := by
    intro ref loop
    exact Nat.lt_of_lt_of_le (inside.closing ref (sameLoop.symm.trans loop)) grown

theorem step_loop_in_heap (session next : Session) (label : StreamStep)
    (holds : SessionInvariant session) (inside : LoopInHeap session)
    (taken : step session label = some next) : LoopInHeap next := by
  cases step_case session next label taken with
  | rejected ready installed model reqID same => exact same ▸ inside
  | started ready installed model reqID fresh same =>
      exact same ▸ loop_in_heap_of_same inside rfl (by simp)
  | dispatched payload free same =>
      subst same
      unfold Session.dispatchPacket
      split
      · exact loop_in_heap_of_same inside rfl (Nat.le_refl _)
      · exact inside
      · split
        · exact inside
        · next chunk reqID _ _ ref found =>
            obtain ⟨stream, present, -⟩ := holds.owned reqID ref found
            constructor
            · rintro other otherChunk ⟨rfl, rfl⟩
              exact ObjectHeap.stored_bound present
            · intro other loop
              cases loop
  | handed ref chunk stream sending present same =>
      subst same
      unfold Session.dispatchSend
      split
      · exact loop_in_heap_of_same inside rfl (Nat.le_refl _)
      · have bound := ObjectHeap.stored_bound present
        constructor
        · intro other otherChunk loop
          simp only at loop
          split_ifs at loop
        · intro other loop
          simp only at loop
          split_ifs at loop
          cases loop
          simpa [Session.setStream] using bound
  | returned ref stream closing present finished same =>
      subst same
      constructor
      · intro other chunk loop
        cases loop
      · intro other loop
        cases loop
  | moved label ref stream about present applied =>
      rcases apply_stream_cases applied with ⟨-, rfl⟩ | ⟨changed, -, rfl⟩
      · exact loop_in_heap_of_same inside rfl (Nat.le_refl _)
      · exact loop_in_heap_of_same inside rfl (by simp)

end Gocoon.InferenceStreamInvariant
