import Gocoon.InferenceStreamDelivery
import Gocoon.ReaderSafety

/-!
# Streams do not disturb each other

In every reachable session no goroutine has panicked on a channel, a chunk is only ever put
into the stream of the request that it names, and what the read loop puts there comes from
the packets dispatched for that request, in their order. A stream whose channel is closed, or
whose `RunQuery` has failed, is no longer listed. The read loop may still hold a stream that
has been deleted since: its send then finds `done` closed.
-/

namespace Gocoon.InferenceStreamIsolation

open Gocoon.LittleEndianBytes
open Gocoon.GoProgram
open Gocoon.BufferedChannel
open Gocoon.TlPrimitives
open Gocoon.InferencePackets
open Gocoon.InferenceStreams
open Gocoon.InferenceStreamInvariant
open Gocoon.InferenceStreamDelivery
open Gocoon.ReaderSafety
open Gocoon.TransitionRuns

set_option autoImplicit false

/-- What a stream holds belongs to its own request, after the steps `labels`. -/
structure Isolated (labels : List StreamStep) (session : Session) (ref : Nat) (stream : Stream) :
    Prop where
  carried : ∀ sent ∈ stream.sends, sent.chunk.requestID = stream.reqID
  watched : ∀ chunk, stream.watcher = .sending chunk → chunk.requestID = stream.reqID
  transit : ∀ chunk ∈ inTransit session ref, chunk.requestID = stream.reqID
  handed : (loopChunks stream.sends ++ inTransit session ref).Sublist
    (dispatchedFor stream.reqID labels)
  failed : stream.caller = .failed → stream.closeOnce = .finished

theorem dispatched_grows (reqID : RequestID) (labels : List StreamStep) (label : StreamStep) :
    (dispatchedFor reqID labels).Sublist (dispatchedFor reqID (labels ++ [label])) := by
  rw [dispatched_concat]
  exact List.sublist_append_left _ _

section Frame

variable {labels : List StreamStep} {session next : Session} {ref : Nat} {stream : Stream}

theorem Isolated.kept (before : Isolated labels session ref stream) (label : StreamStep)
    (transit : inTransit next ref = inTransit session ref ∨ inTransit next ref = []) :
    Isolated (labels ++ [label]) next ref stream := by
  have fewer : (inTransit next ref).Sublist (inTransit session ref) := by
    rcases transit with same | empty
    · rw [same]
    · rw [empty]
      exact List.nil_sublist _
  refine ⟨before.carried, before.watched, ?_, ?_, before.failed⟩
  · intro chunk member
    exact before.transit chunk (fewer.subset member)
  · have shorter := (List.Sublist.refl (loopChunks stream.sends)).append fewer
    exact (shorter.trans before.handed).trans (dispatched_grows _ labels label)

theorem new_stream_isolated (reqID : RequestID) (empty : inTransit session ref = []) :
    Isolated labels session ref (newStream reqID) where
  carried := by simp [newStream]
  watched := by simp [newStream]
  transit := by simp [empty]
  handed := by simp [newStream, loopChunks, empty]
  failed := by simp [newStream]

end Frame

theorem decoded_request_id {payload : List Byte} {chunk : Chunk} {reqID : RequestID}
    (decoded : tryDecodeQueryPart payload = .ok (some (chunk, reqID))) :
    chunk.requestID = reqID := by
  unfold tryDecodeQueryPart at decoded
  split at decoded
  · cases decoded
    rfl
  · cases decoded
  · cases decoded

theorem query_part_returns (payload : List Byte) :
    ∃ part, tryDecodeQueryPart payload = .ok part := by
  have sound := query_part_never_panics payload
  unfold tryDecodeQueryPart at sound ⊢
  split
  · exact ⟨_, rfl⟩
  · exact ⟨_, rfl⟩
  · next panics =>
      rw [panics] at sound
      exact absurd rfl sound

theorem stream_step_history {loopClosing : Bool} {stream changed : Stream} {label : StreamStep}
    (ok : ChannelOk stream)
    (moved : streamStep loopClosing stream label = some (some changed)) :
    (changed.sends = stream.sends ∨ ∃ chunk accepted, stream.watcher = .sending chunk ∧
      changed.sends = stream.sends ++ [⟨.watcher, chunk, accepted⟩]) ∧
    (∀ chunk, changed.watcher = .sending chunk → stream.watcher = .sending chunk ∨
      ∃ cause, chunk = watcherChunk stream.reqID cause) ∧
    (changed.caller = .failed → stream.caller = .failed ∨ stream.closeOnce = .finished) ∧
    (stream.closeOnce = .finished → changed.closeOnce = .finished) := by
  cases stream_step_case moved with
  | written ref sending same =>
      subst same
      exact ⟨.inl rfl, by simp, by simp, id⟩
  | unwritten ref sending same =>
      subst same
      exact ⟨.inl rfl, fun _ old => .inl old, by simp, id⟩
  | gaveUp ref calling finished same =>
      subst same
      exact ⟨.inl rfl, fun _ old => .inl old, fun _ => .inr finished, id⟩
  | entered ref idle waits same =>
      subst same
      exact ⟨.inl rfl, fun _ old => .inl old, .inl, by simp [idle]⟩
  | unlisted ref entered same =>
      subst same
      exact ⟨.inl rfl, fun _ old => .inl old, .inl, by simp [entered]⟩
  | closed ref unlisted closes =>
      obtain ⟨rfl, -⟩ := close_both_ok ok closes
      exact ⟨.inl rfl, fun _ old => .inl old, .inl, fun _ => rfl⟩
  | fired ref cause watching same =>
      subst same
      refine ⟨.inl rfl, ?_, .inl, id⟩
      rintro chunk ⟨rfl⟩
      exact .inr ⟨cause, rfl⟩
  | sent ref chunk after sending result same =>
      subst same
      obtain ⟨-, -, sameClose, sameCaller, -, accepted, sends, -⟩ := send_ok ok result
      refine ⟨.inr ⟨chunk, accepted, sending, sends⟩, by simp, ?_, ?_⟩
      · intro failed
        exact .inl (sameCaller.symm.trans failed)
      · intro finished
        exact sameClose.trans finished
  | ended ref ending finished same =>
      subst same
      exact ⟨.inl rfl, by simp, .inl, id⟩
  | took ref chunk channel taken same =>
      subst same
      exact ⟨.inl rfl, fun _ old => .inl old, .inl, id⟩
  | drained ref channel taken same =>
      subst same
      exact ⟨.inl rfl, fun _ old => .inl old, .inl, id⟩

theorem own_step_isolated {labels : List StreamStep} {session next : Session} {ref : Nat}
    {stream changed : Stream} {label : StreamStep} (before : Isolated labels session ref stream)
    (ok : ChannelOk stream) (sameLoop : next.readLoop = session.readLoop)
    (moved : streamStep (session.readLoop = .closing ref) stream label = some (some changed)) :
    Isolated (labels ++ [label]) next ref changed := by
  obtain ⟨-, sameID, -⟩ := stream_step_ok ok moved
  obtain ⟨sends, watcher, caller, closed⟩ := stream_step_history ok moved
  have sameTransit : inTransit next ref = inTransit session ref := by
    unfold inTransit
    rw [sameLoop]
  have sameChunks : loopChunks changed.sends = loopChunks stream.sends := by
    rcases sends with same | ⟨chunk, accepted, -, more⟩
    · rw [same]
    · rw [more, loop_chunks_append]
      simp
  constructor
  · intro sent member
    rw [sameID]
    rcases sends with same | ⟨chunk, accepted, sending, more⟩
    · rw [same] at member
      exact before.carried sent member
    · rw [more, List.mem_append, List.mem_singleton] at member
      rcases member with old | rfl
      · exact before.carried sent old
      · exact before.watched chunk sending
  · intro chunk sending
    rw [sameID]
    rcases watcher chunk sending with old | ⟨cause, rfl⟩
    · exact before.watched chunk old
    · rfl
  · rw [sameTransit, sameID]
    exact before.transit
  · rw [sameChunks, sameTransit, sameID]
    exact before.handed.trans (dispatched_grows _ labels label)
  · intro failed
    rcases caller failed with old | finished
    · exact closed (before.failed old)
    · exact closed finished

structure SessionIsolated (labels : List StreamStep) (session : Session) : Prop where
  running : session.panicked = false
  holds : SessionInvariant session
  inside : LoopInHeap session
  streams : ∀ (ref : Nat) stream, session.heap[ref]? = some stream →
    Isolated labels session ref stream

theorem dispatch_isolated {labels : List StreamStep} {session : Session} (payload : List Byte)
    (before : SessionIsolated labels session) (free : session.readLoop = .idle) :
    (session.dispatchPacket payload).panicked = false ∧
      ∀ (ref : Nat) stream, session.heap[ref]? = some stream →
        Isolated (labels ++ [.dispatch payload]) (session.dispatchPacket payload) ref stream := by
  have idle : ∀ ref, inTransit session ref = [] := by
    intro ref
    simp [inTransit, free]
  unfold Session.dispatchPacket
  obtain ⟨part, decoded⟩ := query_part_returns payload
  rw [decoded]
  rcases part with _ | ⟨chunk, reqID⟩
  · exact ⟨before.running, fun ref stream present =>
      (before.streams ref stream present).kept _ (.inl rfl)⟩
  simp only
  cases found : session.streams.lookup reqID with
  | none =>
      exact ⟨before.running, fun ref stream present =>
        (before.streams ref stream present).kept _ (.inl rfl)⟩
  | some target =>
      refine ⟨before.running, ?_⟩
      intro ref stream present
      have own := before.streams ref stream present
      by_cases same : target = ref
      · subst same
        obtain ⟨owner, ownerPresent, ownerID⟩ := before.holds.owned reqID target found
        obtain rfl := Option.some.inj (present.symm.trans ownerPresent)
        have carries : dispatchedChunk stream.reqID (.dispatch payload) = some chunk := by
          simp [dispatchedChunk, decoded, ownerID]
        have transit : inTransit { session with readLoop := .sending target chunk } target =
            [chunk] := by simp [inTransit]
        have handed := own.handed
        rw [idle, List.append_nil] at handed
        refine ⟨own.carried, own.watched, ?_, ?_, own.failed⟩
        · rw [transit]
          intro other member
          obtain rfl := List.mem_singleton.mp member
          exact (decoded_request_id decoded).trans ownerID.symm
        · rw [transit, dispatched_concat, carries]
          exact handed.append (List.Sublist.refl [chunk])
      · exact own.kept _ (.inr (by simp [inTransit, same]))

theorem send_isolated {labels : List StreamStep} {session : Session} {target : Nat}
    {chunk : Chunk} {receiver : Stream} (before : SessionIsolated labels session)
    (sending : session.readLoop = .sending target chunk)
    (present : session.heap[target]? = some receiver) :
    (session.dispatchSend target chunk receiver).panicked = false ∧
      ∀ (ref : Nat) stream, (session.dispatchSend target chunk receiver).heap[ref]? = some stream →
        Isolated (labels ++ [.loopSend]) (session.dispatchSend target chunk receiver) ref
          stream := by
  have ok := before.holds.channels target receiver present
  have own := before.streams target receiver present
  obtain ⟨sent, result⟩ := send_never_panics ok .readLoop chunk
  obtain ⟨-, sameID, sameClose, sameCaller, sameWatcher, accepted, sends, -⟩ := send_ok ok result
  have transit : inTransit session target = [chunk] := by simp [inTransit, sending]
  unfold Session.dispatchSend
  rw [result]
  refine ⟨before.running, ?_⟩
  intro ref stream stored
  have arrived : inTransit { session.setStream target sent with
      readLoop := if chunk.isFinal then .closing target else .idle } ref = [] := by
    by_cases final : chunk.isFinal = true <;> simp [inTransit, final]
  rcases ObjectHeap.overwritten stored with ⟨rfl, rfl⟩ | ⟨-, old⟩
  · constructor
    · intro record member
      rw [sameID]
      rw [sends, List.mem_append, List.mem_singleton] at member
      rcases member with earlier | rfl
      · exact own.carried record earlier
      · exact own.transit chunk (by simp [transit])
    · rw [sameWatcher, sameID]
      exact own.watched
    · rw [arrived]
      simp
    · have handed := own.handed
      rw [transit] at handed
      rw [arrived, sends, loop_chunks_append, sameID, List.append_nil]
      exact handed.trans (dispatched_grows _ labels .loopSend)
    · rw [sameCaller, sameClose]
      exact own.failed
  · exact (before.streams ref stream old).kept _ (.inr arrived)

theorem step_isolated (labels : List StreamStep) (session next : Session) (label : StreamStep)
    (before : SessionIsolated labels session) (taken : step session label = some next) :
    SessionIsolated (labels ++ [label]) next := by
  have holds := step_invariant session next label before.holds taken
  have inside := step_loop_in_heap session next label before.holds before.inside taken
  suffices rest : next.panicked = false ∧ ∀ (ref : Nat) stream, next.heap[ref]? = some stream →
      Isolated (labels ++ [label]) next ref stream from ⟨rest.1, holds, inside, rest.2⟩
  cases step_case session next label taken with
  | rejected ready installed model reqID same =>
      subst same
      exact ⟨before.running, fun ref stream present =>
        (before.streams ref stream present).kept _ (.inl rfl)⟩
  | started ready installed model reqID fresh same =>
      subst same
      refine ⟨before.running, ?_⟩
      intro ref stream present
      rcases ObjectHeap.allocated present with old | ⟨rfl, rfl⟩
      · exact (before.streams ref stream old).kept _ (.inl rfl)
      · apply new_stream_isolated
        cases loop : session.readLoop with
        | idle => simp [inTransit]
        | closing ref => simp [inTransit]
        | sending target chunk =>
            have bound := before.inside.sending target chunk loop
            simp [inTransit, Nat.ne_of_lt bound]
  | dispatched payload free same =>
      subst same
      obtain ⟨running, streams⟩ := dispatch_isolated payload before free
      refine ⟨running, ?_⟩
      rw [(dispatched_same session payload).2]
      exact streams
  | handed target chunk receiver sending present same =>
      subst same
      exact send_isolated before sending present
  | returned target other waiting present finished same =>
      subst same
      exact ⟨before.running, fun ref stream stored =>
        (before.streams ref stream stored).kept _ (.inr rfl)⟩
  | moved label target other about present applied =>
      have ok := before.holds.channels target other present
      rcases apply_stream_cases applied with ⟨panics, -⟩ | ⟨changed, moved, rfl⟩
      · exact absurd panics (stream_never_panics ok)
      refine ⟨before.running, ?_⟩
      intro ref stream stored
      rcases ObjectHeap.overwritten stored with ⟨rfl, rfl⟩ | ⟨-, old⟩
      · exact own_step_isolated (before.streams ref other present) ok rfl moved
      · exact (before.streams ref stream old).kept _ (.inl rfl)

theorem reachable_isolated (labels : List StreamStep) (session : Session)
    (reached : runFrom step newSession labels = some session) :
    SessionIsolated labels session := by
  refine run_induction step newSession SessionIsolated ?_ ?_ labels session reached
  · refine ⟨rfl, new_session_invariant, new_session_loop, ?_⟩
    intro ref stream present
    simp [newSession] at present
  · intro labels session label next _ before taken
    exact step_isolated labels session next label before taken

/-- The chunks that `dispatchPacket` put into the channel. -/
def dispatchedInto (stream : Stream) : List Chunk :=
  (stream.sends.filter fun sent => sent.accepted && sent.sender = .readLoop).map (·.chunk)

theorem dispatched_into_sublist (stream : Stream) :
    (dispatchedInto stream).Sublist (loopChunks stream.sends) := by
  unfold dispatchedInto loopChunks
  apply List.Sublist.map
  rw [← List.filter_filter]
  exact List.filter_sublist

theorem unlisted_of_finished {session : Session} {ref : Nat} {stream : Stream}
    (holds : SessionInvariant session) (present : session.heap[ref]? = some stream)
    (finished : stream.closeOnce = .finished) : session.streams.lookup stream.reqID = none := by
  cases found : session.streams.lookup stream.reqID with
  | none => rfl
  | some other =>
      obtain ⟨owner, ownerPresent, ownerID⟩ := holds.owned stream.reqID other found
      obtain rfl := holds.distinct other ref owner stream ownerPresent present ownerID
      have stillListed := (holds.listing other stream present).mp found
      rw [finished] at stillListed
      cases stillListed

/-- Whatever the interleaving, nothing panics on a channel, every chunk lies in the channel of the
request that it names, the read loop's chunks are a subsequence of the dispatched packets, and a
request that has ended is not listed. -/
theorem stream_delivery_isolated (labels : List StreamStep) (session : Session)
    (reached : runFrom step newSession labels = some session) :
    session.panicked = false ∧
    ∀ (ref : Nat) stream, session.heap[ref]? = some stream →
      stream.received ++ stream.ch.buffer = acceptedChunks stream.sends ∧
      (∀ chunk ∈ stream.received ++ stream.ch.buffer, chunk.requestID = stream.reqID) ∧
      (dispatchedInto stream).Sublist (dispatchedFor stream.reqID labels) ∧
      (stream.ch.closed = true ∨ stream.caller = .failed →
        session.streams.lookup stream.reqID = none) := by
  have isolated := reachable_isolated labels session reached
  refine ⟨isolated.running, ?_⟩
  intro ref stream present
  have own := isolated.streams ref stream present
  have ok := isolated.holds.channels ref stream present
  refine ⟨ok.accounted, ?_, ?_, ?_⟩
  · intro chunk member
    rw [ok.accounted] at member
    obtain ⟨sent, kept, rfl⟩ := List.mem_map.mp member
    exact own.carried sent (List.mem_filter.mp kept).1
  · have handed := (List.sublist_append_left _ _).trans own.handed
    exact (dispatched_into_sublist stream).trans handed
  · intro ended
    apply unlisted_of_finished isolated.holds present
    rcases ended with closed | failed
    · rw [ok.closedWithDone] at closed
      exact ok.doneFinished.mp closed
    · exact own.failed failed

def failedWriteRun : List StreamStep :=
  [.runQuery true true (ascii "m") zeroID, .dispatch (answerPart [1] false zeroID),
    .sendPacket 0 false, .closeEnter 0, .closeDelete 0, .closeChannels 0, .loopSend,
    .callerReturns 0]

theorem failed_write_isolated :
    ∃ session stream, runFrom step newSession failedWriteRun = some session ∧
      session.heap[0]? = some stream ∧ stream.caller = .failed ∧ session.panicked = false ∧
      session.streams.lookup stream.reqID = none := by
  have outcome : ((runFrom step newSession failedWriteRun).bind fun session =>
      session.heap[0]?.map fun stream => stream.caller) = some .failed := by decide +kernel
  obtain ⟨session, reached, found⟩ := Option.bind_eq_some_iff.mp outcome
  obtain ⟨stream, present, failed⟩ := Option.map_eq_some_iff.mp found
  obtain ⟨running, streams⟩ := stream_delivery_isolated failedWriteRun session reached
  exact ⟨session, stream, reached, present, failed, running,
    (streams 0 stream present).2.2.2 (.inr failed)⟩

end Gocoon.InferenceStreamIsolation
