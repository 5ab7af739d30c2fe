import Gocoon.InferenceStreamDelivery

/-!
# How often a request ends

The read loop and the watcher of a request both end it in two critical sections: a final chunk
is sent under `sendMu`, and the channels are closed under `sendMu` later. Between the two the
other party can still put its own chunk behind the final one. As long as neither sends into an
open channel while the other one is on its way from its final chunk to the close, a consumer
receives at most one final chunk and nothing after it.
-/

namespace Gocoon.InferenceStreamEnding

open Gocoon.LittleEndianBytes
open Gocoon.BufferedChannel
open Gocoon.TlPrimitives
open Gocoon.InferencePackets
open Gocoon.InferenceStreams
open Gocoon.InferenceStreamInvariant
open Gocoon.InferenceStreamDelivery
open Gocoon.TransitionRuns

set_option autoImplicit false

def Refuses (stream : Stream) : Prop :=
  stream.done = true ∨ streamCapacity ≤ stream.ch.buffer.length

/-- Neither party sends into the open stream between the other's last send and its close. -/
def apart (ref : Nat) (session : Session) : StreamStep → Prop
  | .loopSend => ∀ stream ∈ session.heap[ref]?, ∀ chunk,
      session.readLoop = .sending ref chunk → stream.watcher = .closing → Refuses stream
  | .watcherSend target => target = ref → ∀ stream ∈ session.heap[ref]?,
      session.readLoop = .closing ref → Refuses stream
  | _ => True

def Ended (stream : Stream) : Prop := ∃ chunk ∈ acceptedChunks stream.sends, chunk.isFinal = true

/-- The accepted chunks end with the first final one, whose sender is still on its way to the
close or has closed the stream. -/
structure Ending (session : Session) (ref : Nat) (stream : Stream) : Prop where
  shape : OneFinal (acceptedChunks stream.sends)
  owed : Ended stream → stream.done = true ∨ session.readLoop = .closing ref ∨
    stream.watcher = .closing
  unwatched : stream.caller = .sendingPacket → stream.watcher = .absent

theorem one_final_append {chunks : List Chunk}
    (unfinished : ∀ chunk ∈ chunks, chunk.isFinal = false) (last : Chunk) :
    OneFinal (chunks ++ [last]) := by
  intro chunk member
  rw [List.dropLast_concat] at member
  exact unfinished chunk member

theorem not_ended {stream : Stream} (unended : ¬Ended stream) :
    ∀ chunk ∈ acceptedChunks stream.sends, chunk.isFinal = false := by
  intro chunk member
  rw [Bool.eq_false_iff]
  exact fun final => unended ⟨chunk, member, final⟩

theorem send_ending {session : Session} {ref : Nat} {stream sent : Stream} {sender : Sender}
    {chunk : Chunk} (before : Ending session ref stream)
    (result : stream.send sender chunk = some sent) (ok : ChannelOk stream)
    (may : ¬Ended stream ∨ Refuses stream) :
    OneFinal (acceptedChunks sent.sends) ∧
      (Ended sent → Ended stream ∨ chunk.isFinal = true) := by
  obtain ⟨-, -, -, -, -, accepted, sends, roomy⟩ := send_ok ok result
  unfold Ended
  rw [sends, accepted_append]
  by_cases taken : accepted = true
  · obtain ⟨opened, room⟩ := roomy.mp taken
    have unended : ¬Ended stream := by
      rcases may with unended | done | full
      · exact unended
      · rw [opened] at done
        cases done
      · omega
    simp only [taken, if_true]
    refine ⟨one_final_append (not_ended unended) chunk, ?_⟩
    rintro ⟨other, member, final⟩
    rw [List.mem_append, List.mem_singleton] at member
    rcases member with old | rfl
    · exact .inl ⟨other, old, final⟩
    · exact .inr final
  · simp only [taken, Bool.false_eq_true, if_false, List.append_nil]
    exact ⟨before.shape, .inl⟩

section Steps

variable {session next : Session} {ref : Nat} {stream changed : Stream}

theorem Ending.kept (before : Ending session ref stream) (sameSends : changed.sends = stream.sends)
    (owed : stream.done = true ∨ session.readLoop = .closing ref ∨ stream.watcher = .closing →
      changed.done = true ∨ next.readLoop = .closing ref ∨ changed.watcher = .closing)
    (unwatched : changed.caller = .sendingPacket → changed.watcher = .absent) :
    Ending next ref changed := by
  refine ⟨?_, ?_, unwatched⟩
  · rw [sameSends]
    exact before.shape
  · unfold Ended
    rw [sameSends]
    exact fun ended => owed (before.owed ended)

/-- A stream that has ended refuses a send, if every close that is still owed makes it refuse. -/
theorem Ending.unended_or_refuses (before : Ending session ref stream)
    (loop : session.readLoop = .closing ref → Refuses stream)
    (watcher : stream.watcher = .closing → Refuses stream) : ¬Ended stream ∨ Refuses stream := by
  by_cases ended : Ended stream
  · right
    rcases before.owed ended with done | closing | closing
    · exact .inl done
    · exact loop closing
    · exact watcher closing
  · exact .inl ended

theorem loop_send_ending {chunk : Chunk} {sent : Stream} (before : Ending session ref stream)
    (ok : ChannelOk stream) (sending : session.readLoop = .sending ref chunk)
    (result : stream.send .readLoop chunk = some sent)
    (allowed : stream.watcher = .closing → Refuses stream)
    (loop : next.readLoop = if chunk.isFinal then .closing ref else .idle) :
    Ending next ref sent := by
  obtain ⟨-, -, -, sameCaller, sameWatcher, -⟩ := send_ok ok result
  have sameDone : sent.done = stream.done := by
    rcases send_cases result with ⟨-, room, rfl⟩ | ⟨-, rfl⟩ <;> rfl
  have may : ¬Ended stream ∨ Refuses stream := by
    apply before.unended_or_refuses _ allowed
    intro closing
    rw [sending] at closing
    cases closing
  obtain ⟨shape, ending⟩ := send_ending before result ok may
  refine ⟨shape, ?_, by rw [sameCaller, sameWatcher]; exact before.unwatched⟩
  intro ended
  rw [sameDone, sameWatcher, loop]
  rcases ending ended with old | final
  · rcases before.owed old with done | closing | closing
    · exact .inl done
    · rw [sending] at closing
      cases closing
    · exact .inr (.inr closing)
  · exact .inr (.inl (if_pos final))

theorem watcher_send_ending {chunk : Chunk} {sent : Stream} (before : Ending session ref stream)
    (ok : ChannelOk stream) (sending : stream.watcher = .sending chunk)
    (result : stream.send .watcher chunk = some sent)
    (allowed : session.readLoop = .closing ref → Refuses stream) :
    Ending next ref { sent with watcher := .closing } := by
  have may : ¬Ended stream ∨ Refuses stream := by
    apply before.unended_or_refuses allowed
    intro closing
    rw [sending] at closing
    cases closing
  obtain ⟨-, -, -, sameCaller, -⟩ := send_ok ok result
  refine ⟨(send_ending before result ok may).1, fun _ => .inr (.inr rfl), ?_⟩
  intro calling
  have absent := before.unwatched (sameCaller.symm.trans calling)
  rw [sending] at absent
  cases absent

theorem own_step_ending {label : StreamStep} (before : Ending session ref stream)
    (ok : ChannelOk stream) (about : label.target = some ref)
    (present : session.heap[ref]? = some stream) (allowed : apart ref session label)
    (moved : streamStep (session.readLoop = .closing ref) stream label = some (some changed))
    (sameLoop : next.readLoop = session.readLoop) : Ending next ref changed := by
  have still : stream.done = true ∨ session.readLoop = .closing ref ∨ stream.watcher = .closing →
      stream.done = true ∨ next.readLoop = .closing ref ∨ stream.watcher = .closing := by
    rw [sameLoop]
    exact id
  cases stream_step_case moved with
  | written target sending same =>
      subst same
      refine before.kept rfl ?_ (by simp)
      rw [sameLoop, before.unwatched sending]
      simp
  | unwritten target sending same | gaveUp target calling finished same =>
      subst same
      exact before.kept rfl still (by simp)
  | entered target idle waits same | unlisted target entered same
  | took target chunk channel taken same | drained target channel taken same =>
      subst same
      exact before.kept rfl still before.unwatched
  | closed target unlisted closes =>
      obtain ⟨rfl, -⟩ := close_both_ok ok closes
      exact before.kept rfl (fun _ => .inl rfl) before.unwatched
  | fired target cause watching same =>
      subst same
      refine before.kept rfl ?_ ?_
      · rw [sameLoop, watching]
        simp
      · intro calling
        have absent := before.unwatched calling
        rw [watching] at absent
        cases absent
  | sent target chunk after sending result same =>
      obtain rfl := Option.some.inj about
      subst same
      exact watcher_send_ending before ok sending result (allowed rfl stream present)
  | ended target ending finished same =>
      subst same
      refine before.kept rfl (fun _ => .inl (ok.doneFinished.mpr finished)) ?_
      intro calling
      have absent := before.unwatched calling
      rw [ending] at absent
      cases absent

end Steps

theorem step_ending {session next : Session} {ref : Nat} {label : StreamStep}
    (holds : SessionInvariant session)
    (before : ∀ stream, session.heap[ref]? = some stream → Ending session ref stream)
    (allowed : apart ref session label) (taken : step session label = some next) :
    ∀ stream, next.heap[ref]? = some stream → Ending next ref stream := by
  intro stream stored
  cases step_case session next label taken with
  | rejected ready installed model reqID same =>
      subst same
      exact before stream stored
  | started ready installed model reqID fresh same =>
      subst same
      rcases ObjectHeap.allocated stored with old | ⟨-, rfl⟩
      · have own := before stream old
        exact own.kept rfl id own.unwatched
      · exact ⟨by simp [OneFinal, newStream, acceptedChunks],
          by simp [Ended, newStream, acceptedChunks], fun _ => rfl⟩
  | dispatched payload free same =>
      subst same
      rw [(dispatched_same session payload).2] at stored
      have own := before stream stored
      refine own.kept rfl ?_ own.unwatched
      rw [free]
      rintro (done | impossible | closing)
      · exact .inl done
      · cases impossible
      · exact .inr (.inr closing)
  | handed target chunk receiver sending present same =>
      subst same
      have ok := holds.channels target receiver present
      obtain ⟨sent, result⟩ := send_never_panics ok .readLoop chunk
      unfold Session.dispatchSend at stored ⊢
      rw [result] at stored ⊢
      rcases ObjectHeap.overwritten stored with ⟨rfl, rfl⟩ | ⟨different, old⟩
      · exact loop_send_ending (before receiver present) ok sending result
          (allowed receiver present chunk sending) rfl
      · have own := before stream old
        refine own.kept rfl ?_ own.unwatched
        rw [sending]
        rintro (done | impossible | closing)
        · exact .inl done
        · cases impossible
        · exact .inr (.inr closing)
  | returned target other waiting present finished same =>
      subst same
      have own := before stream stored
      refine own.kept rfl ?_ own.unwatched
      rintro (done | closing | closing)
      · exact .inl done
      · -- the read loop comes back only from a close that has happened
        rw [waiting] at closing
        cases closing
        obtain rfl := Option.some.inj (stored.symm.trans present)
        exact .inl ((holds.channels ref stream present).doneFinished.mpr finished)
      · exact .inr (.inr closing)
  | moved label target other about present applied =>
      have ok := holds.channels target other present
      rcases apply_stream_cases applied with ⟨panics, -⟩ | ⟨changed, moved, rfl⟩
      · exact absurd panics (stream_never_panics ok)
      rcases ObjectHeap.overwritten stored with ⟨rfl, rfl⟩ | ⟨-, old⟩
      · exact own_step_ending (before other present) ok about present allowed moved rfl
      · have own := before stream old
        exact own.kept rfl id own.unwatched

/-- In every run in which no party sends between the other's final chunk and its close, a consumer
receives at most one final chunk, and nothing after it. -/
theorem request_ends_once (labels : List StreamStep) (session : Session) (ref : Nat)
    (stream : Stream) (reached : runFrom step newSession labels = some session)
    (every : EveryStep step (apart ref) newSession labels)
    (present : session.heap[ref]? = some stream) : OneFinal stream.received := by
  have invariant := guarded_invariant step (apart ref) newSession
    (fun session => SessionInvariant session ∧
      ∀ stream, session.heap[ref]? = some stream → Ending session ref stream)
    ⟨new_session_invariant, by simp [newSession]⟩
    (fun session label next holds allowed taken =>
      ⟨step_invariant session next label holds.1 taken,
        step_ending holds.1 holds.2 allowed taken⟩)
    labels session reached every
  have shape := (invariant.2 stream present).shape
  rw [← (invariant.1.channels ref stream present).accounted] at shape
  exact one_final_shorter _ _ shape

/-- The consumer takes the final part and then the error of a watcher that fires behind it. -/
def lateWatcherRun (fires : List StreamStep) : List StreamStep :=
  [.runQuery true true (ascii "m") zeroID, .sendPacket 0 true,
    .dispatch (answerPart [2] true zeroID), .loopSend] ++ fires ++
  [.closeEnter 0, .closeDelete 0, .closeChannels 0, .loopReturns, .receive 0]

def receivedAfter (labels : List StreamStep) : Option (List Chunk) := do
  let session ← runFrom step newSession labels
  let stream ← session.heap[0]?
  pure stream.received

theorem received_after {labels : List StreamStep} {chunks : List Chunk}
    (found : receivedAfter labels = some chunks) :
    ∃ session stream, runFrom step newSession labels = some session ∧
      session.heap[0]? = some stream ∧ stream.received = chunks := by
  simp only [receivedAfter, Option.bind_eq_bind, Option.bind_eq_some_iff, Option.pure_def,
    Option.some.injEq] at found
  obtain ⟨session, reached, stream, present, same⟩ := found
  exact ⟨session, stream, reached, present, same⟩

/-- Every watcher is silent while it or the read loop could still close the stream. -/
def watchersApart (session : Session) : StreamStep → Bool
  | .loopSend => session.heap.all (·.watcher ≠ .closing)
  | .watcherSend _ => session.readLoop = .idle
  | _ => true

theorem watchers_apart {ref : Nat} {session : Session} {label : StreamStep}
    (checked : watchersApart session label = true) : apart ref session label := by
  cases label with
  | loopSend =>
      intro stream present chunk sending closing
      have free := List.all_eq_true.mp checked stream (List.mem_of_getElem? present)
      simp [closing] at free
  | watcherSend target =>
      intro same stream present closing
      simp [watchersApart, closing] at checked
  | _ => trivial

theorem late_timeout_ends_once :
    ∃ session stream,
      runFrom step newSession
        (lateWatcherRun [] ++ [.watcherFires 0 .timeout, .watcherSend 0]) = some session ∧
      EveryStep step (apart 0) newSession
        (lateWatcherRun [] ++ [.watcherFires 0 .timeout, .watcherSend 0]) ∧
      session.heap[0]? = some stream ∧ stream.received = [lastChunk] ∧
      OneFinal stream.received := by
  have outcome : receivedAfter
      (lateWatcherRun [] ++ [.watcherFires 0 .timeout, .watcherSend 0]) = some [lastChunk] := by
    decide +kernel
  have every : EveryStep step (apart 0) newSession
      (lateWatcherRun [] ++ [.watcherFires 0 .timeout, .watcherSend 0]) := by
    have checked := every_step_checked step watchersApart newSession
      (lateWatcherRun [] ++ [.watcherFires 0 .timeout, .watcherSend 0]) (by decide +kernel)
    intro front label back state same reached
    exact watchers_apart (checked front label back state same reached)
  obtain ⟨session, stream, reached, present, received⟩ := received_after outcome
  exact ⟨session, stream, reached, every, present, received,
    request_ends_once _ session 0 stream reached every present⟩

/-- The answer is complete and delivered, and a timeout follows it all the same. -/
theorem answer_followed_by_timeout :
    ∃ session stream,
      runFrom step newSession (lateWatcherRun [.watcherFires 0 .timeout, .watcherSend 0] ++
        [.receive 0]) = some session ∧
      session.heap[0]? = some stream ∧
      stream.received = [lastChunk, watcherChunk zeroID .timeout] ∧
      ¬OneFinal stream.received := by
  have outcome : receivedAfter (lateWatcherRun [.watcherFires 0 .timeout, .watcherSend 0] ++
      [.receive 0]) = some [lastChunk, watcherChunk zeroID .timeout] := by decide +kernel
  obtain ⟨session, stream, reached, present, received⟩ := received_after outcome
  refine ⟨session, stream, reached, present, received, ?_⟩
  rw [received]
  intro single
  have unfinished := single lastChunk (by simp)
  cases unfinished

end Gocoon.InferenceStreamEnding
