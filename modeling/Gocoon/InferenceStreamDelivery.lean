import Gocoon.InferenceStreamInvariant

/-!
# What a consumer gets from its stream

One request is followed from its `RunQuery`. Until its final packet has come its watcher
stays silent; its chunks are sent by the read loop, in the order of their packets. The read
loop ignores the result of `send`, so a chunk that finds sixteen others waiting is lost, and
the stream is closed behind it all the same. A watcher that fires after the final packet but
before the close puts its own final chunk behind or before it, or closes the channel under
it. The consumer receives exactly what was dispatched when, and only when, none of this
happens at any step.
-/

namespace Gocoon.InferenceStreamDelivery

open Gocoon.LittleEndianBytes
open Gocoon.BufferedChannel
open Gocoon.CocoonErrors
open Gocoon.TlPrimitives
open Gocoon.TlTypes
open Gocoon.InferencePackets
open Gocoon.InferenceStreams
open Gocoon.InferenceStreamInvariant
open Gocoon.TransitionRuns

set_option autoImplicit false

def dispatchedChunk (reqID : RequestID) : StreamStep → Option Chunk
  | .dispatch payload =>
      match tryDecodeQueryPart payload with
      | .ok (some (chunk, id)) => if id = reqID then some chunk else none
      | _ => none
  | _ => none

/-- The answer that the read loop was given for a request, in order. -/
def dispatchedFor (reqID : RequestID) (labels : List StreamStep) : List Chunk :=
  labels.filterMap (dispatchedChunk reqID)

theorem dispatched_concat (reqID : RequestID) (labels : List StreamStep) (label : StreamStep) :
    dispatchedFor reqID (labels ++ [label]) =
      dispatchedFor reqID labels ++ (dispatchedChunk reqID label).toList := by
  unfold dispatchedFor
  rw [List.filterMap_append]
  cases found : dispatchedChunk reqID label <;> simp [found]

def answered (reqID : RequestID) (labels : List StreamStep) : Bool :=
  (dispatchedFor reqID labels).any (·.isFinal)

theorem answered_same (reqID : RequestID) (labels : List StreamStep) (label : StreamStep)
    (nothing : dispatchedChunk reqID label = none) :
    answered reqID (labels ++ [label]) = answered reqID labels := by
  simp [answered, dispatched_concat, nothing]

/-- The request write succeeds, and nothing ends the stream before its answer is complete. -/
def quiet (ref : Nat) (complete : Bool) : StreamStep → Bool
  | .watcherFires other _ => other ≠ ref || complete
  | .sendPacket other written => other ≠ ref || written
  | _ => true

/-- No cancellation, timeout or transport close before the final packet, and no failed
request write. -/
def Calm (reqID : RequestID) (ref : Nat) (labels : List StreamStep) : Prop :=
  ∀ front label back, labels = front ++ label :: back →
    quiet ref (answered reqID front) label = true

theorem calm_before {reqID : RequestID} {ref : Nat} {labels : List StreamStep}
    {label : StreamStep} (calm : Calm reqID ref (labels ++ [label])) : Calm reqID ref labels := by
  intro front middle back same
  exact calm front middle (back ++ [label]) (by simp [same])

theorem calm_of_quiet {reqID : RequestID} {ref : Nat} {labels : List StreamStep}
    (silent : ∀ label ∈ labels, quiet ref false label = true) : Calm reqID ref labels := by
  intro front label back same
  have alone := silent label (by simp [same])
  cases label with
  | watcherFires other cause =>
      simp only [quiet, Bool.or_false] at alone
      simp [quiet, alone]
  | _ => exact alone

def inTransit (session : Session) (ref : Nat) : List Chunk :=
  match session.readLoop with
  | .sending target chunk => if target = ref then [chunk] else []
  | _ => []

/-- Nothing is lost or added at a step: a chunk that the read loop is about to send finds fewer
than sixteen others waiting, the watcher finds the stream closed or its channel full, and the
channels are closed only when the read loop has no chunk in hand for them. -/
def delivers (ref : Nat) (session : Session) : StreamStep → Prop
  | .loopSend => ∀ stream ∈ session.heap[ref]?, ∀ chunk,
      session.readLoop = .sending ref chunk → stream.ch.buffer.length < streamCapacity
  | .watcherSend target => target = ref → ∀ stream ∈ session.heap[ref]?,
      stream.done = true ∨ streamCapacity ≤ stream.ch.buffer.length
  | .closeChannels target => target = ref → inTransit session ref = []
  | _ => True

def loopChunks (sends : List SendRecord) : List Chunk :=
  (sends.filter (·.sender = .readLoop)).map (·.chunk)

/-- A request whose caller has not given up, after the steps `labels`. -/
structure Undisturbed (reqID : RequestID) (ref : Nat) (labels : List StreamStep)
    (session : Session) (stream : Stream) : Prop where
  present : session.heap[ref]? = some stream
  sameID : stream.reqID = reqID
  caller : stream.caller = .sendingPacket ∨ stream.caller = .returned
  handed : loopChunks stream.sends ++ inTransit session ref = dispatchedFor reqID labels
  watcherSent : ∀ sent ∈ stream.sends, sent.sender = .watcher →
    ∃ cause, sent.chunk = watcherChunk reqID cause
  watcherSends : ∀ chunk, stream.watcher = .sending chunk →
    ∃ cause, chunk = watcherChunk reqID cause
  silent : answered reqID labels = false →
    stream.watcher = .absent ∨ stream.watcher = .watching
  opened : answered reqID labels = false → stream.closeOnce = .idle
  unclosing : answered reqID labels = false → session.readLoop ≠ .closing ref

/-- Only the read loop's chunks have been accepted, all of them, and none can come too late. -/
def Delivered (session : Session) (ref : Nat) (stream : Stream) : Prop :=
  (∀ sent ∈ stream.sends, sent.accepted = true ↔ sent.sender = .readLoop) ∧
    (stream.done = true → inTransit session ref = [])

/-- The outcome of one step: it loses or adds nothing exactly when it delivers. -/
def Continues (reqID : RequestID) (ref : Nat) (labels : List StreamStep) (session : Session)
    (stream : Stream) (label : StreamStep) (next : Session) : Prop :=
  ∃ later, Undisturbed reqID ref (labels ++ [label]) next later ∧
    (Delivered next ref later ↔ Delivered session ref stream ∧ delivers ref session label)

theorem unaffected {reqID : RequestID} {ref : Nat} {labels : List StreamStep}
    {session next : Session} {stream : Stream} {label : StreamStep}
    (before : Undisturbed reqID ref labels session stream)
    (kept : next.heap[ref]? = some stream)
    (sameTransit : inTransit next ref = inTransit session ref)
    (sameClosing : next.readLoop = .closing ref → session.readLoop = .closing ref)
    (nothing : dispatchedChunk reqID label = none) (harmless : delivers ref session label) :
    Continues reqID ref labels session stream label next := by
  have sameAnswer := answered_same reqID labels label nothing
  refine ⟨stream, ⟨kept, before.sameID, before.caller, ?_, before.watcherSent,
    before.watcherSends, ?_, ?_, ?_⟩, ?_⟩
  · rw [sameTransit, dispatched_concat, nothing, before.handed]
    simp
  · rw [sameAnswer]
    exact before.silent
  · rw [sameAnswer]
    exact before.opened
  · rw [sameAnswer]
    exact fun unanswered closing => before.unclosing unanswered (sameClosing closing)
  · simp [Delivered, sameTransit, harmless]

/-- The answer's only final chunk is its last. -/
def OneFinal (chunks : List Chunk) : Prop := ∀ chunk ∈ chunks.dropLast, chunk.isFinal = false

theorem one_final_shorter (chunks : List Chunk) (last : List Chunk)
    (shape : OneFinal (chunks ++ last)) : OneFinal chunks := by
  intro chunk member
  refine shape chunk ?_
  cases last with
  | nil => rwa [List.append_nil]
  | cons head tail =>
      rw [List.dropLast_append_of_ne_nil (List.cons_ne_nil _ _)]
      exact List.mem_append_left _ (List.dropLast_subset _ member)

theorem unanswered_of_shape {reqID : RequestID} {labels : List StreamStep} {chunk : Chunk}
    (shape : OneFinal (dispatchedFor reqID labels ++ [chunk])) :
    answered reqID labels = false := by
  unfold answered
  rw [List.any_eq_false]
  intro earlier member final
  have notFinal := shape earlier (by rwa [List.dropLast_concat])
  rw [notFinal] at final
  cases final

theorem dispatch_continues {reqID : RequestID} {ref : Nat} {labels : List StreamStep}
    {session : Session} {stream : Stream} (payload : List Byte)
    (holds : SessionInvariant session) (before : Undisturbed reqID ref labels session stream)
    (free : session.readLoop = .idle)
    (shape : OneFinal (dispatchedFor reqID (labels ++ [.dispatch payload]))) :
    Continues reqID ref labels session stream (.dispatch payload)
      (session.dispatchPacket payload) := by
  have noTransit : inTransit session ref = [] := by simp [inTransit, free]
  unfold Session.dispatchPacket
  rcases decoded : tryDecodeQueryPart payload with fault | _ | ⟨chunk, id⟩
  · exact unaffected before before.present rfl id (by simp [dispatchedChunk, decoded]) trivial
  · exact unaffected before before.present rfl id (by simp [dispatchedChunk, decoded]) trivial
  simp only
  by_cases same : id = reqID
  · have carries : dispatchedChunk reqID (.dispatch payload) = some chunk := by
      simp [dispatchedChunk, decoded, same]
    rw [dispatched_concat, carries, Option.toList_some] at shape
    have unanswered := unanswered_of_shape shape
    -- the stream is still listed: nothing closes it before its final packet
    have stillOpen := before.opened unanswered
    have found : session.streams.lookup id = some ref := by
      rw [same, ← before.sameID]
      exact (holds.listing ref stream before.present).mpr (by simp [stillOpen, listed])
    rw [found]
    refine ⟨stream, ⟨before.present, before.sameID, before.caller, ?_, before.watcherSent,
      before.watcherSends, fun _ => before.silent unanswered, fun _ => stillOpen, ?_⟩, ?_⟩
    · rw [dispatched_concat, carries, ← before.handed, noTransit]
      simp [inTransit]
    · intro _ closing
      cases closing
    · have notDone := not_done_before_finish (holds.channels ref stream before.present)
        (by simp [stillOpen])
      simp [Delivered, notDone, delivers]
  · have nothing : dispatchedChunk reqID (.dispatch payload) = none := by
      simp [dispatchedChunk, decoded, same]
    cases found : session.streams.lookup id with
    | none => exact unaffected before before.present rfl (fun closing => closing) nothing trivial
    | some target =>
        have different : target ≠ ref := by
          rintro rfl
          obtain ⟨owner, ownerPresent, ownerID⟩ := holds.owned id target found
          obtain rfl := Option.some.inj (before.present.symm.trans ownerPresent)
          exact same (ownerID.symm.trans before.sameID)
        refine unaffected before before.present ?_ ?_ nothing trivial
        · rw [noTransit]
          simp [inTransit, different]
        · intro closing
          cases closing

theorem loop_chunks_append (sends : List SendRecord) (record : SendRecord) :
    loopChunks (sends ++ [record]) =
      loopChunks sends ++ if record.sender = .readLoop then [record.chunk] else [] := by
  by_cases own : record.sender = .readLoop
  · simp [loopChunks, own]
  · simp [loopChunks, own]

theorem send_continues {reqID : RequestID} {ref target : Nat} {labels : List StreamStep}
    {session : Session} {stream other : Stream} {chunk : Chunk}
    (holds : SessionInvariant session) (before : Undisturbed reqID ref labels session stream)
    (sending : session.readLoop = .sending target chunk)
    (present : session.heap[target]? = some other) :
    Continues reqID ref labels session stream .loopSend
      (session.dispatchSend target chunk other) := by
  unfold Session.dispatchSend
  obtain ⟨sent, result⟩ := send_never_panics (holds.channels target other present) .readLoop chunk
  rw [result]
  simp only
  by_cases same : target = ref
  · subst same
    obtain rfl := Option.some.inj (before.present.symm.trans present)
    obtain ⟨ok, sameID, sameClose, sameCaller, sameWatcher, accepted, sends, roomy⟩ :=
      send_ok (holds.channels target stream present) result
    have transit : inTransit session target = [chunk] := by simp [inTransit, sending]
    have arrived : ∀ final : Bool, inTransit { session.setStream target sent with
        readLoop := if final then .closing target else .idle } target = [] := by
      intro final
      cases final <;> rfl
    have sameAnswer := answered_same reqID labels .loopSend rfl
    refine ⟨sent, ⟨ObjectHeap.stored_after_set present, sameID.trans before.sameID,
      by rw [sameCaller]; exact before.caller, ?_, ?_, ?_, ?_, ?_, ?_⟩, ?_⟩
    · rw [arrived, dispatched_concat, ← before.handed, transit, sends, loop_chunks_append]
      simp [dispatchedChunk]
    · intro record member fromWatcher
      rw [sends, List.mem_append, List.mem_singleton] at member
      rcases member with old | rfl
      · exact before.watcherSent record old fromWatcher
      · cases fromWatcher
    · rw [sameWatcher]
      exact before.watcherSends
    · rw [sameAnswer, sameWatcher]
      exact before.silent
    · rw [sameAnswer, sameClose]
      exact before.opened
    · rw [sameAnswer]
      intro unanswered closing
      -- a final chunk in hand is the end of the answer
      by_cases final : chunk.isFinal = true
      · unfold answered at unanswered
        rw [← before.handed, transit] at unanswered
        simp [final] at unanswered
      · simp [final] at closing
    · have roomNow : delivers target session .loopSend ↔
          stream.ch.buffer.length < streamCapacity := by
        simp [delivers, present, sending]
      have inTime : (stream.done = true → [chunk] = []) ↔ stream.done = false := by simp
      unfold Delivered
      rw [arrived, transit, sends, List.forall_mem_append, roomNow, inTime]
      simp only [List.mem_singleton, forall_eq, iff_true, implies_true, and_true, roomy,
        and_assoc]
  · refine unaffected before (ObjectHeap.kept_after_set (Ne.symm same) before.present) ?_ ?_ rfl ?_
    · by_cases final : chunk.isFinal = true <;> simp [inTransit, sending, same, final]
    · by_cases final : chunk.isFinal = true <;> simp [same, final]
    · intro _ found other loop
      rw [sending] at loop
      cases loop
      exact absurd rfl same

theorem target_no_dispatch {label : StreamStep} {ref : Nat} (about : label.target = some ref)
    (reqID : RequestID) : dispatchedChunk reqID label = none ∧ label ≠ .loopSend := by
  cases label <;> simp_all [StreamStep.target, dispatchedChunk]

/-- A stream after a step of its own goroutines, as long as only a complete answer lets them
close it. -/
theorem own_undisturbed {reqID : RequestID} {ref : Nat} {labels : List StreamStep}
    {session : Session} {stream changed : Stream} {label : StreamStep}
    (before : Undisturbed reqID ref labels session stream) (about : label.target = some ref)
    (sameID : changed.reqID = stream.reqID)
    (caller : changed.caller = .sendingPacket ∨ changed.caller = .returned)
    (sameChunks : loopChunks changed.sends = loopChunks stream.sends)
    (watcherSent : ∀ sent ∈ changed.sends, sent.sender = .watcher →
      ∃ cause, sent.chunk = watcherChunk reqID cause)
    (watcherSends : ∀ chunk, changed.watcher = .sending chunk →
      ∃ cause, chunk = watcherChunk reqID cause)
    (silent : answered reqID labels = false →
      (changed.watcher = .absent ∨ changed.watcher = .watching) ∧ changed.closeOnce = .idle) :
    Undisturbed reqID ref (labels ++ [label])
      { session with
        streams := label.listing session.streams stream.reqID
        heap := session.heap.set ref changed } changed := by
  obtain ⟨nothing, -⟩ := target_no_dispatch about reqID
  have sameAnswer := answered_same reqID labels label nothing
  refine ⟨ObjectHeap.stored_after_set before.present, sameID.trans before.sameID, caller, ?_,
    watcherSent, watcherSends, ?_, ?_, ?_⟩
  · rw [sameChunks, dispatched_concat, nothing, ← before.handed]
    simp [inTransit]
  · rw [sameAnswer]
    exact fun unanswered => (silent unanswered).1
  · rw [sameAnswer]
    exact fun unanswered => (silent unanswered).2
  · rw [sameAnswer]
    exact before.unclosing

section OwnSteps

variable {reqID : RequestID} {ref : Nat} {labels : List StreamStep} {session : Session}
  {stream changed : Stream}

theorem own_continues {label : StreamStep} (before : Undisturbed reqID ref labels session stream)
    (about : label.target = some ref) (sameID : changed.reqID = stream.reqID)
    (sameSends : changed.sends = stream.sends) (sameDone : changed.done = stream.done)
    (caller : changed.caller = .sendingPacket ∨ changed.caller = .returned)
    (watcherSends : ∀ chunk, changed.watcher = .sending chunk →
      ∃ cause, chunk = watcherChunk reqID cause)
    (silent : answered reqID labels = false →
      (changed.watcher = .absent ∨ changed.watcher = .watching) ∧ changed.closeOnce = .idle)
    (harmless : delivers ref session label) :
    Continues reqID ref labels session stream label
      { session with
        streams := label.listing session.streams stream.reqID
        heap := session.heap.set ref changed } := by
  refine ⟨changed, own_undisturbed before about sameID caller (by rw [sameSends]) ?_ watcherSends
    silent, ?_⟩
  · rw [sameSends]
    exact before.watcherSent
  · simp [Delivered, sameSends, sameDone, inTransit, harmless]

theorem close_channels_continues (holds : SessionInvariant session)
    (before : Undisturbed reqID ref labels session stream)
    (unlisted : stream.closeOnce = .unlisted) (closed : stream.closeBoth = some changed) :
    Continues reqID ref labels session stream (.closeChannels ref)
      { session with heap := session.heap.set ref changed } := by
  have okay := holds.channels ref stream before.present
  have notDone := not_done_before_finish okay (by simp [unlisted])
  obtain ⟨rfl, -⟩ := close_both_ok okay closed
  refine ⟨_, own_undisturbed before rfl rfl before.caller rfl before.watcherSent
    before.watcherSends ?_, ?_⟩
  · intro unanswered
    have idle := before.opened unanswered
    rw [unlisted] at idle
    cases idle
  · simp [Delivered, delivers, notDone, inTransit]

theorem watcher_send_continues {chunk : Chunk} {sent : Stream} (holds : SessionInvariant session)
    (before : Undisturbed reqID ref labels session stream)
    (sending : stream.watcher = .sending chunk)
    (result : stream.send .watcher chunk = some sent) :
    Continues reqID ref labels session stream (.watcherSend ref)
      { session with heap := session.heap.set ref { sent with watcher := .closing } } := by
  obtain ⟨-, sameID, sameClose, sameCaller, -, accepted, sends, roomy⟩ :=
    send_ok (holds.channels ref stream before.present) result
  have sameDone : sent.done = stream.done := by
    rcases send_cases result with ⟨-, room, rfl⟩ | ⟨-, rfl⟩ <;> rfl
  refine ⟨_, own_undisturbed before rfl sameID (by rw [sameCaller]; exact before.caller) ?_ ?_ ?_
    ?_, ?_⟩
  · rw [sends, loop_chunks_append]
    simp
  · intro record member fromWatcher
    rw [sends, List.mem_append, List.mem_singleton] at member
    rcases member with old | rfl
    · exact before.watcherSent record old fromWatcher
    · exact before.watcherSends chunk sending
  · intro other impossible
    cases impossible
  · intro unanswered
    rcases before.silent unanswered with absent | watching
    · rw [sending] at absent
      cases absent
    · rw [sending] at watching
      cases watching
  · have refused : delivers ref session (.watcherSend ref) ↔ accepted ≠ true := by
      rw [Ne, roomy]
      cases doneIs : stream.done <;> simp [delivers, before.present, doneIs]
    unfold Delivered
    rw [sends, List.forall_mem_append, refused]
    simp only [List.mem_singleton, forall_eq, reduceCtorEq, iff_false, ne_eq, sameDone, inTransit]
    exact and_right_comm

theorem own_step_continues {label : StreamStep} (holds : SessionInvariant session)
    (before : Undisturbed reqID ref labels session stream) (about : label.target = some ref)
    (calm : quiet ref (answered reqID labels) label = true)
    (moved : streamStep (session.readLoop = .closing ref) stream label = some (some changed)) :
    Continues reqID ref labels session stream label
      { session with
        streams := label.listing session.streams stream.reqID
        heap := session.heap.set ref changed } := by
  have notCalling : stream.caller ≠ .closing := by
    rcases before.caller with same | same <;> simp [same]
  have silent : answered reqID labels = false →
      (stream.watcher = .absent ∨ stream.watcher = .watching) ∧ stream.closeOnce = .idle :=
    fun unanswered => ⟨before.silent unanswered, before.opened unanswered⟩
  have notEnding : answered reqID labels = false → stream.watcher ≠ .closing := by
    intro unanswered
    rcases before.silent unanswered with same | same <;> simp [same]
  cases stream_step_case moved with
  | written target sending same =>
      obtain rfl := Option.some.inj about
      subst same
      exact own_continues before rfl rfl rfl rfl (.inr rfl) (by simp)
        (fun unanswered => ⟨.inr rfl, before.opened unanswered⟩) trivial
  | unwritten target sending same =>
      obtain rfl := Option.some.inj about
      simp [quiet] at calm
  | gaveUp target calling finished same => exact absurd calling notCalling
  | entered target idle waits same =>
      subst same
      refine own_continues before about rfl rfl rfl before.caller before.watcherSends ?_ trivial
      intro unanswered
      rcases waits with waits | calls | ends
      · exact absurd (by simpa using waits) (before.unclosing unanswered)
      · exact absurd calls notCalling
      · exact absurd ends (notEnding unanswered)
  | unlisted target entered same =>
      subst same
      refine own_continues before about rfl rfl rfl before.caller before.watcherSends ?_ trivial
      intro unanswered
      have idle := before.opened unanswered
      rw [entered] at idle
      cases idle
  | closed target unlisted closes =>
      obtain rfl := Option.some.inj about
      exact close_channels_continues holds before unlisted closes
  | fired target cause watching same =>
      obtain rfl := Option.some.inj about
      subst same
      have complete : answered reqID labels = true := by simpa [quiet] using calm
      refine own_continues before rfl rfl rfl rfl before.caller ?_ ?_ trivial
      · rintro chunk ⟨rfl⟩
        exact ⟨cause, by rw [before.sameID]⟩
      · rw [complete]
        intro impossible
        cases impossible
  | sent target chunk after sending result same =>
      obtain rfl := Option.some.inj about
      subst same
      exact watcher_send_continues holds before sending result
  | ended target ending finished same =>
      subst same
      refine own_continues before about rfl rfl rfl before.caller (by simp) ?_ trivial
      intro unanswered
      exact absurd ending (notEnding unanswered)
  | took target chunk channel taken same =>
      subst same
      exact own_continues before about rfl rfl rfl before.caller before.watcherSends silent trivial
  | drained target channel taken same =>
      subst same
      exact own_continues before about rfl rfl rfl before.caller before.watcherSends silent trivial

end OwnSteps

theorem other_target_delivers {ref target : Nat} {label : StreamStep} (session : Session)
    (about : label.target = some target) (other : target ≠ ref) : delivers ref session label := by
  cases label with
  | watcherSend named =>
      obtain rfl := Option.some.inj about
      exact fun same => absurd same other
  | closeChannels named =>
      obtain rfl := Option.some.inj about
      exact fun same => absurd same other
  | loopSend => cases about
  | _ => trivial

theorem undisturbed_step {reqID : RequestID} {ref : Nat} {labels : List StreamStep}
    {session next : Session} {stream : Stream} {label : StreamStep}
    (holds : SessionInvariant session) (before : Undisturbed reqID ref labels session stream)
    (taken : step session label = some next)
    (calm : quiet ref (answered reqID labels) label = true)
    (shape : OneFinal (dispatchedFor reqID (labels ++ [label]))) :
    Continues reqID ref labels session stream label next := by
  cases step_case session next label taken with
  | rejected ready installed model other same =>
      subst same
      exact unaffected before before.present rfl id rfl trivial
  | started ready installed model other fresh same =>
      subst same
      exact unaffected before (ObjectHeap.kept_after_allocation before.present) rfl id rfl trivial
  | dispatched payload free same =>
      subst same
      exact dispatch_continues payload holds before free shape
  | handed target chunk other sending present same =>
      subst same
      exact send_continues holds before sending present
  | returned target other waiting present finished same =>
      subst same
      refine unaffected before before.present ?_ ?_ rfl trivial
      · simp [inTransit, waiting]
      · intro closing
        cases closing
  | moved label target other about present applied =>
      obtain ⟨nothing, -⟩ := target_no_dispatch about reqID
      rcases apply_stream_cases applied with ⟨panics, -⟩ | ⟨changed, moved, rfl⟩
      · exact absurd panics (stream_never_panics (holds.channels target other present))
      by_cases own : target = ref
      · subst own
        obtain rfl := Option.some.inj (before.present.symm.trans present)
        exact own_step_continues holds before about calm moved
      · exact unaffected before (ObjectHeap.kept_after_set (Ne.symm own) before.present) rfl
          id nothing (other_target_delivers session about own)

theorem undisturbed_run (reqID : RequestID) (ref : Nat) (start : Session)
    (holds : SessionInvariant start) (begun : Undisturbed reqID ref [] start (newStream reqID))
    (labels : List StreamStep) (session : Session)
    (reached : runFrom step start labels = some session) (calm : Calm reqID ref labels)
    (shape : OneFinal (dispatchedFor reqID labels)) :
    SessionInvariant session ∧ ∃ stream, Undisturbed reqID ref labels session stream ∧
      (Delivered session ref stream ↔ EveryStep step (delivers ref) start labels) := by
  refine run_induction step start (fun labels session =>
    Calm reqID ref labels → OneFinal (dispatchedFor reqID labels) →
      SessionInvariant session ∧ ∃ stream, Undisturbed reqID ref labels session stream ∧
        (Delivered session ref stream ↔ EveryStep step (delivers ref) start labels))
    ?_ ?_ labels session reached calm shape
  · intro _ _
    refine ⟨holds, newStream reqID, begun, ?_⟩
    simp [Delivered, newStream, EveryStep]
  · intro labels session label next reachedSession ih taken calmAll shapeAll
    have shapeBefore : OneFinal (dispatchedFor reqID labels) := by
      rw [dispatched_concat] at shapeAll
      exact one_final_shorter _ _ shapeAll
    obtain ⟨holdsSession, stream, before, sofar⟩ := ih (calm_before calmAll) shapeBefore
    obtain ⟨later, after, delivered⟩ := undisturbed_step holdsSession before taken
      (calmAll labels label [] rfl) shapeAll
    refine ⟨step_invariant session next label holdsSession taken, later, after, ?_⟩
    rw [every_step_concat step (delivers ref) start labels label session reachedSession, ← sofar]
    exact delivered

/-- Any number of parts and then the final chunk. -/
def CompleteAnswer (chunks : List Chunk) : Prop :=
  ∃ parts last, chunks = parts ++ [last] ∧ last.isFinal = true ∧
    ∀ part ∈ parts, part.isFinal = false

theorem complete_one_final {chunks : List Chunk} (complete : CompleteAnswer chunks) :
    OneFinal chunks := by
  obtain ⟨parts, last, rfl, -, unfinished⟩ := complete
  intro chunk member
  rw [List.dropLast_concat] at member
  exact unfinished chunk member

theorem started_undisturbed (earlier start : Session) (model : GoString) (reqID : RequestID)
    (inside : LoopInHeap earlier) (named : model ≠ [])
    (begun : step earlier (.runQuery true true model reqID) = some start) :
    Undisturbed reqID earlier.heap.length [] start (newStream reqID) := by
  simp only [step] at begun
  split_ifs at begun with broken known
  simp only [Session.runQuery, Bool.not_true, Bool.false_eq_true, if_false, if_neg named] at begun
  obtain rfl := Option.some.inj begun
  refine ⟨by simp, rfl, .inl rfl, ?_, by simp [newStream], by simp [newStream],
    fun _ => .inl rfl, fun _ => rfl, ?_⟩
  · cases loop : earlier.readLoop with
    | idle => simp [newStream, loopChunks, dispatchedFor, inTransit]
    | closing ref => simp [newStream, loopChunks, dispatchedFor, inTransit]
    | sending ref chunk =>
        have old := inside.sending ref chunk loop
        simp [newStream, loopChunks, dispatchedFor, inTransit, Nat.ne_of_lt old]
  · intro _ closing
    have old := inside.closing _ closing
    omega

theorem reachable_invariant (labels : List StreamStep) (session : Session)
    (reached : runFrom step newSession labels = some session) :
    SessionInvariant session ∧ LoopInHeap session :=
  run_invariant step newSession (fun session => SessionInvariant session ∧ LoopInHeap session)
    ⟨new_session_invariant, new_session_loop⟩
    (fun session label next holds taken =>
      ⟨step_invariant session next label holds.1 taken,
        step_loop_in_heap session next label holds.1 holds.2 taken⟩)
    labels session reached

theorem dispatched_from_proxy {reqID : RequestID} {labels : List StreamStep} {chunk : Chunk}
    (member : chunk ∈ dispatchedFor reqID labels) : FromProxy chunk := by
  obtain ⟨label, -, carries⟩ := List.mem_filterMap.mp member
  cases label with
  | dispatch payload =>
      simp only [dispatchedChunk] at carries
      split at carries
      · next found id decoded =>
          split_ifs at carries
          obtain rfl := Option.some.inj carries
          exact decoded_from_proxy decoded
      · cases carries
  | _ => cases carries

theorem watcher_chunk_foreign (reqID : RequestID) (cause : WatcherCause) :
    ¬ FromProxy (watcherChunk reqID cause) := by
  rintro (none | ⟨code, message, carried⟩)
  · cases none
  · cases cause <;> cases carried

theorem accepted_exactly {sends : List SendRecord} {late : List Chunk}
    (loopOnly : ∀ sent ∈ sends, sent.accepted = true → sent.sender = .readLoop)
    (same : acceptedChunks sends = loopChunks sends ++ late) :
    late = [] ∧ ∀ sent ∈ sends, sent.accepted = true ↔ sent.sender = .readLoop := by
  have inside : (sends.filter (·.accepted)).Sublist (sends.filter (·.sender = .readLoop)) := by
    have twice : sends.filter (·.accepted) =
        (sends.filter (·.sender = .readLoop)).filter (·.accepted) := by
      rw [List.filter_filter]
      apply List.filter_congr
      intro sent member
      cases taken : sent.accepted with
      | false => rfl
      | true => simp [loopOnly sent member taken]
    rw [twice]
    exact List.filter_sublist
  have sizes := congrArg List.length same
  simp only [acceptedChunks, loopChunks, List.length_append, List.length_map] at sizes
  have bound := inside.length_le
  have equal := inside.eq_of_length (by omega)
  refine ⟨List.length_eq_zero_iff.mp (by omega), ?_⟩
  intro sent member
  refine ⟨loopOnly sent member, ?_⟩
  intro own
  have kept : sent ∈ sends.filter (·.accepted) := by
    rw [equal]
    exact List.mem_filter.mpr ⟨member, by simpa using own⟩
  exact (List.mem_filter.mp kept).2

/-- A consumer that has drained its channel got the whole answer and nothing else exactly when
only the read loop's chunks were accepted, and all of them. -/
theorem drained_received {reqID : RequestID} {ref : Nat} {labels : List StreamStep}
    {session : Session} {stream : Stream} (holds : SessionInvariant session)
    (undisturbed : Undisturbed reqID ref labels session stream)
    (ended : stream.drained = true) :
    stream.received = dispatchedFor reqID labels ↔ Delivered session ref stream := by
  have ok := holds.channels ref stream undisturbed.present
  obtain ⟨doneSet, empty⟩ := ok.drained ended
  have received := ok.accounted
  rw [empty, List.append_nil] at received
  constructor
  · intro same
    have loopOnly : ∀ sent ∈ stream.sends, sent.accepted = true → sent.sender = .readLoop := by
      intro sent member accepted
      cases sender : sent.sender with
      | readLoop => rfl
      | watcher =>
          obtain ⟨cause, own⟩ := undisturbed.watcherSent sent member sender
          have got : sent.chunk ∈ dispatchedFor reqID labels := by
            rw [← same, received]
            exact List.mem_map_of_mem (List.mem_filter.mpr ⟨member, accepted⟩)
          rw [own] at got
          exact absurd (dispatched_from_proxy got) (watcher_chunk_foreign reqID cause)
    rw [received, ← undisturbed.handed] at same
    obtain ⟨arrived, exactly⟩ := accepted_exactly loopOnly same
    exact ⟨exactly, fun _ => arrived⟩
  · rintro ⟨exactly, inTime⟩
    have kept : stream.sends.filter (·.accepted) =
        stream.sends.filter (·.sender = .readLoop) := by
      apply List.filter_congr
      intro sent member
      rw [Bool.eq_iff_iff, exactly sent member, decide_eq_true_iff]
    rw [← undisturbed.handed, inTime doneSet, List.append_nil, received, acceptedChunks, kept,
      loopChunks]

/-- The answer of a request that is not cancelled, timed out or cut off before its final packet
reaches its consumer whole, in order and with nothing added exactly when no step of the run
loses or adds a chunk. -/
theorem answer_received_iff_delivered (before after : List StreamStep) (model : GoString)
    (reqID : RequestID) (earlier start session : Session) (stream : Stream)
    (prepared : runFrom step newSession before = some earlier) (named : model ≠ [])
    (begun : step earlier (.runQuery true true model reqID) = some start)
    (reached : runFrom step start after = some session)
    (calm : Calm reqID earlier.heap.length after)
    (complete : CompleteAnswer (dispatchedFor reqID after))
    (present : session.heap[earlier.heap.length]? = some stream)
    (ended : stream.drained = true) :
    stream.received = dispatchedFor reqID after ↔
      EveryStep step (delivers earlier.heap.length) start after := by
  obtain ⟨holdsEarlier, inside⟩ := reachable_invariant before earlier prepared
  obtain ⟨holds, found, undisturbed, delivered⟩ := undisturbed_run reqID earlier.heap.length start
    (step_invariant earlier start _ holdsEarlier begun)
    (started_undisturbed earlier start model reqID inside named begun) after session reached calm
    (complete_one_final complete)
  obtain rfl := Option.some.inj (present.symm.trans undisturbed.present)
  rw [← delivered]
  exact drained_received holds undisturbed ended

def answerPart (body : List Byte) (isCompleted : Bool) (reqID : RequestID) : List Byte :=
  (TokensUsed.zero.encode ((((newWriter.writeUint32 idClientQueryAnswerPart).writeBytes
    body).writeBool isCompleted).writeInt256 reqID)).buf

def zeroID : RequestID := ⟨List.replicate 32 0, rfl⟩

/-- The proxy answers in parts and the consumer receives only after the last of them. -/
def lateConsumerRun (parts : Nat) : List StreamStep :=
  [.sendPacket 0 true] ++
    (List.replicate parts [.dispatch (answerPart [1] false zeroID), .loopSend]).flatten ++
    [.dispatch (answerPart [2] true zeroID), .loopSend, .closeEnter 0, .closeDelete 0,
      .closeChannels 0, .loopReturns] ++
    List.replicate (min (parts + 1) 16 + 1) (.receive 0)

def lateConsumerStream (parts : Nat) : Option Stream := do
  let start ← step newSession (.runQuery true true (ascii "m") zeroID)
  let session ← runFrom step start (lateConsumerRun parts)
  session.heap[0]?

theorem late_consumer_stream {parts : Nat} {stream : Stream}
    (found : lateConsumerStream parts = some stream) :
    ∃ start session, step newSession (.runQuery true true (ascii "m") zeroID) = some start ∧
      runFrom step start (lateConsumerRun parts) = some session ∧
      session.heap[0]? = some stream := by
  simp only [lateConsumerStream, Option.bind_eq_bind, Option.bind_eq_some_iff] at found
  obtain ⟨start, begun, session, reached, present⟩ := found
  exact ⟨start, session, begun, reached, present⟩

def partChunk : Chunk := { bytes := [1], isFinal := false, requestID := zeroID }

def lastChunk : Chunk := { bytes := [2], isFinal := true, requestID := zeroID }

theorem two_chunks_received :
    ∃ start session stream,
      step newSession (.runQuery true true (ascii "m") zeroID) = some start ∧
      runFrom step start (lateConsumerRun 1) = some session ∧
      session.heap[0]? = some stream ∧ stream.received = [partChunk, lastChunk] ∧
      EveryStep step (delivers 0) start (lateConsumerRun 1) := by
  have outcome : (lateConsumerStream 1).map (fun stream => (stream.drained, stream.received)) =
      some (true, [partChunk, lastChunk]) := by decide +kernel
  obtain ⟨stream, found, same⟩ := Option.map_eq_some_iff.mp outcome
  obtain ⟨ended, received⟩ := Prod.mk.inj same
  obtain ⟨start, session, begun, reached, present⟩ := late_consumer_stream found
  have answer : dispatchedFor zeroID (lateConsumerRun 1) = [partChunk, lastChunk] := by
    decide +kernel
  refine ⟨start, session, stream, begun, reached, present, received, ?_⟩
  refine (answer_received_iff_delivered [] (lateConsumerRun 1) (ascii "m") zeroID newSession start
    session stream rfl (by decide) begun reached (calm_of_quiet (by decide +kernel)) ?_ present
    ended).mp ?_
  · exact ⟨[partChunk], lastChunk, answer, rfl, by simp [partChunk]⟩
  · rw [received, answer]

/-- Sixteen parts fill the channel, the final chunk is dropped and the channel is closed. -/
theorem seventeenth_chunk_lost :
    ∃ start session stream,
      step newSession (.runQuery true true (ascii "m") zeroID) = some start ∧
      runFrom step start (lateConsumerRun 16) = some session ∧
      Calm zeroID 0 (lateConsumerRun 16) ∧
      CompleteAnswer (dispatchedFor zeroID (lateConsumerRun 16)) ∧
      session.heap[0]? = some stream ∧ stream.drained = true ∧
      stream.received ≠ dispatchedFor zeroID (lateConsumerRun 16) := by
  have outcome : (lateConsumerStream 16).map (fun stream => (stream.drained, stream.received)) =
      some (true, List.replicate 16 partChunk) := by decide +kernel
  obtain ⟨stream, found, same⟩ := Option.map_eq_some_iff.mp outcome
  obtain ⟨ended, received⟩ := Prod.mk.inj same
  obtain ⟨start, session, begun, reached, present⟩ := late_consumer_stream found
  have answer : dispatchedFor zeroID (lateConsumerRun 16) =
      List.replicate 16 partChunk ++ [lastChunk] := by decide +kernel
  refine ⟨start, session, stream, begun, reached, calm_of_quiet (by decide +kernel), ?_, present,
    ended, ?_⟩
  · exact ⟨_, _, answer, rfl, fun part member => by rw [List.eq_of_mem_replicate member]; rfl⟩
  · rw [received, answer]
    intro equal
    have sizes := congrArg List.length equal
    simp at sizes

end Gocoon.InferenceStreamDelivery
