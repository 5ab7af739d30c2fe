import Gocoon.RemoteCalls
import Gocoon.ReaderSafety

/-!
# Calls and their registrations

A step of the system is at most one step of the correlator, so what the correlator keeps is kept
here. On top of it a call in progress is the only receiver on its two channels: what was sent to
them is still there.
-/

namespace Gocoon.RemoteCallLinks

open Gocoon.LittleEndianBytes
open Gocoon.GoProgram
open Gocoon.BufferedChannel
open Gocoon.CocoonErrors
open Gocoon.TlTcpPacket
open Gocoon.QueryCorrelator
open Gocoon.QueryResolutionHistory
open Gocoon.ProxyHandshake (TransportState AwaitCase)
open Gocoon.RemoteCalls
open Gocoon.TransitionRuns

set_option autoImplicit false

section Channels

def answersOf : List Resolution → List (List Byte) :=
  List.filterMap fun
    | .answer payload => some payload
    | .error _ => none

def errorsOf : List Resolution → List CocoonError :=
  List.filterMap fun
    | .answer _ => none
    | .error err => some err

/-- Nothing that was sent to the two channels has been received. -/
def Held (cell : Registration) : Prop :=
  cell.query.answer.buffer = answersOf cell.sent ∧ cell.query.err.buffer = errorsOf cell.sent

def HeldAt (world : Correlations) (ref : Nat) : Prop :=
  ∀ cell, world.heap[ref]? = some cell → Held cell

theorem held_new (id : QueryID) (deadline : Int) : Held (newRegistration id deadline) := ⟨rfl, rfl⟩

theorem try_send_held {cell later : Registration} {value : Resolution} (held : Held cell)
    (sent : cell.trySend value = some later) : Held later := by
  obtain ⟨answers, errors⟩ := held
  cases value
  all_goals
    simp only [Registration.trySend, Channel.trySend] at sent
    split_ifs at sent with shut room
    · obtain rfl := Option.some.inj sent
      simp [Held, Channel.push, answersOf, errorsOf, answers, errors]
    · obtain rfl := Option.some.inj sent
      exact ⟨answers, errors⟩

theorem register_held {world : Correlations} {ref : Nat} (held : HeldAt world ref) (id : QueryID)
    (now timeout : Int) : HeldAt (register world id now timeout).2 ref := by
  unfold register
  split_ifs
  · exact held
  · exact held
  · intro cell present
    rcases ObjectHeap.allocated present with old | ⟨-, rfl⟩
    · exact held cell old
    · exact held_new id _

theorem take_held {world : Correlations} {ref : Nat} (held : HeldAt world ref) (id : QueryID)
    (value : Resolution) : HeldAt (take world id value).2 ref := by
  unfold take
  split
  · exact held
  · intro cell present
    obtain ⟨before, old, ⟨-, rfl⟩ | ⟨-, rfl⟩⟩ := ObjectHeap.modified present
    · exact held before old
    · exact held cell old

theorem send_held {world next : Correlations} {ref other position : Nat} (held : HeldAt world ref)
    (sent : send world other position = some next) : HeldAt next ref := by
  simp only [send, Option.bind_eq_bind] at sent
  obtain ⟨cell, present, rest⟩ := Option.bind_eq_some_iff.mp sent
  obtain ⟨value, -, rest⟩ := Option.bind_eq_some_iff.mp rest
  obtain ⟨later, tried, same⟩ := Option.bind_eq_some_iff.mp rest
  obtain rfl := Option.some.inj same
  intro found stored
  rcases ObjectHeap.overwritten stored with ⟨rfl, rfl⟩ | ⟨-, old⟩
  · have ready : Held { cell with inFlight := cell.inFlight.eraseIdx position } := held cell present
    exact try_send_held ready tried
  · exact held found old

theorem fail_all_held {world : Correlations} {ref : Nat} (holds : Consistent world)
    (held : HeldAt world ref) (err : CocoonError) : HeldAt (failAll world err) ref := by
  intro later present
  obtain ⟨cell, old, rfl⟩ := fail_all_cell_sound world err holds ref later present
  split_ifs
  · exact held cell old
  · exact held cell old

theorem gc_entry_held {now : Int} {state next : Nat × Correlations} {entry : PendingEntry}
    {ref : Nat} (held : HeldAt state.2 ref) (round : gcEntry now state entry = some next) :
    HeldAt next.2 ref := by
  simp only [gcEntry, Option.bind_eq_bind] at round
  obtain ⟨cell, -, rest⟩ := Option.bind_eq_some_iff.mp round
  split_ifs at rest
  · obtain ⟨sent, tried, same⟩ := Option.bind_eq_some_iff.mp rest
    obtain rfl := Option.some.inj same
    exact send_held (take_held held _ _) tried
  · obtain rfl := Option.some.inj rest
    exact held

theorem gc_held {world next : Correlations} {now : Int} {count ref : Nat}
    (held : HeldAt world ref) (collected : gcExpired world now = some (count, next)) :
    HeldAt next ref := by
  unfold gcExpired at collected
  split_ifs at collected
  · obtain ⟨-, rfl⟩ := Prod.mk.inj (Option.some.inj collected)
    exact held
  · have loop : ∀ (todo : List PendingEntry) (state last : Nat × Correlations),
        HeldAt state.2 ref → todo.foldlM (gcEntry now) state = some last → HeldAt last.2 ref := by
      intro todo
      induction todo with
      | nil =>
          intro state last holds same
          obtain rfl := Option.some.inj same
          exact holds
      | cons entry rest ih =>
          intro state last holds ran
          rw [List.foldlM_cons] at ran
          obtain ⟨middle, round, later⟩ := Option.bind_eq_some_iff.mp ran
          exact ih middle last (gc_entry_held holds round) later
    exact loop _ _ _ held collected

theorem held_elsewhere {world : Correlations} {ref other : Nat} (held : HeldAt world ref)
    (different : ref ≠ other) (changed : Registration) :
    HeldAt { world with heap := world.heap.set other changed } ref := by
  intro cell present
  rw [List.getElem?_set_ne different.symm] at present
  exact held cell present

/-- Only a receive at `ref` takes something out of its channels. -/
theorem held_step {world next : Correlations} {action : CorrelatorStep} {ref : Nat}
    (holds : Consistent world) (held : HeldAt world ref)
    (taken : QueryCorrelator.step world action = some next)
    (noAnswer : action ≠ .receiveAnswer ref) (noErr : action ≠ .receiveErr ref) :
    HeldAt next ref := by
  cases action with
  | register id now timeout =>
      obtain rfl := Option.some.inj taken
      exact register_held held id now timeout
  | deliver id payload =>
      obtain rfl := Option.some.inj taken
      exact take_held held id _
  | fail id err =>
      obtain rfl := Option.some.inj taken
      exact take_held held id _
  | failAll err =>
      obtain rfl := Option.some.inj taken
      exact fail_all_held holds held err
  | gcExpired now =>
      obtain ⟨⟨count, reached⟩, collected, rfl⟩ := Option.map_eq_some_iff.mp taken
      exact gc_held held collected
  | send other position => exact send_held held taken
  | receiveAnswer other =>
      obtain ⟨⟨payload, reached⟩, received, rfl⟩ := Option.map_eq_some_iff.mp taken
      obtain ⟨owner, -, rest⟩ := Option.bind_eq_some_iff.mp received
      split at rest
      · obtain ⟨-, rfl⟩ := Prod.mk.inj (Option.some.inj rest)
        exact held_elsewhere held (fun same => noAnswer (same ▸ rfl)) _
      · cases rest
  | receiveErr other =>
      obtain ⟨⟨err, reached⟩, received, rfl⟩ := Option.map_eq_some_iff.mp taken
      obtain ⟨owner, -, rest⟩ := Option.bind_eq_some_iff.mp received
      split at rest
      · obtain ⟨-, rfl⟩ := Prod.mk.inj (Option.some.inj rest)
        exact held_elsewhere held (fun same => noErr (same ▸ rfl)) _
      · cases rest

end Channels

section Linked

def Running (call : Call) : Prop := ∀ outcome, call.phase ≠ .returned outcome

/-- A call in progress has its registration to itself and finds there whatever was sent to it. -/
structure Linked (state : Calls) : Prop where
  consistent : Consistent state.world
  unbroken : state.panicked = false
  shut : ∀ err, state.transport = .failed err ∨ state.transport = .closed err →
    state.world.corr.closed = true
  registered : ∀ (position : Nat) call ref, state.calls[position]? = some call →
    call.query = some ref → ∃ cell, state.world.heap[ref]? = some cell ∧ cell.id = call.id ∧
      cell.query.deadline = call.deadline
  apart : ∀ (left right : Nat) first second ref, state.calls[left]? = some first →
    state.calls[right]? = some second → first.query = some ref → second.query = some ref →
    left = right
  held : ∀ (position : Nat) call ref, state.calls[position]? = some call →
    call.query = some ref → Running call → HeldAt state.world ref
  live : ∀ (position : Nat) call, state.calls[position]? = some call →
    Running call → ∃ ref, call.query = some ref

theorem new_calls_linked : Linked newCalls where
  consistent := new_correlator_consistent
  unbroken := rfl
  shut := by
    rintro err (failed | closed)
    · cases failed
    · cases closed
  registered := by intro position call ref present; simp [newCalls] at present
  apart := by intro left right first second ref present; simp [newCalls] at present
  held := by intro position call ref present; simp [newCalls] at present
  live := by intro position call present; simp [newCalls] at present

theorem phase_origin {state : Calls} {position other : Nat} {phase : CallPhase} {call : Call}
    (present : (state.setPhase position phase).calls[other]? = some call) :
    ∃ before, state.calls[other]? = some before ∧
      (position = other ∧ call = { before with phase := phase } ∨
        position ≠ other ∧ call = before) :=
  ObjectHeap.modified present

theorem phase_query {state : Calls} {position other : Nat} {phase : CallPhase} {call : Call}
    (present : (state.setPhase position phase).calls[other]? = some call) :
    ∃ before, state.calls[other]? = some before ∧ call.query = before.query ∧
      call.id = before.id ∧ call.since = before.since ∧ call.deadline = before.deadline ∧
      call.request = before.request := by
  obtain ⟨before, old, ⟨-, rfl⟩ | ⟨-, rfl⟩⟩ := phase_origin present
  · exact ⟨before, old, rfl, rfl, rfl, rfl, rfl⟩
  · exact ⟨call, old, rfl, rfl, rfl, rfl, rfl⟩

theorem Linked.moved {state : Calls} (linked : Linked state) {position : Nat} {call : Call}
    (present : state.calls[position]? = some call)
    (running : Running call) (phase : CallPhase) :
    Linked (state.setPhase position phase) where
  consistent := linked.consistent
  unbroken := linked.unbroken
  shut := linked.shut
  registered := by
    intro other found ref foundPresent query
    obtain ⟨before, old, sameQuery, sameId, -, sameDeadline, -⟩ := phase_query foundPresent
    obtain ⟨cell, stored, id, deadline⟩ :=
      linked.registered other before ref old (sameQuery ▸ query)
    exact ⟨cell, stored, id.trans sameId.symm, deadline.trans sameDeadline.symm⟩
  apart := by
    intro left right first second ref leftPresent rightPresent leftQuery rightQuery
    obtain ⟨before, old, same, -⟩ := phase_query leftPresent
    obtain ⟨other, otherOld, otherSame, -⟩ := phase_query rightPresent
    exact linked.apart left right before other ref old otherOld (same ▸ leftQuery)
      (otherSame ▸ rightQuery)
  held := by
    intro other found ref foundPresent query active
    obtain ⟨before, old, ⟨rfl, rfl⟩ | ⟨-, rfl⟩⟩ := phase_origin foundPresent
    · obtain rfl := Option.some.inj (present.symm.trans old)
      exact linked.held position call ref present query running
    · exact linked.held other found ref old query active
  live := by
    intro other found foundPresent active
    obtain ⟨before, old, ⟨rfl, rfl⟩ | ⟨-, rfl⟩⟩ := phase_origin foundPresent
    · obtain rfl := Option.some.inj (present.symm.trans old)
      exact linked.live position call present running
    · exact linked.live other found old active

theorem Linked.world {state : Calls} (linked : Linked state) {action : CorrelatorStep}
    {next : Correlations} (taken : QueryCorrelator.step state.world action = some next)
    (elsewhere : ∀ (position : Nat) call ref, state.calls[position]? = some call →
      call.query = some ref → Running call →
      action ≠ .receiveAnswer ref ∧ action ≠ .receiveErr ref) :
    Linked { state with world := next } := by
  have effect := step_effect state.world next action linked.consistent taken
  constructor
  · exact effect.consistent
  · exact linked.unbroken
  · intro err ended
    exact effect.closed (.inl (linked.shut err ended))
  · intro position call ref present query
    obtain ⟨cell, stored, id, deadline⟩ := linked.registered position call ref present query
    obtain ⟨later, laterStored, same, -⟩ := effect.evolves.kept ref cell stored
    exact ⟨later, laterStored, same.id.trans id, same.deadline.trans deadline⟩
  · exact linked.apart
  · intro position call ref present query active
    obtain ⟨noAnswer, noErr⟩ := elsewhere position call ref present query active
    exact held_step linked.consistent (linked.held position call ref present query active) taken
      noAnswer noErr
  · exact linked.live

end Linked

section Effects

theorem decode_packet_sound (payload : List Byte) : decodeTCPPacket payload ≠ .error .panicked :=
  ReaderSafety.confined_tcp_packet.no_panic payload

theorem mapped_sound {Value Result : Type} {outcome : Except (Fault CocoonError) Value}
    (wrap : Value → Result) (sound : outcome ≠ .error .panicked) :
    outcome.map wrap ≠ .error .panicked := by
  cases outcome with
  | ok value => simp [Except.map]
  | error fault => simpa [Except.map] using sound

theorem decode_reply_sound (request : Request) (answer : List Byte) :
    request.decode answer ≠ .error .panicked := by
  cases request with
  | paymentStatus => exact mapped_sound _ (ReaderSafety.confined_payment_status.no_panic answer)
  | workerTypes => exact mapped_sound _ (ReaderSafety.confined_worker_types.no_panic answer)

def receivedFrames : List CallStep → List (List Byte) :=
  List.filterMap fun
    | .recvFrame payload _ => some payload
    | _ => none

/-- What one step does, and the frame it has received. -/
inductive Effect (state : Calls) : List (List Byte) → Calls → Prop where
  | started (request : Request) (id : QueryID) (now : Int) :
      Effect state [] (state.start request id now)
  | moved (position : Nat) (call : Call) (phase : CallPhase) (written : List (List Byte))
      (present : state.calls[position]? = some call) (running : Running call)
      (noReply : ∀ reply, phase ≠ .returned (.ok reply)) :
      Effect state [] ({ state with written := written }.setPhase position phase)
  | unsent (position : Nat) (call : Call) (error : CocoonError)
      (present : state.calls[position]? = some call) (running : Running call) :
      Effect state [] ({ state with world := (fail state.world call.id error).2 }.finish position
        (.error error))
  | answered (position : Nat) (call : Call) (ref : Nat) (answer : List Byte)
      (world : Correlations) (outcome : Except CocoonError Reply)
      (present : state.calls[position]? = some call) (running : Running call)
      (query : call.query = some ref)
      (received : receiveAnswer state.world ref = some (answer, world))
      (agrees : ∀ reply, outcome = .ok reply → call.request.decode answer = .ok reply) :
      Effect state [] ({ state with world := world }.finish position outcome)
  | failed (position : Nat) (call : Call) (ref : Nat) (error : CocoonError) (world : Correlations)
      (present : state.calls[position]? = some call) (running : Running call)
      (query : call.query = some ref)
      (received : receiveErr state.world ref = some (error, world)) :
      Effect state [] ({ state with world := world }.finish position (.error error))
  | resolved (payload : List Byte) (packet : DecodedTCPPacket) (id : QueryID) (value : Resolution)
      (decoded : decodeTCPPacket payload = .ok packet)
      (resolves : resolutionOf packet = some (id, value)) :
      Effect state [payload] { state with
        frames := state.frames ++ [payload], world := (take state.world id value).2 }
  | ignored (payload : List Byte) (written : List (List Byte)) :
      Effect state [payload] { state with frames := state.frames ++ [payload], written := written }
  | internal (action : CorrelatorStep) (world : Correlations)
      (taken : QueryCorrelator.step state.world action = some world)
      (kind : (∃ ref position, action = .send ref position) ∨ ∃ now, action = .gcExpired now) :
      Effect state [] { state with world := world }
  | closing (err : CocoonError) : Effect state [] { state with transport := .closing err }
  | failing (err : CocoonError) :
      Effect state [] { state with transport := .failed err, world := failAll state.world err }
  | closed (err : CocoonError) (failed : state.transport = .failed err) :
      Effect state [] { state with transport := .closed err }

theorem start_frames (state : Calls) (request : Request) (id : QueryID) (now : Int) :
    (state.start request id now).frames = state.frames := by
  unfold Calls.start
  rcases register state.world id now request.timeout with ⟨error | ref, world⟩ <;> rfl

theorem Effect.frames {state next : Calls} {received : List (List Byte)}
    (effect : Effect state received next) : next.frames = state.frames ++ received := by
  cases effect with
  | started request id now => rw [start_frames, List.append_nil]
  | resolved | ignored => rfl
  | _ => exact (List.append_nil _).symm

theorem dispatch_effect (state : Calls) (payload : List Byte) (pongWritten : Bool) :
    Effect state [payload] (state.dispatch payload pongWritten) := by
  unfold Calls.dispatch
  cases decoded : decodeTCPPacket payload with
  | error fault =>
      cases fault with
      | panicked => exact absurd decoded (decode_packet_sound payload)
      | returned error => exact .ignored payload state.written
  | ok packet =>
      simp only
      cases resolves : resolutionOf packet with
      | none =>
          simp only
          split_ifs
          · exact .ignored payload _
          · exact .ignored payload state.written
      | some resolved => exact .resolved payload packet _ _ decoded resolves

theorem select_effect {state next : Calls} {position ref : Nat} {call : Call} {taken : AwaitCase}
    (present : state.calls[position]? = some call) (running : Running call)
    (query : call.query = some ref) (selected : state.select position call ref taken = some next) :
    Effect state [] next := by
  cases taken with
  | contextDone =>
      obtain rfl := Option.some.inj selected
      exact .moved position call _ state.written present running (by simp)
  | transportClosed =>
      simp only [Calls.select] at selected
      split at selected
      · obtain rfl := Option.some.inj selected
        exact .moved position call _ state.written present running (by simp)
      · cases selected
  | timeout =>
      simp only [Calls.select] at selected
      split_ifs at selected
      obtain rfl := Option.some.inj selected
      exact .moved position call _ state.written present running (by simp)
  | answer =>
      obtain ⟨⟨answer, world⟩, received, rfl⟩ := Option.map_eq_some_iff.mp selected
      simp only [Calls.answered]
      cases decoded : call.request.decode answer with
      | error fault =>
          cases fault with
          | panicked => exact absurd decoded (decode_reply_sound _ _)
          | returned error =>
              exact .answered position call ref answer world _ present running query received
                (by simp)
      | ok reply =>
          refine .answered position call ref answer world _ present running query received ?_
          rintro found ⟨⟩
          exact decoded
  | err =>
      obtain ⟨⟨error, world⟩, received, rfl⟩ := Option.map_eq_some_iff.mp selected
      exact .failed position call ref error world present running query received

theorem step_does {state next : Calls} {label : CallStep}
    (taken : RemoteCalls.step state label = some next) :
    Effect state (receivedFrames [label]) next := by
  unfold RemoteCalls.step at taken
  split_ifs at taken
  cases label with
  | start request id now =>
      obtain rfl := Option.some.inj taken
      exact .started request id now
  | write position writeError =>
      obtain ⟨call, present, rest⟩ := Option.bind_eq_some_iff.mp taken
      split at rest
      · next writing =>
          obtain rfl := Option.some.inj rest
          have running : Running call := by simp [Running, writing]
          cases writeError with
          | none => exact .moved position call _ _ present running (by simp)
          | some error => exact .unsent position call _ present running
      · cases rest
  | select position taken =>
      obtain ⟨call, present, rest⟩ := Option.bind_eq_some_iff.mp taken
      split at rest
      · next ref waiting query =>
          exact select_effect present (by simp [Running, waiting]) query rest
      · cases rest
  | recvFrame payload pongWritten =>
      obtain rfl := Option.some.inj taken
      exact dispatch_effect state payload pongWritten
  | correlatorSend ref position =>
      obtain ⟨world, sent, rfl⟩ := Option.map_eq_some_iff.mp taken
      exact .internal (.send ref position) world sent (.inl ⟨ref, position, rfl⟩)
  | gcExpired now =>
      obtain ⟨⟨count, world⟩, collected, rfl⟩ := Option.map_eq_some_iff.mp taken
      refine .internal (.gcExpired now) world ?_ (.inr ⟨now, rfl⟩)
      simp [QueryCorrelator.step, collected]
  | closeWithErr err =>
      simp only at taken
      split at taken
      · obtain rfl := Option.some.inj taken
        exact .closing err
      · cases taken
  | closeFailAll =>
      simp only at taken
      split at taken
      · obtain rfl := Option.some.inj taken
        exact .failing _
      · cases taken
  | closeDone =>
      simp only at taken
      split at taken
      · next err failed =>
          obtain rfl := Option.some.inj taken
          exact .closed err failed
      · cases taken

end Effects

section LinkedRuns

theorem registered_ref {world : Correlations} {id : QueryID} {now timeout : Int} {ref : Nat}
    (accepted : (register world id now timeout).1 = .ok ref) : ref = world.heap.length := by
  unfold register at accepted
  split_ifs at accepted
  exact (Except.ok.inj accepted).symm

theorem Linked.appended {state : Calls} (linked : Linked state) (call : Call)
    (own : ∀ ref, call.query = some ref → (∃ cell, state.world.heap[ref]? = some cell ∧
      cell.id = call.id ∧ cell.query.deadline = call.deadline ∧ Held cell) ∧
      ∀ (position : Nat) other, state.calls[position]? = some other → other.query ≠ some ref)
    (live : Running call → ∃ ref, call.query = some ref) :
    Linked { state with calls := state.calls ++ [call] } where
  consistent := linked.consistent
  unbroken := linked.unbroken
  shut := linked.shut
  registered := by
    intro position found ref present query
    rcases ObjectHeap.allocated present with old | ⟨-, rfl⟩
    · exact linked.registered position found ref old query
    · obtain ⟨⟨cell, stored, id, deadline, -⟩, -⟩ := own ref query
      exact ⟨cell, stored, id, deadline⟩
  apart := by
    intro left right first second ref leftPresent rightPresent leftQuery rightQuery
    rcases ObjectHeap.allocated leftPresent with old | ⟨rfl, rfl⟩
    · rcases ObjectHeap.allocated rightPresent with other | ⟨-, rfl⟩
      · exact linked.apart left right first second ref old other leftQuery rightQuery
      · exact absurd leftQuery ((own ref rightQuery).2 left first old)
    · rcases ObjectHeap.allocated rightPresent with other | ⟨rfl, -⟩
      · exact absurd rightQuery ((own ref leftQuery).2 right second other)
      · rfl
  held := by
    intro position found ref present query running
    rcases ObjectHeap.allocated present with old | ⟨-, rfl⟩
    · exact linked.held position found ref old query running
    · obtain ⟨⟨cell, stored, -, -, held⟩, -⟩ := own ref query
      intro other otherStored
      obtain rfl := Option.some.inj (stored.symm.trans otherStored)
      exact held
  live := by
    intro position found present running
    rcases ObjectHeap.allocated present with old | ⟨-, rfl⟩
    · exact linked.live position found old running
    · exact live running

theorem Linked.started {state : Calls} (linked : Linked state) (request : Request) (id : QueryID)
    (now : Int) : Linked (state.start request id now) := by
  have taken : QueryCorrelator.step state.world (.register id now request.timeout) =
      some (register state.world id now request.timeout).2 := rfl
  have after := linked.world taken (by simp)
  unfold Calls.start
  rcases outcome : register state.world id now request.timeout with ⟨error | ref, world⟩
  · rw [outcome] at after
    exact after.appended _ (by simp) (fun running => absurd rfl (running _))
  · have stored := registered_cell state.world id now request.timeout ref (by rw [outcome])
    have new := registered_ref (show (register state.world id now request.timeout).1 = .ok ref by
      rw [outcome])
    rw [outcome] at after stored
    refine after.appended _ ?_ (fun _ => ⟨ref, rfl⟩)
    rintro found ⟨⟩
    refine ⟨⟨_, stored, rfl, rfl, held_new id _⟩, ?_⟩
    -- the pointer is new, so no earlier call has it
    intro position other present query
    obtain ⟨cell, old, -⟩ := linked.registered position other ref present query
    have bound := ObjectHeap.stored_bound old
    omega

theorem Linked.received {state : Calls} (linked : Linked state) {position ref : Nat} {call : Call}
    (present : state.calls[position]? = some call) (running : Running call)
    (query : call.query = some ref) {action : CorrelatorStep} {world : Correlations}
    (receives : action = .receiveAnswer ref ∨ action = .receiveErr ref)
    (taken : QueryCorrelator.step state.world action = some world)
    (outcome : Except CocoonError Reply) :
    Linked ({ state with world := world }.finish position outcome) := by
  refine (linked.moved present running (.returned outcome)).world taken ?_
  intro other found foundRef foundPresent foundQuery foundRunning
  obtain ⟨before, old, ⟨rfl, rfl⟩ | ⟨different, rfl⟩⟩ := phase_origin foundPresent
  · exact absurd rfl (foundRunning outcome)
  · have apart : foundRef ≠ ref := by
      rintro rfl
      exact different (linked.apart position other call found foundRef present old query foundQuery)
    rcases receives with rfl | rfl <;> simp [apart.symm]

theorem Linked.next {state next : Calls} {received : List (List Byte)} (linked : Linked state)
    (effect : Effect state received next) : Linked next := by
  cases effect with
  | started request id now => exact linked.started request id now
  | moved position call phase written present running _ =>
      have same : Linked { state with written := written } :=
        ⟨linked.consistent, linked.unbroken, linked.shut, linked.registered, linked.apart,
          linked.held, linked.live⟩
      exact same.moved present running phase
  | unsent position call error present running =>
      have taken : QueryCorrelator.step state.world (.fail call.id error) =
          some (fail state.world call.id error).2 := rfl
      exact (linked.world taken (by simp)).moved present running _
  | answered position call ref answer world outcome present running query received _ =>
      refine linked.received present running query (.inl rfl) ?_ outcome
      simp [QueryCorrelator.step, received]
  | failed position call ref error world present running query received =>
      refine linked.received present running query (.inr rfl) ?_ _
      simp [QueryCorrelator.step, received]
  | resolved payload packet id value _ _ =>
      have after : Linked { state with world := (take state.world id value).2 } := by
        cases value with
        | answer data =>
            have taken : QueryCorrelator.step state.world (.deliver id data) =
                some (take state.world id (.answer data)).2 := rfl
            exact linked.world taken (by simp)
        | error err =>
            have taken : QueryCorrelator.step state.world (.fail id err) =
                some (take state.world id (.error err)).2 := rfl
            exact linked.world taken (by simp)
      exact ⟨after.consistent, after.unbroken, after.shut, after.registered, after.apart,
        after.held, after.live⟩
  | ignored payload written =>
      exact ⟨linked.consistent, linked.unbroken, linked.shut, linked.registered, linked.apart,
        linked.held, linked.live⟩
  | internal action world taken kind =>
      refine linked.world taken ?_
      rcases kind with ⟨ref, position, rfl⟩ | ⟨now, rfl⟩ <;> simp
  | closing err =>
      refine ⟨linked.consistent, linked.unbroken, ?_, linked.registered, linked.apart,
        linked.held, linked.live⟩
      rintro other (failed | closed)
      · cases failed
      · cases closed
  | failing err =>
      have taken : QueryCorrelator.step state.world (.failAll err) =
          some (failAll state.world err) := rfl
      have after := linked.world taken (by simp)
      exact ⟨after.consistent, after.unbroken, fun _ _ => rfl, after.registered, after.apart,
        after.held, after.live⟩
  | closed err failed =>
      exact ⟨linked.consistent, linked.unbroken, fun _ _ => linked.shut err (.inl failed),
        linked.registered, linked.apart, linked.held, linked.live⟩

theorem run_linked (labels : List CallStep) (state : Calls)
    (reached : runFrom RemoteCalls.step newCalls labels = some state) : Linked state :=
  run_invariant RemoteCalls.step newCalls Linked new_calls_linked
    (fun _ _ _ linked taken => linked.next (step_does taken)) labels state reached

end LinkedRuns

end Gocoon.RemoteCallLinks
