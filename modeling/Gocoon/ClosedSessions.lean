import Gocoon.SessionRegistry

/-!
# Sessions after their Close

`connect` installs its transport and records its success without looking whether the
session has been closed in the meantime. A closed session stays closed in every run in
which `Close` enters its locked part only when the session's `connect` has neither of the
two updates to come; otherwise the session can become ready after it was disconnected. Its
transport does not outlive it for good: whoever installed it, the goroutine that waits for
`done` is there to cancel it once `Close` has run to its end.
-/

namespace Gocoon.ClosedSessions

open Gocoon.TlPrimitives
open Gocoon.ProxySession
open Gocoon.ThreadPool
open Gocoon.TransitionRuns
open Gocoon.SessionRegistry

set_option autoImplicit false

/-- `Close` starts only when the session's `connect` has nothing left to write. -/
def closeWaits (system : System) : Label → Bool
  | .run position _ =>
      match pcAt system position with
      | some (.closing ref _) =>
          !closeUnused system.shared ref ||
            system.threads.all fun thread => !thread.pc.connecting ref
      | _ => true
  | _ => true

/-- A connecting thread's session has not been closed. -/
def ConnectsOpen (client : Client) (thread : Thread) : Prop :=
  ∀ ref, thread.pc.connecting ref = true →
    ∃ session, client.sessions[ref]? = some session ∧ session.closeOnce = .unused

structure ClosedInvariant (system : System) : Prop where
  bodies : ∀ thread ∈ system.threads, BodyBegun system.shared thread
  connects : ∀ thread ∈ system.threads, ConnectsOpen system.shared thread
  closed : ∀ (ref : Nat) (session : Session), system.shared.sessions[ref]? = some session →
    session.closeOnce ≠ .unused → session.status ≠ .ready ∧ session.transport = none

variable {client next : Client} {pc nextPc : Pc} {event : Event}

theorem moved_connecting (moved : Moved client pc event next nextPc) {ref : Nat}
    (connecting : nextPc.connecting ref = true) :
    pc.connecting ref = true ∨
      ∃ addr, ref = client.sessions.length ∧ next = client.register addr := by
  cases moved with
  | registered registers =>
      right
      exact ⟨_, (of_decide_eq_true connecting).symm, rfl⟩
  | dialed addr own => exact Or.inl connecting
  | launched addr own tr => exact Or.inl connecting
  | closeSeen after _ _ => cases after <;> cases connecting
  | closeEnded own after => cases after <;> cases connecting
  | _ => cases connecting

theorem changed_unused {pc nextPc : Pc} {ref : Nat} {before after : Session}
    (changed : Changed pc nextPc ref before after) (unused : before.closeOnce = .unused) :
    after.closeOnce = .unused ∨ (∃ rest, pc = .closing ref rest) ∨ pc.inBody ref = true := by
  cases changed with
  | begun here _ _ => exact Or.inr (Or.inl ⟨_, here⟩)
  | ended here _ =>
      right
      right
      rw [here]
      exact decide_eq_true rfl
  | _ => exact Or.inl unused

theorem close_waits_free {system : System} {position : Nat} {event : Event} {thread : Thread}
    {ref : Nat} {after : AfterClose} {session : Session}
    (waits : closeWaits system (.run position event) = true)
    (present : system.threads[position]? = some thread) (closing : thread.pc = .closing ref after)
    (found : system.shared.sessions[ref]? = some session) (unused : session.closeOnce = .unused) :
    ∀ other ∈ system.threads, other.pc.connecting ref = false := by
  simp only [closeWaits, pc_at_present present, closing, closeUnused, found, unused,
    decide_true, Bool.not_true, Bool.false_or, List.all_eq_true] at waits
  intro other member
  simpa using waits other member

theorem unused_survives {system : System} {position : Nat} {event : Event} {thread : Thread}
    {client : Client} {pc : Pc} (holds : ClosedInvariant system)
    (waits : closeWaits system (.run position event) = true)
    (present : system.threads[position]? = some thread)
    (moved : Moved system.shared thread.pc event client pc) {ref : Nat} {other : Thread}
    (member : other ∈ system.threads) (connecting : other.pc.connecting ref = true) :
    ∃ after, client.sessions[ref]? = some after ∧ after.closeOnce = .unused := by
  obtain ⟨session, found, unused⟩ := holds.connects other member ref connecting
  obtain ⟨after, stored, changed⟩ := session_of moved found
  refine ⟨after, stored, ?_⟩
  rcases changed_unused changed unused with same | ⟨rest, closing⟩ | body
  · exact same
  · rw [close_waits_free waits present closing found unused other member] at connecting
    cases connecting
  · obtain ⟨same, stored, begun⟩ := holds.bodies thread (List.mem_of_getElem? present) ref body
    obtain rfl := Option.some.inj (found.symm.trans stored)
    exact absurd unused begun

theorem moved_closed {system : System} {position : Nat} {thread : Thread}
    (holds : ClosedInvariant system)
    (present : system.threads[position]? = some thread)
    (moved : Moved system.shared thread.pc event client pc) {ref : Nat} {after : Session}
    (stored : client.sessions[ref]? = some after) (begun : after.closeOnce ≠ .unused) :
    after.status ≠ .ready ∧ after.transport = none := by
  have member := List.mem_of_getElem? present
  have notConnecting : ∀ {before : Session}, system.shared.sessions[ref]? = some before →
      before.closeOnce ≠ .unused → thread.pc.connecting ref = false := by
    intro before found begunBefore
    by_contra connecting
    obtain ⟨same, found', unused⟩ := holds.connects thread member ref (by simpa using connecting)
    obtain rfl := Option.some.inj (found.symm.trans found')
    exact begunBefore unused
  rcases session_from moved stored with ⟨before, found, changed⟩ | ⟨addr, _, _, rfl, _⟩
  · cases changed with
    | kept => exact holds.closed ref after found begun
    | failed _ cause => exact ⟨by simp [Session.fail], (holds.closed ref before found begun).2⟩
    | installed here _ =>
        have free := notConnecting found begun
        rw [here] at free
        simp [Pc.connecting] at free
    | finished here _ _ =>
        have free := notConnecting found begun
        rw [here] at free
        simp [Pc.connecting] at free
    | begun _ _ _ => exact ⟨by simp [Session.beginClose], rfl⟩
    | ended here _ =>
        have inBody : thread.pc.inBody ref = true := by
          rw [here]
          exact decide_eq_true rfl
        obtain ⟨same, found', begunBefore⟩ := holds.bodies thread member ref inBody
        obtain rfl := Option.some.inj (found.symm.trans found')
        exact holds.closed ref before found begunBefore
  · exact absurd rfl begun

theorem step_closed {system next : System} {label : Label} (holds : ClosedInvariant system)
    (waits : closeWaits system label = true) (taken : step system label = some next) :
    ClosedInvariant next := by
  have bodies := step_bodies_begun holds.bodies taken
  cases step_case taken with
  | entered entry same =>
      subst same
      refine ⟨bodies, ?_, holds.closed⟩
      intro other member
      rcases List.mem_append.mp member with old | new
      · exact holds.connects other old
      · obtain rfl := List.mem_singleton.mp new
        intro ref connecting
        cases entry <;> cases connecting
  | ran present moved same =>
      subst same
      refine ⟨bodies, run_everywhere present holds.connects ?_ ?_ ?_, ?_⟩
      · intro _ ref connecting
        rcases moved_connecting moved connecting with before | ⟨addr, rfl, rfl⟩
        · exact unused_survives holds waits present moved (List.mem_of_getElem? present) before
        · exact ⟨newSession addr, List.getElem?_concat_length, rfl⟩
      · intro _ fresh member ref connecting
        cases started_cases member <;> cases connecting
      · intro other member _ ref connecting
        exact unused_survives holds waits present moved member connecting
      · intro ref session stored begun
        exact moved_closed holds present moved stored begun

/-- In every run in which each `Close` starts only after the session's `connect` has done
its last update, a session whose `Close` has begun is not ready and has no transport. -/
theorem closed_session_stays_closed (labels : List Label) (system : System)
    (reached : runFrom step initial labels = some system)
    (waits : EveryStep step (fun state label => closeWaits state label = true) initial labels)
    (ref : Nat) (session : Session) (present : system.shared.sessions[ref]? = some session)
    (begun : session.closeOnce ≠ .unused) : session.status ≠ .ready ∧ session.transport = none := by
  have holds : ClosedInvariant system := by
    refine guarded_invariant step _ initial ClosedInvariant ?_ ?_ labels system reached waits
    · constructor
      · intro thread member
        cases member
      · intro thread member
        cases member
      · intro ref session stored
        cases stored
    · exact fun _ _ _ holds allowed taken => step_closed holds allowed taken
  exact holds.closed ref session present begun

def proxyAddr : GoString := ascii "proxy:8888"

def closeWhenReady : List Label :=
  [.connectProxy proxyAddr, .run 0 .proceed, .run 0 .dials, .run 0 .proceed, .run 2 .proceed,
    .run 2 (.delivers []), .run 0 .handshakes, .run 0 .proceed, .closeSession 0, .run 4 .proceed,
    .run 4 .proceed, .run 4 .proceed]

theorem ready_session_closed_for_good :
    ∃ system session, runFrom step initial closeWhenReady = some system ∧
      system.shared.sessions[0]? = some session ∧ session.closeOnce = .finished ∧
      session.status ≠ .ready ∧ session.transport = none := by
  have outcome : ((runFrom step initial closeWhenReady).bind fun system =>
      system.shared.sessions[0]?).map (·.closeOnce) = some .finished := by decide +kernel
  obtain ⟨session, found, finished⟩ := Option.map_eq_some_iff.mp outcome
  obtain ⟨system, reached, present⟩ := Option.bind_eq_some_iff.mp found
  refine ⟨system, session, reached, present, finished, ?_⟩
  refine closed_session_stays_closed closeWhenReady system reached ?_ 0 session present ?_
  · exact every_step_checked step closeWaits initial closeWhenReady (by decide +kernel)
  · rw [finished]
    decide

/-- The last answer of the handshake has been delivered and `Close` has run its locked part,
but `connect` has not yet made its last update. -/
def closeBeforeUpdate : List Label :=
  [.connectProxy proxyAddr, .run 0 .proceed, .run 0 .dials, .run 0 .proceed, .run 2 .proceed,
    .run 2 (.delivers []), .closeSession 0, .run 3 .proceed]

/-- `Close` closes the transport and `done`. -/
def closeGoesOn : List Label := [.run 3 .proceed, .run 3 .proceed]

structure View where
  status : SessionStatus
  closeOnce : CloseOnce
  installed : Option Nat
  transportClosed : Bool
  deriving DecidableEq

def view (system : System) : Option View :=
  system.shared.sessions[0]?.map fun session =>
    ⟨session.status, session.closeOnce, session.transport, system.shared.transportClosed 0⟩

theorem closed_session_becomes_ready :
    ∃ closing updated closed,
      runFrom step initial closeBeforeUpdate = some closing ∧
      view closing = some ⟨.disconnected, .running, none, false⟩ ∧
      step closing (.run 0 .handshakes) = some updated ∧
      view updated = some ⟨.ready, .running, none, false⟩ ∧
      runFrom step updated closeGoesOn = some closed ∧
      view closed = some ⟨.ready, .finished, none, true⟩ := by
  have outcome : (runFrom step initial closeBeforeUpdate).map (fun closing =>
      (view closing, (step closing (.run 0 .handshakes)).map fun updated =>
        (view updated, (runFrom step updated closeGoesOn).map view))) =
      some (some ⟨.disconnected, .running, none, false⟩,
        some (some ⟨.ready, .running, none, false⟩,
          some (some ⟨.ready, .finished, none, true⟩))) := by decide +kernel
  obtain ⟨closing, reached, same⟩ := Option.map_eq_some_iff.mp outcome
  obtain ⟨viewed, later⟩ := Prod.mk.inj same
  obtain ⟨updated, taken, sameUpdated⟩ := Option.map_eq_some_iff.mp later
  obtain ⟨viewedUpdated, ends⟩ := Prod.mk.inj sameUpdated
  obtain ⟨closed, closes, viewedClosed⟩ := Option.map_eq_some_iff.mp ends
  exact ⟨closing, updated, closed, reached, viewed, taken, viewedUpdated, closes, viewedClosed⟩

/-- The transport is cancelled, or the goroutine of `connect` that cancels it waits for `done`
or is about to be started. -/
def Cancellable (system : System) (tr : Nat) (transport : Transport) : Prop :=
  transport.cancelled = true ∨ ∃ thread ∈ system.threads,
    thread.pc = .awaitingDone transport.owner tr ∨
      ∃ addr, thread.pc = .launching addr transport.owner tr

theorem step_cancellable {system next : System} {label : Label}
    (holds : ∀ (tr : Nat) (transport : Transport),
      system.shared.transports[tr]? = some transport → Cancellable system tr transport)
    (taken : step system label = some next) (tr : Nat) (transport : Transport)
    (stored : next.shared.transports[tr]? = some transport) : Cancellable next tr transport := by
  cases step_case taken with
  | entered entry same =>
      subst same
      refine (holds tr transport stored).imp_right ?_
      rintro ⟨thread, member, waits⟩
      exact ⟨thread, List.mem_append_left _ member, waits⟩
  | @ran position event thread client pc present moved same =>
      subst same
      rcases transport_from moved stored with ⟨before, found, changed⟩ |
        ⟨addr, ref, _, _, pcIs, _, rfl⟩
      · rw [Cancellable, changed.owner]
        rcases holds tr before found with cancelled | ⟨other, member, waits⟩
        · exact Or.inl (changed.cancelled cancelled)
        · obtain ⟨place, there⟩ := List.mem_iff_getElem?.mp member
          by_cases same : place = position
          · subst same
            obtain rfl := Option.some.inj (present.symm.trans there)
            rcases waits with waiting | ⟨addr, launching⟩
            · exact Or.inl (changed.done _ waiting)
            · refine Or.inr ⟨⟨true, .awaitingDone before.owner tr⟩, ?_, Or.inl rfl⟩
              rw [launching]
              exact List.mem_append_right _ List.mem_cons_self
          · exact Or.inr ⟨other, List.mem_of_getElem? (other_present there same), waits⟩
      · exact Or.inr ⟨_, List.mem_of_getElem? (mover_present present), Or.inr ⟨addr, pcIs⟩⟩

/-- In every run, once `Close` of a session has run to its end, the context of each of its
transports is cancelled, or can be cancelled in one step unless `connect` has yet to start the
goroutine that does it. -/
theorem done_cancels_transports (labels : List Label) (system : System)
    (reached : runFrom step initial labels = some system) {tr : Nat} {transport : Transport}
    (stored : system.shared.transports[tr]? = some transport) {session : Session}
    (present : system.shared.sessions[transport.owner]? = some session)
    (done : session.closeOnce = .finished) :
    transport.cancelled = true ∨
      (∃ position next, step system (.run position .proceed) = some next ∧
        next.shared = system.shared.cancel tr) ∨
      ∃ position addr, pcAt system position = some (.launching addr transport.owner tr) := by
  have holds : ∀ (tr : Nat) (transport : Transport),
      system.shared.transports[tr]? = some transport → Cancellable system tr transport := by
    refine run_invariant step initial (fun state => ∀ (tr : Nat) (transport : Transport),
      state.shared.transports[tr]? = some transport → Cancellable state tr transport) ?_ ?_ labels
      system reached
    · intro tr transport stored
      cases stored
    · exact fun _ _ _ holds taken => step_cancellable holds taken
  refine (holds tr transport stored).imp_right ?_
  rintro ⟨thread, member, waits⟩
  obtain ⟨position, found⟩ := List.mem_iff_getElem?.mp member
  rcases waits with waiting | ⟨addr, launching⟩
  · have cancels : threadStep system.shared thread.pc .proceed =
        some (system.shared.cancel tr, .returned (.ok none)) := by
      simp [waiting, threadStep, cancelWhenDone, present, done]
    refine Or.inl ⟨position, system.after position ⟨system.shared.cancel tr,
      { thread with pc := .returned (.ok none) }, started thread.pc⟩, ?_, rfl⟩
    simp [step, Pool.run, moves, found, cancels]
  · exact Or.inr ⟨position, addr, by rw [pc_at_present found, launching]⟩

end Gocoon.ClosedSessions
