import Gocoon.ObjectHeap
import Gocoon.ProxySession
import Gocoon.ThreadPool
import Gocoon.TransitionRuns
import Mathlib.Data.List.AList

/-!
# The session registry of a client

`ConnectProxy`, `DisconnectProxy`, `Client.Close`, `Session.Close` and the goroutines that
`connect` starts run as threads of one pool: the one that waits for `done` and cancels the
transport's context, the transport's read loop, and the handler that waits for the transport
to close. What the source does under one lock is one step: the two locked parts of
`ConnectProxy`, the installation of a dialed transport, the update after the handshake,
`fail`, the locked part of `removeSession`, the locked part of `Close`, the closing of its
transport and the end of its once body are separate, and a second caller of `Close` waits for
the first. Dialing ends as the label says. The handshake may fail at any time, but it
succeeds only with an answer that the read loop has delivered, which it does only while the
transport is open.
-/

namespace Gocoon.SessionRegistry

open Gocoon.TlPrimitives
open Gocoon.CocoonErrors
open Gocoon.ProxySession
open Gocoon.ThreadPool

set_option autoImplicit false

structure Transport where
  owner : Nat
  closed : Bool
  /-- `cancel` of its context has been called. -/
  cancelled : Bool
  /-- The last answer of a successful handshake, once it is in the query's channel. -/
  answer : Option GoString
  deriving DecidableEq

structure Client where
  sessions : List Session
  transports : List Transport
  registry : AList fun _ : GoString => Nat
  closed : Bool

def newClient : Client where
  sessions := []
  transports := []
  registry := ∅
  closed := false

namespace Client

def transportClosed (client : Client) (tr : Nat) : Bool :=
  match client.transports[tr]? with
  | some transport => transport.closed
  | none => false

def onTransport (client : Client) (tr : Nat) (change : Transport → Transport) : Client :=
  { client with transports := client.transports.modify tr change }

def closeTransport (client : Client) (tr : Nat) : Client :=
  client.onTransport tr ({ · with closed := true })

def cancel (client : Client) (tr : Nat) : Client :=
  client.onTransport tr ({ · with cancelled := true })

/-- `closeWithErr` fails all pending queries, so an answer that comes later finds none. -/
def deliver (client : Client) (tr : Nat) (clientSCAddr : GoString) : Client :=
  client.onTransport tr fun transport =>
    if transport.closed then transport else { transport with answer := some clientSCAddr }

def answerAt (client : Client) (tr : Nat) : Option GoString :=
  client.transports[tr]?.bind Transport.answer

def update (client : Client) (ref : Nat) (change : Session → Session) : Client :=
  { client with sessions := client.sessions.modify ref change }

def register (client : Client) (addr : GoString) : Client :=
  { client with
    sessions := client.sessions ++ [newSession addr]
    registry := client.registry.insert addr client.sessions.length }

def unlist (client : Client) (addr : GoString) : Client :=
  { client with registry := client.registry.erase addr }

def install (client : Client) (ref : Nat) : Client :=
  { client with
    sessions := client.sessions.modify ref (·.install client.transports.length)
    transports := client.transports ++ [⟨ref, false, false, none⟩] }

end Client

abbrev Outcome := Except CocoonError (Option Nat)

/-- What a caller of `Session.Close` goes on with. -/
inductive AfterClose where
  | relock (addr : GoString)
  | returns (outcome : Outcome)
  | closeRest (remaining : List Nat)
  deriving DecidableEq

/-- Where a thread stands. `removing` records the session on whose behalf `removeSession`
was called; `DisconnectProxy` calls it for none. `awaitingDone` is the goroutine of `connect`
that cancels; `running` and `reading` are the read loop at its `select` and in `ReadFrame`. -/
inductive Pc where
  | connectStart (addr : GoString)
  | relock (addr : GoString)
  | dialing (addr : GoString) (ref : Nat)
  | launching (addr : GoString) (ref tr : Nat)
  | handshaking (addr : GoString) (ref tr : Nat)
  | closeFailed (addr : GoString) (ref tr : Nat) (cause : CocoonError)
  | spawning (ref tr : Nat)
  | watching (ref tr : Nat)
  | awaitingDone (ref tr : Nat)
  | running (tr : Nat)
  | reading (tr : Nat)
  | removing (addr : GoString) (behalf : Option Nat) (outcome : Outcome)
  | closing (ref : Nat) (after : AfterClose)
  | closingTransport (ref : Nat) (tr : Option Nat) (after : AfterClose)
  | endingClose (ref : Nat) (after : AfterClose)
  | clientClosing
  | closeRest (remaining : List Nat)
  | returned (outcome : Outcome)
  deriving DecidableEq

def AfterClose.pc : AfterClose → Pc
  | .relock addr => .relock addr
  | .returns outcome => .returned outcome
  | .closeRest remaining => .closeRest remaining

inductive Event where
  | proceed
  | dials
  | dialFails (cause : CocoonError)
  | handshakes
  | handshakeFails (cause : CocoonError)
  | reads
  | delivers (clientSCAddr : GoString)
  | readFails
  | closes (ref : Nat)

def closeOptional (client : Client) (tr : Option Nat) : Client :=
  match tr with
  | some present => client.closeTransport present
  | none => client

/-- The first locked part of `ConnectProxy`. -/
def connectStart (client : Client) (addr : GoString) : Option (Client × Pc) :=
  if addr = [] then some (client, .returned (.error (.text "cocoon: empty proxy address")))
  else if client.closed then some (client, .returned (.error .alreadyClosed))
  else
    match client.registry.lookup addr with
    | none => some (client.register addr, .dialing addr client.sessions.length)
    | some ref =>
        client.sessions[ref]?.map fun session =>
          if session.isUsable client.transportClosed then (client, .returned (.ok (some ref)))
          else (client.unlist addr, .closing ref (.relock addr))

/-- The second locked part, which does not look at the map again. -/
def relock (client : Client) (addr : GoString) : Client × Pc :=
  if client.closed then (client, .returned (.error .alreadyClosed))
  else (client.register addr, .dialing addr client.sessions.length)

def removeSession (client : Client) (addr : GoString) (outcome : Outcome) : Client × Pc :=
  match client.registry.lookup addr with
  | none => (client, .returned outcome)
  | some ref => (client.unlist addr, .closing ref (.returns outcome))

def removeOnTransportClose (client : Client) (ref tr : Nat) : Option (Client × Pc) :=
  if client.transportClosed tr then
    client.sessions[ref]?.map fun session =>
      if session.lost tr then (client, .removing session.proxyAddr (some ref) (.ok none))
      else (client, .returned (.ok none))
  else none

/-- The goroutine of `connect` that receives from `done` and then calls `cancel`. -/
def cancelWhenDone (client : Client) (ref tr : Nat) : Option (Client × Pc) :=
  client.sessions[ref]?.bind fun session =>
    if session.closeOnce = .finished then some (client.cancel tr, .returned (.ok none))
    else none

/-- The `select` of `transport.Run`. -/
def runLoop (client : Client) (tr : Nat) : Option (Client × Pc) :=
  client.transports[tr]?.map fun transport =>
    if transport.cancelled || transport.closed then
      (client.closeTransport tr, .returned (.ok none))
    else (client, .reading tr)

/-- A call of `Session.Close` up to the end of its locked part. -/
def enterClose (client : Client) (ref : Nat) (after : AfterClose) : Option (Client × Pc) :=
  client.sessions[ref]?.bind fun session =>
    match session.closeOnce with
    | .unused => some (client.update ref (·.beginClose),
        .closingTransport ref session.transport after)
    | .running => none
    | .finished => some (client, after.pc)

/-- `Client.Close` up to its loop. -/
def clientClose (client : Client) : Client × Pc :=
  if client.closed then (client, .returned (.error .alreadyClosed))
  else ({ client with closed := true, registry := ∅ },
    .closeRest (client.registry.entries.map (·.2)))

def threadStep (client : Client) : Pc → Event → Option (Client × Pc)
  | .connectStart addr, .proceed => connectStart client addr
  | .relock addr, .proceed => some (relock client addr)
  | .dialing addr ref, .dials =>
      some (client.install ref, .launching addr ref client.transports.length)
  | .dialing addr ref, .dialFails cause =>
      some (client.update ref (·.fail (.wrapped "cocoon: tcp connection failed" cause)),
        .removing addr (some ref) (.error cause))
  | .launching addr ref tr, .proceed => some (client, .handshaking addr ref tr)
  | .handshaking _ ref tr, .handshakes =>
      (client.answerAt tr).map fun clientSCAddr =>
        (client.update ref (·.finish clientSCAddr), .spawning ref tr)
  | .handshaking addr ref tr, .handshakeFails cause =>
      some (client.update ref (·.fail cause), .closeFailed addr ref tr cause)
  | .closeFailed addr ref tr cause, .proceed =>
      some (client.closeTransport tr, .removing addr (some ref) (.error cause))
  | .spawning ref _, .proceed => some (client, .returned (.ok (some ref)))
  | .watching ref tr, .proceed => removeOnTransportClose client ref tr
  | .awaitingDone ref tr, .proceed => cancelWhenDone client ref tr
  | .running tr, .proceed => runLoop client tr
  | .reading tr, .reads => some (client, .running tr)
  | .reading tr, .delivers clientSCAddr => some (client.deliver tr clientSCAddr, .running tr)
  | .reading tr, .readFails => some (client.closeTransport tr, .returned (.ok none))
  | .removing addr _ outcome, .proceed => some (removeSession client addr outcome)
  | .closing ref after, .proceed => enterClose client ref after
  | .closingTransport ref tr after, .proceed =>
      some (closeOptional client tr, .endingClose ref after)
  | .endingClose ref after, .proceed => some (client.update ref (·.endClose), after.pc)
  | .clientClosing, .proceed => some (clientClose client)
  | .closeRest [], .proceed => some (client, .returned (.ok none))
  | .closeRest remaining, .closes ref =>
      if ref ∈ remaining then
        some (client, .closing ref (.closeRest (remaining.erase ref)))
      else none
  | _, _ => none

structure Thread where
  /-- Started by `connect` and not by a caller. -/
  handler : Bool
  pc : Pc

/-- The `go` statements of `connect`. The collector of expired queries, which only fails
handshakes, is left out. -/
def started : Pc → List Thread
  | .launching _ ref tr => [⟨true, .awaitingDone ref tr⟩, ⟨true, .running tr⟩]
  | .spawning ref tr => [⟨true, .watching ref tr⟩]
  | _ => []

inductive Started (pc : Pc) : Thread → Prop where
  | canceller {addr : GoString} {ref tr : Nat} (here : pc = .launching addr ref tr) :
      Started pc ⟨true, .awaitingDone ref tr⟩
  | reader {addr : GoString} {ref tr : Nat} (here : pc = .launching addr ref tr) :
      Started pc ⟨true, .running tr⟩
  | watcher {ref tr : Nat} (here : pc = .spawning ref tr) : Started pc ⟨true, .watching ref tr⟩

theorem started_cases {pc : Pc} {thread : Thread} (member : thread ∈ started pc) :
    Started pc thread := by
  cases pc with
  | launching addr ref tr =>
      rcases List.mem_cons.mp member with rfl | rest
      · exact .canceller rfl
      · rw [List.mem_singleton.mp rest]
        exact .reader rfl
  | spawning ref tr =>
      rw [List.mem_singleton.mp member]
      exact .watcher rfl
  | _ => cases member

def moves (client : Client) (thread : Thread) (event : Event) : Option (Move Client Thread) :=
  (threadStep client thread.pc event).map fun (next, pc) =>
    ⟨next, { thread with pc := pc }, started thread.pc⟩

abbrev System := Pool Client Thread

inductive Label where
  | connectProxy (addr : GoString)
  | disconnectProxy (addr : GoString)
  | close
  | closeSession (ref : Nat)
  | run (position : Nat) (event : Event)

def step (system : System) : Label → Option System
  | .connectProxy addr => some (system.start ⟨false, .connectStart addr⟩)
  | .disconnectProxy addr => some (system.start ⟨false, .removing addr none (.ok none)⟩)
  | .close => some (system.start ⟨false, .clientClosing⟩)
  | .closeSession ref =>
      if ref < system.shared.sessions.length then
        some (system.start ⟨false, .closing ref (.returns (.ok none))⟩)
      else none
  | .run position event => system.run moves position event

def pcAt (system : System) (position : Nat) : Option Pc :=
  system.threads[position]?.map Thread.pc

theorem pc_at_present {system : System} {position : Nat} {thread : Thread}
    (present : system.threads[position]? = some thread) :
    pcAt system position = some thread.pc := by
  rw [pcAt, present]
  rfl

def initial : System where
  shared := newClient
  threads := []

/-- The thread still has a transport to install or a success to record for the session. -/
def Pc.connecting (ref : Nat) : Pc → Bool
  | .dialing _ own | .launching _ own _ | .handshaking _ own _ => own = ref
  | _ => false

/-- The thread is past the locked part of the session's `Close`. -/
def Pc.inBody (ref : Nat) : Pc → Bool
  | .closingTransport own _ _ | .endingClose own _ => own = ref
  | _ => false

def AfterClose.Owes (ref : Nat) : AfterClose → Prop
  | .closeRest remaining => ref ∈ remaining
  | _ => False

/-- The thread has a call of the session's `Close` under way or to come. -/
def Pc.Owes (ref : Nat) : Pc → Prop
  | .closing own after | .closingTransport own _ after | .endingClose own after =>
      own = ref ∨ after.Owes ref
  | .closeRest remaining => ref ∈ remaining
  | _ => False

theorem after_close_owes (after : AfterClose) (ref : Nat) : after.pc.Owes ref ↔ after.Owes ref := by
  cases after <;> exact Iff.rfl

/-- The locked part of the session's `Close` has not run. -/
def closeUnused (client : Client) (ref : Nat) : Bool :=
  match client.sessions[ref]? with
  | some session => session.closeOnce = .unused
  | none => false

/-- The address for which the next move of the thread puts a new session into the map. -/
def registers (client : Client) : Pc → Option GoString
  | .relock addr => if client.closed then none else some addr
  | .connectStart addr =>
      if client.closed || (client.registry.lookup addr).isSome then none else some addr
  | _ => none

/-- Everything a thread can do, with its guards. -/
inductive Moved (client : Client) : Pc → Event → Client → Pc → Prop where
  | returns {pc : Pc} {event : Event} (free : ∀ ref, ¬ pc.Owes ref)
      (patient : ∀ ref tr, pc ≠ .awaitingDone ref tr) (outcome : Outcome) :
      Moved client pc event client (.returned outcome)
  | registered {pc : Pc} {addr : GoString} (registers : registers client pc = some addr) :
      Moved client pc .proceed (client.register addr) (.dialing addr client.sessions.length)
  | replaced {addr : GoString} {ref : Nat} (listed : client.registry.lookup addr = some ref) :
      Moved client (.connectStart addr) .proceed (client.unlist addr) (.closing ref (.relock addr))
  | dialed (addr : GoString) (ref : Nat) :
      Moved client (.dialing addr ref) .dials (client.install ref)
        (.launching addr ref client.transports.length)
  | dialFailed (addr : GoString) (ref : Nat) (cause shown : CocoonError) :
      Moved client (.dialing addr ref) (.dialFails cause) (client.update ref (·.fail shown))
        (.removing addr (some ref) (.error cause))
  | launched (addr : GoString) (ref tr : Nat) :
      Moved client (.launching addr ref tr) .proceed client (.handshaking addr ref tr)
  | handshaken (addr : GoString) (ref : Nat) {tr : Nat} {clientSCAddr : GoString}
      (answered : client.answerAt tr = some clientSCAddr) :
      Moved client (.handshaking addr ref tr) .handshakes
        (client.update ref (·.finish clientSCAddr)) (.spawning ref tr)
  | handshakeFailed (addr : GoString) (ref tr : Nat) (cause : CocoonError) :
      Moved client (.handshaking addr ref tr) (.handshakeFails cause)
        (client.update ref (·.fail cause)) (.closeFailed addr ref tr cause)
  | failedClosed (addr : GoString) (ref tr : Nat) (cause : CocoonError) :
      Moved client (.closeFailed addr ref tr cause) .proceed (client.closeTransport tr)
        (.removing addr (some ref) (.error cause))
  | lost {ref tr : Nat} {session : Session} (present : client.sessions[ref]? = some session)
      (lost : session.lost tr = true) :
      Moved client (.watching ref tr) .proceed client
        (.removing session.proxyAddr (some ref) (.ok none))
  | cancelled {ref : Nat} (tr : Nat) {session : Session}
      (present : client.sessions[ref]? = some session) (done : session.closeOnce = .finished) :
      Moved client (.awaitingDone ref tr) .proceed (client.cancel tr) (.returned (.ok none))
  | runEnded (tr : Nat) :
      Moved client (.running tr) .proceed (client.closeTransport tr) (.returned (.ok none))
  | runReads (tr : Nat) : Moved client (.running tr) .proceed client (.reading tr)
  | frameRead (tr : Nat) : Moved client (.reading tr) .reads client (.running tr)
  | delivered (tr : Nat) (clientSCAddr : GoString) :
      Moved client (.reading tr) (.delivers clientSCAddr) (client.deliver tr clientSCAddr)
        (.running tr)
  | readFailed (tr : Nat) :
      Moved client (.reading tr) .readFails (client.closeTransport tr) (.returned (.ok none))
  | removed {addr : GoString} (behalf : Option Nat) (outcome : Outcome) {ref : Nat}
      (listed : client.registry.lookup addr = some ref) :
      Moved client (.removing addr behalf outcome) .proceed (client.unlist addr)
        (.closing ref (.returns outcome))
  | closeBegun {ref : Nat} (after : AfterClose) {session : Session}
      (present : client.sessions[ref]? = some session) (unused : session.closeOnce = .unused) :
      Moved client (.closing ref after) .proceed (client.update ref (·.beginClose))
        (.closingTransport ref session.transport after)
  | closeSeen {ref : Nat} (after : AfterClose) {session : Session}
      (present : client.sessions[ref]? = some session) (onceEnded : session.closeOnce = .finished) :
      Moved client (.closing ref after) .proceed client after.pc
  | transportClosed (ref : Nat) (tr : Option Nat) (after : AfterClose) :
      Moved client (.closingTransport ref tr after) .proceed (closeOptional client tr)
        (.endingClose ref after)
  | closeEnded (ref : Nat) (after : AfterClose) :
      Moved client (.endingClose ref after) .proceed (client.update ref (·.endClose)) after.pc
  | clientClosed (opened : client.closed = false) :
      Moved client .clientClosing .proceed { client with closed := true, registry := ∅ }
        (.closeRest (client.registry.entries.map (·.2)))
  | picked {remaining : List Nat} {ref : Nat} (member : ref ∈ remaining) :
      Moved client (.closeRest remaining) (.closes ref) client
        (.closing ref (.closeRest (remaining.erase ref)))

theorem connect_start_moved {client next : Client} {addr : GoString} {pc : Pc}
    (moved : connectStart client addr = some (next, pc)) :
    Moved client (.connectStart addr) .proceed next pc := by
  unfold connectStart at moved
  split_ifs at moved with empty closed
  · cases moved
    exact .returns (by simp [Pc.Owes]) (by simp) _
  · cases moved
    exact .returns (by simp [Pc.Owes]) (by simp) _
  · cases listed : client.registry.lookup addr with
    | none =>
        rw [listed] at moved
        cases moved
        exact .registered (by simp [registers, closed, listed])
    | some ref =>
        rw [listed] at moved
        obtain ⟨session, _, same⟩ := Option.map_eq_some_iff.mp moved
        split_ifs at same
        · cases same
          exact .returns (by simp [Pc.Owes]) (by simp) _
        · cases same
          exact .replaced listed

theorem relock_moved {client : Client} {addr : GoString} :
    Moved client (.relock addr) .proceed (relock client addr).1 (relock client addr).2 := by
  unfold relock
  split_ifs with closed
  · exact .returns (by simp [Pc.Owes]) (by simp) _
  · exact .registered (by simp [registers, closed])

theorem remove_session_moved {client : Client} {addr : GoString} {behalf : Option Nat}
    {outcome : Outcome} :
    Moved client (.removing addr behalf outcome) .proceed (removeSession client addr outcome).1
      (removeSession client addr outcome).2 := by
  unfold removeSession
  cases listed : client.registry.lookup addr with
  | none => exact .returns (by simp [Pc.Owes]) (by simp) _
  | some ref => exact .removed behalf outcome listed

theorem remove_on_transport_close_moved {client next : Client} {ref tr : Nat} {pc : Pc}
    (moved : removeOnTransportClose client ref tr = some (next, pc)) :
    Moved client (.watching ref tr) .proceed next pc := by
  unfold removeOnTransportClose at moved
  split_ifs at moved
  obtain ⟨session, present, same⟩ := Option.map_eq_some_iff.mp moved
  split_ifs at same with lost
  · cases same
    exact .lost present lost
  · cases same
    exact .returns (by simp [Pc.Owes]) (by simp) _

theorem cancel_when_done_moved {client next : Client} {ref tr : Nat} {pc : Pc}
    (moved : cancelWhenDone client ref tr = some (next, pc)) :
    Moved client (.awaitingDone ref tr) .proceed next pc := by
  obtain ⟨session, present, same⟩ := Option.bind_eq_some_iff.mp moved
  split_ifs at same with done
  cases same
  exact .cancelled tr present done

theorem run_loop_moved {client next : Client} {tr : Nat} {pc : Pc}
    (moved : runLoop client tr = some (next, pc)) :
    Moved client (.running tr) .proceed next pc := by
  obtain ⟨transport, _, same⟩ := Option.map_eq_some_iff.mp moved
  split_ifs at same
  · cases same
    exact .runEnded tr
  · cases same
    exact .runReads tr

theorem enter_close_moved {client next : Client} {ref : Nat} {after : AfterClose} {pc : Pc}
    (moved : enterClose client ref after = some (next, pc)) :
    Moved client (.closing ref after) .proceed next pc := by
  obtain ⟨session, present, same⟩ := Option.bind_eq_some_iff.mp moved
  cases once : session.closeOnce with
  | unused =>
      rw [once] at same
      cases same
      exact .closeBegun after present once
  | running =>
      rw [once] at same
      cases same
  | finished =>
      rw [once] at same
      cases same
      exact .closeSeen after present once

theorem client_close_moved {client : Client} :
    Moved client .clientClosing .proceed (clientClose client).1 (clientClose client).2 := by
  unfold clientClose
  split_ifs with closed
  · exact .returns (by simp [Pc.Owes]) (by simp) _
  · exact .clientClosed (by simpa using closed)

variable {client next : Client} {pc nextPc : Pc} {event : Event}

theorem thread_moved (moved : threadStep client pc event = some (next, nextPc)) :
    Moved client pc event next nextPc := by
  unfold threadStep at moved
  split at moved
  · exact connect_start_moved moved
  · obtain ⟨rfl, rfl⟩ := Prod.mk.inj (Option.some.inj moved)
    exact relock_moved
  · cases moved
    exact .dialed _ _
  · cases moved
    exact .dialFailed _ _ _ _
  · cases moved
    exact .launched _ _ _
  · obtain ⟨clientSCAddr, answered, same⟩ := Option.map_eq_some_iff.mp moved
    cases same
    exact .handshaken _ _ answered
  · cases moved
    exact .handshakeFailed _ _ _ _
  · cases moved
    exact .failedClosed _ _ _ _
  · cases moved
    exact .returns (by simp [Pc.Owes]) (by simp) _
  · exact remove_on_transport_close_moved moved
  · exact cancel_when_done_moved moved
  · exact run_loop_moved moved
  · cases moved
    exact .frameRead _
  · cases moved
    exact .delivered _ _
  · cases moved
    exact .readFailed _
  · obtain ⟨rfl, rfl⟩ := Prod.mk.inj (Option.some.inj moved)
    exact remove_session_moved
  · exact enter_close_moved moved
  · cases moved
    exact .transportClosed _ _ _
  · cases moved
    exact .closeEnded _ _
  · obtain ⟨rfl, rfl⟩ := Prod.mk.inj (Option.some.inj moved)
    exact client_close_moved
  · cases moved
    exact .returns (by simp [Pc.Owes]) (by simp) _
  · split_ifs at moved with member
    cases moved
    exact .picked member
  · cases moved

/-- What a move makes of a session. -/
inductive Changed (pc nextPc : Pc) (ref : Nat) (before : Session) : Session → Prop where
  | kept : Changed pc nextPc ref before before
  | failed (connecting : pc.connecting ref = true) (cause : CocoonError) :
      Changed pc nextPc ref before (before.fail cause)
  | installed {addr : GoString} {tr : Nat} (here : pc = .dialing addr ref)
      (there : nextPc = .launching addr ref tr) : Changed pc nextPc ref before (before.install tr)
  | finished {addr : GoString} {tr : Nat} (here : pc = .handshaking addr ref tr)
      (there : nextPc = .spawning ref tr) (clientSCAddr : GoString) :
      Changed pc nextPc ref before (before.finish clientSCAddr)
  | begun {after : AfterClose} (here : pc = .closing ref after)
      (unused : before.closeOnce = .unused)
      (there : nextPc = .closingTransport ref before.transport after) :
      Changed pc nextPc ref before before.beginClose
  | ended {after : AfterClose} (here : pc = .endingClose ref after) (there : nextPc = after.pc) :
      Changed pc nextPc ref before before.endClose

theorem update_from {client : Client} {own ref : Nat} {change : Session → Session}
    {after : Session} (present : (client.update own change).sessions[ref]? = some after) :
    ∃ before, client.sessions[ref]? = some before ∧
      (own = ref ∧ after = change before ∨ own ≠ ref ∧ after = before) :=
  ObjectHeap.modified present

theorem session_from (moved : Moved client pc event next nextPc)
    {ref : Nat} {after : Session} (present : next.sessions[ref]? = some after) :
    (∃ before, client.sessions[ref]? = some before ∧ Changed pc nextPc ref before after) ∨
      ∃ addr, registers client pc = some addr ∧ ref = client.sessions.length ∧
        after = newSession addr ∧ nextPc = .dialing addr ref ∧ next = client.register addr := by
  have unchanged : next.sessions = client.sessions →
      ∃ before, client.sessions[ref]? = some before ∧ Changed pc nextPc ref before after := by
    intro same
    rw [same] at present
    exact ⟨after, present, .kept⟩
  have updated : ∀ own change, next = client.update own change →
      (∀ before, client.sessions[own]? = some before →
        Changed pc nextPc own before (change before)) →
      ∃ before, client.sessions[ref]? = some before ∧ Changed pc nextPc ref before after := by
    intro own change same effect
    rw [same] at present
    obtain ⟨before, found, ⟨rfl, rfl⟩ | ⟨_, rfl⟩⟩ := update_from present
    · exact ⟨before, found, effect before found⟩
    · exact ⟨after, found, .kept⟩
  cases moved with
  | registered registers =>
      rcases ObjectHeap.allocated present with old | ⟨rfl, rfl⟩
      · exact Or.inl ⟨after, old, .kept⟩
      · exact Or.inr ⟨_, registers, rfl, rfl, rfl, rfl⟩
  | dialed addr own =>
      obtain ⟨before, found, ⟨rfl, rfl⟩ | ⟨_, rfl⟩⟩ := ObjectHeap.modified present
      · exact Or.inl ⟨before, found, .installed rfl rfl⟩
      · exact Or.inl ⟨after, found, .kept⟩
  | dialFailed addr own cause shown =>
      exact Or.inl (updated own _ rfl fun _ _ => .failed (by simp [Pc.connecting]) shown)
  | handshaken addr own answered =>
      exact Or.inl (updated own _ rfl fun _ _ => .finished rfl rfl _)
  | handshakeFailed addr own tr cause =>
      exact Or.inl (updated own _ rfl fun _ _ => .failed (by simp [Pc.connecting]) cause)
  | closeBegun after found unused =>
      refine Or.inl (updated _ _ rfl ?_)
      intro before same
      obtain rfl := Option.some.inj (found.symm.trans same)
      exact .begun rfl unused rfl
  | closeEnded own after => exact Or.inl (updated own _ rfl fun _ _ => .ended rfl rfl)
  | transportClosed own tr after =>
      refine Or.inl (unchanged ?_)
      cases tr <;> rfl
  | _ => exact Or.inl (unchanged rfl)

theorem sessions_grow (moved : Moved client pc event next nextPc) :
    client.sessions.length ≤ next.sessions.length := by
  cases moved with
  | transportClosed own tr after => cases tr <;> exact le_refl _
  | _ => simp [Client.register, Client.update, Client.install, Client.unlist,
      Client.closeTransport, Client.cancel, Client.deliver, Client.onTransport]

theorem session_of (moved : Moved client pc event next nextPc)
    {ref : Nat} {before : Session} (present : client.sessions[ref]? = some before) :
    ∃ after, next.sessions[ref]? = some after ∧ Changed pc nextPc ref before after := by
  have bound := ObjectHeap.stored_bound present
  have inside : ref < next.sessions.length := lt_of_lt_of_le bound (sessions_grow moved)
  have found : next.sessions[ref]? = some next.sessions[ref] := List.getElem?_eq_getElem inside
  rcases session_from moved found with ⟨same, stored, changed⟩ | ⟨_, _, fresh, _⟩
  · obtain rfl := Option.some.inj (present.symm.trans stored)
    exact ⟨_, found, changed⟩
  · omega

theorem changed_addr {pc nextPc : Pc} {ref : Nat} {before after : Session}
    (changed : Changed pc nextPc ref before after) : after.proxyAddr = before.proxyAddr := by
  cases changed <;> rfl

/-- A begun `Close` is never undone. -/
theorem changed_once {pc nextPc : Pc} {ref : Nat} {before after : Session}
    (changed : Changed pc nextPc ref before after) (begun : before.closeOnce ≠ .unused) :
    after.closeOnce ≠ .unused := by
  cases changed with
  | ended _ _ => simp [Session.endClose]
  | begun _ _ _ => simp [Session.beginClose]
  | _ => exact begun

theorem begun_survives (moved : Moved client pc event next nextPc) {ref : Nat} {session : Session}
    (present : client.sessions[ref]? = some session) (begun : session.closeOnce ≠ .unused) :
    ∃ after, next.sessions[ref]? = some after ∧ after.closeOnce ≠ .unused := by
  obtain ⟨after, stored, changed⟩ := session_of moved present
  exact ⟨after, stored, changed_once changed begun⟩

theorem registry_from (moved : Moved client pc event next nextPc)
    {addr : GoString} {ref : Nat} (listed : next.registry.lookup addr = some ref) :
    client.registry.lookup addr = some ref ∨
      (registers client pc = some addr ∧ ref = client.sessions.length) := by
  have erased : ∀ other, next.registry = client.registry.erase other →
      client.registry.lookup addr = some ref := by
    intro other same
    rw [same] at listed
    by_cases equal : addr = other
    · subst equal
      rw [AList.lookup_erase] at listed
      cases listed
    · rwa [AList.lookup_erase_ne equal] at listed
  cases moved with
  | @registered _ own registers =>
      by_cases equal : addr = own
      · subst equal
        have here : (client.registry.insert addr client.sessions.length).lookup addr = some ref :=
          listed
        rw [AList.lookup_insert] at here
        exact Or.inr ⟨registers, (Option.some.inj here).symm⟩
      · have there : (client.registry.insert own client.sessions.length).lookup addr = some ref :=
          listed
        rw [AList.lookup_insert_ne equal] at there
        exact Or.inl there
  | replaced _ => exact Or.inl (erased _ rfl)
  | removed _ _ _ => exact Or.inl (erased _ rfl)
  | clientClosed _ => cases listed
  | transportClosed own tr after =>
      cases tr <;> exact Or.inl listed
  | _ => exact Or.inl listed

/-- What a move leaves of a transport. -/
structure TransportAfter (pc : Pc) (tr : Nat) (before after : Transport) : Prop where
  owner : after.owner = before.owner
  closed : before.closed = true → after.closed = true
  shut : ∀ ref rest, pc = .closingTransport ref (some tr) rest → after.closed = true
  cancelled : before.cancelled = true → after.cancelled = true
  done : ∀ ref, pc = .awaitingDone ref tr → after.cancelled = true

theorem transport_untouched {tr : Nat} {after : Transport}
    (stored : client.transports[tr]? = some after)
    (notClosing : ∀ ref rest, pc ≠ .closingTransport ref (some tr) rest)
    (notWaiting : ∀ ref, pc ≠ .awaitingDone ref tr) :
    ∃ before, client.transports[tr]? = some before ∧ TransportAfter pc tr before after :=
  ⟨after, stored, rfl, id, fun ref rest here => absurd here (notClosing ref rest), id,
    fun ref here => absurd here (notWaiting ref)⟩

theorem transport_touched {own tr : Nat} {change : Transport → Transport} {after : Transport}
    (stored : (client.onTransport own change).transports[tr]? = some after)
    (effect : ∀ transport, TransportAfter pc tr transport (change transport))
    (closesOwn : ∀ ref rest, pc = .closingTransport ref (some tr) rest → own = tr)
    (waitsOwn : ∀ ref, pc = .awaitingDone ref tr → own = tr) :
    ∃ before, client.transports[tr]? = some before ∧ TransportAfter pc tr before after := by
  obtain ⟨before, found, ⟨_, rfl⟩ | ⟨different, rfl⟩⟩ := ObjectHeap.modified stored
  · exact ⟨before, found, effect before⟩
  · exact ⟨after, found, rfl, id, fun ref rest here => absurd (closesOwn ref rest here) different,
      id, fun ref here => absurd (waitsOwn ref here) different⟩

theorem transport_closed {own tr : Nat} {after : Transport}
    (stored : (client.closeTransport own).transports[tr]? = some after)
    (closesOwn : ∀ ref rest, pc = .closingTransport ref (some tr) rest → own = tr)
    (notWaiting : ∀ ref, pc ≠ .awaitingDone ref tr) :
    ∃ before, client.transports[tr]? = some before ∧ TransportAfter pc tr before after :=
  transport_touched stored
    (fun _ => ⟨rfl, fun _ => rfl, fun _ _ _ => rfl, id,
      fun ref here => absurd here (notWaiting ref)⟩)
    closesOwn fun ref here => absurd here (notWaiting ref)

theorem transport_from (moved : Moved client pc event next nextPc) {tr : Nat} {after : Transport}
    (stored : next.transports[tr]? = some after) :
    (∃ before, client.transports[tr]? = some before ∧ TransportAfter pc tr before after) ∨
    ∃ addr ref, pc = .dialing addr ref ∧ next = client.install ref ∧
      nextPc = .launching addr ref tr ∧ tr = client.transports.length ∧
      after = ⟨ref, false, false, none⟩ := by
  cases moved with
  | dialed addr ref =>
      rcases ObjectHeap.allocated stored with old | ⟨rfl, rfl⟩
      · exact Or.inl ⟨after, old, rfl, id, nofun, id, nofun⟩
      · exact Or.inr ⟨addr, ref, rfl, rfl, rfl, rfl, rfl⟩
  | failedClosed _ _ own _ => exact Or.inl (transport_closed stored nofun nofun)
  | runEnded own => exact Or.inl (transport_closed stored nofun nofun)
  | readFailed own => exact Or.inl (transport_closed stored nofun nofun)
  | cancelled own _ _ =>
      refine Or.inl (transport_touched stored
        (fun _ => ⟨rfl, id, nofun, fun _ => rfl, fun _ _ => rfl⟩) nofun ?_)
      intro ref here
      cases here
      rfl
  | delivered own clientSCAddr =>
      refine Or.inl (transport_touched stored ?_ nofun nofun)
      intro transport
      split_ifs with closed
      · exact ⟨rfl, id, nofun, id, nofun⟩
      · exact ⟨rfl, fun shut => absurd shut closed, nofun, id, nofun⟩
  | transportClosed ref own rest =>
      left
      cases own with
      | none => exact transport_untouched stored nofun nofun
      | some own =>
          refine transport_closed stored ?_ nofun
          intro _ _ here
          cases here
          rfl
  | returns free patient _ =>
      refine Or.inl (transport_untouched stored ?_ fun ref => patient ref tr)
      rintro ref rest rfl
      exact free ref (Or.inl rfl)
  | registered registers =>
      refine Or.inl (transport_untouched stored ?_ ?_)
      · rintro ref rest rfl
        cases registers
      · rintro ref rfl
        cases registers
  | _ => exact Or.inl (transport_untouched stored nofun nofun)

inductive Entry : Pc → Prop where
  | connectProxy (addr : GoString) : Entry (.connectStart addr)
  | disconnectProxy (addr : GoString) : Entry (.removing addr none (.ok none))
  | close : Entry .clientClosing
  | closeSession (ref : Nat) : Entry (.closing ref (.returns (.ok none)))

/-- What a label does to the system. -/
inductive StepCase (system next : System) : Label → Prop where
  | entered {label : Label} {pc : Pc} (entry : Entry pc)
      (same : next = system.start ⟨false, pc⟩) : StepCase system next label
  | ran {position : Nat} {event : Event} {thread : Thread} {client : Client} {pc : Pc}
      (present : system.threads[position]? = some thread)
      (moved : Moved system.shared thread.pc event client pc)
      (same : next = system.after position ⟨client, { thread with pc := pc }, started thread.pc⟩) :
      StepCase system next (.run position event)

theorem step_case {system next : System} {label : Label} (taken : step system label = some next) :
    StepCase system next label := by
  cases label with
  | connectProxy addr => exact .entered (.connectProxy addr) (Option.some.inj taken).symm
  | disconnectProxy addr => exact .entered (.disconnectProxy addr) (Option.some.inj taken).symm
  | close => exact .entered .close (Option.some.inj taken).symm
  | closeSession ref =>
      simp only [step] at taken
      split_ifs at taken
      exact .entered (.closeSession ref) (Option.some.inj taken).symm
  | run position event =>
      obtain ⟨thread, move, present, moved, same⟩ := run_cases taken
      obtain ⟨⟨client, pc⟩, stepped, rfl⟩ := Option.map_eq_some_iff.mp moved
      exact .ran present (thread_moved stepped) same

/-- A thread past the locked part of a `Close` works on a session whose once body has
begun. -/
def BodyBegun (client : Client) (thread : Thread) : Prop :=
  ∀ ref, thread.pc.inBody ref = true →
    ∃ session, client.sessions[ref]? = some session ∧ session.closeOnce ≠ .unused

theorem moved_in_body
    (moved : Moved client pc event next nextPc) {ref : Nat} (inBody : nextPc.inBody ref = true) :
    pc.inBody ref = true ∨ ∃ session, client.sessions[ref]? = some session ∧
      next = client.update ref (·.beginClose) := by
  cases moved with
  | closeBegun after present unused =>
      obtain rfl := of_decide_eq_true inBody
      exact Or.inr ⟨_, present, rfl⟩
  | transportClosed own tr after => exact Or.inl inBody
  | closeSeen after _ _ => cases after <;> cases inBody
  | closeEnded own after => cases after <;> cases inBody
  | _ => cases inBody

theorem step_bodies_begun {system next : System} {label : Label}
    (holds : ∀ thread ∈ system.threads, BodyBegun system.shared thread)
    (taken : step system label = some next) :
    ∀ thread ∈ next.threads, BodyBegun next.shared thread := by
  cases step_case taken with
  | entered entry same =>
      subst same
      intro other member
      rcases List.mem_append.mp member with old | new
      · exact holds other old
      · obtain rfl := List.mem_singleton.mp new
        intro ref inBody
        cases entry <;> cases inBody
  | ran present moved same =>
      subst same
      refine run_everywhere present holds ?_ ?_ ?_
      · intro known ref inBody
        rcases moved_in_body moved inBody with before | ⟨session, found, rfl⟩
        · obtain ⟨session, found, begun⟩ := known ref before
          exact begun_survives moved found begun
        · refine ⟨session.beginClose, ?_, by simp [Session.beginClose]⟩
          simp [Client.update, found]
      · intro _ fresh member ref inBody
        cases started_cases member <;> cases inBody
      · intro other _ known ref inBody
        obtain ⟨session, found, begun⟩ := known ref inBody
        exact begun_survives moved found begun

end Gocoon.SessionRegistry
