import Gocoon.SessionRegistry

/-!
# Whom a failed session tears down

`removeSession` looks a session up by its address. A thread that acts for a session, its
`connect` or the handler of its transport, may therefore find a later session there. It
finds none but its own in every run in which a new session is registered only while no
thread has a removal for an earlier session of that address under way or to come.
-/

namespace Gocoon.SessionTeardown

open Gocoon.TlPrimitives
open Gocoon.CocoonErrors
open Gocoon.ProxySession
open Gocoon.ThreadPool
open Gocoon.TransitionRuns
open Gocoon.SessionRegistry

set_option autoImplicit false

def lostAt (client : Client) (ref tr : Nat) : Bool :=
  match client.sessions[ref]? with
  | some session => session.lost tr
  | none => false

/-- The session for which the thread may yet call `removeSession`. A handler does so only
while its transport is the one of a ready session. -/
def pending (client : Client) : Pc → Option Nat
  | .dialing _ ref | .launching _ ref _ | .handshaking _ ref _ | .closeFailed _ ref _ _
  | .spawning ref _ => some ref
  | .removing _ behalf _ => behalf
  | .watching ref tr => if lostAt client ref tr then some ref else none
  | _ => none

def sessionAddr (client : Client) (ref : Nat) : Option GoString :=
  client.sessions[ref]?.map Session.proxyAddr

/-- A session is registered only when no removal for its address is pending. -/
def registersQuietly (system : System) : Label → Bool
  | .run position _ =>
      match (pcAt system position).bind (registers system.shared) with
      | none => true
      | some addr => system.threads.all fun thread =>
          match pending system.shared thread.pc with
          | none => true
          | some ref => sessionAddr system.shared ref ≠ some addr
  | _ => true

/-- The address at which the thread will call `removeSession`, and for which session. -/
def target : Pc → Option (GoString × Nat)
  | .dialing addr ref | .launching addr ref _ | .handshaking addr ref _
  | .closeFailed addr ref _ _ => some (addr, ref)
  | .removing addr behalf _ => behalf.map fun ref => (addr, ref)
  | _ => none

/-- No session but `ref` is registered at the address of `ref`. -/
def Unrivalled (client : Client) (ref : Nat) : Prop :=
  ∃ addr, sessionAddr client ref = some addr ∧
    ∀ other, client.registry.lookup addr = some other → other = ref

structure ActsForItself (client : Client) (thread : Thread) : Prop where
  unrivalled : ∀ ref, pending client thread.pc = some ref → Unrivalled client ref
  addressed : ∀ addr ref, target thread.pc = some (addr, ref) →
    sessionAddr client ref = some addr

variable {client next : Client} {pc nextPc : Pc} {event : Event}

theorem session_addr_kept (moved : Moved client pc event next nextPc) {ref : Nat} {addr : GoString}
    (known : sessionAddr client ref = some addr) : sessionAddr next ref = some addr := by
  obtain ⟨session, present, same⟩ := Option.map_eq_some_iff.mp known
  obtain ⟨after, stored, changed⟩ := session_of moved present
  rw [sessionAddr, stored, ← same, ← changed_addr changed]
  rfl

theorem registered_addr (client : Client) (addr : GoString) :
    sessionAddr (client.register addr) client.sessions.length = some addr := by
  simp [sessionAddr, Client.register, newSession]

theorem quiet_elsewhere {system : System} {position : Nat} {event : Event} {thread other : Thread}
    {addr : GoString} {ref : Nat} (quiet : registersQuietly system (.run position event) = true)
    (present : system.threads[position]? = some thread)
    (registering : registers system.shared thread.pc = some addr) (member : other ∈ system.threads)
    (waiting : pending system.shared other.pc = some ref) :
    sessionAddr system.shared ref ≠ some addr := by
  simp only [registersQuietly, pc_at_present present, Option.bind_some, registering,
    List.all_eq_true] at quiet
  have allowed := quiet other member
  simp only [waiting] at allowed
  exact of_decide_eq_true allowed

/-- While a removal for a session is pending, no move brings it a rival. -/
theorem unrivalled_survives {system : System} {position : Nat} {event : Event}
    {thread other : Thread} {client : Client} {pc : Pc} {ref : Nat}
    (quiet : registersQuietly system (.run position event) = true)
    (present : system.threads[position]? = some thread)
    (moved : Moved system.shared thread.pc event client pc) (member : other ∈ system.threads)
    (waiting : pending system.shared other.pc = some ref)
    (unrivalled : Unrivalled system.shared ref) : Unrivalled client ref := by
  obtain ⟨addr, known, alone⟩ := unrivalled
  refine ⟨addr, session_addr_kept moved known, ?_⟩
  intro rival listed
  rcases registry_from moved listed with before | ⟨registering, _⟩
  · exact alone rival before
  · exact absurd known (quiet_elsewhere quiet present registering member waiting)

theorem lost_at_present {client : Client} {ref tr : Nat} (lost : lostAt client ref tr = true) :
    ∃ session, client.sessions[ref]? = some session ∧ session.lost tr = true := by
  unfold lostAt at lost
  cases present : client.sessions[ref]? with
  | none =>
      rw [present] at lost
      cases lost
  | some session =>
      rw [present] at lost
      exact ⟨session, rfl, lost⟩

theorem lost_from (moved : Moved client pc event next nextPc)
    {ref tr : Nat} (lost : lostAt next ref tr = true) :
    lostAt client ref tr = true ∨ pending client pc = some ref := by
  obtain ⟨after, stored, lostAfter⟩ := lost_at_present lost
  rcases session_from moved stored with ⟨before, found, changed⟩ | ⟨addr, _, _, rfl, _⟩
  · have same : before.lost tr = true → lostAt client ref tr = true := by
      intro lostBefore
      rw [lostAt, found]
      exact lostBefore
    cases changed with
    | kept => exact Or.inl (same lostAfter)
    | failed _ cause => simp [Session.lost, Session.fail] at lostAfter
    | installed here _ =>
        right
        rw [here]
        rfl
    | finished here _ _ =>
        right
        rw [here]
        rfl
    | begun _ _ _ => simp [Session.lost, Session.beginClose] at lostAfter
    | ended _ _ => exact Or.inl (same lostAfter)
  · simp [Session.lost, newSession] at lostAfter

/-- What a thread may remove after a move, some thread could remove before it, unless the
session has just been registered. -/
theorem pending_from (moved : Moved client pc event next nextPc)
    {ref : Nat} (waiting : pending next nextPc = some ref) :
    pending client pc = some ref ∨ ∃ addr, ref = client.sessions.length ∧
      next = client.register addr := by
  cases moved with
  | registered registers => exact Or.inr ⟨_, (Option.some.inj waiting).symm, rfl⟩
  | lost present lost =>
      left
      obtain rfl := Option.some.inj waiting
      simp [pending, lostAt, present, lost]
  | closeSeen after _ _ => cases after <;> cases waiting
  | closeEnded own after => cases after <;> cases waiting
  | dialed addr own => exact Or.inl waiting
  | dialFailed addr own _ _ => exact Or.inl waiting
  | launched addr own tr => exact Or.inl waiting
  | handshaken addr own _ => exact Or.inl waiting
  | handshakeFailed addr own tr _ => exact Or.inl waiting
  | failedClosed addr own tr _ => exact Or.inl waiting
  | _ => cases waiting

theorem other_pending_from {other : Pc} (moved : Moved client pc event next nextPc) {ref : Nat}
    (waiting : pending next other = some ref) :
    pending client other = some ref ∨ pending client pc = some ref := by
  cases other with
  | watching own tr =>
      simp only [pending] at waiting
      split_ifs at waiting with lost
      obtain rfl := Option.some.inj waiting
      rcases lost_from moved lost with before | mover
      · left
        simp [pending, before]
      · exact Or.inr mover
  | _ => exact Or.inl waiting

theorem target_from (moved : Moved client pc event next nextPc)
    {addr : GoString} {ref : Nat} (aims : target nextPc = some (addr, ref)) :
    target pc = some (addr, ref) ∨ sessionAddr next ref = some addr := by
  cases moved with
  | registered registers =>
      obtain ⟨rfl, rfl⟩ := Prod.mk.inj (Option.some.inj aims)
      exact Or.inr (registered_addr client _)
  | lost present _ =>
      obtain ⟨rfl, rfl⟩ := Prod.mk.inj (Option.some.inj aims)
      right
      rw [sessionAddr, present]
      rfl
  | closeSeen after _ _ => cases after <;> cases aims
  | closeEnded own after => cases after <;> cases aims
  | dialed addr own => exact Or.inl aims
  | dialFailed addr own _ _ => exact Or.inl aims
  | launched addr own tr => exact Or.inl aims
  | handshakeFailed addr own tr _ => exact Or.inl aims
  | failedClosed addr own tr _ => exact Or.inl aims
  | _ => cases aims

theorem idle_acts {client : Client} {thread : Thread} (idle : pending client thread.pc = none)
    (aimless : target thread.pc = none) : ActsForItself client thread where
  unrivalled ref waiting := by
    rw [idle] at waiting
    cases waiting
  addressed addr ref aims := by
    rw [aimless] at aims
    cases aims

theorem step_acts_for_itself {system next : System} {label : Label}
    (holds : ∀ thread ∈ system.threads, ActsForItself system.shared thread)
    (quiet : registersQuietly system label = true) (taken : step system label = some next) :
    ∀ thread ∈ next.threads, ActsForItself next.shared thread := by
  cases step_case taken with
  | entered entry same =>
      subst same
      intro other member
      rcases List.mem_append.mp member with old | new
      · exact holds other old
      · obtain rfl := List.mem_singleton.mp new
        cases entry <;> exact idle_acts rfl rfl
  | @ran position _ thread client _ present moved same =>
      subst same
      have survives : ∀ {ref : Nat} {other : Thread}, other ∈ system.threads →
          pending system.shared other.pc = some ref → Unrivalled client ref := by
        intro ref other member waiting
        exact unrivalled_survives quiet present moved member waiting
          ((holds other member).unrivalled ref waiting)
      have mover := List.mem_of_getElem? present
      refine run_everywhere present holds ?_ ?_ ?_
      · intro acts
        constructor
        · intro ref waiting
          rcases pending_from moved waiting with before | ⟨addr, rfl, rfl⟩
          · exact survives mover before
          · refine ⟨addr, registered_addr _ addr, ?_⟩
            intro other listed
            have here : (system.shared.registry.insert addr
                system.shared.sessions.length).lookup addr = some other := listed
            rw [AList.lookup_insert] at here
            exact (Option.some.inj here).symm
        · intro addr ref aims
          rcases target_from moved aims with before | known
          · exact session_addr_kept moved (acts.addressed addr ref before)
          · exact known
      · intro _ fresh member
        cases started_cases member with
        | canceller _ => exact idle_acts rfl rfl
        | reader _ => exact idle_acts rfl rfl
        | watcher spawning =>
            refine ⟨?_, fun _ _ aims => nomatch aims⟩
            intro ref waiting
            simp only [pending] at waiting
            split_ifs at waiting
            obtain rfl := Option.some.inj waiting
            exact survives mover (by rw [spawning]; rfl)
      · intro other member acts
        constructor
        · intro ref waiting
          rcases other_pending_from moved waiting with before | byMover
          · exact survives member before
          · exact survives mover byMover
        · intro addr ref aims
          exact session_addr_kept moved (acts.addressed addr ref aims)

theorem remove_session_own {client : Client} {addr : GoString} {ref : Nat} (outcome : Outcome)
    (alone : ∀ other, client.registry.lookup addr = some other → other = ref) :
    (∀ address other, other ≠ ref → client.registry.lookup address = some other →
      (removeSession client addr outcome).1.registry.lookup address = some other) ∧
    ((removeSession client addr outcome).2 = .returned outcome ∨
      (removeSession client addr outcome).2 = .closing ref (.returns outcome)) := by
  unfold removeSession
  cases listed : client.registry.lookup addr with
  | none => exact ⟨fun _ _ _ kept => kept, Or.inl rfl⟩
  | some found =>
      obtain rfl := alone found listed
      refine ⟨?_, Or.inr rfl⟩
      intro address other different kept
      have elsewhere : address ≠ addr := by
        rintro rfl
        exact different (Option.some.inj (kept.symm.trans listed))
      exact (AList.lookup_erase_ne elsewhere).trans kept

/-- In every run that registers sessions quietly, the removal that is done because a session
failed to connect or lost its transport deletes no other session and goes on to close none
but that session. -/
theorem removal_tears_down_only_itself (labels : List Label) (system next : System)
    (reached : runFrom step initial labels = some system)
    (quiet : EveryStep step (fun state label => registersQuietly state label = true) initial labels)
    (position : Nat) (event : Event) (addr : GoString) (ref : Nat) (outcome : Outcome)
    (removing : pcAt system position = some (.removing addr (some ref) outcome))
    (taken : step system (.run position event) = some next) :
    (∀ address other, other ≠ ref → system.shared.registry.lookup address = some other →
      next.shared.registry.lookup address = some other) ∧
    (pcAt next position = some (.returned outcome) ∨
      pcAt next position = some (.closing ref (.returns outcome))) := by
  have holds : ∀ thread ∈ system.threads, ActsForItself system.shared thread := by
    refine guarded_invariant step _ initial
      (fun state => ∀ thread ∈ state.threads, ActsForItself state.shared thread) ?_ ?_ labels system
      reached quiet
    · intro thread member
      cases member
    · exact fun _ _ _ holds allowed taken => step_acts_for_itself holds allowed taken
  obtain ⟨thread, move, present, moved, rfl⟩ := run_cases taken
  obtain ⟨⟨client, pc⟩, stepped, rfl⟩ := Option.map_eq_some_iff.mp moved
  have pcIs : thread.pc = .removing addr (some ref) outcome :=
    Option.some.inj ((pc_at_present present).symm.trans removing)
  have acts := holds thread (List.mem_of_getElem? present)
  have nextPc : pcAt (system.after position ⟨client, { thread with pc := pc }, started thread.pc⟩)
      position = some pc := by
    rw [pcAt, mover_present present]
    rfl
  rw [nextPc]
  rw [pcIs] at stepped
  cases event with
  | proceed =>
      obtain ⟨rfl, rfl⟩ := Prod.mk.inj (Option.some.inj stepped)
      obtain ⟨own, known, alone⟩ := acts.unrivalled ref (by rw [pcIs]; rfl)
      have aimed := acts.addressed addr ref (by rw [pcIs]; rfl)
      obtain rfl : own = addr := Option.some.inj (known.symm.trans aimed)
      obtain ⟨kept, goesOn⟩ := remove_session_own outcome alone
      exact ⟨kept, goesOn.imp (congrArg some) (congrArg some)⟩
  | _ => cases stepped

def failingConnect : List Label :=
  [.connectProxy [1], .run 0 .proceed, .run 0 (.dialFails .connectionFailed)]

theorem failed_session_closes_itself :
    ∃ system next, runFrom step initial failingConnect = some system ∧
      step system (.run 0 .proceed) = some next ∧
      pcAt system 0 = some (.removing [1] (some 0) (.error .connectionFailed)) ∧
      pcAt next 0 = some (.closing 0 (.returns (.error .connectionFailed))) := by
  have outcome : ((runFrom step initial failingConnect).map fun system =>
      (pcAt system 0, (step system (.run 0 .proceed)).map fun next => pcAt next 0)) =
      some (some (.removing [1] (some 0) (.error .connectionFailed)),
        some (some (.closing 0 (.returns (.error .connectionFailed))))) := by decide +kernel
  obtain ⟨system, reached, same⟩ := Option.map_eq_some_iff.mp outcome
  obtain ⟨removing, stepped⟩ := Prod.mk.inj same
  obtain ⟨next, taken, closing⟩ := Option.map_eq_some_iff.mp stepped
  refine ⟨system, next, reached, taken, removing, ?_⟩
  have only := removal_tears_down_only_itself failingConnect system next reached
    (every_step_checked step registersQuietly initial failingConnect (by decide +kernel)) 0 .proceed
    [1] 0 (.error .connectionFailed) removing taken
  rcases only.2 with returned | closes
  · rw [returned] at closing
    cases closing
  · exact closes

/-- While the first `connect` dials, a second one replaces its session and becomes ready;
then the first dial fails. -/
def replacedWhileDialing : List Label :=
  [.connectProxy [1], .run 0 .proceed, .connectProxy [1], .run 1 .proceed, .run 1 .proceed,
    .run 1 .proceed, .run 1 .proceed, .run 1 .proceed, .run 1 .dials, .run 1 .proceed,
    .run 3 .proceed, .run 3 (.delivers []), .run 1 .handshakes, .run 1 .proceed,
    .run 0 (.dialFails .connectionFailed)]

/-- The first call removes what it finds at the address. -/
def firstCallRemoves : List Label :=
  [.run 0 .proceed, .run 0 .proceed, .run 0 .proceed, .run 0 .proceed]

structure View where
  firstCall : Option Pc
  listed : Option Nat
  statuses : List SessionStatus
  transports : List (Nat × Bool)
  deriving DecidableEq

def view (system : System) : View where
  firstCall := pcAt system 0
  listed := system.shared.registry.lookup [1]
  statuses := system.shared.sessions.map (·.status)
  transports := system.shared.transports.map fun transport => (transport.owner, transport.closed)

theorem failed_session_closes_its_successor :
    ∃ system after, runFrom step initial replacedWhileDialing = some system ∧
      view system = ⟨some (.removing [1] (some 0) (.error .connectionFailed)), some 1,
        [.crashed, .ready], [⟨1, false⟩]⟩ ∧
      runFrom step system firstCallRemoves = some after ∧
      view after = ⟨some (.returned (.error .connectionFailed)), none,
        [.crashed, .disconnected], [⟨1, true⟩]⟩ := by
  have outcome : ((runFrom step initial replacedWhileDialing).map fun system =>
      (view system, (runFrom step system firstCallRemoves).map view)) =
      some (⟨some (.removing [1] (some 0) (.error .connectionFailed)), some 1,
        [.crashed, .ready], [⟨1, false⟩]⟩,
        some ⟨some (.returned (.error .connectionFailed)), none,
          [.crashed, .disconnected], [⟨1, true⟩]⟩) := by decide +kernel
  obtain ⟨system, reached, same⟩ := Option.map_eq_some_iff.mp outcome
  obtain ⟨viewed, later⟩ := Prod.mk.inj same
  obtain ⟨after, removed, viewedAfter⟩ := Option.map_eq_some_iff.mp later
  exact ⟨system, after, reached, viewed, removed, viewedAfter⟩

end Gocoon.SessionTeardown
