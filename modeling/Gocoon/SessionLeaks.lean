import Gocoon.SessionRegistry

/-!
# What Client.Close leaves behind

Every session is in the map, or some thread is going to close it, or its `Close` has run;
every transport is closed, or stored in its session, or about to be closed by a thread in
the session's `Close`. A run keeps both as long as a new session never overwrites an entry
of the map and no transport is stored in a session that is being closed. When in addition
no handler is in the middle of closing a session at the moment `Client.Close` empties the
map, nothing is left open once all calls have returned.
-/

namespace Gocoon.SessionLeaks

open Gocoon.TlPrimitives
open Gocoon.CocoonErrors
open Gocoon.ProxySession
open Gocoon.ThreadPool
open Gocoon.TransitionRuns
open Gocoon.SessionRegistry

set_option autoImplicit false

def closes : Pc → Bool
  | .closing .. | .closingTransport .. | .endingClose .. | .closeRest _ => true
  | _ => false

/-- A registration overwrites nothing, a transport is stored only in a session that is not
being closed, and `Client.Close` starts while no handler is closing a session. -/
def keepsTrack (system : System) : Label → Bool
  | .run position event =>
      match pcAt system position, event with
      | some (.relock addr), _ => (system.shared.registry.lookup addr).isNone
      | some (.dialing _ ref), .dials => closeUnused system.shared ref
      | some .clientClosing, _ =>
          system.shared.closed ||
            system.threads.all fun thread => !(thread.handler && closes thread.pc)
      | _, _ => true
  | _ => true

theorem owes_closes {pc : Pc} {ref : Nat} (owes : pc.Owes ref) : closes pc = true := by
  cases pc <;> first | rfl | exact absurd owes id

theorem free_not_owes {pc : Pc} (free : closes pc = false) (ref : Nat) : ¬ pc.Owes ref := by
  intro owes
  rw [owes_closes owes] at free
  cases free

variable {client next : Client} {pc nextPc : Pc} {event : Event}

/-- An entry of the map stays, or the mover is going to close its session, or it is
overwritten. -/
theorem registry_kept (moved : Moved client pc event next nextPc)
    {addr : GoString} {ref : Nat} (listed : client.registry.lookup addr = some ref) :
    next.registry.lookup addr = some ref ∨ nextPc.Owes ref ∨ registers client pc = some addr := by
  have erased : ∀ {other own : _} {after : AfterClose},
      client.registry.lookup other = some own → nextPc = .closing own after →
      (client.unlist other).registry.lookup addr = some ref ∨ nextPc.Owes ref := by
    intro other own after found goesOn
    by_cases equal : addr = other
    · subst equal
      right
      rw [goesOn]
      exact Or.inl (Option.some.inj (found.symm.trans listed))
    · exact Or.inl ((AList.lookup_erase_ne equal).trans listed)
  cases moved with
  | @registered _ own registers =>
      by_cases equal : addr = own
      · subst equal
        exact Or.inr (Or.inr registers)
      · exact Or.inl ((AList.lookup_insert_ne equal).trans listed)
  | replaced found => exact (erased found rfl).imp_right Or.inl
  | removed _ _ found => exact (erased found rfl).imp_right Or.inl
  | clientClosed _ =>
      right
      left
      have entry := (AList.mem_lookup_iff (s := client.registry)).mp (Option.mem_def.mpr listed)
      exact List.mem_map.mpr ⟨⟨addr, ref⟩, entry, rfl⟩
  | transportClosed own tr after => cases tr <;> exact Or.inl listed
  | _ => exact Or.inl listed

theorem owes_kept (moved : Moved client pc event next nextPc)
    {ref : Nat} (owes : pc.Owes ref) {after : Session}
    (stored : next.sessions[ref]? = some after) :
    nextPc.Owes ref ∨ after.closeOnce = .finished := by
  cases moved with
  | returns free _ _ => exact absurd owes (free ref)
  | registered registers => cases pc <;> first | cases registers | exact absurd owes id
  | closeBegun rest _ _ => exact Or.inl owes
  | transportClosed own tr rest => exact Or.inl owes
  | closeSeen rest present onceEnded =>
      rcases owes with rfl | later
      · right
        rw [present] at stored
        rw [← Option.some.inj stored]
        exact onceEnded
      · exact Or.inl ((after_close_owes rest ref).mpr later)
  | closeEnded own rest =>
      rcases owes with rfl | later
      · right
        obtain ⟨before, _, ⟨_, rfl⟩ | ⟨different, _⟩⟩ := update_from stored
        · rfl
        · exact absurd rfl different
      · exact Or.inl ((after_close_owes rest ref).mpr later)
  | @picked remaining own member =>
      left
      by_cases same : own = ref
      · exact Or.inl same
      · exact Or.inr ((List.mem_erase_of_ne fun equal => same equal.symm).mpr owes)
  | _ => exact absurd owes id

theorem owes_from (moved : Moved client pc event next nextPc)
    {ref : Nat} (owes : nextPc.Owes ref) :
    pc.Owes ref ∨ (∃ addr, client.registry.lookup addr = some ref) := by
  cases moved with
  | replaced listed =>
      rcases owes with rfl | later
      · exact Or.inr ⟨_, listed⟩
      · exact absurd later id
  | removed _ _ listed =>
      rcases owes with rfl | later
      · exact Or.inr ⟨_, listed⟩
      · exact absurd later id
  | closeBegun rest _ _ => exact Or.inl owes
  | transportClosed own tr rest => exact Or.inl owes
  | closeSeen rest _ _ => exact Or.inl (Or.inr ((after_close_owes rest ref).mp owes))
  | closeEnded own rest => exact Or.inl (Or.inr ((after_close_owes rest ref).mp owes))
  | clientClosed _ =>
      right
      obtain ⟨⟨addr, found⟩, entry, rfl⟩ := List.mem_map.mp owes
      exact ⟨addr, Option.mem_def.mp (AList.mem_lookup_iff.mpr entry)⟩
  | picked member =>
      rcases owes with rfl | later
      · exact Or.inl member
      · exact Or.inl (List.mem_of_mem_erase later)
  | _ => exact absurd owes id

theorem changed_finished {pc nextPc : Pc} {ref : Nat} {before after : Session}
    (changed : Changed pc nextPc ref before after) (onceEnded : before.closeOnce = .finished) :
    after.closeOnce = .finished := by
  cases changed with
  | begun _ unused _ =>
      rw [onceEnded] at unused
      cases unused
  | ended _ _ => rfl
  | _ => exact onceEnded

/-- Someone answers for the session: the map, a thread that owes it its `Close`, or the
`Close` that has run. -/
def Accounted (system : System) (ref : Nat) (session : Session) : Prop :=
  system.shared.registry.lookup session.proxyAddr = some ref ∨
    (∃ thread ∈ system.threads, thread.pc.Owes ref) ∨ session.closeOnce = .finished

structure SessionsTracked (system : System) : Prop where
  accounted : ∀ (ref : Nat) (session : Session),
    system.shared.sessions[ref]? = some session → Accounted system ref session
  emptied : system.shared.closed = true → ∀ addr, system.shared.registry.lookup addr = none
  handlersFree : system.shared.closed = true → ∀ thread ∈ system.threads, thread.handler = true →
    ∀ ref, ¬ thread.pc.Owes ref
  handlersCalled : ∀ thread ∈ system.threads, thread.handler = true → thread.pc ≠ .clientClosing

theorem relock_overwrites_nothing {system : System} {position : Nat} {event : Event}
    {thread : Thread} {addr : GoString}
    (track : keepsTrack system (.run position event) = true)
    (present : system.threads[position]? = some thread)
    (registering : registers system.shared thread.pc = some addr) :
    system.shared.registry.lookup addr = none := by
  cases pcIs : thread.pc with
  | relock own =>
      rw [pcIs] at registering
      simp only [registers] at registering
      split_ifs at registering
      obtain rfl := Option.some.inj registering
      simpa [keepsTrack, pc_at_present present, pcIs] using track
  | connectStart own =>
      rw [pcIs] at registering
      simp only [registers] at registering
      split_ifs at registering with taken
      obtain rfl := Option.some.inj registering
      simp only [Bool.or_eq_true, not_or, Bool.not_eq_true, Option.isSome_eq_false_iff,
        Option.isNone_iff_eq_none] at taken
      exact taken.2
  | _ =>
      rw [pcIs] at registering
      cases registering

theorem moved_accounted {system : System} {position : Nat} {event : Event} {thread : Thread}
    {client : Client} {pc : Pc} (holds : SessionsTracked system)
    (track : keepsTrack system (.run position event) = true)
    (present : system.threads[position]? = some thread)
    (moved : Moved system.shared thread.pc event client pc) {ref : Nat} {after : Session}
    (stored : client.sessions[ref]? = some after) :
    Accounted (system.after position ⟨client, { thread with pc := pc }, started thread.pc⟩) ref
      after := by
  have byMover : pc.Owes ref →
      ∃ other ∈ (system.after position
        ⟨client, { thread with pc := pc }, started thread.pc⟩).threads, other.pc.Owes ref := by
    intro owes
    exact ⟨_, List.mem_of_getElem? (mover_present present), owes⟩
  rcases session_from moved stored with ⟨before, found, changed⟩ | ⟨addr, _, rfl, rfl, _, rfl⟩
  · rcases holds.accounted ref before found with listed | ⟨other, member, owes⟩ | onceEnded
    · rw [← changed_addr changed] at listed
      rcases registry_kept moved listed with kept | owes | registering
      · exact Or.inl kept
      · exact Or.inr (Or.inl (byMover owes))
      · rw [relock_overwrites_nothing track present registering] at listed
        cases listed
    · obtain ⟨place, found⟩ := List.mem_iff_getElem?.mp member
      by_cases same : place = position
      · subst same
        obtain rfl := Option.some.inj (present.symm.trans found)
        rcases owes_kept moved owes stored with goesOn | onceEnded
        · exact Or.inr (Or.inl (byMover goesOn))
        · exact Or.inr (Or.inr onceEnded)
      · exact Or.inr (Or.inl ⟨other, List.mem_of_getElem? (other_present found same), owes⟩)
    · exact Or.inr (Or.inr (changed_finished changed onceEnded))
  · left
    exact AList.lookup_insert _

theorem closed_from (moved : Moved client pc event next nextPc)
    (closed : next.closed = true) :
    client.closed = true ∨ (client.closed = false ∧ pc = .clientClosing ∧
      ∀ addr, next.registry.lookup addr = none) := by
  cases moved with
  | clientClosed opened => exact Or.inr ⟨opened, rfl, fun _ => rfl⟩
  | transportClosed own tr after => cases tr <;> exact Or.inl closed
  | _ => exact Or.inl closed

theorem client_closing_entered
    (moved : Moved client pc event next nextPc) : nextPc ≠ .clientClosing := by
  cases moved with
  | closeSeen after _ _ => cases after <;> simp [AfterClose.pc]
  | closeEnded own after => cases after <;> simp [AfterClose.pc]
  | _ => simp

theorem moved_emptied (moved : Moved client pc event next nextPc)
    (emptied : client.closed = true → ∀ addr, client.registry.lookup addr = none)
    (closed : next.closed = true) (addr : GoString) : next.registry.lookup addr = none := by
  rcases closed_from moved closed with before | ⟨_, _, empty⟩
  · cases listed : next.registry.lookup addr with
    | none => rfl
    | some ref =>
        rcases registry_from moved listed with old | ⟨registering, _⟩
        · rw [emptied before addr] at old
          cases old
        · cases pc with
          | relock own => simp [registers, before] at registering
          | connectStart own => simp [registers, before] at registering
          | _ => cases registering
  · exact empty addr

theorem moved_handlers_free {system : System} {position : Nat} {event : Event} {thread : Thread}
    {client : Client} {pc : Pc} (holds : SessionsTracked system)
    (track : keepsTrack system (.run position event) = true)
    (present : system.threads[position]? = some thread)
    (moved : Moved system.shared thread.pc event client pc) (closed : client.closed = true) :
    ∀ other ∈ (system.after position ⟨client, { thread with pc := pc }, started thread.pc⟩).threads,
      other.handler = true → ∀ ref, ¬ other.pc.Owes ref := by
  have old : ∀ other ∈ system.threads, other.handler = true → ∀ ref, ¬ other.pc.Owes ref := by
    rcases closed_from moved closed with before | ⟨opened, closing, _⟩
    · exact holds.handlersFree before
    · simp only [keepsTrack, pc_at_present present, closing, opened, Bool.false_or,
        List.all_eq_true] at track
      intro other member handler ref
      have free := track other member
      rw [handler] at free
      exact free_not_owes (by simpa using free) ref
  intro other member handler ref owes
  obtain ⟨place, found⟩ := List.mem_iff_getElem?.mp member
  rcases thread_origin found with ⟨_, rfl⟩ | ⟨_, stays⟩ | ⟨_, fresh⟩
  · rcases owes_from moved owes with before | ⟨addr, listed⟩
    · exact old thread (List.mem_of_getElem? present) handler ref before
    · rcases closed_from moved closed with before | ⟨_, closing, _⟩
      · rw [holds.emptied before addr] at listed
        cases listed
      · exact holds.handlersCalled thread (List.mem_of_getElem? present) handler closing
  · exact old other (List.mem_of_getElem? stays) handler ref owes
  · cases started_cases fresh <;> exact owes

theorem step_sessions_tracked {system next : System} {label : Label}
    (holds : SessionsTracked system) (track : keepsTrack system label = true)
    (taken : step system label = some next) : SessionsTracked next := by
  cases step_case taken with
  | entered entry same =>
      subst same
      refine ⟨?_, holds.emptied, ?_, ?_⟩
      · intro ref session present
        refine (holds.accounted ref session present).imp_right (Or.imp_left ?_)
        rintro ⟨thread, member, owes⟩
        exact ⟨thread, List.mem_append_left _ member, owes⟩
      · intro closed thread member handler ref
        rcases List.mem_append.mp member with old | new
        · exact holds.handlersFree closed thread old handler ref
        · obtain rfl := List.mem_singleton.mp new
          cases handler
      · intro thread member handler
        rcases List.mem_append.mp member with old | new
        · exact holds.handlersCalled thread old handler
        · obtain rfl := List.mem_singleton.mp new
          cases handler
  | ran present moved same =>
      subst same
      refine ⟨fun _ _ stored => moved_accounted holds track present moved stored,
        moved_emptied moved holds.emptied, moved_handlers_free holds track present moved, ?_⟩
      intro thread member handler
      obtain ⟨place, found⟩ := List.mem_iff_getElem?.mp member
      rcases thread_origin found with ⟨_, rfl⟩ | ⟨_, stays⟩ | ⟨_, fresh⟩
      · exact client_closing_entered moved
      · exact holds.handlersCalled thread (List.mem_of_getElem? stays) handler
      · cases started_cases fresh <;> simp

theorem pc_at_from {system : System} {position other : Nat} {thread : Thread} {client : Client}
    {nextPc pc : Pc}
    (found : pcAt (system.after position ⟨client, { thread with pc := nextPc }, started thread.pc⟩)
      other = some pc) :
    (other = position ∧ pc = nextPc) ∨ (other ≠ position ∧ pcAt system other = some pc) ∨
      ∃ fresh, Started thread.pc fresh ∧ pc = fresh.pc := by
  obtain ⟨present, stored, rfl⟩ := Option.map_eq_some_iff.mp found
  rcases thread_origin stored with ⟨same, rfl⟩ | ⟨different, stays⟩ | ⟨_, fresh⟩
  · exact Or.inl ⟨same, rfl⟩
  · exact Or.inr (Or.inl ⟨different, pc_at_present stays⟩)
  · exact Or.inr (Or.inr ⟨present, started_cases fresh, rfl⟩)

theorem pc_at_start_from {system : System} {thread : Thread} {position : Nat} {pc : Pc}
    (found : pcAt (system.start thread) position = some pc) :
    pcAt system position = some pc ∨ pc = thread.pc := by
  obtain ⟨present, stored, rfl⟩ := Option.map_eq_some_iff.mp found
  rcases ObjectHeap.allocated stored with old | ⟨_, rfl⟩
  · exact Or.inl (pc_at_present old)
  · exact Or.inr rfl

/-- The transport is closed, or stored in its session, or a thread is about to close it. -/
def Held (system : System) (tr : Nat) (transport : Transport) : Prop :=
  transport.closed = true ∨
    (∃ session, system.shared.sessions[transport.owner]? = some session ∧
      session.transport = some tr) ∨
    ∃ position after, pcAt system position =
      some (.closingTransport transport.owner (some tr) after)

structure TransportsTracked (system : System) : Prop where
  bodies : ∀ thread ∈ system.threads, BodyBegun system.shared thread
  dialing : ∀ position addr ref, pcAt system position = some (.dialing addr ref) →
    ∃ session, system.shared.sessions[ref]? = some session ∧ session.transport = none
  single : ∀ left right addr other ref, pcAt system left = some (.dialing addr ref) →
    pcAt system right = some (.dialing other ref) → left = right
  closedEmpty : ∀ (ref : Nat) (session : Session), system.shared.sessions[ref]? = some session →
    session.closeOnce ≠ .unused → session.transport = none
  held : ∀ (tr : Nat) (transport : Transport),
    system.shared.transports[tr]? = some transport → Held system tr transport

theorem dialing_from {client next : Client} {pc : Pc} {event : Event} {addr : GoString} {ref : Nat}
    (moved : Moved client pc event next (.dialing addr ref)) :
    ref = client.sessions.length ∧ next = client.register addr := by
  generalize target : Pc.dialing addr ref = nextPc at moved
  cases moved with
  | registered registers =>
      cases target
      exact ⟨rfl, rfl⟩
  | closeSeen after _ _ => cases after <;> cases target
  | closeEnded own after => cases after <;> cases target
  | _ => cases target

theorem changed_transport {pc nextPc : Pc} {ref : Nat} {before after : Session}
    (changed : Changed pc nextPc ref before after) :
    after.transport = before.transport ∨ (∃ addr, pc = .dialing addr ref) ∨
      (after.transport = none ∧
        ∃ rest, nextPc = .closingTransport ref before.transport rest) := by
  cases changed with
  | installed here _ => exact Or.inr (Or.inl ⟨_, here⟩)
  | begun _ _ there => exact Or.inr (Or.inr ⟨rfl, _, there⟩)
  | _ => exact Or.inl rfl

section TransportStep

variable {system : System} {position : Nat} {thread : Thread}

theorem moved_dialing (holds : TransportsTracked system)
    (present : system.threads[position]? = some thread)
    (moved : Moved system.shared thread.pc event client nextPc) {other : Nat} {addr : GoString}
    {ref : Nat}
    (dials : pcAt (system.after position ⟨client, { thread with pc := nextPc }, started thread.pc⟩)
      other = some (.dialing addr ref)) :
    ∃ session, client.sessions[ref]? = some session ∧ session.transport = none := by
  rcases pc_at_from dials with ⟨_, rfl⟩ | ⟨different, before⟩ | ⟨_, fresh, impossible⟩
  · obtain ⟨rfl, rfl⟩ := dialing_from moved
    exact ⟨newSession addr, List.getElem?_concat_length, rfl⟩
  · obtain ⟨session, found, empty⟩ := holds.dialing other addr ref before
    obtain ⟨after, stored, changed⟩ := session_of moved found
    refine ⟨after, stored, ?_⟩
    rcases changed_transport changed with same | ⟨own, dialing⟩ | ⟨none, _⟩
    · rw [same, empty]
    · have here := pc_at_present present
      rw [dialing] at here
      exact absurd (holds.single other position addr own ref before here) different
    · exact none
  · cases fresh <;> cases impossible

theorem moved_single (holds : TransportsTracked system)
    (moved : Moved system.shared thread.pc event client nextPc) {left right : Nat}
    {addr other : GoString} {ref : Nat}
    (leftDials : pcAt (system.after position
      ⟨client, { thread with pc := nextPc }, started thread.pc⟩) left = some (.dialing addr ref))
    (rightDials : pcAt (system.after position
      ⟨client, { thread with pc := nextPc }, started thread.pc⟩) right =
        some (.dialing other ref)) : left = right := by
  -- The mover dials only for the session it has just created, for which nobody dialed before.
  have fresh : ∀ {place own}, Pc.dialing own ref = nextPc →
      ∀ {another}, pcAt system place = some (.dialing another ref) → False := by
    rintro place own rfl another before
    obtain ⟨rfl, _⟩ := dialing_from moved
    obtain ⟨session, found, _⟩ := holds.dialing place another _ before
    exact absurd (ObjectHeap.stored_bound found) (lt_irrefl _)
  rcases pc_at_from leftDials with ⟨leftHere, leftMoved⟩ | ⟨_, leftBefore⟩ | ⟨_, new, impossible⟩
  · rcases pc_at_from rightDials with ⟨rightHere, _⟩ | ⟨_, rightBefore⟩ | ⟨_, new, impossible⟩
    · rw [leftHere, rightHere]
    · exact absurd rightBefore fun before => fresh leftMoved before
    · cases new <;> cases impossible
  · rcases pc_at_from rightDials with ⟨_, rightMoved⟩ | ⟨_, rightBefore⟩ | ⟨_, new, impossible⟩
    · exact absurd leftBefore fun before => fresh rightMoved before
    · exact holds.single left right addr other ref leftBefore rightBefore
    · cases new <;> cases impossible
  · cases new <;> cases impossible

theorem dial_before_close (track : keepsTrack system (.run position .dials) = true)
    (present : system.threads[position]? = some thread) {addr : GoString} {ref : Nat}
    (dialing : thread.pc = .dialing addr ref) {session : Session}
    (found : system.shared.sessions[ref]? = some session) : session.closeOnce = .unused := by
  simp only [keepsTrack, pc_at_present present, dialing, closeUnused, found] at track
  exact of_decide_eq_true track

theorem moved_closed_empty (holds : TransportsTracked system)
    (track : keepsTrack system (.run position event) = true)
    (present : system.threads[position]? = some thread)
    (moved : Moved system.shared thread.pc event client nextPc) {ref : Nat} {after : Session}
    (stored : client.sessions[ref]? = some after) (begun : after.closeOnce ≠ .unused) :
    after.transport = none := by
  rcases session_from moved stored with ⟨before, found, changed⟩ | ⟨addr, _, _, rfl, _⟩
  · cases changed with
    | kept => exact holds.closedEmpty ref after found begun
    | failed _ cause => exact holds.closedEmpty ref before found begun
    | finished _ _ _ => exact holds.closedEmpty ref before found begun
    | begun _ _ _ => rfl
    | installed here there =>
        rw [here, there] at moved
        cases moved with
        | dialed addr own => exact absurd (dial_before_close track present here found) begun
    | ended here _ =>
        have inBody : thread.pc.inBody ref = true := by
          rw [here]
          exact decide_eq_true rfl
        obtain ⟨same, found', begunBefore⟩ :=
          holds.bodies thread (List.mem_of_getElem? present) ref inBody
        obtain rfl := Option.some.inj (found.symm.trans found')
        exact holds.closedEmpty ref before found begunBefore
  · exact absurd rfl begun

theorem moved_held (holds : TransportsTracked system)
    (present : system.threads[position]? = some thread)
    (moved : Moved system.shared thread.pc event client nextPc) {tr : Nat} {after : Transport}
    (stored : client.transports[tr]? = some after) :
    Held (system.after position ⟨client, { thread with pc := nextPc }, started thread.pc⟩) tr
      after := by
  have here := pc_at_present present
  rcases transport_from moved stored with ⟨before, found, changed⟩ |
    ⟨addr, ref, dialing, rfl, _, rfl, rfl⟩
  · rcases holds.held tr before found with shutNow | ⟨session, kept, inside⟩ |
      ⟨place, rest, closing⟩
    · exact Or.inl (changed.closed shutNow)
    · obtain ⟨later, storedLater, sessionChanged⟩ := session_of moved kept
      rw [← changed.owner] at storedLater
      rcases changed_transport sessionChanged with same | ⟨addr, dialing⟩ | ⟨_, rest, there⟩
      · exact Or.inr (Or.inl ⟨later, storedLater, same.trans inside⟩)
      · rw [dialing] at here
        obtain ⟨same, kept', empty⟩ := holds.dialing position addr before.owner here
        obtain rfl := Option.some.inj (kept.symm.trans kept')
        rw [empty] at inside
        cases inside
      · refine Or.inr (Or.inr ⟨position, rest, ?_⟩)
        rw [pc_at_present (mover_present present), there, inside, changed.owner]
    · by_cases same : place = position
      · subst same
        exact Or.inl (changed.shut _ rest (Option.some.inj (here.symm.trans closing)))
      · obtain ⟨other, storedOther, isClosing⟩ := Option.map_eq_some_iff.mp closing
        refine Or.inr (Or.inr ⟨place, rest, ?_⟩)
        rw [pc_at_present (other_present storedOther same), isClosing, changed.owner]
  · rw [dialing] at here
    obtain ⟨session, found, _⟩ := holds.dialing position addr ref here
    refine Or.inr (Or.inl ⟨session.install system.shared.transports.length, ?_, rfl⟩)
    simp [Pool.after, Client.install, found]

end TransportStep

theorem step_transports_tracked {system next : System} {label : Label}
    (holds : TransportsTracked system) (track : keepsTrack system label = true)
    (taken : step system label = some next) : TransportsTracked next := by
  have bodies := step_bodies_begun holds.bodies taken
  cases step_case taken with
  | @entered _ pc entry same =>
      subst same
      have dials : ∀ {position addr ref},
          pcAt (system.start ⟨false, pc⟩) position = some (.dialing addr ref) →
          pcAt system position = some (.dialing addr ref) := by
        intro position addr ref found
        rcases pc_at_start_from found with old | new
        · exact old
        · cases entry <;> cases new
      refine ⟨bodies, ?_, ?_, holds.closedEmpty, ?_⟩
      · exact fun position addr ref found => holds.dialing position addr ref (dials found)
      · exact fun left right addr other ref leftFound rightFound =>
          holds.single left right addr other ref (dials leftFound) (dials rightFound)
      · intro tr transport stored
        refine (holds.held tr transport stored).imp_right (Or.imp_right ?_)
        rintro ⟨position, rest, closing⟩
        obtain ⟨thread, found, isClosing⟩ := Option.map_eq_some_iff.mp closing
        refine ⟨position, rest, ?_⟩
        rw [pcAt, Pool.start, ObjectHeap.kept_after_allocation found, Option.map_some, isClosing]
  | ran present moved same =>
      subst same
      exact ⟨bodies, fun _ _ _ dials => moved_dialing holds present moved dials,
        fun _ _ _ _ _ left right => moved_single holds moved left right,
        fun _ _ stored begun => moved_closed_empty holds track present moved stored begun,
        fun _ _ stored => moved_held holds present moved stored⟩

theorem initial_tracked : SessionsTracked initial ∧ TransportsTracked initial := by
  refine ⟨⟨?_, ?_, ?_, ?_⟩, ⟨?_, ?_, ?_, ?_, ?_⟩⟩
  · intro ref session present
    cases present
  · intro closed
    cases closed
  · intro closed
    cases closed
  · intro thread member
    cases member
  · intro thread member
    cases member
  · intro position addr ref found
    cases found
  · intro left right addr other ref found
    cases found
  · intro ref session present
    cases present
  · intro tr transport stored
    cases stored

/-- All calls have returned; handlers may still wait. -/
def callsReturned (system : System) : Bool :=
  system.threads.all fun thread =>
    thread.handler || match thread.pc with
      | .returned _ => true
      | _ => false

theorem returned_not_closing {system : System} (returned : callsReturned system = true)
    {thread : Thread} (member : thread ∈ system.threads) (caller : thread.handler = false) :
    closes thread.pc = false := by
  have done := List.all_eq_true.mp returned thread member
  rw [caller] at done
  cases pcIs : thread.pc <;> rw [pcIs] at done <;> first | rfl | cases done

/-- In every run that keeps track, once the client is closed and all calls have returned,
the `Close` of every session has run and all its transports are closed. -/
theorem close_leaks_no_session (labels : List Label) (system : System)
    (reached : runFrom step initial labels = some system)
    (track : EveryStep step (fun state label => keepsTrack state label = true) initial labels)
    (closed : system.shared.closed = true) (returned : callsReturned system = true)
    (ref : Nat) (session : Session) (present : system.shared.sessions[ref]? = some session) :
    session.closeOnce = .finished ∧ ∀ (tr : Nat) (transport : Transport),
      system.shared.transports[tr]? = some transport → transport.owner = ref →
        transport.closed = true := by
  obtain ⟨sessions, transports⟩ : SessionsTracked system ∧ TransportsTracked system := by
    refine guarded_invariant step _ initial
      (fun state => SessionsTracked state ∧ TransportsTracked state) initial_tracked ?_ labels
      system reached track
    rintro state label next ⟨sessions, transports⟩ allowed taken
    exact ⟨step_sessions_tracked sessions allowed taken,
      step_transports_tracked transports allowed taken⟩
  have nobodyOwes : ∀ thread ∈ system.threads, ∀ own, ¬ thread.pc.Owes own := by
    intro thread member own
    cases caller : thread.handler with
    | true => exact sessions.handlersFree closed thread member caller own
    | false => exact free_not_owes (returned_not_closing returned member caller) own
  have onceEnded : session.closeOnce = .finished := by
    rcases sessions.accounted ref session present with listed | ⟨thread, member, owes⟩ | onceEnded
    · rw [sessions.emptied closed] at listed
      cases listed
    · exact absurd owes (nobodyOwes thread member ref)
    · exact onceEnded
  refine ⟨onceEnded, ?_⟩
  intro tr transport stored owner
  rcases transports.held tr transport stored with shut | ⟨holder, found, inside⟩ |
    ⟨position, rest, closing⟩
  · exact shut
  · rw [owner] at found
    obtain rfl := Option.some.inj (present.symm.trans found)
    rw [transports.closedEmpty ref session present (by rw [onceEnded]; decide)] at inside
    cases inside
  · obtain ⟨thread, found, isClosing⟩ := Option.map_eq_some_iff.mp closing
    refine absurd ?_ (nobodyOwes thread (List.mem_of_getElem? found) transport.owner)
    rw [isClosing]
    exact Or.inl rfl

structure Ending where
  closed : Bool
  returned : Bool
  sessions : List (SessionStatus × CloseOnce)
  transports : List (Nat × Bool)
  deriving DecidableEq

def ending (system : System) : Ending where
  closed := system.shared.closed
  returned := callsReturned system
  sessions := system.shared.sessions.map fun session => (session.status, session.closeOnce)
  transports := system.shared.transports.map fun transport => (transport.owner, transport.closed)

def connectThenClose : List Label :=
  [.connectProxy [1], .run 0 .proceed, .run 0 .dials, .run 0 .proceed, .run 2 .proceed,
    .run 2 (.delivers []), .run 0 .handshakes, .run 0 .proceed, .close, .run 4 .proceed,
    .run 4 (.closes 0), .run 4 .proceed, .run 4 .proceed, .run 4 .proceed, .run 4 .proceed]

theorem connected_session_closed :
    ∃ system session, runFrom step initial connectThenClose = some system ∧
      system.shared.sessions[0]? = some session ∧ system.shared.transports.length = 1 ∧
      session.closeOnce = .finished ∧ ∀ (tr : Nat) (transport : Transport),
        system.shared.transports[tr]? = some transport → transport.owner = 0 →
          transport.closed = true := by
  have outcome : (runFrom step initial connectThenClose).map ending =
      some ⟨true, true, [(.disconnected, .finished)], [⟨0, true⟩]⟩ := by decide +kernel
  obtain ⟨system, reached, same⟩ := Option.map_eq_some_iff.mp outcome
  have closed : system.shared.closed = true := congrArg Ending.closed same
  have returned : callsReturned system = true := congrArg Ending.returned same
  have transports : system.shared.transports.length = 1 := by
    have single := congrArg List.length (congrArg Ending.transports same)
    simpa [ending] using single
  obtain ⟨session, single, _⟩ := List.map_eq_singleton_iff.mp (congrArg Ending.sessions same)
  have present : system.shared.sessions[0]? = some session := by
    rw [single]
    rfl
  refine ⟨system, session, reached, present, transports, ?_⟩
  exact close_leaks_no_session connectThenClose system reached
    (every_step_checked step keepsTrack initial connectThenClose (by decide +kernel)) closed
    returned 0 session present

/-- Three calls for one address and one `Client.Close`. The second call has taken the first
call's session out of the map and is closing it when the third call registers and connects
its own; the second then overwrites the entry. -/
def overwrittenEntry : List Label :=
  [.connectProxy [1], .run 0 .proceed, .connectProxy [1], .run 1 .proceed, .run 1 .proceed,
    .run 1 .proceed, .run 1 .proceed, .run 0 (.dialFails .connectionFailed), .run 0 .proceed,
    .connectProxy [1], .run 2 .proceed, .run 2 .dials, .run 2 .proceed, .run 4 .proceed,
    .run 4 (.delivers []), .run 2 .handshakes, .run 2 .proceed, .run 1 .proceed,
    .run 1 (.dialFails .connectionFailed), .run 1 .proceed, .run 1 .proceed, .run 1 .proceed,
    .run 1 .proceed, .close, .run 6 .proceed, .run 6 .proceed]

theorem overwritten_session_leaks :
    ∃ system, runFrom step initial overwrittenEntry = some system ∧
      ending system = ⟨true, true,
        [(.crashed, .finished), (.ready, .unused), (.disconnected, .finished)], [⟨1, false⟩]⟩ := by
  have outcome : (runFrom step initial overwrittenEntry).map ending =
      some ⟨true, true, [(.crashed, .finished), (.ready, .unused), (.disconnected, .finished)],
        [⟨1, false⟩]⟩ := by decide +kernel
  exact Option.map_eq_some_iff.mp outcome

end Gocoon.SessionLeaks
