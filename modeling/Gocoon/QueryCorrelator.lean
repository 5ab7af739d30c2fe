import Gocoon.BufferedChannel
import Gocoon.CocoonErrors
import Gocoon.ObjectHeap
import Gocoon.TransitionRuns
import Mathlib.Data.List.AList
import Mathlib.Data.List.Nodup

/-!
# The query correlator

`pending` maps a query id to a pointer, so the objects live in a heap and a pointer
stays valid after its entry is deleted. A critical section is one step. The channel
send that `deliver`, `fail` and `failAll` make after unlocking is a later step of its
own: between the two, the value waits in `inFlight` of the registration it was taken
for, and any goroutine may move in between. `gcExpired` sends while it holds the lock.
The caller's receives are steps as well. `sent` and the registered id are history: no
operation reads them.
-/

namespace Gocoon.QueryCorrelator

open Gocoon.BufferedChannel
open Gocoon.CocoonErrors
open Gocoon.LittleEndianBytes
open Gocoon.TransitionRuns

set_option autoImplicit false

abbrev QueryID := Int64

structure PendingQuery where
  answer : Channel (List Byte)
  err : Channel CocoonError
  deadline : Int
  deriving DecidableEq

/-- A value on its way to one of the two channels of a query. -/
inductive Resolution where
  | answer (payload : List Byte)
  | error (err : CocoonError)
  deriving DecidableEq

structure Registration where
  id : QueryID
  query : PendingQuery
  inFlight : List Resolution
  sent : List Resolution
  deriving DecidableEq

structure Correlator where
  pending : AList fun _ : QueryID => Nat
  closed : Bool

structure Correlations where
  corr : Correlator
  heap : List Registration

abbrev PendingEntry := Sigma fun _ : QueryID => Nat

def PendingEntry.ref (entry : PendingEntry) : Nat := entry.2

def newCorrelator : Correlations where
  corr := { pending := ∅, closed := false }
  heap := []

def newRegistration (id : QueryID) (deadline : Int) : Registration where
  id := id
  query := { answer := make 1, err := make 1, deadline := deadline }
  inFlight := []
  sent := []

def register (world : Correlations) (id : QueryID) (now timeout : Int) :
    Except CocoonError Nat × Correlations :=
  if world.corr.closed then (.error .correlatorClosed, world)
  else if (world.corr.pending.lookup id).isSome then (.error .duplicateQueryID, world)
  else
    let ref := world.heap.length
    (.ok ref,
      { corr := { world.corr with pending := world.corr.pending.insert id ref }
        heap := world.heap ++ [newRegistration id (now + timeout)] })

def Registration.queue (cell : Registration) (value : Resolution) : Registration :=
  { cell with inFlight := cell.inFlight ++ [value] }

/-- The critical section shared by `deliver` and `fail`: take the entry out of the map and
keep its pointer for the send that follows. -/
def take (world : Correlations) (id : QueryID) (value : Resolution) : Bool × Correlations :=
  match world.corr.pending.lookup id with
  | none => (false, world)
  | some ref =>
      (true,
        { corr := { world.corr with pending := world.corr.pending.erase id }
          heap := world.heap.modify ref (·.queue value) })

def deliver (world : Correlations) (id : QueryID) (payload : List Byte) :
    Bool × Correlations :=
  take world id (.answer payload)

def fail (world : Correlations) (id : QueryID) (err : CocoonError) : Bool × Correlations :=
  take world id (.error err)

def failAll (world : Correlations) (err : CocoonError) : Correlations where
  corr := { pending := ∅, closed := true }
  heap := world.corr.pending.entries.foldl
    (fun heap entry => heap.modify (PendingEntry.ref entry) (·.queue (.error err))) world.heap

/-- The `select` with a default case: a full channel drops the value. A closed channel
panics, which no step of the model does. -/
def Registration.trySend (cell : Registration) (value : Resolution) : Option Registration :=
  match value with
  | .answer payload =>
      match cell.query.answer.trySend payload with
      | .sent channel =>
          some { cell with query := { cell.query with answer := channel }
                           sent := cell.sent ++ [value] }
      | .full => some cell
      | .panicked => none
  | .error err =>
      match cell.query.err.trySend err with
      | .sent channel =>
          some { cell with query := { cell.query with err := channel }
                           sent := cell.sent ++ [value] }
      | .full => some cell
      | .panicked => none

def send (world : Correlations) (ref position : Nat) : Option Correlations := do
  let cell ← world.heap[ref]?
  let value ← cell.inFlight[position]?
  let next ← ({ cell with inFlight := cell.inFlight.eraseIdx position }).trySend value
  some { world with heap := world.heap.set ref next }

/-- One round of the loop of `gcExpired`: an expired entry is deleted and its error sent
under the lock. -/
def gcEntry (now : Int) (state : Nat × Correlations) (entry : PendingEntry) :
    Option (Nat × Correlations) := do
  let cell ← state.2.heap[entry.2]?
  if cell.query.deadline < now then
    let taken := (take state.2 entry.1 (.error .requestTimeout)).2
    let sent ← send taken entry.2 cell.inFlight.length
    some (state.1 + 1, sent)
  else some state

def gcExpired (world : Correlations) (now : Int) : Option (Nat × Correlations) :=
  if world.corr.closed then some (0, world)
  else world.corr.pending.entries.foldlM (gcEntry now) (0, world)

def receiveAnswer (world : Correlations) (ref : Nat) : Option (List Byte × Correlations) := do
  let cell ← world.heap[ref]?
  match cell.query.answer.receive with
  | some (some payload, channel) =>
      some (payload, { world with
        heap := world.heap.set ref { cell with query := { cell.query with answer := channel } } })
  | _ => none

def receiveErr (world : Correlations) (ref : Nat) : Option (CocoonError × Correlations) := do
  let cell ← world.heap[ref]?
  match cell.query.err.receive with
  | some (some err, channel) =>
      some (err, { world with
        heap := world.heap.set ref { cell with query := { cell.query with err := channel } } })
  | _ => none

inductive CorrelatorStep where
  | register (id : QueryID) (now timeout : Int)
  | deliver (id : QueryID) (payload : List Byte)
  | fail (id : QueryID) (err : CocoonError)
  | failAll (err : CocoonError)
  | gcExpired (now : Int)
  | send (ref position : Nat)
  | receiveAnswer (ref : Nat)
  | receiveErr (ref : Nat)
  deriving DecidableEq

def step (world : Correlations) : CorrelatorStep → Option Correlations
  | .register id now timeout => some (register world id now timeout).2
  | .deliver id payload => some (deliver world id payload).2
  | .fail id err => some (fail world id err).2
  | .failAll err => some (failAll world err)
  | .gcExpired now => (gcExpired world now).map Prod.snd
  | .send ref position => send world ref position
  | .receiveAnswer ref => (receiveAnswer world ref).map Prod.snd
  | .receiveErr ref => (receiveErr world ref).map Prod.snd

def Untouched (cell : Registration) : Prop :=
  cell.query.answer.buffer = [] ∧ cell.query.err.buffer = [] ∧ cell.sent = [] ∧
    cell.inFlight = []

/-- Exactly one value over both channels: still held by the call that removed the
registration, with both channels empty, or already sent. -/
def ResolvedOnce (cell : Registration) (value : Resolution) : Prop :=
  (cell.inFlight = [value] ∧ cell.sent = [] ∧ cell.query.answer.buffer = [] ∧
    cell.query.err.buffer = []) ∨
  (cell.inFlight = [] ∧ cell.sent = [value])

/-- Open one-slot channels; an answer that waits to be received was sent. -/
def ChannelsReady (cell : Registration) : Prop :=
  cell.query.answer.capacity = 1 ∧ cell.query.answer.closed = false ∧
    cell.query.err.capacity = 1 ∧ cell.query.err.closed = false ∧
    ∀ payload ∈ cell.query.answer.buffer, .answer payload ∈ cell.sent

/-- The invariant of every reachable state. -/
structure Consistent (world : Correlations) : Prop where
  owned : ∀ id ref, world.corr.pending.lookup id = some ref →
    ∃ cell, world.heap[ref]? = some cell ∧ cell.id = id
  ready : ∀ (ref : Nat) cell, world.heap[ref]? = some cell → ChannelsReady cell
  waiting : ∀ (ref : Nat) cell, world.heap[ref]? = some cell →
    world.corr.pending.lookup cell.id = some ref → Untouched cell
  resolved : ∀ (ref : Nat) cell, world.heap[ref]? = some cell →
    world.corr.pending.lookup cell.id ≠ some ref → ∃ value, ResolvedOnce cell value
  drained : world.corr.closed = true → world.corr.pending = ∅

theorem new_correlator_consistent : Consistent newCorrelator where
  owned := by intro id ref found; simp [newCorrelator] at found
  ready := by intro ref cell found; simp [newCorrelator] at found
  waiting := by intro ref cell found; simp [newCorrelator] at found
  resolved := by intro ref cell found; simp [newCorrelator] at found
  drained := by intro _; rfl

theorem new_registration_ready (id : QueryID) (deadline : Int) :
    ChannelsReady (newRegistration id deadline) :=
  ⟨rfl, rfl, rfl, rfl, by intro payload held; cases held⟩

theorem new_registration_untouched (id : QueryID) (deadline : Int) :
    Untouched (newRegistration id deadline) := ⟨rfl, rfl, rfl, rfl⟩

theorem owned_in_heap {world : Correlations} (holds : Consistent world) {id : QueryID}
    {ref : Nat} (found : world.corr.pending.lookup id = some ref) : ref < world.heap.length := by
  obtain ⟨cell, present, -⟩ := holds.owned id ref found
  exact ObjectHeap.stored_bound present

theorem register_consistent (world : Correlations) (id : QueryID) (now timeout : Int)
    (holds : Consistent world) : Consistent (register world id now timeout).2 := by
  unfold register
  by_cases shut : world.corr.closed = true
  · simpa [shut] using holds
  by_cases duplicate : (world.corr.pending.lookup id).isSome = true
  · simpa [shut, duplicate] using holds
  have absent : world.corr.pending.lookup id = none := by simpa using duplicate
  simp only [shut, duplicate, if_false, Bool.false_eq_true]
  have fresh : ∀ other ref, world.corr.pending.lookup other = some ref →
      ref ≠ world.heap.length := by
    intro other ref found same
    have bound := owned_in_heap holds found
    omega
  -- an old cell is looked up as before: the new entry has another id and a fresh pointer
  have oldLookup : ∀ (ref : Nat) cell, world.heap[ref]? = some cell →
      ((world.corr.pending.insert id world.heap.length).lookup cell.id = some ref ↔
        world.corr.pending.lookup cell.id = some ref) := by
    intro ref cell present
    have bound := ObjectHeap.stored_bound present
    by_cases same : cell.id = id
    · rw [same, AList.lookup_insert, absent]
      simp
      omega
    · rw [AList.lookup_insert_ne same]
  constructor
  · intro other ref found
    by_cases same : other = id
    · subst same
      rw [AList.lookup_insert] at found
      obtain rfl := Option.some.inj found
      exact ⟨newRegistration other (now + timeout), by simp, rfl⟩
    · rw [AList.lookup_insert_ne same] at found
      obtain ⟨cell, present, owner⟩ := holds.owned other ref found
      exact ⟨cell, ObjectHeap.kept_after_allocation present, owner⟩
  · intro ref cell present
    rcases ObjectHeap.allocated present with old | ⟨-, rfl⟩
    · exact holds.ready ref cell old
    · exact new_registration_ready id _
  · intro ref cell present found
    rcases ObjectHeap.allocated present with old | ⟨-, rfl⟩
    · exact holds.waiting ref cell old ((oldLookup ref cell old).mp found)
    · exact new_registration_untouched id _
  · intro ref cell present missing
    rcases ObjectHeap.allocated present with old | ⟨rfl, rfl⟩
    · exact holds.resolved ref cell old fun found => missing ((oldLookup ref cell old).mpr found)
    · exact absurd (AList.lookup_insert _) missing
  · intro closed
    simp at closed

theorem untouched_queue (cell : Registration) (value : Resolution) (fresh : Untouched cell) :
    ResolvedOnce (cell.queue value) value := by
  obtain ⟨answerEmpty, errEmpty, nothingSent, nothingQueued⟩ := fresh
  left
  refine ⟨?_, nothingSent, answerEmpty, errEmpty⟩
  simp [Registration.queue, nothingQueued]

theorem take_consistent (world : Correlations) (id : QueryID) (value : Resolution)
    (holds : Consistent world) : Consistent (take world id value).2 := by
  unfold take
  cases found : world.corr.pending.lookup id with
  | none => exact holds
  | some ref =>
      obtain ⟨owner, ownerPresent, ownerId⟩ := holds.owned id ref found
      -- only the cell behind the deleted entry loses its place in the map
      have kept : ∀ (other : Nat) cell, world.heap[other]? = some cell → other ≠ ref →
          ((world.corr.pending.erase id).lookup cell.id = some other ↔
            world.corr.pending.lookup cell.id = some other) := by
        intro other cell present different
        by_cases same : cell.id = id
        · rw [same, AList.lookup_erase, found]
          simp
          exact fun equal => different equal.symm
        · rw [AList.lookup_erase_ne same]
      constructor
      · intro other otherRef otherFound
        have different : other ≠ id := by
          rintro rfl
          rw [AList.lookup_erase] at otherFound
          cases otherFound
        rw [AList.lookup_erase_ne different] at otherFound
        obtain ⟨cell, present, cellId⟩ := holds.owned other otherRef otherFound
        refine ⟨if ref = otherRef then cell.queue value else cell, ?_, ?_⟩
        · simp [List.getElem?_modify, present]
        · split_ifs <;> exact cellId
      · intro other cell present
        obtain ⟨before, beforePresent, ⟨-, rfl⟩ | ⟨-, rfl⟩⟩ := ObjectHeap.modified present
        · exact holds.ready other before beforePresent
        · exact holds.ready other cell beforePresent
      · intro other cell present waits
        obtain ⟨before, beforePresent, ⟨rfl, rfl⟩ | ⟨different, rfl⟩⟩ := ObjectHeap.modified present
        · rw [ownerPresent] at beforePresent
          obtain rfl := Option.some.inj beforePresent
          have gone : (world.corr.pending.erase id).lookup (owner.queue value).id = none := by
            rw [show (owner.queue value).id = id from ownerId]
            exact AList.lookup_erase id _
          rw [gone] at waits
          cases waits
        · exact holds.waiting other cell beforePresent
            ((kept other cell beforePresent different.symm).mp waits)
      · intro other cell present missing
        obtain ⟨before, beforePresent, ⟨rfl, rfl⟩ | ⟨different, rfl⟩⟩ := ObjectHeap.modified present
        · rw [ownerPresent] at beforePresent
          obtain rfl := Option.some.inj beforePresent
          have fresh := holds.waiting ref owner ownerPresent (by rw [ownerId]; exact found)
          exact ⟨value, untouched_queue owner value fresh⟩
        · exact holds.resolved other cell beforePresent fun waits =>
            missing ((kept other cell beforePresent different.symm).mpr waits)
      · intro closed
        have empty := holds.drained closed
        rw [empty] at found
        simp at found

theorem try_send_ready (cell : Registration) (value : Resolution) (ready : ChannelsReady cell)
    (answerEmpty : cell.query.answer.buffer = []) (errEmpty : cell.query.err.buffer = []) :
    ∃ later, cell.trySend value = some later ∧ later.id = cell.id ∧
      later.query.deadline = cell.query.deadline ∧ later.inFlight = cell.inFlight ∧
      later.sent = cell.sent ++ [value] ∧ ChannelsReady later := by
  obtain ⟨answerCapacity, answerOpen, errCapacity, errOpen, answerSent⟩ := ready
  cases value with
  | answer payload =>
      have room : cell.query.answer.buffer.length < cell.query.answer.capacity := by
        simp [answerEmpty, answerCapacity]
      have sent : cell.trySend (.answer payload) = some { cell with
          query := { cell.query with answer := cell.query.answer.push payload room }
          sent := cell.sent ++ [.answer payload] } := by
        simp only [Registration.trySend,
          Channel.try_send_room cell.query.answer payload answerOpen room]
      refine ⟨_, sent, rfl, rfl, rfl, rfl, answerCapacity, answerOpen, errCapacity, errOpen, ?_⟩
      intro other held
      simp only [Channel.push, answerEmpty, List.nil_append, List.mem_singleton] at held
      simp [held]
  | error err =>
      have room : cell.query.err.buffer.length < cell.query.err.capacity := by
        simp [errEmpty, errCapacity]
      have sent : cell.trySend (.error err) = some { cell with
          query := { cell.query with err := cell.query.err.push err room }
          sent := cell.sent ++ [.error err] } := by
        simp only [Registration.trySend, Channel.try_send_room cell.query.err err errOpen room]
      refine ⟨_, sent, rfl, rfl, rfl, rfl, answerCapacity, answerOpen, errCapacity, errOpen, ?_⟩
      intro other held
      exact List.mem_append_left _ (answerSent other held)

/-- In a consistent state a value in flight is the only one, and its send succeeds. -/
theorem send_in_flight (world : Correlations) (holds : Consistent world) (ref position : Nat)
    (cell : Registration) (value : Resolution) (present : world.heap[ref]? = some cell)
    (queued : cell.inFlight[position]? = some value) :
    position = 0 ∧ ∃ later, send world ref position =
        some { world with heap := world.heap.set ref later } ∧
      later.id = cell.id ∧ later.query.deadline = cell.query.deadline ∧
      cell.inFlight = [value] ∧ cell.sent = [] ∧ later.inFlight = [] ∧
      later.sent = [value] ∧ ChannelsReady later ∧
      world.corr.pending.lookup cell.id ≠ some ref := by
  have notWaiting : world.corr.pending.lookup cell.id ≠ some ref := by
    intro waits
    have fresh := holds.waiting ref cell present waits
    rw [fresh.2.2.2] at queued
    simp at queued
  obtain ⟨only, once⟩ := holds.resolved ref cell present notWaiting
  rcases once with ⟨inFlight, nothingSent, answerEmpty, errEmpty⟩ | ⟨empty, -⟩
  · rw [inFlight] at queued
    have first : position = 0 := by
      have bound := (List.getElem?_eq_some_iff.mp queued).1
      simpa using bound
    subst first
    obtain rfl : only = value := by simpa using queued
    obtain ⟨later, sent, sameId, sameDeadline, rest, values, readyLater⟩ :=
      try_send_ready { cell with inFlight := cell.inFlight.eraseIdx 0 } only
        (holds.ready ref cell present) answerEmpty errEmpty
    refine ⟨rfl, later, ?_, sameId, sameDeadline, inFlight, nothingSent, ?_, ?_, readyLater,
      notWaiting⟩
    · simp only [send, present, Option.bind_eq_bind, Option.bind_some]
      rw [show cell.inFlight[0]? = some only by simp [inFlight]]
      simp only [Option.bind_some, sent]
    · rw [rest, inFlight]
      rfl
    · rw [values]
      simp [nothingSent]
  · rw [empty] at queued
    simp at queued

/-- Replacing one cell by a cell with the same owner keeps the invariant when the new cell
fits the place it has. -/
theorem replaced_consistent (world : Correlations) (ref : Nat) (cell later : Registration)
    (holds : Consistent world) (present : world.heap[ref]? = some cell)
    (sameId : later.id = cell.id) (ready : ChannelsReady later)
    (waits : world.corr.pending.lookup cell.id = some ref → Untouched later)
    (done : world.corr.pending.lookup cell.id ≠ some ref → ∃ value, ResolvedOnce later value) :
    Consistent { world with heap := world.heap.set ref later } := by
  constructor
  · intro id other found
    obtain ⟨owner, ownerPresent, ownerId⟩ := holds.owned id other found
    by_cases same : ref = other
    · subst same
      rw [present] at ownerPresent
      obtain rfl := Option.some.inj ownerPresent
      exact ⟨later, ObjectHeap.stored_after_set present, sameId.trans ownerId⟩
    · exact ⟨owner, ObjectHeap.kept_after_set (Ne.symm same) ownerPresent, ownerId⟩
  · intro other found stored
    rcases ObjectHeap.overwritten stored with ⟨rfl, rfl⟩ | ⟨-, old⟩
    · exact ready
    · exact holds.ready other found old
  · intro other found stored waiting
    rcases ObjectHeap.overwritten stored with ⟨rfl, rfl⟩ | ⟨-, old⟩
    · exact waits (by rw [← sameId]; exact waiting)
    · exact holds.waiting other found old waiting
  · intro other found stored missing
    rcases ObjectHeap.overwritten stored with ⟨rfl, rfl⟩ | ⟨-, old⟩
    · exact done (by rw [← sameId]; exact missing)
    · exact holds.resolved other found old missing
  · exact holds.drained

theorem pending_entry {world : Correlations} {entry : PendingEntry} :
    entry ∈ world.corr.pending.entries ↔ world.corr.pending.lookup entry.1 = some entry.2 :=
  AList.mem_lookup_iff.symm

theorem pending_refs_distinct (world : Correlations) (holds : Consistent world) :
    (world.corr.pending.entries.map PendingEntry.ref).Nodup := by
  refine List.Nodup.map_on ?_ world.corr.pending.nodupKeys.nodup
  intro left leftIn right rightIn same
  obtain ⟨leftCell, leftPresent, leftId⟩ := holds.owned left.1 left.2 (pending_entry.mp leftIn)
  obtain ⟨rightCell, rightPresent, rightId⟩ :=
    holds.owned right.1 right.2 (pending_entry.mp rightIn)
  rw [show left.2 = right.2 from same, rightPresent] at leftPresent
  obtain rfl := Option.some.inj leftPresent
  exact Sigma.ext (leftId.symm.trans rightId) (heq_of_eq same)

theorem queue_behind_refs (entries : List PendingEntry) (value : Resolution)
    (distinct : (entries.map PendingEntry.ref).Nodup) (heap : List Registration) (other : Nat) :
    (entries.foldl (fun heap entry => heap.modify (PendingEntry.ref entry) (·.queue value))
        heap)[other]? =
      heap[other]?.map fun cell =>
        if other ∈ entries.map PendingEntry.ref then cell.queue value else cell := by
  induction entries generalizing heap with
  | nil => simp
  | cons entry rest ih =>
      rw [List.map_cons, List.nodup_cons] at distinct
      rw [List.foldl_cons, ih distinct.2, List.getElem?_modify, List.map_cons]
      cases present : heap[other]? with
      | none => rfl
      | some cell =>
          by_cases same : entry.ref = other
          · subst same
            simp [distinct.1]
          · have tail : other ∈ entry.ref :: rest.map PendingEntry.ref ↔
                other ∈ rest.map PendingEntry.ref :=
              List.mem_cons.trans (or_iff_right (Ne.symm same))
            simp only [Option.map_eq_map, Option.map_some, if_neg same]
            rw [if_congr tail rfl rfl]

/-- The cells `failAll` queues its error for are the ones the map points to. -/
theorem fail_all_cell (world : Correlations) (err : CocoonError) (holds : Consistent world)
    (ref : Nat) (cell : Registration) (present : world.heap[ref]? = some cell) :
    (failAll world err).heap[ref]? = some
      (if world.corr.pending.lookup cell.id = some ref then cell.queue (.error err) else cell) := by
  have listed : ref ∈ world.corr.pending.entries.map PendingEntry.ref ↔
      world.corr.pending.lookup cell.id = some ref := by
    rw [List.mem_map]
    constructor
    · rintro ⟨entry, member, rfl⟩
      have found := pending_entry.mp member
      obtain ⟨owner, ownerPresent, ownerId⟩ := holds.owned entry.1 entry.2 found
      obtain rfl := Option.some.inj (present.symm.trans ownerPresent)
      rw [ownerId]
      exact found
    · intro found
      exact ⟨⟨cell.id, ref⟩, pending_entry.mpr found, rfl⟩
  simp only [failAll]
  rw [queue_behind_refs _ _ (pending_refs_distinct world holds), present, Option.map_some]
  simp only [listed]

theorem fail_all_cell_sound (world : Correlations) (err : CocoonError) (holds : Consistent world)
    (ref : Nat) (later : Registration) (present : (failAll world err).heap[ref]? = some later) :
    ∃ cell, world.heap[ref]? = some cell ∧
      later = if world.corr.pending.lookup cell.id = some ref then cell.queue (.error err)
        else cell := by
  cases found : world.heap[ref]? with
  | none =>
      simp only [failAll] at present
      rw [queue_behind_refs _ _ (pending_refs_distinct world holds), found] at present
      cases present
  | some cell =>
      rw [fail_all_cell world err holds ref cell found] at present
      exact ⟨cell, rfl, (Option.some.inj present).symm⟩

theorem fail_all_consistent (world : Correlations) (err : CocoonError)
    (holds : Consistent world) : Consistent (failAll world err) := by
  constructor
  · intro id ref found
    simp [failAll] at found
  · intro ref later present
    obtain ⟨cell, old, rfl⟩ := fail_all_cell_sound world err holds ref later present
    split_ifs <;> exact holds.ready ref cell old
  · intro ref later _ found
    simp [failAll] at found
  · intro ref later present _
    obtain ⟨cell, old, rfl⟩ := fail_all_cell_sound world err holds ref later present
    by_cases waits : world.corr.pending.lookup cell.id = some ref
    · rw [if_pos waits]
      exact ⟨_, untouched_queue cell _ (holds.waiting ref cell old waits)⟩
    · rw [if_neg waits]
      exact holds.resolved ref cell old waits
  · intro _
    rfl

end Gocoon.QueryCorrelator
