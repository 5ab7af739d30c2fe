import Gocoon.QueryCorrelator

/-!
# How queries get their answers

Every step of the correlator moves each registration forward in one of two ways: its
values stay as they are, or it was pending and the step gives it its only value, for a
reason that the step itself names. Composed along a run this says where the value of
every resolved query came from, for any interleaving of critical sections, late sends,
garbage collection, shutdown and reuse of ids.
-/

namespace Gocoon.QueryResolutionHistory

open Gocoon.BufferedChannel
open Gocoon.CocoonErrors
open Gocoon.QueryCorrelator
open Gocoon.TransitionRuns

set_option autoImplicit false

def values (cell : Registration) : List Resolution := cell.sent ++ cell.inFlight

theorem untouched_values {cell : Registration} (fresh : Untouched cell) : values cell = [] := by
  simp [values, fresh.2.2.1, fresh.2.2.2]

theorem resolved_values {cell : Registration} {value : Resolution}
    (once : ResolvedOnce cell value) : values cell = [value] := by
  rcases once with ⟨inFlight, sent, -, -⟩ | ⟨inFlight, sent⟩ <;> simp [values, inFlight, sent]

abbrev Reason := QueryID → Int → Resolution → Prop

structure SameQuery (cell later : Registration) : Prop where
  id : later.id = cell.id
  deadline : later.query.deadline = cell.query.deadline

structure Evolves (reason : Reason) (world next : Correlations) : Prop where
  kept : ∀ (ref : Nat) cell, world.heap[ref]? = some cell →
    ∃ later, next.heap[ref]? = some later ∧ SameQuery cell later ∧
      (values later = values cell ∨
        world.corr.pending.lookup cell.id = some ref ∧
          ∃ value, values later = [value] ∧ reason cell.id cell.query.deadline value)
  fresh : ∀ (ref : Nat) later, next.heap[ref]? = some later → world.heap[ref]? = none →
    values later = []

theorem evolves_same_heap (reason : Reason) (world next : Correlations)
    (same : next.heap = world.heap) : Evolves reason world next where
  kept := by
    intro ref cell present
    exact ⟨cell, by rw [same]; exact present, ⟨rfl, rfl⟩, .inl rfl⟩
  fresh := by
    intro ref later present absent
    rw [same, absent] at present
    cases present

theorem pending_before {reason : Reason} {world next : Correlations} (holds : Consistent world)
    (holdsNext : Consistent next) (evolves : Evolves reason world next) {ref : Nat}
    {cell : Registration} (present : world.heap[ref]? = some cell)
    (pending : next.corr.pending.lookup cell.id = some ref) :
    world.corr.pending.lookup cell.id = some ref := by
  by_contra missing
  obtain ⟨value, once⟩ := holds.resolved ref cell present missing
  obtain ⟨later, laterPresent, same, unchanged | ⟨was, -⟩⟩ := evolves.kept ref cell present
  · have fresh := holdsNext.waiting ref later laterPresent (by rw [same.id]; exact pending)
    rw [untouched_values fresh, resolved_values once] at unchanged
    cases unchanged
  · exact missing was

theorem evolves_trans {reason : Reason} {world middle next : Correlations}
    (holds : Consistent world) (holdsMiddle : Consistent middle)
    (sameSize : middle.heap.length = world.heap.length)
    (first : Evolves reason world middle) (second : Evolves reason middle next) :
    Evolves reason world next where
  kept := by
    intro ref cell present
    obtain ⟨half, halfPresent, sameHalf, firstValues⟩ := first.kept ref cell present
    obtain ⟨later, laterPresent, sameLater, secondValues⟩ := second.kept ref half halfPresent
    refine ⟨later, laterPresent, ⟨sameLater.id.trans sameHalf.id,
      sameLater.deadline.trans sameHalf.deadline⟩, ?_⟩
    rcases secondValues with unchanged | ⟨pending, value, now, why⟩
    · rw [unchanged]
      exact firstValues
    · rw [sameHalf.id] at pending why
      rw [sameHalf.deadline] at why
      exact .inr ⟨pending_before holds holdsMiddle first present pending, value, now, why⟩
  fresh := by
    intro ref later present absent
    refine second.fresh ref later present ?_
    rw [List.getElem?_eq_none_iff] at absent ⊢
    omega

theorem register_evolves (reason : Reason) (world : Correlations) (id : QueryID)
    (now timeout : Int) : Evolves reason world (register world id now timeout).2 := by
  unfold register
  split_ifs
  · exact evolves_same_heap reason world world rfl
  · exact evolves_same_heap reason world world rfl
  · constructor
    · intro ref cell present
      exact ⟨cell, ObjectHeap.kept_after_allocation present, ⟨rfl, rfl⟩, .inl rfl⟩
    · intro ref later present absent
      rw [List.getElem?_eq_none_iff] at absent
      rw [List.getElem?_append_right absent] at present
      have only := List.mem_of_getElem? present
      obtain rfl := List.mem_singleton.mp only
      exact untouched_values (new_registration_untouched id _)

theorem take_evolves (reason : Reason) (world : Correlations) (id : QueryID)
    (value : Resolution) (holds : Consistent world)
    (why : ∀ (ref : Nat) cell, world.heap[ref]? = some cell → cell.id = id →
      world.corr.pending.lookup id = some ref → reason id cell.query.deadline value) :
    Evolves reason world (take world id value).2 := by
  unfold take
  cases found : world.corr.pending.lookup id with
  | none => exact evolves_same_heap reason world world rfl
  | some ref =>
      obtain ⟨owner, ownerPresent, rfl⟩ := holds.owned id ref found
      have fresh := holds.waiting ref owner ownerPresent found
      constructor
      · intro other cell present
        by_cases same : ref = other
        · subst same
          obtain rfl := Option.some.inj (ownerPresent.symm.trans present)
          refine ⟨owner.queue value, by simp [present], ⟨rfl, rfl⟩, .inr ?_⟩
          refine ⟨found, value, resolved_values (untouched_queue owner value fresh), ?_⟩
          exact why ref owner present rfl found
        · exact ⟨cell, by simp [present, same], ⟨rfl, rfl⟩, .inl rfl⟩
      · intro other later present absent
        obtain ⟨before, beforePresent, -⟩ := ObjectHeap.modified present
        rw [absent] at beforePresent
        cases beforePresent

theorem replaced_evolves (reason : Reason) (world : Correlations) (ref : Nat)
    (cell later : Registration) (present : world.heap[ref]? = some cell)
    (same : SameQuery cell later) (unchanged : values later = values cell) :
    Evolves reason world { world with heap := world.heap.set ref later } where
  kept := by
    intro other found foundPresent
    by_cases equal : ref = other
    · subst equal
      obtain rfl := Option.some.inj (present.symm.trans foundPresent)
      exact ⟨later, ObjectHeap.stored_after_set present, same, .inl unchanged⟩
    · exact ⟨found, ObjectHeap.kept_after_set (Ne.symm equal) foundPresent, ⟨rfl, rfl⟩, .inl rfl⟩
  fresh := by
    intro other found foundPresent absent
    rcases ObjectHeap.overwritten foundPresent with ⟨rfl, -⟩ | ⟨-, old⟩
    · rw [present] at absent
      cases absent
    · rw [absent] at old
      cases old

theorem fail_all_evolves (reason : Reason) (world : Correlations) (err : CocoonError)
    (holds : Consistent world) (why : ∀ id deadline, reason id deadline (.error err)) :
    Evolves reason world (failAll world err) where
  kept := by
    intro ref cell present
    refine ⟨_, fail_all_cell world err holds ref cell present, ?_⟩
    by_cases waits : world.corr.pending.lookup cell.id = some ref
    · rw [if_pos waits]
      have once := untouched_queue cell (.error err) (holds.waiting ref cell present waits)
      exact ⟨⟨rfl, rfl⟩, .inr ⟨waits, _, resolved_values once, why _ _⟩⟩
    · rw [if_neg waits]
      exact ⟨⟨rfl, rfl⟩, .inl rfl⟩
  fresh := by
    intro ref later present absent
    obtain ⟨cell, old, -⟩ := fail_all_cell_sound world err holds ref later present
    rw [absent] at old
    cases old

/-- What every step but `register` does to a consistent state. -/
structure Progress (reason : Reason) (world next : Correlations) : Prop where
  consistent : Consistent next
  evolves : Evolves reason world next
  sameSize : next.heap.length = world.heap.length

theorem progress_trans {reason : Reason} {world middle next : Correlations}
    (holds : Consistent world) (first : Progress reason world middle)
    (second : Progress reason middle next) : Progress reason world next where
  consistent := second.consistent
  evolves := evolves_trans holds first.consistent first.sameSize first.evolves second.evolves
  sameSize := second.sameSize.trans first.sameSize

theorem send_progress (reason : Reason) (world : Correlations) (holds : Consistent world)
    (ref position : Nat) (cell : Registration) (value : Resolution)
    (present : world.heap[ref]? = some cell)
    (queued : cell.inFlight[position]? = some value) :
    ∃ next, send world ref position = some next ∧ next.corr = world.corr ∧
      Progress reason world next := by
  obtain ⟨-, later, sent, sameId, sameDeadline, inFlight, nothingSent, emptied, nowSent,
    ready, missing⟩ := send_in_flight world holds ref position cell value present queued
  refine ⟨_, sent, rfl, ?_, ?_, by simp⟩
  · refine replaced_consistent world ref cell later holds present sameId ready ?_ ?_
    · exact fun waits => absurd waits missing
    · exact fun _ => ⟨value, .inr ⟨emptied, nowSent⟩⟩
  · refine replaced_evolves reason world ref cell later present ⟨sameId, sameDeadline⟩ ?_
    simp [values, inFlight, nothingSent, emptied, nowSent]

theorem send_inverts {world next : Correlations} {ref position : Nat}
    (sent : send world ref position = some next) :
    ∃ cell value, world.heap[ref]? = some cell ∧ cell.inFlight[position]? = some value := by
  simp only [send, Option.bind_eq_bind] at sent
  obtain ⟨cell, present, rest⟩ := Option.bind_eq_some_iff.mp sent
  obtain ⟨value, queued, -⟩ := Option.bind_eq_some_iff.mp rest
  exact ⟨cell, value, present, queued⟩

theorem received_progress (reason : Reason) (world : Correlations) (holds : Consistent world)
    (ref : Nat) (cell : Registration) (query : PendingQuery)
    (present : world.heap[ref]? = some cell)
    (ready : ChannelsReady { cell with query := query })
    (sameDeadline : query.deadline = cell.query.deadline)
    (held : cell.query.answer.buffer ≠ [] ∨ cell.query.err.buffer ≠ []) :
    Progress reason world
      { world with heap := world.heap.set ref { cell with query := query } } where
  consistent := by
    refine replaced_consistent world ref cell _ holds present rfl ready ?_ ?_
    · intro waits
      have fresh := holds.waiting ref cell present waits
      rcases held with answer | err
      · exact absurd fresh.1 answer
      · exact absurd fresh.2.1 err
    · intro missing
      obtain ⟨value, ⟨-, -, answerEmpty, errEmpty⟩ | done⟩ :=
        holds.resolved ref cell present missing
      · rcases held with answer | err
        · exact absurd answerEmpty answer
        · exact absurd errEmpty err
      · exact ⟨value, .inr done⟩
  evolves := replaced_evolves reason world ref cell _ present ⟨rfl, sameDeadline⟩ rfl
  sameSize := by simp

theorem receive_answer_progress (reason : Reason) (world next : Correlations) (ref : Nat)
    (payload : List LittleEndianBytes.Byte) (holds : Consistent world)
    (received : receiveAnswer world ref = some (payload, next)) :
    next.corr = world.corr ∧ Progress reason world next := by
  simp only [receiveAnswer, Option.bind_eq_bind] at received
  obtain ⟨cell, present, rest⟩ := Option.bind_eq_some_iff.mp received
  split at rest
  · next item channel taken =>
      obtain ⟨held, capacity, opened⟩ := Channel.receive_item taken
      obtain ⟨-, rfl⟩ := Prod.mk.inj (Option.some.inj rest)
      obtain ⟨answerCapacity, answerOpen, errCapacity, errOpen, answerSent⟩ :=
        holds.ready ref cell present
      refine ⟨rfl, received_progress reason world holds ref cell _ present ?_ rfl ?_⟩
      · refine ⟨capacity.trans answerCapacity, opened.trans answerOpen, errCapacity, errOpen, ?_⟩
        intro other waits
        exact answerSent other (by rw [held]; exact List.mem_cons_of_mem _ waits)
      · exact .inl (by rw [held]; exact List.cons_ne_nil _ _)
  · cases rest

theorem receive_err_progress (reason : Reason) (world next : Correlations) (ref : Nat)
    (err : CocoonError) (holds : Consistent world)
    (received : receiveErr world ref = some (err, next)) :
    next.corr = world.corr ∧ Progress reason world next := by
  simp only [receiveErr, Option.bind_eq_bind] at received
  obtain ⟨cell, present, rest⟩ := Option.bind_eq_some_iff.mp received
  split at rest
  · next item channel taken =>
      obtain ⟨held, capacity, opened⟩ := Channel.receive_item taken
      obtain ⟨-, rfl⟩ := Prod.mk.inj (Option.some.inj rest)
      obtain ⟨answerCapacity, answerOpen, errCapacity, errOpen, answerSent⟩ :=
        holds.ready ref cell present
      refine ⟨rfl, received_progress reason world holds ref cell _ present ?_ rfl ?_⟩
      · exact ⟨answerCapacity, answerOpen, capacity.trans errCapacity, opened.trans errOpen,
          answerSent⟩
      · exact .inr (by rw [held]; exact List.cons_ne_nil _ _)
  · cases rest

def expired (now : Int) : Reason :=
  fun _ deadline value => deadline < now ∧ value = .error .requestTimeout

theorem gc_entry_progress (now : Int) (count : Nat) (world : Correlations)
    (entry : PendingEntry) (holds : Consistent world)
    (found : world.corr.pending.lookup entry.1 = some entry.2) :
    ∃ newCount next, gcEntry now (count, world) entry = some (newCount, next) ∧
      next.corr.closed = world.corr.closed ∧
      (∀ id, id ≠ entry.1 → next.corr.pending.lookup id = world.corr.pending.lookup id) ∧
      Progress (expired now) world next := by
  obtain ⟨cell, present, sameId⟩ := holds.owned entry.1 entry.2 found
  have fresh := holds.waiting entry.2 cell present (by rw [sameId]; exact found)
  have noneQueued : cell.inFlight.length = 0 := by rw [fresh.2.2.2]; rfl
  simp only [gcEntry, present, Option.bind_eq_bind, Option.bind_some, noneQueued]
  by_cases late : cell.query.deadline < now
  · rw [if_pos late]
    have taken : (take world entry.1 (.error .requestTimeout)).2 =
        { corr := { world.corr with pending := world.corr.pending.erase entry.1 }
          heap := world.heap.modify entry.2 (·.queue (.error .requestTimeout)) } := by
      simp [take, found]
    have firstStep : Progress (expired now) world
        (take world entry.1 (.error .requestTimeout)).2 := by
      refine ⟨take_consistent world entry.1 _ holds, ?_, by rw [taken]; simp⟩
      refine take_evolves (expired now) world entry.1 _ holds ?_
      intro ref other otherPresent _ otherFound
      obtain rfl : entry.2 = ref := Option.some.inj (found.symm.trans otherFound)
      obtain rfl := Option.some.inj (present.symm.trans otherPresent)
      exact ⟨late, rfl⟩
    have queuedCell : (take world entry.1 (.error .requestTimeout)).2.heap[entry.2]? =
        some (cell.queue (.error .requestTimeout)) := by
      rw [taken]
      simp [present]
    have queued : (cell.queue (.error .requestTimeout)).inFlight[0]? =
        some (.error .requestTimeout) := by
      simp [Registration.queue, fresh.2.2.2]
    obtain ⟨next, sent, sameCorr, secondStep⟩ := send_progress (expired now) _
      firstStep.consistent entry.2 0 _ _ queuedCell queued
    refine ⟨count + 1, next, by rw [sent]; rfl, ?_, ?_, ?_⟩
    · rw [sameCorr, taken]
    · intro id different
      rw [sameCorr, taken]
      exact AList.lookup_erase_ne different
    · exact progress_trans holds firstStep secondStep
  · rw [if_neg late]
    exact ⟨count, world, rfl, rfl, fun _ _ => rfl, holds, evolves_same_heap _ _ _ rfl, rfl⟩

theorem gc_loop_progress (now : Int) (todo : List PendingEntry) (distinct : todo.NodupKeys)
    (count : Nat) (world : Correlations) (holds : Consistent world)
    (listed : ∀ entry ∈ todo, world.corr.pending.lookup entry.1 = some entry.2) :
    ∃ newCount next, todo.foldlM (gcEntry now) (count, world) = some (newCount, next) ∧
      next.corr.closed = world.corr.closed ∧ Progress (expired now) world next := by
  induction todo generalizing count world with
  | nil => exact ⟨count, world, rfl, rfl, holds, evolves_same_heap _ _ _ rfl, rfl⟩
  | cons entry rest ih =>
      rw [List.nodupKeys_cons] at distinct
      obtain ⟨middleCount, middle, round, sameClosed, others, first⟩ :=
        gc_entry_progress now count world entry holds (listed entry List.mem_cons_self)
      have stillListed : ∀ other ∈ rest,
          middle.corr.pending.lookup other.1 = some other.2 := by
        intro other member
        have different : other.1 ≠ entry.1 := by
          intro same
          exact distinct.1 (same ▸ List.mem_keys_of_mem member)
        rw [others other.1 different]
        exact listed other (List.mem_cons_of_mem _ member)
      obtain ⟨newCount, next, loop, closedNext, second⟩ :=
        ih distinct.2 middleCount middle first.consistent stillListed
      refine ⟨newCount, next, ?_, closedNext.trans sameClosed, progress_trans holds first second⟩
      rw [List.foldlM_cons, round]
      exact loop

theorem gc_expired_progress (world : Correlations) (now : Int) (holds : Consistent world) :
    ∃ count next, gcExpired world now = some (count, next) ∧
      next.corr.closed = world.corr.closed ∧ Progress (expired now) world next := by
  unfold gcExpired
  by_cases shut : world.corr.closed = true
  · rw [if_pos shut]
    exact ⟨0, world, rfl, rfl, holds, evolves_same_heap _ _ _ rfl, rfl⟩
  · rw [if_neg shut]
    exact gc_loop_progress now world.corr.pending.entries world.corr.pending.nodupKeys 0 world
      holds fun entry member => pending_entry.mp member

/-- The reason each step has for resolving a query. -/
def explains : CorrelatorStep → Reason
  | .deliver id payload => fun own _ value => own = id ∧ value = .answer payload
  | .fail id err => fun own _ value => own = id ∧ value = .error err
  | .gcExpired now => expired now
  | .failAll err => fun _ _ value => value = .error err
  | _ => fun _ _ _ => False

structure StepEffect (action : CorrelatorStep) (world next : Correlations) : Prop where
  consistent : Consistent next
  evolves : Evolves (explains action) world next
  closed : (world.corr.closed = true ∨ ∃ err, action = .failAll err) → next.corr.closed = true

theorem taken_closed (world : Correlations) (id : QueryID) (value : Resolution) :
    (take world id value).2.corr.closed = world.corr.closed := by
  unfold take
  cases world.corr.pending.lookup id <;> rfl

theorem take_effect {action : CorrelatorStep} {world : Correlations} {id : QueryID}
    {value : Resolution} (holds : Consistent world)
    (why : ∀ deadline, explains action id deadline value)
    (single : ∀ err, action ≠ .failAll err) : StepEffect action world (take world id value).2 := by
  refine ⟨take_consistent world id _ holds, ?_, ?_⟩
  · exact take_evolves _ world id _ holds fun _ _ _ _ _ => why _
  · intro shut
    rcases shut with shut | ⟨err, same⟩
    · exact (taken_closed world id _).trans shut
    · exact absurd same (single err)

theorem registered_closed (world : Correlations) (id : QueryID) (now timeout : Int) :
    (register world id now timeout).2.corr.closed = world.corr.closed := by
  unfold register
  split_ifs <;> rfl

theorem effect_of_progress {action : CorrelatorStep} {world next : Correlations}
    (progress : Progress (explains action) world next)
    (sameClosed : next.corr.closed = world.corr.closed)
    (quiet : ∀ err, action ≠ .failAll err) : StepEffect action world next where
  consistent := progress.consistent
  evolves := progress.evolves
  closed := by
    rintro (shut | ⟨err, same⟩)
    · exact sameClosed.trans shut
    · exact absurd same (quiet err)

theorem step_effect (world next : Correlations) (action : CorrelatorStep)
    (holds : Consistent world) (taken : step world action = some next) :
    StepEffect action world next := by
  cases action with
  | register id now timeout =>
      obtain rfl := Option.some.inj taken
      refine ⟨register_consistent world id now timeout holds,
        register_evolves _ world id now timeout, ?_⟩
      rintro (shut | ⟨err, same⟩)
      · rw [registered_closed]
        exact shut
      · cases same
  | deliver id payload =>
      obtain rfl := Option.some.inj taken
      exact take_effect holds (fun _ => ⟨rfl, rfl⟩) (fun _ => nofun)
  | fail id err =>
      obtain rfl := Option.some.inj taken
      exact take_effect holds (fun _ => ⟨rfl, rfl⟩) (fun _ => nofun)
  | failAll err =>
      obtain rfl := Option.some.inj taken
      exact ⟨fail_all_consistent world err holds,
        fail_all_evolves _ world err holds fun _ _ => rfl, fun _ => rfl⟩
  | gcExpired now =>
      obtain ⟨count, reached, collected, sameClosed, progress⟩ :=
        gc_expired_progress world now holds
      rw [step, collected] at taken
      obtain rfl : reached = next := Option.some.inj taken
      exact effect_of_progress progress sameClosed (by intro err same; cases same)
  | send ref position =>
      obtain ⟨cell, value, present, queued⟩ := send_inverts taken
      obtain ⟨reached, sent, sameCorr, progress⟩ :=
        send_progress (explains (.send ref position)) world holds ref position cell value
          present queued
      obtain rfl : reached = next := Option.some.inj (sent.symm.trans taken)
      exact effect_of_progress progress (by rw [sameCorr]) (by intro err same; cases same)
  | receiveAnswer ref =>
      obtain ⟨⟨payload, reached⟩, received, rfl⟩ := Option.map_eq_some_iff.mp taken
      obtain ⟨sameCorr, progress⟩ := receive_answer_progress (explains (.receiveAnswer ref))
        world reached ref payload holds received
      exact effect_of_progress progress (by rw [sameCorr]) (by intro err same; cases same)
  | receiveErr ref =>
      obtain ⟨⟨err, reached⟩, received, rfl⟩ := Option.map_eq_some_iff.mp taken
      obtain ⟨sameCorr, progress⟩ := receive_err_progress (explains (.receiveErr ref))
        world reached ref err holds received
      exact effect_of_progress progress (by rw [sameCorr]) (by intro err same; cases same)

/-- One step of the run took the registration out of the map, with a reason for the value. -/
def ResolvedBy (labels : List CorrelatorStep) (ref : Nat) (cell : Registration)
    (value : Resolution) : Prop :=
  ∃ before action after world next, labels = before ++ action :: after ∧
    runFrom step newCorrelator before = some world ∧ step world action = some next ∧
    world.corr.pending.lookup cell.id = some ref ∧
    next.corr.pending.lookup cell.id ≠ some ref ∧
    explains action cell.id cell.query.deadline value

theorem registered_cell (world : Correlations) (id : QueryID) (now timeout : Int) (ref : Nat)
    (accepted : (register world id now timeout).1 = .ok ref) :
    (register world id now timeout).2.heap[ref]? = some (newRegistration id (now + timeout)) := by
  unfold register at accepted ⊢
  split_ifs at accepted ⊢ with shut duplicate
  obtain rfl : world.heap.length = ref := Except.ok.inj accepted
  simp

/-- Where a registration stands: waiting and never used, or out of the map with exactly one
value that the step which removed it gave it. -/
def Accounted (labels : List CorrelatorStep) (world : Correlations) (ref : Nat)
    (cell : Registration) : Prop :=
  (world.corr.pending.lookup cell.id = some ref ∧ Untouched cell) ∨
  ((∀ id, world.corr.pending.lookup id ≠ some ref) ∧
    ∃ value, ResolvedOnce cell value ∧ ResolvedBy labels ref cell value)

end Gocoon.QueryResolutionHistory
