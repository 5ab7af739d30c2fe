import Gocoon.RemoteCallLinks

/-!
# Concurrent remote calls get their own answers, and waiting ones can return

A waiting call whose query has left the map finds what it was resolved with, and the map forgets
every query when the transport closes or its deadline has passed. Every answer is traced to the
frame it came from, and different calls to different frames.
-/

namespace Gocoon.RemoteCallSafety

open Gocoon.LittleEndianBytes
open Gocoon.BufferedChannel
open Gocoon.CocoonErrors
open Gocoon.TlPrimitives
open Gocoon.TlTcpPacket
open Gocoon.QueryCorrelator
open Gocoon.QueryResolutionHistory
open Gocoon.RemoteCalls
open Gocoon.RemoteCallLinks
open Gocoon.TransitionRuns

set_option autoImplicit false

section Returning

/-- A step that hands the value of a query on or lets the call at `position` take it. -/
def OwnStep (position : Nat) (label : CallStep) : Prop :=
  (∃ ref, label = .correlatorSend ref 0) ∨ label = .select position .answer ∨
    label = .select position .err

/-- At most two steps away the call has returned, with what its own query was resolved with. -/
def CanReturn (state : Calls) (position : Nat) : Prop :=
  ∃ labels done call outcome, labels.length ≤ 2 ∧ (∀ label ∈ labels, OwnStep position label) ∧
    runFrom RemoteCalls.step state labels = some done ∧ done.calls[position]? = some call ∧
    call.phase = .returned outcome

theorem finished_call {state : Calls} {position : Nat} {call : Call}
    (present : state.calls[position]? = some call) (outcome : Except CocoonError Reply) :
    (state.finish position outcome).calls[position]? =
      some { call with phase := .returned outcome } := by
  simp [Calls.finish, Calls.setPhase, present]

theorem receive_answer_held {world : Correlations} {ref : Nat} {cell : Registration}
    {data : List Byte} (stored : world.heap[ref]? = some cell) (held : Held cell)
    (sent : cell.sent = [.answer data]) : ∃ next, receiveAnswer world ref = some (data, next) := by
  have buffer : cell.query.answer.buffer = [data] := by
    rw [held.1, sent]
    rfl
  obtain ⟨channel, received⟩ := Channel.receive_of_buffer buffer
  simp only [receiveAnswer, stored, Option.bind_eq_bind, Option.bind_some, received]
  exact ⟨_, rfl⟩

theorem receive_err_held {world : Correlations} {ref : Nat} {cell : Registration}
    {err : CocoonError} (stored : world.heap[ref]? = some cell) (held : Held cell)
    (sent : cell.sent = [.error err]) : ∃ next, receiveErr world ref = some (err, next) := by
  have buffer : cell.query.err.buffer = [err] := by
    rw [held.2, sent]
    rfl
  obtain ⟨channel, received⟩ := Channel.receive_of_buffer buffer
  simp only [receiveErr, stored, Option.bind_eq_bind, Option.bind_some, received]
  exact ⟨_, rfl⟩

theorem select_sent {state : Calls} (linked : Linked state) {position ref : Nat} {call : Call}
    {cell : Registration} {value : Resolution} (present : state.calls[position]? = some call)
    (waits : call.phase = .waiting) (query : call.query = some ref)
    (stored : state.world.heap[ref]? = some cell) (sent : cell.sent = [value]) :
    ∃ label done final outcome, OwnStep position label ∧
      RemoteCalls.step state label = some done ∧ done.calls[position]? = some final ∧
      final.phase = .returned outcome := by
  have held := linked.held position call ref present query (by simp [Running, waits]) cell stored
  have selects : ∀ taken, RemoteCalls.step state (.select position taken) =
      state.select position call ref taken := by
    intro taken
    simp [RemoteCalls.step, linked.unbroken, present, waits, query]
  cases value with
  | answer data =>
      obtain ⟨world, received⟩ := receive_answer_held stored held sent
      refine ⟨.select position .answer, ?_⟩
      rw [selects]
      simp only [Calls.select, received, Option.map_some, Calls.answered]
      cases decoded : call.request.decode data with
      | error fault =>
          cases fault with
          | panicked => exact absurd decoded (decode_reply_sound _ _)
          | returned error =>
              exact ⟨_, _, _, .inr (.inl rfl), rfl, finished_call present _, rfl⟩
      | ok reply => exact ⟨_, _, _, .inr (.inl rfl), rfl, finished_call present _, rfl⟩
  | error err =>
      obtain ⟨world, received⟩ := receive_err_held stored held sent
      refine ⟨.select position .err, ?_⟩
      rw [selects]
      simp only [Calls.select, received, Option.map_some]
      exact ⟨_, _, _, .inr (.inr rfl), rfl, finished_call present _, rfl⟩

theorem resolved_returns {state : Calls} (linked : Linked state) {position : Nat} {call : Call}
    (present : state.calls[position]? = some call) (waits : call.phase = .waiting)
    (resolved : ∀ ref, call.query = some ref → state.world.corr.pending.lookup call.id ≠ some ref) :
    CanReturn state position := by
  obtain ⟨ref, query⟩ := linked.live position call present (by simp [Running, waits])
  obtain ⟨cell, stored, id, -⟩ := linked.registered position call ref present query
  obtain ⟨value, once⟩ := linked.consistent.resolved ref cell stored (id ▸ resolved ref query)
  rcases once with ⟨inFlight, -, -, -⟩ | ⟨-, sent⟩
  · have queued : cell.inFlight[0]? = some value := by simp [inFlight]
    obtain ⟨-, later, sending, -, -, -, -, -, nowSent, -, -⟩ :=
      send_in_flight state.world linked.consistent ref 0 cell value stored queued
    have taken : RemoteCalls.step state (.correlatorSend ref 0) =
        some { state with
          world := { state.world with heap := state.world.heap.set ref later } } := by
      simp [RemoteCalls.step, linked.unbroken, sending]
    obtain ⟨label, done, final, outcome, own, selected, finished, returned⟩ :=
      select_sent (linked.next (step_does taken)) present waits query
        (ObjectHeap.stored_after_set stored) nowSent
    refine ⟨[.correlatorSend ref 0, label], done, final, outcome, by simp, ?_, ?_, finished,
      returned⟩
    · intro other member
      rcases List.mem_cons.mp member with rfl | last
      · exact .inl ⟨ref, rfl⟩
      · exact List.mem_singleton.mp last ▸ own
    · simp [runFrom, taken, selected]
  · obtain ⟨label, done, final, outcome, own, selected, finished, returned⟩ :=
      select_sent linked present waits query stored sent
    refine ⟨[label], done, final, outcome, by simp, ?_, by simp [runFrom, selected], finished,
      returned⟩
    intro other member
    exact List.mem_singleton.mp member ▸ own

end Returning

section Expiry

theorem send_pending {world next : Correlations} {ref position : Nat}
    (sent : send world ref position = some next) : next.corr = world.corr := by
  simp only [send, Option.bind_eq_bind] at sent
  obtain ⟨cell, -, rest⟩ := Option.bind_eq_some_iff.mp sent
  obtain ⟨value, -, rest⟩ := Option.bind_eq_some_iff.mp rest
  obtain ⟨later, -, same⟩ := Option.bind_eq_some_iff.mp rest
  obtain rfl := Option.some.inj same
  rfl

theorem gc_loop_clears (now : Int) (todo : List PendingEntry) (distinct : todo.NodupKeys)
    (count : Nat) (world : Correlations) (holds : Consistent world)
    (listed : ∀ entry ∈ todo, world.corr.pending.lookup entry.1 = some entry.2) (last : Nat)
    (next : Correlations) (loop : todo.foldlM (gcEntry now) (count, world) = some (last, next)) :
    (∀ id, id ∉ todo.keys → next.corr.pending.lookup id = world.corr.pending.lookup id) ∧
    ∀ entry ∈ todo, ∀ cell, world.heap[entry.2]? = some cell → cell.query.deadline < now →
      next.corr.pending.lookup entry.1 = none := by
  induction todo generalizing count world with
  | nil =>
      obtain ⟨-, rfl⟩ := Prod.mk.inj (Option.some.inj loop)
      exact ⟨fun _ _ => rfl, by simp⟩
  | cons entry rest ih =>
      rw [List.nodupKeys_cons] at distinct
      have found := listed entry List.mem_cons_self
      obtain ⟨middleCount, middle, round, -, others, first⟩ :=
        gc_entry_progress now count world entry holds found
      rw [List.foldlM_cons, round] at loop
      have different : ∀ other ∈ rest, other.1 ≠ entry.1 := by
        intro other member same
        exact distinct.1 (same ▸ List.mem_keys_of_mem member)
      obtain ⟨kept, cleared⟩ := ih distinct.2 middleCount middle first.consistent (by
        intro other member
        rw [others other.1 (different other member)]
        exact listed other (List.mem_cons_of_mem _ member)) loop
      constructor
      · intro id outside
        rw [List.keys_cons, List.mem_cons, not_or] at outside
        rw [kept id outside.2, others id outside.1]
      · intro other member cell stored late
        rcases List.mem_cons.mp member with rfl | later
        · rw [kept other.1 distinct.1]
          simp only [gcEntry, stored, Option.bind_eq_bind, Option.bind_some, if_pos late] at round
          obtain ⟨sent, sending, same⟩ := Option.bind_eq_some_iff.mp round
          obtain ⟨-, rfl⟩ := Prod.mk.inj (Option.some.inj same)
          rw [send_pending sending]
          simp [take, found]
        · obtain ⟨half, halfStored, same, -⟩ := first.evolves.kept other.2 cell stored
          exact cleared other later half halfStored (by rw [same.deadline]; exact late)

theorem gc_clears {world next : Correlations} {now : Int} {count ref : Nat} {cell : Registration}
    (holds : Consistent world) (collected : gcExpired world now = some (count, next))
    (stored : world.heap[ref]? = some cell) (late : cell.query.deadline < now) :
    next.corr.pending.lookup cell.id ≠ some ref := by
  obtain ⟨otherCount, other, same, -, progress⟩ := gc_expired_progress world now holds
  obtain ⟨rfl, rfl⟩ := Prod.mk.inj (Option.some.inj (same.symm.trans collected))
  intro pending
  have before := pending_before holds progress.consistent progress.evolves stored pending
  unfold gcExpired at collected
  split_ifs at collected with shut
  · rw [holds.drained shut] at before
    simp at before
  · have cleared := (gc_loop_clears now world.corr.pending.entries world.corr.pending.nodupKeys 0
      world holds (fun entry member => pending_entry.mp member) _ _ collected).2
      ⟨cell.id, ref⟩ (pending_entry.mpr before) cell stored late
    rw [cleared] at pending
    cases pending

end Expiry

section Traces

/-- The frame at `index` is a `tcp.queryAnswer` for `id` that carries `data`. -/
def AnsweredBy (frames : List (List Byte)) (index : Nat) (id : QueryID) (data : List Byte) : Prop :=
  ∃ payload packet, frames[index]? = some payload ∧ decodeTCPPacket payload = .ok packet ∧
    resolutionOf packet = some (id, .answer data)

theorem AnsweredBy.bound {frames : List (List Byte)} {index : Nat} {id : QueryID}
    {data : List Byte} (answered : AnsweredBy frames index id data) : index < frames.length := by
  obtain ⟨payload, packet, found, -⟩ := answered
  exact ObjectHeap.stored_bound found

theorem AnsweredBy.extend {frames : List (List Byte)} {index : Nat} {id : QueryID}
    {data : List Byte} (answered : AnsweredBy frames index id data) (later : List (List Byte)) :
    AnsweredBy (frames ++ later) index id data := by
  have bound := answered.bound
  obtain ⟨payload, packet, found, rest⟩ := answered
  exact ⟨payload, packet, by rw [List.getElem?_append_left bound]; exact found, rest⟩

/-- The registration at `ref` was resolved with the answer `data`. -/
def Answered (world : Correlations) (ref : Nat) (id : QueryID) (data : List Byte) : Prop :=
  ∃ cell, world.heap[ref]? = some cell ∧ cell.id = id ∧ values cell = [.answer data]

/-- `source` names the frame that each answered registration got its answer from. -/
structure Traced (state : Calls) (source : Nat → Nat) : Prop where
  sourced : ∀ ref id data, Answered state.world ref id data →
    AnsweredBy state.frames (source ref) id data
  distinct : ∀ ref other id otherId data otherData, Answered state.world ref id data →
    Answered state.world other otherId otherData → source ref = source other → ref = other
  earlier : ∀ (position : Nat) call, state.calls[position]? = some call →
    call.since ≤ state.frames.length
  after : ∀ (position : Nat) call ref id data, state.calls[position]? = some call →
    call.query = some ref → Answered state.world ref id data → call.since ≤ source ref
  replied : ∀ (position : Nat) call reply, state.calls[position]? = some call →
    call.phase = .returned (.ok reply) → ∃ ref data, call.query = some ref ∧
      Answered state.world ref call.id data ∧ call.request.decode data = .ok reply

theorem new_calls_traced : Traced newCalls id where
  sourced := by rintro ref own data ⟨cell, present, -⟩; simp [newCalls, newCorrelator] at present
  distinct := by
    rintro ref other own otherOwn data otherData ⟨cell, present, -⟩
    simp [newCalls, newCorrelator] at present
  earlier := by intro position call present; simp [newCalls] at present
  after := by intro position call ref own data present; simp [newCalls] at present
  replied := by intro position call reply present; simp [newCalls] at present

theorem answered_kept {reason : Reason} {world next : Correlations} (holds : Consistent world)
    (evolves : Evolves reason world next) {ref : Nat} {id : QueryID} {data : List Byte}
    (answered : Answered world ref id data) : Answered next ref id data := by
  obtain ⟨cell, present, own, single⟩ := answered
  obtain ⟨later, laterPresent, same, unchanged | ⟨pending, -⟩⟩ := evolves.kept ref cell present
  · exact ⟨later, laterPresent, same.id.trans own, unchanged.trans single⟩
  · rw [untouched_values (holds.waiting ref cell present pending)] at single
    cases single

theorem answered_origin {reason : Reason} {world next : Correlations}
    (evolves : Evolves reason world next) {ref : Nat} {id : QueryID} {data : List Byte}
    (answered : Answered next ref id data) :
    Answered world ref id data ∨
      world.corr.pending.lookup id = some ref ∧ ∃ deadline, reason id deadline (.answer data) := by
  obtain ⟨later, present, rfl, single⟩ := answered
  cases old : world.heap[ref]? with
  | none =>
      rw [evolves.fresh ref later present old] at single
      cases single
  | some cell =>
      obtain ⟨found, foundPresent, same, unchanged | ⟨pending, value, now, why⟩⟩ :=
        evolves.kept ref cell old
      all_goals obtain rfl := Option.some.inj (present.symm.trans foundPresent)
      · exact .inl ⟨cell, old, same.id.symm, unchanged.symm.trans single⟩
      · obtain rfl : value = .answer data := by simpa [now] using single
        rw [same.id]
        exact .inr ⟨pending, _, why⟩

theorem Traced.world {state : Calls} {source : Nat → Nat} (traced : Traced state source)
    (holds : Consistent state.world) {reason : Reason} {next : Correlations}
    (evolves : Evolves reason state.world next) (newest : List (List Byte)) (named : QueryID)
    (why : ∀ id deadline data, reason id deadline (.answer data) →
      id = named ∧ AnsweredBy (state.frames ++ newest) state.frames.length id data) :
    ∃ source, Traced { state with world := next, frames := state.frames ++ newest } source := by
  classical
  let before ref := ∃ id data, Answered state.world ref id data
  have old : ∀ ref, before ref → (if before ref then source ref else state.frames.length) =
      source ref := fun ref was => if_pos was
  have new : ∀ ref, ¬ before ref → (if before ref then source ref else state.frames.length) =
      state.frames.length := fun ref was => if_neg was
  -- an answer that was not there before is the one the newest frame brought
  have fresh : ∀ ref id data, Answered next ref id data → ¬ before ref →
      state.world.corr.pending.lookup named = some ref ∧
        AnsweredBy (state.frames ++ newest) state.frames.length id data := by
    intro ref id data answered missing
    rcases answered_origin evolves answered with was | ⟨pending, deadline, because⟩
    · exact absurd ⟨id, data, was⟩ missing
    · obtain ⟨rfl, shown⟩ := why id deadline data because
      exact ⟨pending, shown⟩
  have same : ∀ ref id data, Answered next ref id data → before ref →
      Answered state.world ref id data := by
    rintro ref id data ⟨later, present, own, single⟩ ⟨otherId, otherData, was⟩
    obtain ⟨found, foundPresent, otherOwn, otherSingle⟩ := answered_kept holds evolves was
    obtain rfl := Option.some.inj (present.symm.trans foundPresent)
    obtain rfl : otherData = data := by simpa [single] using otherSingle.symm
    exact own.symm.trans otherOwn ▸ was
  refine ⟨fun ref => if before ref then source ref else state.frames.length, ?_, ?_, ?_, ?_, ?_⟩
  · intro ref id data answered
    by_cases was : before ref
    · rw [old ref was]
      exact (traced.sourced ref id data (same ref id data answered was)).extend newest
    · rw [new ref was]
      exact (fresh ref id data answered was).2
  · intro ref other id otherId data otherData answered otherAnswered equal
    by_cases was : before ref <;> by_cases otherWas : before other
    · rw [old ref was, old other otherWas] at equal
      exact traced.distinct ref other id otherId data otherData (same ref id data answered was)
        (same other otherId otherData otherAnswered otherWas) equal
    · rw [old ref was, new other otherWas] at equal
      have bound := (traced.sourced ref id data (same ref id data answered was)).bound
      omega
    · rw [new ref was, old other otherWas] at equal
      have bound := (traced.sourced other otherId otherData
        (same other otherId otherData otherAnswered otherWas)).bound
      omega
    · have here := (fresh ref id data answered was).1
      exact Option.some.inj
        (here.symm.trans (fresh other otherId otherData otherAnswered otherWas).1)
  · intro position call present
    exact (traced.earlier position call present).trans (by simp)
  · intro position call ref id data present query answered
    by_cases was : before ref
    · rw [old ref was]
      exact traced.after position call ref id data present query (same ref id data answered was)
    · rw [new ref was]
      exact traced.earlier position call present
  · intro position call reply present returned
    obtain ⟨ref, data, query, answered, decoded⟩ :=
      traced.replied position call reply present returned
    exact ⟨ref, data, query, answered_kept holds evolves answered, decoded⟩

theorem Traced.quiet {state : Calls} {source : Nat → Nat} (traced : Traced state source)
    (holds : Consistent state.world) {action : CorrelatorStep} {next : Correlations}
    (taken : QueryCorrelator.step state.world action = some next)
    (silent : ∀ id deadline data, ¬ explains action id deadline (.answer data)) :
    ∃ source, Traced { state with world := next } source := by
  have effect := step_effect state.world next action holds taken
  obtain ⟨source, after⟩ := traced.world holds effect.evolves [] 0
    (fun id deadline data because => absurd because (silent id deadline data))
  rw [List.append_nil] at after
  exact ⟨source, after⟩

theorem Traced.moved {state : Calls} {source : Nat → Nat} (traced : Traced state source)
    {position : Nat} {call : Call} (present : state.calls[position]? = some call)
    (phase : CallPhase)
    (justified : ∀ reply, phase = .returned (.ok reply) → ∃ ref data, call.query = some ref ∧
      Answered state.world ref call.id data ∧ call.request.decode data = .ok reply) :
    Traced (state.setPhase position phase) source where
  sourced := traced.sourced
  distinct := traced.distinct
  earlier := by
    intro other found foundPresent
    obtain ⟨before, old, -, -, since, -⟩ := phase_query foundPresent
    rw [since]
    exact traced.earlier other before old
  after := by
    intro other found ref id data foundPresent query answered
    obtain ⟨before, old, sameQuery, -, since, -⟩ := phase_query foundPresent
    rw [since]
    exact traced.after other before ref id data old (sameQuery ▸ query) answered
  replied := by
    intro other found reply foundPresent returned
    obtain ⟨before, old, ⟨rfl, rfl⟩ | ⟨-, rfl⟩⟩ := phase_origin foundPresent
    · obtain rfl := Option.some.inj (present.symm.trans old)
      exact justified reply returned
    · exact traced.replied other found reply old returned

theorem Traced.appended {state : Calls} {source : Nat → Nat} (traced : Traced state source)
    (call : Call) (since : call.since = state.frames.length)
    (unanswered : ∀ ref id data, call.query = some ref → ¬ Answered state.world ref id data)
    (unreplied : ∀ reply, call.phase ≠ .returned (.ok reply)) :
    Traced { state with calls := state.calls ++ [call] } source where
  sourced := traced.sourced
  distinct := traced.distinct
  earlier := by
    intro position found present
    rcases ObjectHeap.allocated present with old | ⟨-, rfl⟩
    · exact traced.earlier position found old
    · exact since.le
  after := by
    intro position found ref id data present query answered
    rcases ObjectHeap.allocated present with old | ⟨-, rfl⟩
    · exact traced.after position found ref id data old query answered
    · exact absurd answered (unanswered ref id data query)
  replied := by
    intro position found reply present returned
    rcases ObjectHeap.allocated present with old | ⟨-, rfl⟩
    · exact traced.replied position found reply old returned
    · exact absurd returned (unreplied reply)

theorem Traced.started {state : Calls} {source : Nat → Nat} (traced : Traced state source)
    (holds : Consistent state.world) (request : Request) (id : QueryID) (now : Int) :
    ∃ source, Traced (state.start request id now) source := by
  have taken : QueryCorrelator.step state.world (.register id now request.timeout) =
      some (register state.world id now request.timeout).2 := rfl
  obtain ⟨later, after⟩ := traced.quiet holds taken (by simp [explains])
  refine ⟨later, ?_⟩
  unfold Calls.start
  rcases outcome : register state.world id now request.timeout with ⟨error | ref, world⟩
  · rw [outcome] at after
    exact after.appended _ rfl (by simp) (by simp)
  · have stored := registered_cell state.world id now request.timeout ref (by rw [outcome])
    rw [outcome] at after stored
    refine after.appended _ rfl ?_ (by simp)
    rintro found own data ⟨⟩ ⟨cell, present, -, single⟩
    obtain rfl := Option.some.inj (stored.symm.trans present)
    cases single

theorem received_answer {world next : Correlations} {ref : Nat} {answer : List Byte}
    {cell : Registration} (holds : Consistent world) (present : world.heap[ref]? = some cell)
    (received : receiveAnswer world ref = some (answer, next)) :
    Answered world ref cell.id answer := by
  simp only [receiveAnswer, present, Option.bind_eq_bind, Option.bind_some] at received
  split at received
  · next item channel taken =>
      obtain ⟨buffered, -⟩ := Channel.receive_item taken
      obtain ⟨rfl, -⟩ := Prod.mk.inj (Option.some.inj received)
      have member : item ∈ cell.query.answer.buffer := by simp [buffered]
      have gone : world.corr.pending.lookup cell.id ≠ some ref := by
        intro pending
        rw [(holds.waiting ref cell present pending).1] at member
        cases member
      obtain ⟨value, once⟩ := holds.resolved ref cell present gone
      have single := resolved_values once
      have sent : Resolution.answer item ∈ values cell :=
        List.mem_append_left _ ((holds.ready ref cell present).2.2.2.2 item member)
      rw [single, List.mem_singleton] at sent
      exact ⟨cell, present, rfl, sent ▸ single⟩
  · cases received

theorem Traced.next {state next : Calls} {received : List (List Byte)} {source : Nat → Nat}
    (traced : Traced state source) (linked : Linked state) (effect : Effect state received next) :
    ∃ source, Traced next source := by
  cases effect with
  | started request id now => exact traced.started linked.consistent request id now
  | moved position call phase written present running noReply =>
      have same : Traced { state with written := written } source :=
        ⟨traced.sourced, traced.distinct, traced.earlier, traced.after, traced.replied⟩
      exact ⟨source, same.moved present phase fun reply returned => absurd returned (noReply reply)⟩
  | unsent position call error present running =>
      have taken : QueryCorrelator.step state.world (.fail call.id error) =
          some (fail state.world call.id error).2 := rfl
      obtain ⟨later, after⟩ := traced.quiet linked.consistent taken (by simp [explains])
      exact ⟨later, after.moved present _ (by simp)⟩
  | answered position call ref answer world outcome present running query received agrees =>
      have taken : QueryCorrelator.step state.world (.receiveAnswer ref) = some world := by
        simp [QueryCorrelator.step, received]
      obtain ⟨cell, stored, id, -⟩ := linked.registered position call ref present query
      have answered := answered_kept linked.consistent
        (step_effect _ _ _ linked.consistent taken).evolves
        (received_answer linked.consistent stored received)
      obtain ⟨later, after⟩ := traced.quiet linked.consistent taken (by simp [explains])
      refine ⟨later, after.moved present _ ?_⟩
      rintro reply ⟨⟩
      exact ⟨ref, answer, query, id ▸ answered, agrees reply rfl⟩
  | failed position call ref error world present running query received =>
      have taken : QueryCorrelator.step state.world (.receiveErr ref) = some world := by
        simp [QueryCorrelator.step, received]
      obtain ⟨later, after⟩ := traced.quiet linked.consistent taken (by simp [explains])
      exact ⟨later, after.moved present _ (by simp)⟩
  | resolved payload packet id value decoded resolves =>
      let reason : Reason := fun own _ found => own = id ∧ found = value
      have evolves : Evolves reason state.world (take state.world id value).2 :=
        take_evolves reason state.world id value linked.consistent fun _ _ _ _ _ => ⟨rfl, rfl⟩
      refine traced.world linked.consistent evolves [payload] id ?_
      rintro own deadline data ⟨rfl, rfl⟩
      exact ⟨rfl, payload, packet, by simp, decoded, resolves⟩
  | ignored payload written =>
      obtain ⟨later, after⟩ := traced.world linked.consistent
        (evolves_same_heap (fun _ _ _ => False) state.world state.world rfl) [payload] 0
        (fun _ _ _ never => never.elim)
      exact ⟨later, after.sourced, after.distinct, after.earlier, after.after, after.replied⟩
  | internal action world taken kind =>
      refine traced.quiet linked.consistent taken ?_
      rcases kind with ⟨ref, position, rfl⟩ | ⟨now, rfl⟩ <;> simp [explains, expired]
  | closing err =>
      exact ⟨source, traced.sourced, traced.distinct, traced.earlier, traced.after, traced.replied⟩
  | failing err =>
      have taken : QueryCorrelator.step state.world (.failAll err) =
          some (failAll state.world err) := rfl
      obtain ⟨later, after⟩ := traced.quiet linked.consistent taken (by simp [explains])
      exact ⟨later, after.sourced, after.distinct, after.earlier, after.after, after.replied⟩
  | closed err failed =>
      exact ⟨source, traced.sourced, traced.distinct, traced.earlier, traced.after, traced.replied⟩

theorem run_traced (labels : List CallStep) (state : Calls)
    (reached : runFrom RemoteCalls.step newCalls labels = some state) :
    ∃ source, Traced state source := by
  have both := run_invariant RemoteCalls.step newCalls
    (fun state => Linked state ∧ ∃ source, Traced state source)
    ⟨new_calls_linked, id, new_calls_traced⟩ ?_ labels state reached
  · exact both.2
  · rintro before label after ⟨linked, source, traced⟩ taken
    exact ⟨linked.next (step_does taken), traced.next linked (step_does taken)⟩

end Traces

theorem run_frames (labels : List CallStep) (state : Calls)
    (reached : runFrom RemoteCalls.step newCalls labels = some state) :
    state.frames = receivedFrames labels := by
  refine run_induction RemoteCalls.step newCalls
    (fun labels state => state.frames = receivedFrames labels) rfl ?_ labels state reached
  intro before state label next _ same taken
  rw [(step_does taken).frames, same]
  exact (List.filterMap_append ..).symm

def Replied (state : Calls) (position : Nat) (reply : Reply) : Prop :=
  ∃ call, state.calls[position]? = some call ∧ call.phase = .returned (.ok reply)

/-- Every reply is explained by a frame of its own. Whatever frames the proxy sends, in whatever
order, and however many calls run at once, a call that succeeds returns what its own decoder reads
in a `tcp.queryAnswer` that carries its own query id and was received after the call began; no frame
is used for two calls, even when ids repeat. -/
theorem remote_calls_get_own_answers (labels : List CallStep) (state : Calls)
    (reached : runFrom RemoteCalls.step newCalls labels = some state) :
    ∃ source : Nat → Nat,
      (∀ (position : Nat) call reply, state.calls[position]? = some call →
        call.phase = .returned (.ok reply) → call.since ≤ source position ∧
          ∃ data, AnsweredBy (receivedFrames labels) (source position) call.id data ∧
            call.request.decode data = .ok reply) ∧
      ∀ left right first second, Replied state left first → Replied state right second →
        source left = source right → left = right := by
  obtain ⟨source, traced⟩ := run_traced labels state reached
  have linked := run_linked labels state reached
  let frameOf (position : Nat) := ((state.calls[position]?.bind Call.query).map source).getD 0
  have names : ∀ (position : Nat) call ref, state.calls[position]? = some call →
      call.query = some ref → frameOf position = source ref := by
    intro position call ref present query
    simp [frameOf, present, query]
  refine ⟨frameOf, ?_, ?_⟩
  · intro position call reply present returned
    obtain ⟨ref, data, query, answered, decoded⟩ :=
      traced.replied position call reply present returned
    rw [names position call ref present query, ← run_frames labels state reached]
    exact ⟨traced.after position call ref call.id data present query answered, data,
      traced.sourced ref call.id data answered, decoded⟩
  · rintro left right first second ⟨leftCall, leftPresent, leftReturned⟩
      ⟨rightCall, rightPresent, rightReturned⟩ equal
    obtain ⟨ref, data, query, answered, -⟩ :=
      traced.replied left leftCall first leftPresent leftReturned
    obtain ⟨other, otherData, otherQuery, otherAnswered, -⟩ :=
      traced.replied right rightCall second rightPresent rightReturned
    rw [names left leftCall ref leftPresent query, names right rightCall other rightPresent
      otherQuery] at equal
    obtain rfl := traced.distinct ref other leftCall.id rightCall.id data otherData answered
      otherAnswered equal
    exact linked.apart left right leftCall rightCall ref leftPresent rightPresent query otherQuery

def statusFrame (id : QueryID) (maxTokens : Int64) : List Byte :=
  ((newWriter.writeUint32 idTCPQueryAnswer).writeInt64 id).writeBytes
    ((((newWriter.writeUint32 TlTypes.idClientPaymentStatus).writeUint32
      TlTypes.idProxySignedPaymentEmpty).writeInt64 0).writeInt64 maxTokens).buf |>.buf

def statusReply (maxTokens : Int64) : Reply := .paymentStatus ⟨0, 0, maxTokens, 0, 0⟩

def reusedId : List CallStep :=
  [.start .paymentStatus 7 0, .write 0 none, .recvFrame (statusFrame 7 30) false,
    .correlatorSend 0 0, .select 0 .answer, .start .paymentStatus 7 5, .write 1 none,
    .recvFrame (statusFrame 7 40) false, .correlatorSend 1 0, .select 1 .answer]

theorem reused_id_own_answers :
    ∃ state, runFrom RemoteCalls.step newCalls reusedId = some state ∧
      Replied state 1 (statusReply 40) ∧ ∃ index data, 1 ≤ index ∧
        AnsweredBy (receivedFrames reusedId) index 7 data ∧
        Request.decode .paymentStatus data = .ok (statusReply 40) := by
  have second : (runFrom RemoteCalls.step newCalls reusedId).bind (·.calls[1]?) =
      some ⟨.paymentStatus, 7, some 1, .returned (.ok (statusReply 40)), 1, 5 + 30 * 10 ^ 9⟩ := by
    decide +kernel
  obtain ⟨state, reached, present⟩ := Option.bind_eq_some_iff.mp second
  obtain ⟨source, explained, -⟩ := remote_calls_get_own_answers reusedId state reached
  obtain ⟨since, data, answered, decoded⟩ := explained 1 _ _ present rfl
  exact ⟨state, reached, ⟨_, present, rfl⟩, source 1, data, since, answered, decoded⟩

/-- A call that has written its query and waits can return with what the query was resolved with,
whatever the proxy sent: once the transport is closed, and after one tick of the garbage collection
when its deadline has passed. For `WorkerTypes` these are the only ways out besides its context and
an answer: its `select` watches neither the transport nor a timer. -/
theorem waiting_calls_can_return (labels : List CallStep) (state : Calls)
    (reached : runFrom RemoteCalls.step newCalls labels = some state) (position : Nat) (call : Call)
    (present : state.calls[position]? = some call) (waits : call.phase = .waiting) :
    (∀ err, state.transport = .closed err → CanReturn state position) ∧
    ∀ now, call.deadline < now →
      ∃ next, RemoteCalls.step state (.gcExpired now) = some next ∧ CanReturn next position := by
  have linked := run_linked labels state reached
  constructor
  · intro err closed
    refine resolved_returns linked present waits ?_
    intro ref _
    rw [linked.consistent.drained (linked.shut err (.inr closed))]
    simp
  · intro now late
    obtain ⟨count, world, collected, -⟩ := gc_expired_progress state.world now linked.consistent
    have taken : RemoteCalls.step state (.gcExpired now) = some { state with world := world } := by
      simp [RemoteCalls.step, linked.unbroken, collected]
    refine ⟨_, taken, resolved_returns (linked.next (step_does taken)) present waits ?_⟩
    intro ref query
    obtain ⟨cell, stored, id, deadline⟩ := linked.registered position call ref present query
    rw [← id]
    exact gc_clears linked.consistent collected stored (by rw [deadline]; exact late)

/-- A call for the worker types, whose `select` does not watch the transport. -/
def unansweredCall : List CallStep :=
  [.start .workerTypes 7 0, .write 0 none, .closeWithErr .alreadyClosed, .closeFailAll, .closeDone]

theorem unanswered_call_can_return :
    ∃ state, runFrom RemoteCalls.step newCalls unansweredCall = some state ∧
      CanReturn state 0 := by
  have shape : (runFrom RemoteCalls.step newCalls unansweredCall).map
      (fun state => (state.calls, state.transport)) =
      some ([⟨.workerTypes, 7, some 0, .waiting, 0, 10 * 10 ^ 9⟩], .closed .alreadyClosed) := by
    decide +kernel
  obtain ⟨state, reached, same⟩ := Option.map_eq_some_iff.mp shape
  obtain ⟨calls, transport⟩ := Prod.mk.inj same
  exact ⟨state, reached, (waiting_calls_can_return unansweredCall state reached 0 _
    (by rw [calls]; rfl) rfl).1 _ transport⟩

end Gocoon.RemoteCallSafety
