import Gocoon.TransitionRuns
import Mathlib.Logic.Function.Basic

/-!
# Critical sections under one mutex

Any number of callers run calls whose bodies take several steps on a shared state, all of them
between `Lock` and `Unlock` of one mutex. The steps of different callers interleave freely;
only the mutex orders them. Whenever the mutex is free the shared state is what the completed
calls leave when they are executed one after the other, in the order in which they returned,
and every caller's calls complete in the order in which it made them.
-/

namespace Gocoon.MutexSections

open Gocoon.TransitionRuns

set_option autoImplicit false

/-- The body of a call: where it starts and what one step does. It goes on at another position or
returns. -/
structure Section (Shared Call Position Result : Type) where
  enter : Call → Position
  advance : Position → Shared → Shared × (Position ⊕ Result)

inductive CallerState (Call Position Result : Type) where
  | idle
  | waiting (call : Call)
  | inside (call : Call) (position : Position)
  | leaving (call : Call) (result : Result)

structure Completed (Call Result : Type) where
  caller : Nat
  call : Call
  result : Result

structure Callers (Shared Call Position Result : Type) where
  owner : Option Nat
  shared : Shared
  state : Nat → CallerState Call Position Result
  completed : List (Completed Call Result)

inductive CallerStep (Call : Type) where
  | call (caller : Nat) (call : Call)
  | lock (caller : Nat)
  | act (caller : Nat)
  | unlock (caller : Nat)

variable {Shared Call Position Result : Type}

def CallerState.within (call : Call) : Position ⊕ Result → CallerState Call Position Result
  | .inl position => .inside call position
  | .inr result => .leaving call result

def fresh (start : Shared) : Callers Shared Call Position Result where
  owner := none
  shared := start
  state := fun _ => .idle
  completed := []

/-- A step inside the section does not look at the mutex; that its caller holds it is proved. -/
def step (body : Section Shared Call Position Result)
    (callers : Callers Shared Call Position Result) :
    CallerStep Call → Option (Callers Shared Call Position Result)
  | .call caller call =>
      match callers.state caller with
      | .idle => some { callers with state := Function.update callers.state caller (.waiting call) }
      | _ => none
  | .lock caller =>
      match callers.state caller, callers.owner with
      | .waiting call, none => some { callers with
          owner := some caller
          state := Function.update callers.state caller (.inside call (body.enter call)) }
      | _, _ => none
  | .act caller =>
      match callers.state caller with
      | .inside call position =>
          let outcome := body.advance position callers.shared
          some { callers with
            shared := outcome.1
            state := Function.update callers.state caller (.within call outcome.2) }
      | _ => none
  | .unlock caller =>
      match callers.state caller with
      | .leaving call result => some { callers with
          owner := none
          state := Function.update callers.state caller .idle
          completed := callers.completed ++ [⟨caller, call, result⟩] }
      | _ => none

section Cases

variable {body : Section Shared Call Position Result}

/-- Everything a step can do, with its guards. -/
inductive StepCase (body : Section Shared Call Position Result)
    (callers next : Callers Shared Call Position Result) : CallerStep Call → Prop
  | called (caller : Nat) (call : Call) (idle : callers.state caller = .idle)
      (same : next =
        { callers with state := Function.update callers.state caller (.waiting call) }) :
      StepCase body callers next (.call caller call)
  | locked (caller : Nat) (call : Call) (waiting : callers.state caller = .waiting call)
      (free : callers.owner = none)
      (same : next = { callers with
        owner := some caller
        state := Function.update callers.state caller (.inside call (body.enter call)) }) :
      StepCase body callers next (.lock caller)
  | acted (caller : Nat) (call : Call) (position : Position)
      (inside : callers.state caller = .inside call position)
      (same : next = { callers with
        shared := (body.advance position callers.shared).1
        state := Function.update callers.state caller
          (.within call (body.advance position callers.shared).2) }) :
      StepCase body callers next (.act caller)
  | unlocked (caller : Nat) (call : Call) (result : Result)
      (leaving : callers.state caller = .leaving call result)
      (same : next = { callers with
        owner := none
        state := Function.update callers.state caller .idle
        completed := callers.completed ++ [⟨caller, call, result⟩] }) :
      StepCase body callers next (.unlock caller)

theorem step_case {callers next : Callers Shared Call Position Result} {label : CallerStep Call}
    (taken : step body callers label = some next) : StepCase body callers next label := by
  cases label with
  | call caller call =>
      simp only [step] at taken
      split at taken
      · next idle => exact .called caller call idle (Option.some.inj taken).symm
      · cases taken
  | lock caller =>
      simp only [step] at taken
      split at taken
      · next call waiting free =>
          exact .locked caller call waiting free (Option.some.inj taken).symm
      · cases taken
  | act caller =>
      simp only [step] at taken
      split at taken
      · next call position inside =>
          exact .acted caller call position inside (Option.some.inj taken).symm
      · cases taken
  | unlock caller =>
      simp only [step] at taken
      split at taken
      · next call result leaving =>
          exact .unlocked caller call result leaving (Option.some.inj taken).symm
      · cases taken

end Cases

/-- How far one execution of a body alone, begun in `start`, can have come. -/
inductive Progress (body : Section Shared Call Position Result) (call : Call) (start : Shared) :
    Position ⊕ Result → Shared → Prop
  | entered : Progress body call start (.inl (body.enter call)) start
  | advanced (position : Position) (shared : Shared)
      (earlier : Progress body call start (.inl position) shared) :
      Progress body call start (body.advance position shared).2 (body.advance position shared).1

/-- The calls executed alone, one after the other. -/
inductive Serial (body : Section Shared Call Position Result) (start : Shared) :
    List (Completed Call Result) → Shared → Prop
  | nothing : Serial body start [] start
  | next (done : List (Completed Call Result)) (before after : Shared)
      (last : Completed Call Result) (earlier : Serial body start done before)
      (ran : Progress body last.call before (.inr last.result) after) :
      Serial body start (done ++ [last]) after

def CallerState.Outside : CallerState Call Position Result → Prop
  | .idle | .waiting _ => True
  | .inside _ _ | .leaving _ _ => False

/-- What the state of a caller inside the section says about the shared state, given what it
found when it entered. -/
def CallerState.Holds (body : Section Shared Call Position Result) (found shared : Shared) :
    CallerState Call Position Result → Prop
  | .inside call position => Progress body call found (.inl position) shared
  | .leaving call result => Progress body call found (.inr result) shared
  | .idle | .waiting _ => False

/-- The shared state comes from the completed calls and from the steps of the owner of the
mutex, if there is one; everybody else is outside. -/
structure Ordered (body : Section Shared Call Position Result) (start : Shared)
    (callers : Callers Shared Call Position Result) : Prop where
  settled : ∃ found, Serial body start callers.completed found ∧
    match callers.owner with
    | none => callers.shared = found
    | some owner => (callers.state owner).Holds body found callers.shared
  outside : ∀ caller, callers.owner ≠ some caller → (callers.state caller).Outside

section Invariant

variable {body : Section Shared Call Position Result} {start : Shared}
  {callers next : Callers Shared Call Position Result}

theorem fresh_ordered : Ordered body start (fresh start) :=
  ⟨⟨start, .nothing, rfl⟩, fun _ _ => trivial⟩

theorem inside_owner {caller : Nat} {state : CallerState Call Position Result}
    (ordered : Ordered body start callers) (here : callers.state caller = state)
    (within : ¬state.Outside) : callers.owner = some caller := by
  by_contra other
  apply within
  rw [← here]
  exact ordered.outside caller other

theorem not_owner {caller : Nat} {found : Shared} {state : CallerState Call Position Result}
    (now : match callers.owner with
      | none => callers.shared = found
      | some owner => (callers.state owner).Holds body found callers.shared)
    (here : callers.state caller = state) (outside : state.Outside) :
    callers.owner ≠ some caller := by
  intro owner
  rw [owner] at now
  simp only [here] at now
  cases state with
  | idle | waiting call => exact now
  | inside call position | leaving call result => exact outside

theorem others_outside {caller : Nat} (changed : CallerState Call Position Result)
    (outside : ∀ other, other ≠ caller → (callers.state other).Outside) (other : Nat)
    (different : other ≠ caller) :
    (Function.update callers.state caller changed other).Outside := by
  rw [Function.update_of_ne different]
  exact outside other different

theorem within_holds {call : Call} {found shared : Shared} {outcome : Position ⊕ Result}
    (progress : Progress body call found outcome shared) :
    (CallerState.within call outcome).Holds body found shared := by
  cases outcome with
  | inl position => exact progress
  | inr result => exact progress

theorem step_ordered (label : CallerStep Call) (ordered : Ordered body start callers)
    (taken : step body callers label = some next) : Ordered body start next := by
  obtain ⟨found, serial, now⟩ := ordered.settled
  cases step_case taken with
  | called caller call idle same =>
      subst same
      have notOwner := not_owner now idle trivial
      refine ⟨⟨found, serial, ?_⟩, ?_⟩
      · cases held : callers.owner with
        | none => simpa [held] using now
        | some owner =>
            have different : owner ≠ caller := by
              rintro rfl
              exact notOwner held
            simpa [held, Function.update_of_ne different] using now
      · intro other free
        by_cases same : other = caller
        · subst same
          simp [CallerState.Outside]
        · simp only [Function.update_of_ne same]
          exact ordered.outside other free
  | locked caller call waiting free same =>
      subst same
      simp only [free] at now
      refine ⟨⟨found, serial, ?_⟩, ?_⟩
      · simp only [Function.update_self]
        rw [now]
        exact Progress.entered
      · intro other held
        apply others_outside _ _ other (fun same => held (congrArg some same.symm))
        intro someone _
        exact ordered.outside someone (by simp [free])
  | acted caller call position inside same =>
      subst same
      have owner := inside_owner ordered inside id
      simp only [owner, inside] at now
      refine ⟨⟨found, serial, ?_⟩, ?_⟩
      · simp only [owner, Function.update_self]
        exact within_holds (Progress.advanced position callers.shared now)
      · intro other held
        apply others_outside _ _ other (fun same => held (owner.trans (congrArg some same.symm)))
        intro someone different
        apply ordered.outside someone
        rw [owner]
        simpa using Ne.symm different
  | unlocked caller call result leaving same =>
      subst same
      have owner := inside_owner ordered leaving id
      simp only [owner, leaving] at now
      refine ⟨⟨callers.shared, .next _ found _ ⟨caller, call, result⟩ serial now, rfl⟩, ?_⟩
      intro other _
      by_cases same : other = caller
      · subst same
        simp [CallerState.Outside]
      · simp only [Function.update_of_ne same]
        apply ordered.outside other
        rw [owner]
        simpa using Ne.symm same

/-- When the mutex is free, the shared state is the one after the completed calls alone. -/
theorem free_serial (labels : List (CallerStep Call))
    (reached : runFrom (step body) (fresh start) labels = some callers)
    (free : callers.owner = none) : Serial body start callers.completed callers.shared := by
  have ordered : Ordered body start callers :=
    run_invariant (step body) (fresh start) (Ordered body start) fresh_ordered
      (fun _ label _ before taken => step_ordered label before taken) labels callers reached
  obtain ⟨found, serial, now⟩ := ordered.settled
  rw [free] at now
  rw [now]
  exact serial

end Invariant

section ProgramOrder

variable {body : Section Shared Call Position Result}

def callsOf (caller : Nat) (labels : List (CallerStep Call)) : List Call :=
  labels.filterMap fun
    | .call other call => if other = caller then some call else none
    | _ => none

def CallerState.pending : CallerState Call Position Result → List Call
  | .idle => []
  | .waiting call | .inside call _ | .leaving call _ => [call]

def completedBy (caller : Nat) (completed : List (Completed Call Result)) : List Call :=
  (completed.filter (·.caller = caller)).map (·.call)

theorem program_order (start : Shared) (labels : List (CallerStep Call))
    (callers : Callers Shared Call Position Result)
    (reached : runFrom (step body) (fresh start) labels = some callers) (caller : Nat) :
    completedBy caller callers.completed ++ (callers.state caller).pending =
      callsOf caller labels := by
  refine run_induction (step body) (fresh start) (fun labels callers =>
    completedBy caller callers.completed ++ (callers.state caller).pending =
      callsOf caller labels) rfl ?_ labels callers reached
  intro labels callers label next _ before taken
  have grows : callsOf caller (labels ++ [label]) =
      callsOf caller labels ++ callsOf caller [label] := by
    simp [callsOf]
  rw [grows, ← before]
  cases step_case taken with
  | called other call idle same =>
      subst same
      by_cases own : other = caller
      · subst own
        simp [callsOf, idle, CallerState.pending]
      · simp [callsOf, own, Function.update_of_ne (Ne.symm own)]
  | locked other call waiting free same =>
      subst same
      by_cases own : other = caller
      · subst own
        simp [callsOf, waiting, CallerState.pending]
      · simp [callsOf, Function.update_of_ne (Ne.symm own)]
  | acted other call position inside same =>
      subst same
      by_cases own : other = caller
      · subst own
        have kept : ∀ outcome : Position ⊕ Result,
            (CallerState.within call outcome).pending = [call] := by
          intro outcome
          cases outcome <;> rfl
        simp only [Function.update_self, kept, inside]
        simp [callsOf, CallerState.pending]
      · simp [callsOf, Function.update_of_ne (Ne.symm own)]
  | unlocked other call result leaving same =>
      subst same
      by_cases own : other = caller
      · subst own
        simp [callsOf, completedBy, leaving, CallerState.pending]
      · simp [callsOf, completedBy, own, Function.update_of_ne (Ne.symm own)]

end ProgramOrder

end Gocoon.MutexSections
