import Mathlib.Data.List.Induction

/-!
# Runs of a labelled step function

A system is a partial step function on states and labels: a label that is not
enabled has no successor. A run is a list of labels, so the history of a state is
the list that reached it and needs no ghost copy inside the state. The rules below
turn a one-step obligation into a statement about every run: plain invariants,
invariants that mention the history, and conditions that every step of a run meets, with
a check of such a condition on a given run.
-/

namespace Gocoon.TransitionRuns

set_option autoImplicit false

variable {State Label : Type*}

def runFrom (step : State → Label → Option State) : State → List Label → Option State
  | state, [] => some state
  | state, label :: rest => (step state label).bind fun next => runFrom step next rest

theorem run_append (step : State → Label → Option State) (state : State)
    (front back : List Label) :
    runFrom step state (front ++ back) =
      (runFrom step state front).bind fun middle => runFrom step middle back := by
  induction front generalizing state with
  | nil => rfl
  | cons label front ih =>
      cases taken : step state label with
      | none => simp [runFrom, taken]
      | some next => simp [runFrom, taken, ih]

theorem run_concat (step : State → Label → Option State) (state : State)
    (labels : List Label) (label : Label) :
    runFrom step state (labels ++ [label]) =
      (runFrom step state labels).bind fun middle => step middle label := by
  rw [run_append]
  cases runFrom step state labels with
  | none => rfl
  | some middle =>
      cases taken : step middle label <;> simp [runFrom, taken]

/-- Induction along a run, with the labels taken so far in the motive. -/
theorem run_induction (step : State → Label → Option State) (start : State)
    (motive : List Label → State → Prop) (base : motive [] start)
    (extend : ∀ labels state label next, runFrom step start labels = some state →
      motive labels state → step state label = some next → motive (labels ++ [label]) next)
    (labels : List Label) (state : State) (reached : runFrom step start labels = some state) :
    motive labels state := by
  induction labels using List.reverseRecOn generalizing state with
  | nil =>
      obtain rfl : start = state := Option.some.inj reached
      exact base
  | append_singleton labels label ih =>
      rw [run_concat] at reached
      obtain ⟨middle, before, taken⟩ := Option.bind_eq_some_iff.mp reached
      exact extend labels middle label state before (ih middle before) taken

theorem run_invariant (step : State → Label → Option State) (start : State)
    (invariant : State → Prop) (base : invariant start)
    (preserved : ∀ state label next, invariant state → step state label = some next →
      invariant next)
    (labels : List Label) (state : State) (reached : runFrom step start labels = some state) :
    invariant state :=
  run_induction step start (fun _ state => invariant state) base
    (fun _ state label next _ holds taken => preserved state label next holds taken)
    labels state reached

/-- Every step of the run is taken in a state where `guard` allows it. -/
def EveryStep (step : State → Label → Option State) (guard : State → Label → Prop)
    (start : State) (labels : List Label) : Prop :=
  ∀ front label back state, labels = front ++ label :: back →
    runFrom step start front = some state → guard state label

theorem every_step_concat (step : State → Label → Option State) (guard : State → Label → Prop)
    (start : State) (labels : List Label) (label : Label) (state : State)
    (reached : runFrom step start labels = some state) :
    EveryStep step guard start (labels ++ [label]) ↔
      EveryStep step guard start labels ∧ guard state label := by
  constructor
  · intro every
    refine ⟨?_, every labels label [] state rfl reached⟩
    rintro front middle back earlier rfl reachedFront
    exact every front middle (back ++ [label]) earlier (by simp) reachedFront
  · rintro ⟨every, last⟩ front middle back earlier same reachedFront
    rcases List.eq_nil_or_concat back with rfl | ⟨init, final, rfl⟩
    · obtain ⟨rfl, rest⟩ := List.append_inj' same rfl
      obtain rfl : label = middle := by simpa using rest
      obtain rfl := Option.some.inj (reached.symm.trans reachedFront)
      exact last
    · have split : labels ++ [label] = (front ++ middle :: init) ++ [final] := by
        rw [same]
        simp
      obtain ⟨rfl, -⟩ := List.append_inj' split rfl
      exact every front middle init earlier rfl reachedFront

/-- An invariant of the steps that meet a condition holds along every run that meets it. -/
theorem guarded_invariant (step : State → Label → Option State) (guard : State → Label → Prop)
    (start : State) (invariant : State → Prop) (base : invariant start)
    (preserved : ∀ state label next, invariant state → guard state label →
      step state label = some next → invariant next)
    (labels : List Label) (state : State) (reached : runFrom step start labels = some state)
    (every : EveryStep step guard start labels) : invariant state := by
  refine run_induction step start
    (fun labels state => EveryStep step guard start labels → invariant state)
    (fun _ => base) ?_ labels state reached every
  intro labels state label next reachedState holds taken everyNext
  obtain ⟨every, allowed⟩ :=
    (every_step_concat step guard start labels label state reachedState).mp everyNext
  exact preserved state label next (holds every) allowed taken

def checkSteps (step : State → Label → Option State) (guard : State → Label → Bool) :
    State → List Label → Bool
  | _, [] => true
  | state, label :: rest =>
      guard state label &&
        match step state label with
        | none => true
        | some next => checkSteps step guard next rest

theorem every_step_checked (step : State → Label → Option State) (guard : State → Label → Bool)
    (start : State) (labels : List Label) (checked : checkSteps step guard start labels = true) :
    EveryStep step (fun state label => guard state label = true) start labels := by
  induction labels generalizing start with
  | nil =>
      intro front label back state same
      simp at same
  | cons first rest ih =>
      intro front label back state same reached
      simp only [checkSteps, Bool.and_eq_true] at checked
      cases front with
      | nil =>
          obtain ⟨rfl, rfl⟩ := List.cons.inj same
          obtain rfl : start = state := Option.some.inj reached
          exact checked.1
      | cons head front =>
          obtain ⟨rfl, rfl⟩ := List.cons.inj same
          obtain ⟨next, taken, later⟩ := Option.bind_eq_some_iff.mp reached
          have restChecked := checked.2
          rw [taken] at restChecked
          exact ih next restChecked front label back state rfl later

end Gocoon.TransitionRuns
