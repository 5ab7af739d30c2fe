import Gocoon.GoProgram

/-!
# Watching what a program does

An observed program keeps notes beside its world. `note` changes them, a part that is not watched
runs `quiet`, and a call with a world of its own is run `nested` with the notes going on.
`Observes observed program` says that the observed program is the given one with notes added: it
returns the same and leaves the same world. `Admits good observed program allowed` adds that good
notes stay good exactly from those worlds that are allowed.
-/

namespace Gocoon.ObservedPrograms

open Gocoon.GoProgram

set_option autoImplicit false

structure Observed (World Notes : Type) where
  world : World
  notes : Notes

variable {World Inner Notes Err InnerErr Value Other : Type}

def quiet (program : GoM World Err Value) : GoM (Observed World Notes) Err Value := do
  let before ← get
  let (outcome, after) := exec program before.world
  set { before with world := after }
  lift outcome

def note (change : World → Notes → Notes) : GoM (Observed World Notes) Err Unit :=
  modify fun state => { state with notes := change state.world state.notes }

def nested (inner : Inner) (program : GoM (Observed Inner Notes) InnerErr Value) :
    GoM (Observed World Notes) Err (Except (Fault InnerErr) Value) := do
  let before ← get
  let (outcome, after) := exec program ⟨inner, before.notes⟩
  set { before with notes := after.notes }
  pure outcome

theorem exec_quiet (program : GoM World Err Value) (state : Observed World Notes) :
    exec (quiet program) state =
      ((exec program state.world).1, { state with world := (exec program state.world).2 }) := by
  rw [quiet, exec_bind_ok (exec_get state)]
  rcases exec program state.world with ⟨outcome, after⟩
  rw [exec_bind_ok (exec_set _ _), exec_lift]

theorem exec_note (change : World → Notes → Notes) (state : Observed World Notes) :
    exec (note change : GoM (Observed World Notes) Err Unit) state =
      (.ok (), { state with notes := change state.world state.notes }) := rfl

theorem exec_nested (inner : Inner) (program : GoM (Observed Inner Notes) InnerErr Value)
    (state : Observed World Notes) :
    exec (nested inner program : GoM (Observed World Notes) Err _) state =
      (.ok (exec program ⟨inner, state.notes⟩).1,
        { state with notes := (exec program ⟨inner, state.notes⟩).2.notes }) := by
  rw [nested, exec_bind_ok (exec_get state)]
  rcases exec program ⟨inner, state.notes⟩ with ⟨outcome, after⟩
  rw [exec_bind_ok (exec_set _ _), exec_pure]

def Observes (observed : GoM (Observed World Notes) Err Value) (program : GoM World Err Value) :
    Prop :=
  ∀ state, exec program state.world = ((exec observed state).1, (exec observed state).2.world)

section Erasure

variable {observed : GoM (Observed World Notes) Err Value} {program : GoM World Err Value}

theorem observes_quiet (program : GoM World Err Value) :
    Observes (quiet program : GoM (Observed World Notes) Err Value) program := by
  intro state
  rw [exec_quiet]

theorem observes_pure (value : Value) :
    Observes (pure value : GoM (Observed World Notes) Err Value) (pure value) := fun _ => rfl

theorem observes_fail (error : Err) :
    Observes (fail error : GoM (Observed World Notes) Err Value) (fail error) := fun _ => rfl

theorem Observes.bind {observedNext : Value → GoM (Observed World Notes) Err Other}
    {next : Value → GoM World Err Other} (first : Observes observed program)
    (rest : ∀ value, Observes (observedNext value) (next value)) :
    Observes (observed >>= observedNext) (program >>= next) := by
  intro state
  rw [exec_bind, exec_bind, first state]
  rcases exec observed state with ⟨outcome, after⟩
  cases outcome with
  | ok value => exact rest value after
  | error fault => rfl

theorem Observes.note_bind (change : World → Notes → Notes) (rest : Observes observed program) :
    Observes (note change >>= fun _ => observed) program := by
  intro state
  rw [exec_bind_ok (exec_note change state)]
  exact rest { state with notes := change state.world state.notes }

theorem Observes.attempt (observes : Observes observed program) :
    Observes (attempt observed) (attempt program) := by
  intro state
  rw [exec_attempt, exec_attempt, observes state]
  rcases exec observed state with ⟨(error | _) | value, after⟩ <;> rfl

theorem Observes.if_then {condition : Prop} [Decidable condition]
    {left right : GoM (Observed World Notes) Err Value} {first second : GoM World Err Value}
    (whenTrue : Observes left first) (whenFalse : Observes right second) :
    Observes (if condition then left else right) (if condition then first else second) := by
  split
  · exact whenTrue
  · exact whenFalse

end Erasure

structure Admits (good : Notes → Prop) (observed : GoM (Observed World Notes) Err Value)
    (program : GoM World Err Value) (allowed : World → Prop) : Prop where
  observes : Observes observed program
  keeps : ∀ state, good (exec observed state).2.notes ↔ good state.notes ∧ allowed state.world

section Admission

variable {good : Notes → Prop} {observed : GoM (Observed World Notes) Err Value}
  {program : GoM World Err Value} {allowed : World → Prop}

theorem Admits.congr {other : World → Prop} (admits : Admits good observed program allowed)
    (same : ∀ world, allowed world ↔ other world) : Admits good observed program other where
  observes := admits.observes
  keeps state := by rw [admits.keeps, same]

theorem admits_quiet (program : GoM World Err Value) :
    Admits good (quiet program) program fun _ => True where
  observes := observes_quiet program
  keeps state := by rw [exec_quiet, and_true]

theorem admits_pure (value : Value) :
    Admits good (pure value) (pure value : GoM World Err Value) fun _ => True where
  observes := observes_pure value
  keeps _ := by rw [and_true]; rfl

theorem admits_fail (error : Err) :
    Admits good (fail error) (fail error : GoM World Err Value) fun _ => True where
  observes := observes_fail error
  keeps _ := by rw [and_true]; rfl

/-- A note is judged where it is made. -/
theorem Admits.note_bind {change : World → Notes → Notes} {here : World → Prop}
    (judged : ∀ world notes, good (change world notes) ↔ good notes ∧ here world)
    (admits : Admits good observed program allowed) :
    Admits good (note change >>= fun _ => observed) program
      fun world => here world ∧ allowed world where
  observes := admits.observes.note_bind change
  keeps state := by
    rw [exec_bind_ok (exec_note change state), admits.keeps, judged, and_assoc]

theorem Admits.bind {observedNext : Value → GoM (Observed World Notes) Err Other}
    {next : Value → GoM World Err Other} {later : Value → World → Prop}
    (first : Admits good observed program allowed)
    (rest : ∀ value, Admits good (observedNext value) (next value) (later value)) :
    Admits good (observed >>= observedNext) (program >>= next) fun world =>
      allowed world ∧ ∀ value after, exec program world = (.ok value, after) →
        later value after where
  observes := first.observes.bind fun value => (rest value).observes
  keeps state := by
    have begun := first.keeps state
    rw [exec_bind, first.observes state]
    rcases ran : exec observed state with ⟨outcome, after⟩
    rw [ran] at begun
    cases outcome with
    | ok value =>
        dsimp only at begun ⊢
        rw [(rest value).keeps after, begun, and_assoc]
        simp
    | error fault =>
        dsimp only at begun ⊢
        rw [begun]
        simp

theorem Admits.if_then {condition : Prop} [Decidable condition]
    {left right : GoM (Observed World Notes) Err Value} {first second : GoM World Err Value}
    {allowedLeft allowedRight : World → Prop} (whenTrue : Admits good left first allowedLeft)
    (whenFalse : Admits good right second allowedRight) :
    Admits good (if condition then left else right) (if condition then first else second)
      fun world => if condition then allowedLeft world else allowedRight world := by
  split
  · exact whenTrue
  · exact whenFalse

end Admission

end Gocoon.ObservedPrograms
