import Mathlib.Tactic.Common

/-!
# Programs with a mutable world, returned errors and panics

A call runs against a world and ends with a value, with a returned error or with
a panic; the world it leaves behind is kept in all three cases, so effects made
before a failure are not forgotten. `exec` runs a program, and the equations below
evaluate the monad's own operations.
-/

namespace Gocoon.GoProgram

set_option autoImplicit false

inductive Fault (Err : Type) where
  | returned (error : Err)
  | panicked
  deriving DecidableEq

abbrev GoM (World Err : Type) := ExceptT (Fault Err) (StateM World)

variable {World Err Value Other : Type}

def exec (program : GoM World Err Value) (world : World) :
    Except (Fault Err) Value × World :=
  Id.run (StateT.run (ExceptT.run program) world)

def fail (error : Err) : GoM World Err Value := throw (.returned error)

def crash : GoM World Err Value := throw .panicked

/-- A computation without effects on the world, such as a parser called on its own buffer. -/
def lift (outcome : Except (Fault Err) Value) : GoM World Err Value := MonadExcept.ofExcept outcome

/-- A call whose error its caller looks at or drops. A panic is not caught. -/
def attempt (program : GoM World Err Value) : GoM World Err (Except Err Value) := do
  let world ← get
  let (outcome, after) := exec program world
  set after
  match outcome with
  | .ok value => pure (.ok value)
  | .error (.returned error) => pure (.error error)
  | .error .panicked => crash

/-- A call whose error is returned in another form. -/
def mapError {Mapped : Type} (change : Err → Mapped) (program : GoM World Err Value) :
    GoM World Mapped Value := do
  let world ← get
  let (outcome, after) := exec program world
  set after
  match outcome with
  | .ok value => pure value
  | .error (.returned error) => fail (change error)
  | .error .panicked => crash

@[simp] theorem exec_pure (value : Value) (world : World) :
    exec (pure value : GoM World Err Value) world = (.ok value, world) := rfl

theorem exec_bind (program : GoM World Err Value) (next : Value → GoM World Err Other)
    (world : World) :
    exec (program >>= next) world =
      match exec program world with
      | (.ok value, after) => exec (next value) after
      | (.error fault, after) => (.error fault, after) := by
  change Id.run (StateT.run (ExceptT.run (program >>= next)) world) = _
  simp only [exec, ExceptT.run_bind, StateT.run_bind, Id.run_bind]
  rcases outcome : Id.run (StateT.run (ExceptT.run program) world) with ⟨result, after⟩
  cases result <;> rfl

theorem exec_bind_ok {program : GoM World Err Value} {next : Value → GoM World Err Other}
    {world after : World} {value : Value} (ran : exec program world = (.ok value, after)) :
    exec (program >>= next) world = exec (next value) after := by
  rw [exec_bind, ran]

theorem exec_bind_returned {program : GoM World Err Value} {next : Value → GoM World Err Other}
    {world after : World} {found : Other}
    (ran : exec (program >>= next) world = (.ok found, after)) :
    ∃ value middle, exec program world = (.ok value, middle) ∧
      exec (next value) middle = (.ok found, after) := by
  rw [exec_bind] at ran
  split at ran
  · rename_i value middle first
    exact ⟨value, middle, first, ran⟩
  · cases ran

theorem exec_map {program : GoM World Err Value} (wrap : Value → Other) {world after : World}
    {outcome : Except (Fault Err) Value} (ran : exec program world = (outcome, after)) :
    exec (wrap <$> program) world = (outcome.map wrap, after) := by
  rw [map_eq_pure_bind, exec_bind, ran]
  cases outcome <;> rfl

@[simp] theorem exec_fail (error : Err) (world : World) :
    exec (fail error : GoM World Err Value) world = (.error (.returned error), world) := rfl

@[simp] theorem exec_get (world : World) :
    exec (get : GoM World Err World) world = (.ok world, world) := rfl

@[simp] theorem exec_set (next world : World) :
    exec (set next : GoM World Err PUnit) world = (.ok ⟨⟩, next) := rfl

@[simp] theorem exec_modify (change : World → World) (world : World) :
    exec (modify change : GoM World Err PUnit) world = (.ok ⟨⟩, change world) := rfl

@[simp] theorem exec_lift (outcome : Except (Fault Err) Value) (world : World) :
    exec (lift outcome : GoM World Err Value) world = (outcome, world) := by
  cases outcome <;> rfl

theorem exec_attempt (program : GoM World Err Value) (world : World) :
    exec (attempt program) world =
      match exec program world with
      | (.ok value, after) => (.ok (.ok value), after)
      | (.error (.returned error), after) => (.ok (.error error), after)
      | (.error .panicked, after) => (.error .panicked, after) := by
  rcases outcome : exec program world with ⟨result, after⟩
  rw [attempt, exec_bind_ok (exec_get world), outcome]
  rcases result with (error | _) | value <;> rfl

theorem exec_map_error {Mapped : Type} (change : Err → Mapped) (program : GoM World Err Value)
    (world : World) :
    exec (mapError change program) world =
      match exec program world with
      | (.ok value, after) => (.ok value, after)
      | (.error (.returned error), after) => (.error (.returned (change error)), after)
      | (.error .panicked, after) => (.error .panicked, after) := by
  rcases outcome : exec program world with ⟨result, after⟩
  rw [mapError, exec_bind_ok (exec_get world), outcome]
  rcases result with (error | _) | value <;> rfl

theorem exec_map_error_returned {Mapped : Type} {change : Err → Mapped}
    {program : GoM World Err Value} {world after : World} {value : Value}
    (ran : exec (mapError change program) world = (.ok value, after)) :
    exec program world = (.ok value, after) := by
  rw [exec_map_error] at ran
  split at ran
  · rename_i found left first
    cases ran
    exact first
  · cases ran
  · cases ran

/-- Run from `world`, the program returns a value with `done`, or stops with an error or a
panic in a world with `stopped`. -/
def Ends (program : GoM World Err Value) (world : World) (done : Value → World → Prop)
    (stopped : World → Prop) : Prop :=
  match exec program world with
  | (.ok value, after) => done value after
  | (.error _, after) => stopped after

section EndsRules

variable {world : World} {done : Value → World → Prop} {stopped : World → Prop}

theorem ends_pure {value : Value} (holds : done value world) :
    Ends (pure value : GoM World Err Value) world done stopped := holds

theorem ends_fail {error : Err} (holds : stopped world) :
    Ends (fail error : GoM World Err Value) world done stopped := holds

theorem ends_crash (holds : stopped world) :
    Ends (crash : GoM World Err Value) world done stopped := holds

theorem ends_lift {outcome : Except (Fault Err) Value}
    (returned : ∀ value, outcome = .ok value → done value world)
    (failed : ∀ fault, outcome = .error fault → stopped world) :
    Ends (lift outcome : GoM World Err Value) world done stopped := by
  unfold Ends
  rw [exec_lift]
  cases outcome with
  | ok value => exact returned value rfl
  | error fault => exact failed fault rfl

theorem Ends.bind {program : GoM World Err Value} {next : Value → GoM World Err Other}
    {final : Other → World → Prop}
    (first : Ends program world (fun value after => Ends (next value) after final stopped)
      stopped) : Ends (program >>= next) world final stopped := by
  unfold Ends at first ⊢
  rw [exec_bind]
  rcases ran : exec program world with ⟨outcome, after⟩
  rw [ran] at first
  cases outcome <;> exact first

theorem ends_of_rest {program : GoM World Err Value} {next : Value → GoM World Err Other}
    {final : Other → World → Prop} (unstoppable : ∀ after, stopped after)
    (rest : ∀ value after, Ends (next value) after final stopped) :
    Ends (program >>= next) world final stopped := by
  apply Ends.bind
  unfold Ends
  rcases exec program world with ⟨fault | value, after⟩
  · exact unstoppable after
  · exact rest value after

theorem ends_map_error {Mapped : Type} {program : GoM World Err Value} (change : Err → Mapped) :
    Ends (mapError change program) world done stopped ↔ Ends program world done stopped := by
  unfold Ends
  rw [exec_map_error]
  rcases exec program world with ⟨(error | _) | value, after⟩ <;> exact Iff.rfl

theorem ends_attempt {program : GoM World Err Value} {seen : Except Err Value → World → Prop}
    {caught : World → Prop}
    (inner : Ends program world (fun value after => seen (.ok value) after) caught)
    (returned : ∀ error after, caught after → seen (.error error) after)
    (panicked : ∀ after, caught after → stopped after) :
    Ends (attempt program) world seen stopped := by
  unfold Ends at inner ⊢
  rw [exec_attempt]
  rcases ran : exec program world with ⟨outcome, after⟩
  rw [ran] at inner
  rcases outcome with (error | _) | value
  · exact returned error after inner
  · exact panicked after inner
  · exact inner

theorem Ends.mono {program : GoM World Err Value} {weaker : Value → World → Prop}
    {weakerStop : World → Prop} (holds : Ends program world done stopped)
    (doneImplies : ∀ value after, done value after → weaker value after)
    (stoppedImplies : ∀ after, stopped after → weakerStop after) :
    Ends program world weaker weakerStop := by
  unfold Ends at holds ⊢
  rcases ran : exec program world with ⟨outcome, after⟩
  rw [ran] at holds
  cases outcome with
  | ok value => exact doneImplies value after holds
  | error fault => exact stoppedImplies after holds

theorem Ends.final {program : GoM World Err Value} {always : World → Prop}
    (holds : Ends program world (fun _ after => always after) always) :
    always (exec program world).2 := by
  unfold Ends at holds
  rcases ran : exec program world with ⟨outcome, after⟩
  rw [ran] at holds
  cases outcome <;> exact holds

end EndsRules

end Gocoon.GoProgram
