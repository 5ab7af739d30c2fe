import Mathlib.Data.List.Basic
import Mathlib.Tactic.Common

/-!
# Pools of threads over a shared state

A pool is a shared state and a list of threads. A move of one thread changes the shared
state and that thread and may start further ones, so a thread keeps its position for good.
`run_everywhere` is the rule of non-interference: an assertion about a thread and the
shared state holds of every thread along a run when the moving thread establishes it for
itself and for what it starts, and keeps it for every other thread.
-/

namespace Gocoon.ThreadPool

set_option autoImplicit false

structure Pool (Shared Thread : Type*) where
  shared : Shared
  threads : List Thread

structure Move (Shared Thread : Type*) where
  shared : Shared
  thread : Thread
  started : List Thread

variable {Shared Thread Event : Type*}

namespace Pool

def start (pool : Pool Shared Thread) (thread : Thread) : Pool Shared Thread :=
  { pool with threads := pool.threads ++ [thread] }

def after (pool : Pool Shared Thread) (position : Nat) (move : Move Shared Thread) :
    Pool Shared Thread where
  shared := move.shared
  threads := pool.threads.set position move.thread ++ move.started

def run (moves : Shared → Thread → Event → Option (Move Shared Thread))
    (pool : Pool Shared Thread) (position : Nat) (event : Event) : Option (Pool Shared Thread) :=
  pool.threads[position]?.bind fun thread =>
    (moves pool.shared thread event).map (pool.after position)

end Pool

variable {moves : Shared → Thread → Event → Option (Move Shared Thread)}
  {pool next : Pool Shared Thread} {position : Nat} {event : Event}

theorem run_cases (ran : pool.run moves position event = some next) :
    ∃ thread move, pool.threads[position]? = some thread ∧
      moves pool.shared thread event = some move ∧ next = pool.after position move := by
  obtain ⟨thread, present, rest⟩ := Option.bind_eq_some_iff.mp ran
  obtain ⟨move, moved, same⟩ := Option.map_eq_some_iff.mp rest
  exact ⟨thread, move, present, moved, same.symm⟩

theorem thread_origin {move : Move Shared Thread} {other : Nat} {thread : Thread}
    (present : (pool.after position move).threads[other]? = some thread) :
    (other = position ∧ thread = move.thread) ∨
      (other ≠ position ∧ pool.threads[other]? = some thread) ∨
      (pool.threads.length ≤ other ∧ thread ∈ move.started) := by
  unfold Pool.after at present
  rcases Nat.lt_or_ge other pool.threads.length with old | new
  · rw [List.getElem?_append_left (by simpa using old)] at present
    by_cases same : position = other
    · subst same
      rw [List.getElem?_set_self old] at present
      exact Or.inl ⟨rfl, (Option.some.inj present).symm⟩
    · rw [List.getElem?_set_ne same] at present
      exact Or.inr (Or.inl ⟨fun equal => same equal.symm, present⟩)
  · rw [List.getElem?_append_right (by simpa using new)] at present
    exact Or.inr (Or.inr ⟨new, List.mem_of_getElem? present⟩)

theorem mover_present {move : Move Shared Thread} {thread : Thread}
    (present : pool.threads[position]? = some thread) :
    (pool.after position move).threads[position]? = some move.thread := by
  have bound := (List.getElem?_eq_some_iff.mp present).1
  unfold Pool.after
  rw [List.getElem?_append_left (by simpa using bound), List.getElem?_set_self bound]

theorem other_present {move : Move Shared Thread} {other : Nat} {thread : Thread}
    (present : pool.threads[other]? = some thread) (different : other ≠ position) :
    (pool.after position move).threads[other]? = some thread := by
  have bound := (List.getElem?_eq_some_iff.mp present).1
  unfold Pool.after
  rw [List.getElem?_append_left (by simpa using bound), List.getElem?_set_ne different.symm]
  exact present

/-- An assertion about every thread survives a move that does not interfere with it. -/
theorem run_everywhere {holds : Shared → Thread → Prop} {thread : Thread}
    {move : Move Shared Thread} (present : pool.threads[position]? = some thread)
    (everywhere : ∀ other ∈ pool.threads, holds pool.shared other)
    (mover : holds pool.shared thread → holds move.shared move.thread)
    (started : holds pool.shared thread → ∀ fresh ∈ move.started, holds move.shared fresh)
    (untouched : ∀ other ∈ pool.threads, holds pool.shared other → holds move.shared other) :
    ∀ other ∈ (pool.after position move).threads, holds move.shared other := by
  intro other member
  have here := everywhere thread (List.mem_of_getElem? present)
  obtain ⟨place, found⟩ := List.mem_iff_getElem?.mp member
  rcases thread_origin found with ⟨_, rfl⟩ | ⟨_, old⟩ | ⟨_, fresh⟩
  · exact mover here
  · exact untouched other (List.mem_of_getElem? old) (everywhere other (List.mem_of_getElem? old))
  · exact started here other fresh

end Gocoon.ThreadPool
