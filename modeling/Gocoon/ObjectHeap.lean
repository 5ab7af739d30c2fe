import Mathlib.Tactic.Common

/-!
# Heaps of objects

Objects behind pointers live in a list and a pointer is a position. An allocation appends,
so a pointer stays valid; the lemmas read a changed heap at an arbitrary pointer.
-/

namespace Gocoon.ObjectHeap

set_option autoImplicit false

variable {Object : Type*} {heap : List Object} {ref other : Nat} {object : Object}

theorem stored_bound (present : heap[ref]? = some object) : ref < heap.length :=
  (List.getElem?_eq_some_iff.mp present).1

theorem modified {change : Object → Object}
    (present : (heap.modify ref change)[other]? = some object) :
    ∃ before, heap[other]? = some before ∧
      (ref = other ∧ object = change before ∨ ref ≠ other ∧ object = before) := by
  rw [List.getElem?_modify] at present
  obtain ⟨before, found, same⟩ := Option.map_eq_some_iff.mp present
  refine ⟨before, found, ?_⟩
  by_cases equal : ref = other
  · exact .inl ⟨equal, by rw [← same, if_pos equal]⟩
  · exact .inr ⟨equal, by rw [← same, if_neg equal]⟩

theorem overwritten {next : Object} (present : (heap.set ref next)[other]? = some object) :
    (other = ref ∧ object = next) ∨ (other ≠ ref ∧ heap[other]? = some object) := by
  by_cases same : ref = other
  · subst same
    have bound : ref < heap.length := by
      have inside := stored_bound present
      rwa [List.length_set] at inside
    rw [List.getElem?_set_self bound] at present
    exact .inl ⟨rfl, (Option.some.inj present).symm⟩
  · rw [List.getElem?_set_ne same] at present
    exact .inr ⟨fun equal => same equal.symm, present⟩

theorem stored_after_set {next : Object} (present : heap[ref]? = some object) :
    (heap.set ref next)[ref]? = some next :=
  List.getElem?_set_self (stored_bound present)

theorem kept_after_set {next : Object} (different : other ≠ ref)
    (present : heap[other]? = some object) : (heap.set ref next)[other]? = some object := by
  rw [List.getElem?_set_ne different.symm]
  exact present

theorem allocated {fresh : Object} (present : (heap ++ [fresh])[ref]? = some object) :
    heap[ref]? = some object ∨ (ref = heap.length ∧ object = fresh) := by
  rcases Nat.lt_trichotomy ref heap.length with old | new | beyond
  · left
    rwa [List.getElem?_append_left old] at present
  · right
    subst new
    simp only [List.getElem?_concat_length, Option.some.injEq] at present
    exact ⟨rfl, present.symm⟩
  · rw [List.getElem?_eq_none (by simp; omega)] at present
    cases present

theorem kept_after_allocation {fresh : Object} (present : heap[ref]? = some object) :
    (heap ++ [fresh])[ref]? = some object := by
  rw [List.getElem?_append_left (stored_bound present)]
  exact present

end Gocoon.ObjectHeap
