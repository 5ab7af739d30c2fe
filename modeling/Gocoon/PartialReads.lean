import Mathlib.Tactic.Common

/-!
# Programs that read their input in pieces

A program asks for a number of symbols at a time and goes on once it has them. The input hands
them out in pieces of any size. What the program has done depends on the symbols alone and not on
the pieces: it is the same as if they had come one by one.
-/

namespace Gocoon.PartialReads

set_option autoImplicit false

/-- A program that wants nothing has stopped. -/
structure Program (Symbol State : Type*) where
  wants : State → Nat
  resume : State → List Symbol → State

structure Reading (Symbol State : Type*) where
  state : State
  got : List Symbol
  deriving DecidableEq

variable {Symbol State : Type*} (program : Program Symbol State)

def push (reading : Reading Symbol State) (symbol : Symbol) : Reading Symbol State :=
  if program.wants reading.state = 0 then reading
  else if reading.got.length + 1 = program.wants reading.state then
    ⟨program.resume reading.state (reading.got ++ [symbol]), []⟩
  else ⟨reading.state, reading.got ++ [symbol]⟩

def feed (reading : Reading Symbol State) (input : List Symbol) : Reading Symbol State :=
  input.foldl (push program) reading

/-- What one call that asks for the missing symbols may return. -/
def Fits (reading : Reading Symbol State) (piece : List Symbol) : Prop :=
  piece ≠ [] ∧ reading.got.length + piece.length ≤ program.wants reading.state

instance [DecidableEq Symbol] (reading : Reading Symbol State) (piece : List Symbol) :
    Decidable (Fits program reading piece) := inferInstanceAs (Decidable (_ ∧ _))

def accept (reading : Reading Symbol State) (piece : List Symbol) : Reading Symbol State :=
  if reading.got.length + piece.length = program.wants reading.state then
    ⟨program.resume reading.state (reading.got ++ piece), []⟩
  else ⟨reading.state, reading.got ++ piece⟩

theorem feed_append (reading : Reading Symbol State) (front back : List Symbol) :
    feed program reading (front ++ back) = feed program (feed program reading front) back :=
  List.foldl_append ..

variable {program}

theorem feed_stopped {reading : Reading Symbol State} (stopped : program.wants reading.state = 0)
    (input : List Symbol) : feed program reading input = reading := by
  induction input with
  | nil => rfl
  | cons symbol input ih =>
      have ignored : push program reading symbol = reading := by simp [push, stopped]
      rw [feed, List.foldl_cons, ignored]
      exact ih

theorem feed_short {state : State} {got input : List Symbol}
    (short : got.length + input.length < program.wants state) :
    feed program ⟨state, got⟩ input = ⟨state, got ++ input⟩ := by
  induction input generalizing got with
  | nil => simp [feed]
  | cons symbol input ih =>
      rw [List.length_cons] at short
      have kept : push program ⟨state, got⟩ symbol = ⟨state, got ++ [symbol]⟩ := by
        unfold push
        rw [if_neg (by simp only; omega), if_neg (by simp only; omega)]
      rw [feed, List.foldl_cons, kept]
      rw [show got ++ symbol :: input = got ++ [symbol] ++ input by simp]
      exact ih (by simp only [List.length_append, List.length_singleton]; omega)

theorem feed_exact {state : State} {got input : List Symbol} (nonempty : input ≠ [])
    (full : got.length + input.length = program.wants state) :
    feed program ⟨state, got⟩ input = ⟨program.resume state (got ++ input), []⟩ := by
  obtain ⟨front, last, rfl⟩ := List.eq_nil_or_concat input |>.resolve_left nonempty
  rw [List.concat_eq_append] at full ⊢
  rw [List.length_append, List.length_singleton] at full
  have before : feed program ⟨state, got⟩ front = ⟨state, got ++ front⟩ :=
    feed_short (by omega)
  rw [feed_append, before]
  have pushed : push program ⟨state, got ++ front⟩ last =
      ⟨program.resume state (got ++ front ++ [last]), []⟩ := by
    unfold push
    rw [if_neg (by simp only; omega), if_pos (by simp only [List.length_append]; omega)]
  rw [feed, List.foldl_cons, pushed, List.foldl_nil, List.append_assoc]

/-- A call that returns a piece does what its symbols do one by one. -/
theorem accept_eq_feed {reading : Reading Symbol State} {piece : List Symbol}
    (fits : Fits program reading piece) :
    accept program reading piece = feed program reading piece := by
  obtain ⟨nonempty, bound⟩ := fits
  obtain ⟨state, got⟩ := reading
  unfold accept
  split_ifs with full
  · exact (feed_exact nonempty full).symm
  · exact (feed_short (Nat.lt_of_le_of_ne bound full)).symm

def reads (program : Program Symbol State) [DecidableEq Symbol] :
    Reading Symbol State → List (List Symbol) → Option (Reading Symbol State)
  | reading, [] => some reading
  | reading, piece :: pieces =>
      if Fits program reading piece then reads program (accept program reading piece) pieces
      else none

theorem reads_eq_feed [DecidableEq Symbol] {reading last : Reading Symbol State}
    {pieces : List (List Symbol)} (read : reads program reading pieces = some last) :
    last = feed program reading pieces.flatten := by
  induction pieces generalizing reading with
  | nil => exact (Option.some.inj read).symm
  | cons piece pieces ih =>
      unfold reads at read
      split_ifs at read with fits
      rw [List.flatten_cons, feed_append, ← accept_eq_feed fits]
      exact ih read

end Gocoon.PartialReads
