import Mathlib.Tactic.Common

/-!
# Buffered channels

A channel is its buffer, a capacity that the buffer never exceeds and a closed mark.
The operations are the non-blocking ones of a `select` with a default case: a send
finds room, finds none, or panics on a closed channel; a receive takes the oldest item,
reports a closed and drained channel, or would block.
-/

namespace Gocoon.BufferedChannel

set_option autoImplicit false

structure Channel (Item : Type) where
  capacity : Nat
  buffer : List Item
  closed : Bool
  fits : buffer.length ≤ capacity
  deriving DecidableEq

inductive Attempt (Item : Type) where
  | sent (channel : Channel Item)
  | full
  | panicked

variable {Item : Type}

def make (capacity : Nat) : Channel Item where
  capacity := capacity
  buffer := []
  closed := false
  fits := Nat.zero_le _

namespace Channel

def push (channel : Channel Item) (item : Item)
    (room : channel.buffer.length < channel.capacity) : Channel Item where
  capacity := channel.capacity
  buffer := channel.buffer ++ [item]
  closed := channel.closed
  fits := by
    rw [List.length_append, List.length_singleton]
    exact room

def trySend (channel : Channel Item) (item : Item) : Attempt Item :=
  if channel.closed then .panicked
  else if room : channel.buffer.length < channel.capacity then .sent (channel.push item room)
  else .full

/-- `none` when the receive would block; an empty result when the channel is closed and
drained. -/
def receive (channel : Channel Item) : Option (Option Item × Channel Item) :=
  match held : channel.buffer with
  | item :: rest => some (some item, { channel with
      buffer := rest
      fits := by
        have bound := channel.fits
        rw [held, List.length_cons] at bound
        omega })
  | [] => if channel.closed then some (none, channel) else none

/-- Closing a closed channel panics. -/
def close (channel : Channel Item) : Option (Channel Item) :=
  if channel.closed then none else some { channel with closed := true }

theorem try_send_room (channel : Channel Item) (item : Item)
    (opened : channel.closed = false) (room : channel.buffer.length < channel.capacity) :
    channel.trySend item = .sent (channel.push item room) := by
  simp [trySend, opened, room]

theorem receive_item {channel next : Channel Item} {item : Item}
    (received : channel.receive = some (some item, next)) :
    channel.buffer = item :: next.buffer ∧ next.capacity = channel.capacity ∧
      next.closed = channel.closed := by
  unfold receive at received
  split at received
  · next head rest held =>
      obtain ⟨same, rfl⟩ := Prod.mk.inj (Option.some.inj received)
      obtain rfl := Option.some.inj same
      exact ⟨held, rfl, rfl⟩
  · split_ifs at received
    simp at received

theorem receive_of_buffer {channel : Channel Item} {item : Item} {rest : List Item}
    (held : channel.buffer = item :: rest) : ∃ next, channel.receive = some (some item, next) := by
  unfold receive
  split
  · next head tail found =>
      obtain ⟨rfl, -⟩ := List.cons.inj (held.symm.trans found)
      exact ⟨_, rfl⟩
  · next empty =>
      rw [held] at empty
      cases empty

theorem receive_drained {channel next : Channel Item}
    (received : channel.receive = some (none, next)) :
    channel.buffer = [] ∧ channel.closed = true := by
  unfold receive at received
  split at received
  · simp at received
  · next held =>
      split_ifs at received with shut
      exact ⟨held, shut⟩

end Channel

end Gocoon.BufferedChannel
