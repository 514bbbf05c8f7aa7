import Mathlib.Init

/-!
Buffered channels: what is sent waits in the channel, in order, until it is received.
-/

namespace PriceScout.Library.Channels

universe u

/-- A channel that holds at most `capacity` items. -/
structure Channel (α : Type u) (capacity : Nat) where
  buffer : List α
  bounded : buffer.length ≤ capacity
  closed : Bool

variable {α : Type u} {capacity : Nat} {channel : Channel α capacity} {a : α}

namespace Channel

def make : Channel α capacity :=
  ⟨[], Nat.zero_le capacity, false⟩

/-- A send that does not wait: when there is no room the item is dropped. -/
def offer (channel : Channel α capacity) (a : α) : Channel α capacity :=
  if h : channel.buffer.length < capacity then
    { channel with
      buffer := channel.buffer ++ [a]
      bounded := by
        rw [List.length_append]
        exact h }
  else channel

/-- What a send that does not wait adds to the channel. -/
def taken (channel : Channel α capacity) (a : α) : List α :=
  if channel.buffer.length < capacity then [a] else []

/-- The channel without the item that a receive takes. -/
def drop (channel : Channel α capacity) : Channel α capacity where
  buffer := channel.buffer.tail
  bounded := by
    have hbounded := channel.bounded
    rw [List.length_tail]
    omega
  closed := channel.closed

def close (channel : Channel α capacity) : Channel α capacity :=
  { channel with closed := true }

@[simp] theorem buffer_make : (make : Channel α capacity).buffer = [] :=
  rfl

@[simp] theorem closed_make : (make : Channel α capacity).closed = false :=
  rfl

@[simp] theorem buffer_close : channel.close.buffer = channel.buffer :=
  rfl

@[simp] theorem closed_close : channel.close.closed = true :=
  rfl

@[simp] theorem closed_drop : channel.drop.closed = channel.closed :=
  rfl

@[simp] theorem buffer_offer : (channel.offer a).buffer = channel.buffer ++ channel.taken a := by
  unfold offer taken
  split
  · rfl
  · rw [List.append_nil]

@[simp] theorem closed_offer : (channel.offer a).closed = channel.closed := by
  unfold offer
  split <;> rfl

theorem cons_buffer_drop {rest : List α} (h : channel.buffer = a :: rest) :
    a :: channel.drop.buffer = channel.buffer := by
  have htail : channel.drop.buffer = rest := congrArg List.tail h
  rw [htail, h]

theorem mem_taken_iff {b : α} :
    b ∈ channel.taken a ↔ b = a ∧ channel.buffer.length < capacity := by
  unfold taken
  split <;> simp [*]

end Channel

end PriceScout.Library.Channels
