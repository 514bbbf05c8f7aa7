import Mathlib.Data.List.Basic

/-!
A durable queue that delivers a message again and again until a consumer
acknowledges or terminates it, and that can suppress a message it has stored before.
-/

namespace PriceScout.Library.WorkQueues

universe u

variable {α : Type u}

inductive Standing where
  | pending
  | acked
  | terminated
deriving DecidableEq

structure Message (α : Type u) where
  id : Nat
  payload : α
  standing : Standing

/-- The messages of a stream in the order in which they were stored; the place
of a message in the list is its sequence number. -/
abbrev Stream (α : Type u) := List (Message α)

namespace Stream

def Stores (stream : Stream α) (id : Nat) : Prop :=
  ∃ message ∈ stream, message.id = id

instance (stream : Stream α) (id : Nat) : Decidable (stream.Stores id) :=
  inferInstanceAs (Decidable (∃ message ∈ stream, message.id = id))

/-- The message with this sequence number carries the payload. -/
def Carries (stream : Stream α) (sequence : Nat) (payload : α) : Prop :=
  ∃ message, stream[sequence]? = some message ∧ message.payload = payload

/-- Store a message. One that is taken for a duplicate is suppressed. -/
def store (stream : Stream α) (suppress : Bool) (id : Nat) (payload : α) : Stream α :=
  if suppress = true ∧ stream.Stores id then stream else stream ++ [⟨id, payload, .pending⟩]

/-- Acknowledge or terminate the message with this sequence number. -/
def settle (stream : Stream α) (standing : Standing) (sequence : Nat) : Stream α :=
  stream.modify sequence fun message => { message with standing }

variable {stream : Stream α} {id sequence : Nat} {payload : α} {message : Message α}

theorem mem_store_of_mem (suppress : Bool) (h : message ∈ stream) :
    message ∈ stream.store suppress id payload := by
  unfold store
  split
  · exact h
  · exact List.mem_append_left _ h

theorem stores_store (suppress : Bool) : (stream.store suppress id payload).Stores id := by
  unfold store
  split
  · rename_i h
    exact h.2
  · exact ⟨⟨id, payload, .pending⟩, by simp, rfl⟩

theorem mem_store_cases {suppress : Bool} (h : message ∈ stream.store suppress id payload) :
    message ∈ stream ∨ message = ⟨id, payload, .pending⟩ := by
  unfold store at h
  split at h
  · exact Or.inl h
  · simpa using h

/-- Settling a message changes nothing of the others, nor what it carries. -/
theorem mem_settle_cases {standing : Standing} (h : message ∈ stream.settle standing sequence) :
    message ∈ stream ∨
      ∃ old, stream[sequence]? = some old ∧ message = { old with standing } := by
  unfold settle at h
  obtain ⟨n, hn, rfl⟩ := List.mem_iff_getElem.mp h
  rw [List.length_modify] at hn
  rw [List.getElem_modify]
  split
  · rename_i heq
    subst heq
    exact Or.inr ⟨stream[sequence], by simp [hn], rfl⟩
  · exact Or.inl (List.getElem_mem hn)

theorem carries_store {suppress : Bool} {other : α} (h : stream.Carries sequence other) :
    (stream.store suppress id payload).Carries sequence other := by
  obtain ⟨message, hget, rfl⟩ := h
  unfold store
  split
  · exact ⟨message, hget, rfl⟩
  · obtain ⟨hn, -⟩ := List.getElem?_eq_some_iff.mp hget
    exact ⟨message, by rw [List.getElem?_append_left hn, hget], rfl⟩

theorem carries_settle {standing : Standing} {n : Nat} (h : stream.Carries sequence payload) :
    (stream.settle standing n).Carries sequence payload := by
  obtain ⟨message, hget, rfl⟩ := h
  unfold Carries settle
  rw [List.getElem?_modify, hget]
  by_cases hn : n = sequence
  · exact ⟨{ message with standing }, by simp [hn], rfl⟩
  · exact ⟨message, by simp [hn], rfl⟩

theorem mem_of_carries (h : stream.Carries sequence payload) :
    ∃ message ∈ stream, message.payload = payload := by
  obtain ⟨message, hget, hpayload⟩ := h
  exact ⟨message, List.mem_of_getElem? hget, hpayload⟩

theorem exists_mem_settle {standing : Standing} (h : message ∈ stream) :
    ∃ message' ∈ stream.settle standing sequence,
      message'.id = message.id ∧ message'.payload = message.payload := by
  obtain ⟨n, hn, rfl⟩ := List.mem_iff_getElem.mp h
  refine ⟨(stream.settle standing sequence).get ⟨n, by simpa [settle] using hn⟩, List.getElem_mem _,
      ?_⟩
  simp only [settle, List.get_eq_getElem, List.getElem_modify]
  split <;> exact ⟨rfl, rfl⟩

end Stream

end PriceScout.Library.WorkQueues
