import Mathlib.Algebra.Group.Nat.Defs
import Mathlib.Tactic.Common

/-! # A bounded channel with reserved places

Many senders, one receiver, first in first out.  A sender may reserve a place
before it has anything to send; a reserved place survives the closing of the
channel, and the receiver sees the end only once no place is reserved any more.
What was received is kept, newest first, so that the channel knows everything that
was ever sent.
-/

namespace Nyanpasu

inductive TrySendError where
  | full
  | closed
  deriving Repr, DecidableEq

structure Channel (α : Type) where
  capacity : Nat
  queue : List α
  permits : Nat
  closed : Bool
  received : List α
  bounded : queue.length + permits ≤ capacity

namespace Channel

variable {α : Type} {c c' : Channel α} {a : α}

def new (α : Type) (capacity : Nat) : Channel α := ⟨capacity, [], 0, false, [], by simp⟩

/-- Everything ever sent, newest first. -/
def sent (c : Channel α) : List α := c.queue.reverse ++ c.received

def trySend (c : Channel α) (a : α) : Except TrySendError (Channel α) :=
  if c.closed then .error .closed
  else if room : c.queue.length + c.permits < c.capacity then
    .ok { c with
      queue := c.queue ++ [a]
      bounded := by
        rw [List.length_append, List.length_singleton]
        omega }
  else .error .full

/-- A place for a later send, if there is room for one. -/
def reserve (c : Channel α) : Option (Channel α) :=
  if c.closed then none
  else if room : c.queue.length + c.permits < c.capacity then
    some { c with permits := c.permits + 1, bounded := by omega }
  else none

/-- Sending into a reserved place works on a closed channel as well. -/
def send (c : Channel α) (a : α) (reserved : 0 < c.permits) : Channel α :=
  { c with
    queue := c.queue ++ [a]
    permits := c.permits - 1
    bounded := by
      have bounded := c.bounded
      rw [List.length_append, List.length_singleton]
      omega }

def release (c : Channel α) : Channel α :=
  { c with
    permits := c.permits - 1
    bounded := by
      have bounded := c.bounded
      omega }

def close (c : Channel α) : Channel α := { c with closed := true }

def recv (c : Channel α) : Option (α × Channel α) :=
  match waiting : c.queue with
  | [] => none
  | a :: rest =>
      some (a, { c with
        queue := rest
        received := a :: c.received
        bounded := by
          have bounded := c.bounded
          rw [waiting, List.length_cons] at bounded
          omega })

/-- The receiver is told that nothing will come any more. -/
def ended (c : Channel α) (senders : Bool) : Bool :=
  c.queue.isEmpty && c.permits == 0 && (c.closed || !senders)

/-! ## What each operation does -/

theorem trySend_eq_ok (sends : c.trySend a = .ok c') :
    c.closed = false ∧ c'.queue = c.queue ++ [a] ∧ c'.permits = c.permits ∧
      c'.closed = c.closed ∧ c'.received = c.received ∧ c'.capacity = c.capacity := by
  unfold trySend at sends
  split at sends
  · cases sends
  case isFalse opened =>
    split at sends
    · cases sends
      exact ⟨by simpa using opened, rfl, rfl, rfl, rfl, rfl⟩
    · cases sends

theorem reserve_eq_some (reserves : c.reserve = some c') :
    c.closed = false ∧ c'.queue = c.queue ∧ c'.permits = c.permits + 1 ∧
      c'.closed = c.closed ∧ c'.received = c.received ∧ c'.capacity = c.capacity := by
  unfold reserve at reserves
  split at reserves
  · cases reserves
  case isFalse opened =>
    split at reserves
    · cases reserves
      exact ⟨by simpa using opened, rfl, rfl, rfl, rfl, rfl⟩
    · cases reserves

theorem recv_eq_some (receives : c.recv = some (a, c')) :
    c.queue = a :: c'.queue ∧ c'.received = a :: c.received ∧ c'.permits = c.permits ∧
      c'.closed = c.closed ∧ c'.capacity = c.capacity := by
  unfold recv at receives
  split at receives
  · cases receives
  case h_2 waiting =>
    cases receives
    exact ⟨waiting, rfl, rfl, rfl, rfl⟩

theorem ended_iff {senders : Bool} :
    c.ended senders = true ↔
      c.queue = [] ∧ c.permits = 0 ∧ (c.closed = true ∨ senders = false) := by
  simp [ended, and_assoc]

/-! ## First in, first out -/

theorem sent_send (reserved : 0 < c.permits) : (c.send a reserved).sent = a :: c.sent := by
  simp [sent, send]

theorem sent_recv (receives : c.recv = some (a, c')) : c'.sent = c.sent := by
  obtain ⟨queue, received, _⟩ := recv_eq_some receives
  simp [sent, queue, received]

end Channel

end Nyanpasu
