import Mathlib.Data.List.Basic
import Mathlib.Tactic.Common

/-! # Watched cells and broadcast rings

A watched cell keeps its last value and counts its changes; a receiver remembers the
count up to which it has looked.  A ring hands every message to every receiver in the
order of sending, and keeps only the last ones: a receiver that falls behind is told
how many it has lost.
-/

namespace Nyanpasu

variable {α : Type}

structure Watch (α : Type) where
  value : α
  version : Nat

def Watch.send (w : Watch α) (a : α) : Watch α := ⟨a, w.version + 1⟩

/-- `sent` is everything ever sent, oldest first; its last `capacity` messages can be
    received. -/
structure Ring (α : Type) where
  capacity : Nat
  sent : List α

inductive Received (α : Type) where
  | message (a : α)
  | lagged (skipped : Nat)

namespace Ring

variable {r : Ring α} {a : α}

def new (α : Type) (capacity : Nat) : Ring α := ⟨capacity, []⟩

/-- Where a new receiver starts. -/
def tail (r : Ring α) : Nat := r.sent.length

def send (r : Ring α) (a : α) : Ring α := { r with sent := r.sent ++ [a] }

/-- What a receiver at this position gets, and its next position. -/
def recv (r : Ring α) (position : Nat) : Option (Received α × Nat) :=
  if position + r.capacity < r.tail then
    some (.lagged (r.tail - r.capacity - position), r.tail - r.capacity)
  else r.sent[position]?.map fun a => (.message a, position + 1)

/-- What a receiver at this position has not seen, whether it can still have it or not. -/
def unread (r : Ring α) (position : Nat) : List α := r.sent.drop position

theorem recv_message {position next : Nat} (receives : r.recv position = some (.message a, next)) :
    next = position + 1 ∧ r.unread position = a :: r.unread next ∧ next ≤ r.tail := by
  simp only [recv] at receives
  split at receives
  · cases receives
  · obtain ⟨message, present, same⟩ := Option.map_eq_some_iff.mp receives
    cases same
    obtain ⟨inside, rfl⟩ := List.getElem?_eq_some_iff.mp present
    exact ⟨rfl, List.drop_eq_getElem_cons inside, inside⟩

theorem unread_of_recv_none {position : Nat} (nothing : r.recv position = none) :
    r.unread position = [] := by
  simp only [recv] at nothing
  split at nothing
  · cases nothing
  · exact List.drop_eq_nil_of_le (List.getElem?_eq_none_iff.mp (Option.map_eq_none_iff.mp nothing))

@[simp] theorem unread_tail (r : Ring α) : r.unread r.tail = [] := List.drop_length

theorem unread_send {position : Nat} (inside : position ≤ r.tail) (a : α) :
    (r.send a).unread position = r.unread position ++ [a] :=
  List.drop_append_of_le_length inside

@[simp] theorem tail_send (r : Ring α) (a : α) : (r.send a).tail = r.tail + 1 := by
  simp [tail, send]

end Ring

end Nyanpasu
