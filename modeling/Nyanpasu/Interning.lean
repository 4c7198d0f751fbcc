import Mathlib.Data.List.Nodup
import Mathlib.Tactic.Common

/-! # Interned values

A pool numbers values in the order of their first appearance and keeps each of them
once.  A number stays valid while the pool grows; a pool that is built anew numbers
its values from zero again.
-/

namespace Nyanpasu

structure Pool (α : Type) where
  values : List α
  nodup : values.Nodup

namespace Pool

variable {α : Type} [DecidableEq α] {pool : Pool α} {a b : α} {key : Nat}

def empty : Pool α := ⟨[], .nil⟩

def get (pool : Pool α) (a : α) : Option Nat :=
  if a ∈ pool.values then some (pool.values.idxOf a) else none

def resolve (pool : Pool α) (key : Nat) : Option α := pool.values[key]?

def intern (pool : Pool α) (a : α) : Nat × Pool α :=
  if present : a ∈ pool.values then (pool.values.idxOf a, pool)
  else
    (pool.values.length, ⟨pool.values ++ [a], by
      rw [List.nodup_append]
      refine ⟨pool.nodup, List.nodup_singleton a, ?_⟩
      intro b member c same equal
      rw [List.mem_singleton] at same
      exact present (same ▸ equal ▸ member)⟩)

theorem get_eq_none : pool.get a = none ↔ a ∉ pool.values := by simp [get]

theorem get_eq_some : pool.get a = some key ↔ pool.resolve key = some a := by
  unfold get resolve
  constructor
  · intro found
    split at found
    · next member =>
        cases found
        exact List.getElem?_idxOf member
    · cases found
  · intro found
    have member := List.mem_of_getElem? found
    obtain ⟨bound, value⟩ := List.getElem?_eq_some_iff.mp found
    rw [if_pos member, ← value, pool.nodup.idxOf_getElem]

theorem values_intern (pool : Pool α) (a : α) :
    (pool.intern a).2.values = if a ∈ pool.values then pool.values else pool.values ++ [a] := by
  unfold intern
  split <;> rfl

theorem resolve_intern_self (pool : Pool α) (a : α) :
    (pool.intern a).2.resolve (pool.intern a).1 = some a := by
  unfold intern
  split
  · next member => exact List.getElem?_idxOf member
  · exact List.getElem?_concat_length

/-- A number that is in use keeps its value. -/
theorem resolve_intern (found : pool.resolve key = some b) (a : α) :
    (pool.intern a).2.resolve key = some b := by
  have bound := (List.getElem?_eq_some_iff.mp found).1
  unfold intern
  split
  · exact found
  · exact (List.getElem?_append_left bound).trans found

theorem resolve_injective {other : Nat} (first : pool.resolve key = some a)
    (second : pool.resolve other = some a) : key = other := by
  have equal := (get_eq_some.mpr first).symm.trans (get_eq_some.mpr second)
  exact Option.some.inj equal

end Pool

end Nyanpasu
