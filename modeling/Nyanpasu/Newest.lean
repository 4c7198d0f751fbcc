import Mathlib.Data.List.Basic
import Mathlib.Tactic.Common

/-! # A register that takes numbered offers

Whoever offers comes with a number, and an offer whose number is not above every earlier
one is turned away.  An offer may also claim its number without writing.  So the value is
that of the write with the greatest number among those that came before every offer
numbered higher, which need not be the greatest of all writes.
-/

namespace Nyanpasu

variable {α : Type}

structure Numbered (α : Type) where
  mark : Option Nat
  value : Option α

def Numbered.offer (r : Numbered α) (n : Nat) (write : Option α) : Numbered α :=
  if r.mark.any (n ≤ ·) then r else ⟨some n, write <|> r.value⟩

/-- An offer that came when every number before it was smaller. -/
def InTime {β : Type} (items : List (Nat × β)) (item : Nat × β) : Prop :=
  ∃ before after, items = before ++ item :: after ∧ ∀ other ∈ before, other.1 < item.1

namespace InTime

variable {β : Type} {items : List (Nat × β)} {item other : Nat × β}

theorem mem (inTime : InTime items item) : item ∈ items := by
  obtain ⟨before, after, rfl, _⟩ := inTime
  simp

/-- At most one offer with a given number comes in time. -/
theorem unique (first : InTime items item) (second : InTime items other)
    (same : item.1 = other.1) : item = other := by
  obtain ⟨before, after, split, earlier⟩ := first
  obtain ⟨before', after', split', earlier'⟩ := second
  rw [split, List.append_eq_append_iff] at split'
  rcases split' with ⟨middle, rfl, rest⟩ | ⟨middle, rfl, rest⟩
  · cases middle with
    | nil => exact (List.cons.inj rest).1
    | cons head tail =>
        obtain ⟨rfl, _⟩ := List.cons.inj rest
        have less := earlier' item (by simp)
        omega
  · cases middle with
    | nil => exact (List.cons.inj rest).1.symm
    | cons head tail =>
        obtain ⟨rfl, _⟩ := List.cons.inj rest
        have less := earlier other (by simp)
        omega

theorem concat_iff :
    InTime (items ++ [other]) item ↔
      InTime items item ∨ item = other ∧ ∀ earlier ∈ items, earlier.1 < other.1 := by
  constructor
  · rintro ⟨before, after, split, earlier⟩
    rcases List.eq_nil_or_concat after with rfl | ⟨after, last, rfl⟩
    · obtain ⟨rfl, same⟩ := List.append_inj' split rfl
      obtain rfl := List.singleton_inj.mp same
      exact .inr ⟨rfl, earlier⟩
    · have split : items ++ [other] = (before ++ item :: after) ++ [last] := by simpa using split
      obtain ⟨rfl, _⟩ := List.append_inj' split rfl
      exact .inl ⟨before, after, rfl, earlier⟩
  · rintro (⟨before, after, rfl, earlier⟩ | ⟨rfl, earlier⟩)
    · exact ⟨before, after ++ [other], by simp, earlier⟩
    · exact ⟨items, [], rfl, earlier⟩

end InTime

namespace Numbered

/-- What the register holds after the offers: the greatest number, and the value of the
    greatest write in time, or still the first value. -/
structure Holds (a : Option α) (items : List (Nat × Option α)) (r : Numbered α) : Prop where
  marked : ∀ item ∈ items, ∃ m, r.mark = some m ∧ item.1 ≤ m
  offered : ∀ m, r.mark = some m → ∃ item ∈ items, item.1 = m
  value : (r.value = a ∧ ∀ n v, ¬ InTime items (n, some v)) ∨
    ∃ n v, r.value = some v ∧ InTime items (n, some v) ∧
      ∀ m v, InTime items (m, some v) → m ≤ n

theorem holds_nil (a : Option α) : Holds a [] ⟨none, a⟩ where
  marked := fun _ none => by cases none
  offered := fun _ none => by cases none
  value := .inl ⟨rfl, fun _ _ inTime => by cases inTime.mem⟩

section

variable {a : Option α} {items : List (Nat × Option α)} {r : Numbered α} (holds : Holds a items r)

include holds

/-- An offer that is turned away was not in time either. -/
theorem Holds.late {n m : Nat} (marked : r.mark = some m) (below : n ≤ m) (write : Option α)
    : Holds a (items ++ [(n, write)]) r := by
  obtain ⟨top, member, number⟩ := holds.offered m marked
  have same : ∀ item, InTime (items ++ [(n, write)]) item ↔ InTime items item := by
    intro item
    refine InTime.concat_iff.trans (or_iff_left ?_)
    rintro ⟨_, earlier⟩
    have less := earlier top member
    simp only at less
    omega
  refine ⟨?_, ?_, ?_⟩
  · intro item known
    rcases List.mem_append.mp known with before | new
    · exact holds.marked item before
    · obtain rfl := List.mem_singleton.mp new
      exact ⟨m, marked, below⟩
  · intro k is
    obtain ⟨item, known, number⟩ := holds.offered k is
    exact ⟨item, List.mem_append_left _ known, number⟩
  · simp only [same]
    exact holds.value

/-- An offer that is taken has the greatest number, and its write, if any, the last word. -/
theorem Holds.taken {n : Nat} (above : ∀ m, r.mark = some m → m < n) (write : Option α)
    : Holds a (items ++ [(n, write)]) ⟨some n, write <|> r.value⟩ := by
  have greatest : ∀ item ∈ items, item.1 < n := by
    intro item member
    obtain ⟨m, marked, below⟩ := holds.marked item member
    have less := above m marked
    omega
  refine ⟨?_, ?_, ?_⟩
  · intro item known
    refine ⟨n, rfl, ?_⟩
    rcases List.mem_append.mp known with before | new
    · exact Nat.le_of_lt (greatest item before)
    · obtain rfl := List.mem_singleton.mp new
      exact Nat.le_refl _
  · rintro m ⟨⟩
    exact ⟨(n, write), List.mem_append_right _ List.mem_cons_self, rfl⟩
  · cases write with
    | none =>
        -- nothing is written, so the writes in time are those of before
        have same : ∀ m v, InTime (items ++ [(n, none)]) (m, some v) ↔ InTime items (m, some v) := by
          intro m v
          refine InTime.concat_iff.trans (or_iff_left ?_)
          rintro ⟨written, _⟩
          cases written
        simp only [same]
        exact holds.value
    | some v =>
        refine .inr ⟨n, v, rfl, InTime.concat_iff.mpr (.inr ⟨rfl, greatest⟩), ?_⟩
        intro m v' inTime
        rcases InTime.concat_iff.mp inTime with before | ⟨last, _⟩
        · exact Nat.le_of_lt (greatest _ before.mem)
        · cases last
          exact Nat.le_refl _

theorem Holds.offer (n : Nat) (write : Option α) :
    Holds a (items ++ [(n, write)]) (r.offer n write) := by
  unfold Numbered.offer
  cases marked : r.mark with
  | none =>
      apply holds.taken
      intro m is
      rw [marked] at is
      cases is
  | some m =>
      by_cases below : n ≤ m
      · simpa [below] using holds.late marked below write
      · simp only [Option.any_some, below, decide_false, Bool.false_eq_true, if_false]
        apply holds.taken
        intro k is
        rw [marked] at is
        cases is
        omega

end

end Numbered

end Nyanpasu
