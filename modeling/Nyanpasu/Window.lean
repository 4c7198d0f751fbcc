import Mathlib.Data.List.Infix
import Mathlib.Tactic.Common

/-! # Windows over a growing list

A list grows at the back and is trimmed at the front until what is left is accepted.
Trimming may be put off: as long as nothing of the window has been dropped, trimming a
tail of the list gives the same window as trimming all of it.
-/

namespace Nyanpasu

variable {α β : Type}

def trimFront (ok : List α → Bool) : List α → List α
  | [] => []
  | a :: as => if ok (a :: as) then a :: as else trimFront ok as

variable {ok ok' : List α → Bool} {as bs : List α}

theorem trimFront_suffix (ok : List α → Bool) (as : List α) : trimFront ok as <:+ as := by
  induction as with
  | nil => exact List.suffix_rfl
  | cons a as ih =>
      unfold trimFront
      split
      · exact List.suffix_rfl
      · exact ih.trans (List.suffix_cons a as)

theorem trimFront_accepted (ok : List α → Bool) (as : List α) :
    trimFront ok as = [] ∨ ok (trimFront ok as) = true := by
  induction as with
  | nil => exact .inl rfl
  | cons a as ih =>
      unfold trimFront
      split
      · next accepted => exact .inr accepted
      · exact ih

theorem trimFront_of_accepted (accepted : ok as = true) : trimFront ok as = as := by
  cases as with
  | nil => rfl
  | cons a as => simp [trimFront, accepted]

/-- What is accepted on its own is kept. -/
theorem trimFront_ne_nil {a : α} (accepted : ok [a] = true) (as : List α) :
    trimFront ok (as ++ [a]) ≠ [] := by
  induction as with
  | nil => simp [trimFront, accepted]
  | cons b as ih =>
      rw [List.cons_append, trimFront]
      split
      · simp
      · exact ih

/-- A tail that still holds the window has the same window. -/
theorem trimFront_of_suffix (tail : bs <:+ as) (holds : trimFront ok as <:+ bs) :
    trimFront ok bs = trimFront ok as := by
  induction as with
  | nil => rw [List.suffix_nil.mp tail]
  | cons a as ih =>
      rcases List.suffix_cons_iff.mp tail with rfl | shorter
      · rfl
      · by_cases accepted : ok (a :: as) = true
        · rw [trimFront_of_accepted accepted] at holds
          have lengths := holds.length_le.trans shorter.length_le
          exact absurd lengths (Nat.not_succ_le_self as.length)
        · simp only [trimFront, accepted] at holds ⊢
          exact ih shorter holds

/-- Trimming by a weaker measure first makes no difference. -/
theorem trimFront_trimFront (stricter : ∀ l, ok' l = true → ok l = true) (as : List α) :
    trimFront ok' (trimFront ok as) = trimFront ok' as := by
  induction as with
  | nil => rfl
  | cons a as ih =>
      by_cases accepted : ok (a :: as) = true
      · rw [trimFront_of_accepted accepted]
      · have rejected : ¬ ok' (a :: as) = true := fun accepted' => accepted (stricter _ accepted')
        rw [trimFront, if_neg accepted, ih, trimFront, if_neg rejected]

theorem trimFront_suffix_of_stricter (stricter : ∀ l, ok' l = true → ok l = true)
    (as : List α) : trimFront ok' as <:+ trimFront ok as :=
  trimFront_trimFront stricter as ▸ trimFront_suffix ok' (trimFront ok as)

/-- What is dropped before the list grows would be dropped after it has grown. -/
theorem trimFront_append (closed : ∀ l, ok (l ++ bs) = true → ok l = true) (as : List α) :
    trimFront ok (trimFront ok as ++ bs) = trimFront ok (as ++ bs) := by
  induction as with
  | nil => rfl
  | cons a as ih =>
      by_cases accepted : ok (a :: as) = true
      · rw [trimFront_of_accepted accepted]
      · have rejected : ¬ ok (a :: (as ++ bs)) = true := fun longer => accepted (closed _ longer)
        rw [trimFront, if_neg accepted, ih, List.cons_append, trimFront, if_neg rejected]

theorem trimFront_map (f : α → β) (ok : List β → Bool) (as : List α) :
    (trimFront (fun l => ok (l.map f)) as).map f = trimFront ok (as.map f) := by
  induction as with
  | nil => rfl
  | cons a as ih =>
      simp only [trimFront, List.map_cons]
      split
      · rfl
      · exact ih

end Nyanpasu
