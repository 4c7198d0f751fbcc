import Mathlib.Data.List.Basic
import Mathlib.Data.List.Induction
import Mathlib.Tactic.Common
import Mathlib.Tactic.IntervalCases

/-! # Strings of decimal digits

A string of digits is the decimal of its value with zeros in front.  How a reader
that takes any string of digits relates to a writer of a fixed form comes down to
the number of those zeros.
-/

namespace Nyanpasu.Digits

/-- The value of a string of digits. -/
def value (ds : List Char) : Nat := Nat.ofDigitChars 10 ds 0

theorem digitChar_of_isDigit {c : Char} (digit : c.isDigit = true) :
    ∃ d, d < 10 ∧ c = Nat.digitChar d ∧ c.toNat - '0'.toNat = d := by
  obtain ⟨low, high⟩ : 48 ≤ c.toNat ∧ c.toNat ≤ 57 := by
    rw [Char.isDigit, Bool.and_eq_true, decide_eq_true_iff, decide_eq_true_iff] at digit
    exact digit
  refine ⟨c.toNat - 48, by omega, ?_, rfl⟩
  have same : c = Char.ofNat c.toNat := (Char.ofNat_toNat c).symm
  generalize c.toNat = code at *
  subst same
  interval_cases code <;> rfl

theorem value_append_singleton (ds : List Char) (c : Char) :
    value (ds ++ [c]) = 10 * value ds + (c.toNat - '0'.toNat) := by
  simp [value, Nat.ofDigitChars_append, Nat.ofDigitChars_cons, Nat.ofDigitChars_nil]

theorem value_toDigits (n : Nat) : value (Nat.toDigits 10 n) = n := Nat.ofDigitChars_ten_toDigits

/-- Every string of digits is the decimal of its value behind zeros. -/
theorem eq_zeros_append {ds : List Char} (nonempty : ds ≠ [])
    (digits : ∀ c ∈ ds, c.isDigit = true) :
    ∃ k, ds = List.replicate k '0' ++ Nat.toDigits 10 (value ds) := by
  induction ds using List.reverseRecOn with
  | nil => exact absurd rfl nonempty
  | append_singleton ds c ih =>
      obtain ⟨d, small, rfl, isValue⟩ := digitChar_of_isDigit (digits c (by simp))
      rw [value_append_singleton, isValue]
      by_cases empty : ds = []
      · subst empty
        refine ⟨0, ?_⟩
        simp [value, Nat.ofDigitChars_nil, Nat.toDigits_of_lt_base small]
      · obtain ⟨k, rest⟩ := ih empty fun c member => digits c (by simp [member])
        by_cases zero : value ds = 0
        · refine ⟨k + 1, ?_⟩
          rw [zero, Nat.toDigits_zero] at rest
          rw [zero, Nat.mul_zero, Nat.zero_add, Nat.toDigits_of_lt_base small]
          rw [List.replicate_succ', ← rest]
        · refine ⟨k, ?_⟩
          have quotient : (10 * value ds + d) / 10 = value ds := by omega
          have remainder : (10 * value ds + d) % 10 = d := by omega
          rw [Nat.toDigits_of_base_le (by omega) (by omega), quotient, remainder,
            ← List.append_assoc, ← rest]

/-- Only zero itself is written with a zero in front. -/
theorem head_toDigits {n : Nat} (zero : (Nat.toDigits 10 n).head? = some '0') : n = 0 := by
  induction n using Nat.strong_induction_on with
  | _ n ih =>
      by_cases small : n < 10
      · rw [Nat.toDigits_of_lt_base small] at zero
        interval_cases n <;> first | rfl | exact absurd zero (by decide)
      · rw [Nat.toDigits_of_base_le (by omega) (by omega),
          List.head?_append_of_ne_nil _ Nat.toDigits_ne_nil] at zero
        have none := ih (n / 10) (by omega) zero
        omega

/-- A string of digits is the decimal of its value unless it has a zero to spare. -/
theorem toDigits_value_iff {ds : List Char} (nonempty : ds ≠ [])
    (digits : ∀ c ∈ ds, c.isDigit = true) :
    ds = Nat.toDigits 10 (value ds) ↔ (ds.head? = some '0' → ds = ['0']) := by
  constructor
  · intro plain zero
    rw [plain] at zero
    rw [plain, head_toDigits zero, Nat.toDigits_zero]
  · intro spare
    obtain ⟨k, zeros⟩ := eq_zeros_append nonempty digits
    cases k with
    | zero => simpa using zeros
    | succ k =>
        have single : ds = ['0'] := spare (by rw [zeros]; rfl)
        rw [single]
        rfl

end Nyanpasu.Digits
