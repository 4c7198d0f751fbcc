import Mathlib.Tactic.Common

/-! # Programs that fail or panic

Programs over a state which they keep when they fail, and which have no result at all
when they panic, with the rules that prove what holds when one has ended.
-/

namespace Nyanpasu

abbrev Fallible (ε σ : Type) := ExceptT ε (StateT σ Option)

namespace Fallible

variable {ε σ α β : Type} {s : σ}

def run (x : Fallible ε σ α) (s : σ) : Option (Except ε α × σ) := StateT.run (ExceptT.run x) s

def lift : Except ε α → Fallible ε σ α
  | .ok a => pure a
  | .error error => throw error

def orPanic : Option α → Fallible ε σ α
  | some a => pure a
  | none => fun _ => none

/-- The program ends, without a panic, and then something holds. -/
def Ends (x : Fallible ε σ α) (s : σ) (Q : Except ε α → σ → Prop) : Prop :=
  ∃ r s', x.run s = some (r, s') ∧ Q r s'

variable {Q Q' : Except ε α → σ → Prop} {R : Except ε β → σ → Prop}

theorem Ends.mono {x : Fallible ε σ α} (ends : Ends x s Q) (weaker : ∀ r s', Q r s' → Q' r s') :
    Ends x s Q' := by
  obtain ⟨r, s', runs, holds⟩ := ends
  exact ⟨r, s', runs, weaker r s' holds⟩

theorem ends_pure {a : α} (holds : Q (.ok a) s) : Ends (pure a) s Q := ⟨.ok a, s, rfl, holds⟩

theorem ends_throw {error : ε} (holds : Q (.error error) s) :
    Ends (throw error : Fallible ε σ α) s Q :=
  ⟨.error error, s, rfl, holds⟩

theorem ends_lift {r : Except ε α} (holds : Q r s) : Ends (lift r) s Q := by
  cases r with
  | ok a => exact ends_pure holds
  | error e => exact ends_throw holds

section

variable {x : Fallible ε σ α} {f : α → Fallible ε σ β} {a : α} {s' : σ}
  (runs : x.run s = some (.ok a, s'))

include runs

/-- A first step that is known to succeed. -/
theorem run_bind_ok : (x >>= f).run s = (f a).run s' := by
  simp only [run, ExceptT.run_bind, StateT.run_bind] at runs ⊢
  rw [runs]
  rfl

theorem ends_bind_ok (ends : Ends (f a) s' R) : Ends (x >>= f) s R := by
  obtain ⟨r, s'', runs', holds⟩ := ends
  exact ⟨r, s'', (run_bind_ok runs).trans runs', holds⟩

end

theorem ends_bind {x : Fallible ε σ α} {f : α → Fallible ε σ β} (ends : Ends x s Q)
    (ok : ∀ a s', Q (.ok a) s' → Ends (f a) s' R)
    (error : ∀ e s', Q (.error e) s' → R (.error e) s') : Ends (x >>= f) s R := by
  obtain ⟨r, s', runs, holds⟩ := ends
  cases r with
  | error e =>
      refine ⟨.error e, s', ?_, error e s' holds⟩
      simp only [run, ExceptT.run_bind, StateT.run_bind] at runs ⊢
      rw [runs]
      rfl
  | ok a => exact ends_bind_ok runs (ok a s' holds)

end Fallible

end Nyanpasu
