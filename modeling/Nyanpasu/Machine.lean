import Mathlib.Tactic.Common

/-! # Machines that take one event at a time

A machine is its step function; an event that cannot happen has no next state.  A run
may be held to a condition on each of its steps, which is `True` where every
interleaving is meant.
-/

namespace Nyanpasu

variable {σ ε : Type} {step : σ → ε → Option σ} {initial : σ → Prop} {allowed : σ → ε → Prop} {s : σ}

/-- The states of the runs whose steps are all allowed. -/
inductive Reaches (step : σ → ε → Option σ) (initial : σ → Prop) (allowed : σ → ε → Prop) :
    σ → Prop where
  | initial {s : σ} : initial s → Reaches step initial allowed s
  | step {s s' : σ} {event : ε} : Reaches step initial allowed s → allowed s event →
      step s event = some s' → Reaches step initial allowed s'

/-- The state after an event; one that cannot happen is passed over. -/
def after (step : σ → ε → Option σ) (s : σ) (event : ε) : σ := (step s event).getD s

/-- A whole run as one computation. -/
def replayed (step : σ → ε → Option σ) (s : σ) (events : List ε) : σ := events.foldl (after step) s

/-- Every event of a run is allowed where it happens. -/
def AllAllowed (step : σ → ε → Option σ) (allowed : σ → ε → Prop) : σ → List ε → Prop
  | _, [] => True
  | s, event :: rest => allowed s event ∧ AllAllowed step allowed (after step s event) rest

instance decidableAllAllowed [∀ s event, Decidable (allowed s event)] (s : σ) :
    (events : List ε) → Decidable (AllAllowed step allowed s events)
  | [] => .isTrue trivial
  | event :: rest =>
      @instDecidableAnd _ _ (inferInstanceAs (Decidable (allowed s event)))
        (decidableAllAllowed (after step s event) rest)

theorem allAllowed_of_forall (all : ∀ s event, allowed s event) (events : List ε) :
    AllAllowed step allowed s events := by
  induction events generalizing s with
  | nil => trivial
  | cons event rest ih => exact ⟨all s event, ih⟩

theorem Reaches.after (reaches : Reaches step initial allowed s) {event : ε}
    (fine : allowed s event) : Reaches step initial allowed (after step s event) := by
  unfold Nyanpasu.after
  cases steps : step s event with
  | none => exact reaches
  | some s' => exact reaches.step fine steps

theorem Reaches.replayed (reaches : Reaches step initial allowed s) {events : List ε}
    (fine : AllAllowed step allowed s events) :
    Reaches step initial allowed (replayed step s events) := by
  induction events generalizing s with
  | nil => exact reaches
  | cons event rest ih => exact ih (reaches.after fine.1) fine.2

end Nyanpasu
