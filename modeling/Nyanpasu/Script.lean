import Mathlib.Logic.Relation

/-! # Interruptible scripts

A script is a sequence of commands, each chosen by the answers to those before it.
Between any two commands it can be cut off for good, so a specification speaks about
every point it can be at: `Guarded` says that an invariant holds now, after each command
to come, whatever it answers, and that a script that ends does so in its postcondition.
-/

namespace Nyanpasu

/-- Scripts over commands `C`, indexed by the type of their answers. -/
inductive Script (C : Type → Type) (α : Type) : Type 1 where
  | ret (value : α)
  | call {β : Type} (command : C β) (next : β → Script C α)

namespace Script

variable {C : Type → Type} {α β σ : Type}

protected def bind : Script C α → (α → Script C β) → Script C β
  | ret value, rest => rest value
  | call command next, rest => call command fun answer => (next answer).bind rest

instance : Monad (Script C) where
  pure := ret
  bind := Script.bind

def perform (command : C α) : Script C α := call command ret

/-- What a command may answer, and what it makes of the state. -/
abbrev Effect (C : Type → Type) (σ : Type) := ∀ β : Type, C β → σ → β → σ → Prop

/-- One command is carried out. -/
def Advances (effect : Effect C σ) : Script C α → σ → Script C α → σ → Prop
  | ret _, _, _, _ => False
  | call (β := β) command next, s, script', s' =>
      ∃ answer : β, effect β command s answer s' ∧ script' = next answer

variable {effect : Effect C σ} {inv : σ → Prop} {s s' : σ}

/-- The invariant holds at every point of the script, and its end meets `post`. -/
def Guarded (effect : Effect C σ) (inv : σ → Prop) (post : α → σ → Prop) :
    Script C α → σ → Prop
  | ret value, s => inv s ∧ post value s
  | call (β := β) command next, s =>
      inv s ∧ ∀ (answer : β) (s' : σ), effect β command s answer s' →
        Guarded effect inv post (next answer) s'

variable {post : α → σ → Prop}

theorem Guarded.now {script : Script C α} (guarded : Guarded effect inv post script s) : inv s := by
  cases script with
  | ret value => exact guarded.1
  | call command next => exact guarded.1

theorem Guarded.advances {script script' : Script C α} (guarded : Guarded effect inv post script s)
    (advances : Advances effect script s script' s') : Guarded effect inv post script' s' := by
  cases script with
  | ret value => exact advances.elim
  | call command next =>
      obtain ⟨answer, happens, rfl⟩ := advances
      exact guarded.2 answer s' happens

theorem guarded_perform {command : C α} (now : inv s)
    (later : ∀ answer s', effect α command s answer s' → inv s' ∧ post answer s') :
    Guarded effect inv post (perform command) s :=
  ⟨now, later⟩

variable {rest : α → Script C β}

/-- Sequencing through the specification of the first part. -/
theorem Guarded.bind {middle : α → σ → Prop} {post : β → σ → Prop} {first : Script C α}
    (guarded : Guarded effect inv middle first s)
    (next : ∀ value s', inv s' → middle value s' → Guarded effect inv post (rest value) s') :
    Guarded effect inv post (first >>= rest) s := by
  induction first generalizing s with
  | ret value => exact next value s guarded.1 guarded.2
  | call command follow ih =>
      refine ⟨guarded.1, ?_⟩
      intro answer s' happens
      exact ih answer (guarded.2 answer s' happens)

theorem guarded_pure {value : α} (now : inv s) (ends : post value s) :
    Guarded effect inv post (pure value) s :=
  ⟨now, ends⟩

/-- The script runs to its end. -/
def Completes (effect : Effect C σ) : Script C α → σ → α → σ → Prop
  | ret value, s, result, s' => result = value ∧ s' = s
  | call (β := β) command next, s, result, s' =>
      ∃ (answer : β) (middle : σ), effect β command s answer middle ∧
        Completes effect (next answer) middle result s'

theorem Completes.bind {first : Script C α} {value : α} {result : β} {s'' : σ}
    (completes : Completes effect first s value s')
    (follows : Completes effect (rest value) s' result s'') :
    Completes effect (first >>= rest) s result s'' := by
  induction first generalizing s with
  | ret _ =>
      obtain ⟨rfl, rfl⟩ := completes
      exact follows
  | call command next ih =>
      obtain ⟨answer, middle, happens, completes⟩ := completes
      exact ⟨answer, middle, happens, ih answer completes⟩

end Script

end Nyanpasu
