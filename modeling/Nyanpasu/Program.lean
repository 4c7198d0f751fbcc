import Mathlib.Tactic.Common

/-! # Programs over an environment and a state

A program reads a fixed environment, transforms a state, and either returns a
value or aborts.  `Ensures` is its weakest precondition: from a given state the
program ends in a result satisfying the postcondition, or aborts in one of the
tolerated ways.  The rules below are what a verification of such programs needs:
one for each way a program is built, consequence, and the rule that carries an
invariant through a sequence of programs.
-/

namespace Nyanpasu

abbrev Program (ρ σ ε : Type) := ReaderT ρ (StateT σ (Except ε))

namespace Program

variable {ρ σ ε α β : Type} {tolerated : ε → Prop} {env : ρ}

/-- The weakest precondition of `program`, up to the tolerated aborts. -/
def Ensures (tolerated : ε → Prop) (env : ρ) (program : Program ρ σ ε α) (s : σ)
    (post : α → σ → Prop) : Prop :=
  match program env s with
  | .ok (a, s') => post a s'
  | .error e => tolerated e

/-- The primitive program: one computation on the environment and the state. -/
def act (f : ρ → σ → α × σ) : Program ρ σ ε α := fun env s => .ok (f env s)

def abort (e : ε) : Program ρ σ ε α := fun _ _ => .error e

variable {s : σ} {post : α → σ → Prop}

theorem ensures_act {f : ρ → σ → α × σ} (holds : post (f env s).1 (f env s).2)
    : Ensures tolerated env (act f) s post :=
  holds

theorem ensures_abort {e : ε} (allowed : tolerated e) :
    Ensures tolerated env (abort e : Program ρ σ ε α) s post :=
  allowed

variable {first : Program ρ σ ε α} {rest : α → Program ρ σ ε β}

theorem ensures_bind {post : β → σ → Prop}
    (holds : Ensures tolerated env first s fun a s' => Ensures tolerated env (rest a) s' post) :
    Ensures tolerated env (first >>= rest) s post := by
  unfold Ensures at holds ⊢
  show match (first env >>= fun a => rest a env) s with | .ok (a, s') => post a s' | .error e => _
  simp only [bind, StateT.bind, Except.bind]
  cases run : first env s with
  | error e => simpa [run] using holds
  | ok result => simpa [run] using holds

/-- Consequence, with the run itself at hand. -/
theorem Ensures.also {program : Program ρ σ ε α} {post' : α → σ → Prop}
    (holds : Ensures tolerated env program s post)
    (also : ∀ a s', program env s = .ok (a, s') → post a s' → post' a s') :
    Ensures tolerated env program s post' := by
  unfold Ensures at holds ⊢
  cases run : program env s with
  | error e => simpa [run] using holds
  | ok result =>
      rw [run] at holds
      exact also _ _ run holds

theorem Ensures.mono {program : Program ρ σ ε α} {post' : α → σ → Prop}
    (holds : Ensures tolerated env program s post) (weaken : ∀ a s', post a s' → post' a s') :
    Ensures tolerated env program s post' :=
  holds.also fun a s' _ => weaken a s'

/-- Sequencing through the specification of the first part. -/
theorem Ensures.bind {middle : α → σ → Prop} {post : β → σ → Prop}
    (holds : Ensures tolerated env first s middle)
    (next : ∀ a s', middle a s' → Ensures tolerated env (rest a) s' post) :
    Ensures tolerated env (first >>= rest) s post :=
  ensures_bind (holds.mono next)

/-- The two ways a fallible program returns. -/
def Either {κ : Type} (failed : κ → σ → Prop) (done : α → σ → Prop) : Except κ α → σ → Prop
  | .error e => failed e
  | .ok a => done a

theorem Ensures.bind_either {κ : Type} {first : Program ρ σ ε (Except κ α)}
    {rest : Except κ α → Program ρ σ ε β} {failed : κ → σ → Prop} {done : α → σ → Prop}
    {post : β → σ → Prop} (holds : Ensures tolerated env first s (Either failed done))
    (error : ∀ e s', failed e s' → Ensures tolerated env (rest (.error e)) s' post)
    (ok : ∀ a s', done a s' → Ensures tolerated env (rest (.ok a)) s' post) :
    Ensures tolerated env (first >>= rest) s post :=
  holds.bind fun
    | .error e => error e
    | .ok a => ok a

theorem Ensures.mono_either {κ : Type} {program : Program ρ σ ε (Except κ α)}
    {failed failed' : κ → σ → Prop} {done done' : α → σ → Prop}
    (holds : Ensures tolerated env program s (Either failed done))
    (error : ∀ e s', failed e s' → failed' e s') (ok : ∀ a s', done a s' → done' a s') :
    Ensures tolerated env program s (Either failed' done') :=
  holds.mono fun
    | .error e => error e
    | .ok a => ok a

/-- A run of a sequence is a run of its first part and then of the rest. -/
theorem run_bind {s'' : σ} {b : β} (run : (first >>= rest) env s = .ok (b, s'')) :
    ∃ a s', first env s = .ok (a, s') ∧ rest a env s' = .ok (b, s'') := by
  change (first env >>= fun a => rest a env) s = _ at run
  simp only [bind, StateT.bind, Except.bind] at run
  cases ran : first env s with
  | error e =>
      rw [ran] at run
      cases run
  | ok ended =>
      rw [ran] at run
      exact ⟨ended.1, ended.2, rfl, run⟩

theorem Ensures.of_run {program : Program ρ σ ε α} {s' : σ} {a : α}
    (holds : Ensures tolerated env program s post) (run : program env s = .ok (a, s')) :
    post a s' := by
  unfold Ensures at holds
  rwa [run] at holds

end Program

end Nyanpasu
