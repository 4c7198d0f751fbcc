import Nyanpasu.Invariant.Recovery

/-! # The operations under the invariant

Every operation starts and ends with nothing in hand.  Its effect is judged by
what it answered: a failure went forward at most, a success did what it says, and
a manager that began with a quarantine launched nothing.
-/

namespace Nyanpasu

open Naming Store Program

variable {α : Type} {env : Setting} {c c₀ : Ctx} {w : World}

/-! ## Effects -/

/-- The effect, and no launch if anything was quarantined at the start. -/
def Gated (effect : Ctx → Ctx → Prop) (c c' : Ctx) : Prop :=
  effect c c' ∧ (c.ctrl.quarantine ≠ [] → c'.count = c.count)

/-- What an operation does, by its answer. -/
def Does (env : Setting) (c : Ctx) (effect : α → Ctx → Ctx → Prop) : Except Error α → World → Prop :=
  Either (fun _ w => Leaves env (Gated Forward) c w)
    fun answer w => Leaves env (Gated (effect answer)) c w

theorem Leaves.clear {effect : Ctx → Ctx → Prop} (leaves : Leaves env effect c w)
    (clear : c.ctrl.quarantine = []) : Leaves env (Gated effect) c w :=
  leaves.mono fun _ done => ⟨done, fun listed => absurd clear listed⟩

theorem Leaves.calm (leaves : Leaves env Calm c w) : Leaves env (Gated Forward) c w :=
  leaves.mono fun _ calm => ⟨.inl calm.1, fun _ => calm.2⟩

variable {failed : Ctx → Ctx → Prop} {effect : α → Ctx → Ctx → Prop}

/-- Five of the operations begin by refusing to work beside a quarantine. -/
theorem ends_unlessQuarantined {body : Manager (Except Error α)} (inv : Inv env c w)
    (idle : c.Idle env) (refuses : ∀ c', Kept c c' → failed c c')
    (runs : ∀ w', Inv env c w' → c.ctrl.quarantine = [] → Ends env body w' (Either (fun _ w => Leaves env failed c w) fun answer w => Leaves env (effect answer) c w)) :
    Ends env (do
      match ← rejectQuarantine with
      | .error error => return .error error
      | .ok () => body) w (Either (fun _ w => Leaves env (Gated failed) c w)
        fun answer w => Leaves env (Gated (effect answer)) c w) := by
  refine (rejectQuarantine_ends inv).bind_either
    (fun error w₁ ⟨inv₁, _⟩ => (Leaves.unchanged inv₁ idle).mono fun c' calm =>
      ⟨refuses c' calm.1, fun _ => calm.2⟩) fun _ w₁ ⟨inv₁, clear⟩ => ?_
  exact (runs w₁ inv₁ clear).mono_either (fun _ _ leaves => leaves.clear clear)
    fun _ _ leaves => leaves.clear clear

/-! ## Starting, switching and applying -/

theorem start_ends (inv : Inv env c w) (idle : c.Idle env) (spec : InstanceSpec) :
    Ends env (start spec) w (Does env c fun _ => Advanced) := by
  refine ends_unlessQuarantined inv idle (fun _ => .inl) fun w₁ inv₁ clear => ?_
  refine (isRunning_ends inv₁).bind fun running w₂ ⟨inv₂, _⟩ => ?_
  cases running with
  | true => exact (leaves_unchanged inv₂ idle).forward
  | false =>
  refine (discardStale_ends inv₂ idle clear).bind_either (fun _ _ leaves => leaves.forward)
    fun _ w₃ inv₃ => ?_
  exact (startLocked_ends inv₃ idle.held idle.owned idle.saved rfl clear idle.pledge spec).mono_either
    (fun _ _ leaves => (leaves.rebase c fun c' kept => kept.rebase rfl (.inl rfl)).forward)
    fun _ _ leaves => (leaves.mono fun _ launched => launched.advanced).rebase c
      fun c' advanced => advanced.rebase rfl

/-- One newer revision was installed, made of what the retained spec reads. -/
def Relaunched (env : Env) (c c' : Ctx) : Prop :=
  ∃ spec, c.ctrl.lastSpec = some spec ∧ LaunchedFrom env spec c c'

theorem Relaunched.advanced {c' : Ctx} (relaunched : Relaunched env c c') : Advanced c c' := by
  obtain ⟨_, _, launched⟩ := relaunched
  exact launched.advanced

section

variable (inv : Inv env c w) (idle : c.Idle env)

include inv idle

/-- A restart installs what the retained spec reads, or nothing. -/
theorem restart_ends :
    Ends env restart w (Either
      (fun _ w' => Leaves env (Gated fun c c' => Kept c c' ∨ Relaunched env c c') c w')
      fun _ w' => Leaves env (Gated (Relaunched env)) c w') := by
  refine ends_unlessQuarantined inv idle (fun _ => .inl) fun w₁ inv₁ clear => inv₁.bind_getCtrl ?_
  cases retained : c.ctrl.lastSpec with
  | none => exact ⟨c, inv₁, idle, .inl ⟨rfl, .inr rfl⟩⟩
  | some spec =>
      exact (switchLocked_ends inv₁ idle clear spec).mono_either
        (fun _ _ leaves => leaves.mono fun _ ahead =>
          ahead.imp id fun launched => ⟨spec, retained, launched⟩)
        fun _ _ leaves => leaves.mono fun _ launched => ⟨spec, retained, launched⟩

theorem switch_ends (spec : InstanceSpec) :
    Ends env (switch spec) w (Does env c fun _ => Advanced) :=
  ends_unlessQuarantined inv idle (fun _ => .inl) fun _ inv₁ clear =>
    (switchLocked_ends inv₁ idle clear spec).mono_either
      (fun _ _ leaves => leaves.mono fun _ ahead => ahead.forward)
      fun _ _ leaves => leaves.mono fun _ launched => launched.advanced

/-- A success with a token started from the revision the token names. -/
def ApplyOutcome.Expecting (expected : Option RevisionId) (outcome : ApplyOutcome) (c c' : Ctx) :
    Prop :=
  outcome.Effect c c' ∧ c.Expected expected

theorem applyConfig_ends (input : InstanceSpec) (expected : Option RevisionId) :
    Ends env (applyConfig input expected) w (Does env c (ApplyOutcome.Expecting expected)) :=
  ends_unlessQuarantined inv idle (fun _ => .inl) fun _ inv₁ clear =>
    (applyLocked_ends inv₁ idle clear input expected).mono_either (fun _ _ leaves => leaves.forward)
      fun _ _ ⟨leaves, expects⟩ => leaves.mono fun _ effect => ⟨effect, expects⟩

theorem reconcileLocked_ends (clear : c.ctrl.quarantine = []) (spec : InstanceSpec)
    (expected : Option RevisionId) :
    Ends env (reconcileLocked spec expected) w (Either (fun _ w' => Leaves env Kept c w')
      fun outcome w' => Leaves env outcome.Effect c w' ∧ c.Expected expected) := by
  refine (isRunning_ends inv).bind fun running w₁ ⟨inv₁, _⟩ => ?_
  cases running with
  | true => exact applyLocked_ends inv₁ idle clear spec expected
  | false =>
  cases expected with
  | some expected => exact leaves_unchanged inv₁ idle
  | none =>
  refine (discardStale_ends inv₁ idle clear).bind_either (fun _ _ leaves => leaves)
    fun _ w₂ inv₂ => ?_
  refine (startLocked_ends inv₂ idle.held idle.owned idle.saved rfl clear idle.pledge spec).bind_either
    (fun error w₃ leaves => ?_) fun _ w₃ ⟨c', inv₃, idle', launched⟩ => inv₃.bind_getCtrl ?_
  · exact leaves.rebase c fun c' kept => kept.rebase rfl (.inl rfl)
  have advanced := launched.advanced
  cases slot : c'.ctrl.current with
  | none =>
      obtain ⟨revision, _, current, _⟩ := advanced
      simp [Ctx.revision, slot] at current
  | some active =>
      exact ⟨⟨c', inv₃, idle', advanced.rebase rfl⟩, fun _ none => by cases none⟩

end

/-- DNS follows the transaction; it changes nothing else. -/
theorem converge_ends (inv : Inv env c w) (result : Except Error α) :
    Ends env (do
      let alive ← isRunning
      if result.isOk || !alive then dnsConverge
      return result) w fun answer w' => answer = result ∧ UpToDns env c w' := by
  refine (isRunning_ends inv).bind fun alive w₁ ⟨inv₁, _⟩ => ?_
  split
  · exact (dnsConverge_ends inv₁.upToDns).bind fun _ _ held => ⟨rfl, held⟩
  · exact ⟨rfl, inv₁.upToDns⟩

theorem Ctx.Idle.withDns (idle : c.Idle env) (entry : Option DnsOverrideRecord) :
    (c.withDns entry).Idle env :=
  { idle with }

/-- A reconcile that fails, at whatever point, leaves the retained spec as it was. -/
theorem reconcile_ends (inv : Inv env c w) (idle : c.Idle env) (spec : InstanceSpec)
    (expected : Option RevisionId) :
    Ends env (reconcile spec expected) w (Either (fun _ w' => Leaves env (Gated Kept) c w')
      fun outcome w' => Leaves env (Gated (outcome.Expecting expected)) c w') := by
  refine ends_unlessQuarantined inv idle (fun _ => id) fun w₁ inv₁ clear => ?_
  refine (reconcileLocked_ends inv₁ idle clear spec expected).bind fun result w₂ leaves => ?_
  cases result with
  | error error =>
      obtain ⟨c', inv₂, idle', kept⟩ := leaves
      refine (converge_ends inv₂ _).mono fun answer w₃ ⟨same, entry, inv₃⟩ => ?_
      subst same
      exact ⟨_, inv₃, idle'.withDns entry, kept⟩
  | ok outcome =>
      obtain ⟨⟨c', inv₂, idle', effect⟩, expects⟩ := leaves
      refine (converge_ends inv₂ _).mono fun answer w₃ ⟨same, entry, inv₃⟩ => ?_
      subst same
      exact ⟨_, inv₃, idle'.withDns entry, effect, expects⟩

/-! ## Stopping -/

/-- The slot was emptied, and its process and its files are all there is in hand. -/
structure Taken (c₀ c : Ctx) (active : Active) : Prop where
  held : c.held = [⟨active.proc, active.plan.revision.epoch, true, false⟩]
  owned : c.owned = [active.plan.revision.epoch]
  saved : c.saved = []
  vacant : c.ctrl.current = none
  unlisted : ¬ c.ctrl.Quarantined active.plan.revision.epoch
  pledge : c.pledge = .kept
  calm : Calm c₀ c

variable {active : Active}

theorem stopTaken_ends (inv : Inv env c w) (taken : Taken c₀ c active)
    (report : Error → Manager Unit) (stopped : Except Error Unit) :
    Ends env (stopTaken active report stopped) w fun result w' =>
      result = stopped ∧ Inv env { c with held := [], owned := [], files := [] } w' ∨
        (∃ error, result = .error error) ∧ Leaves env Calm c₀ w' := by
  have calm {c' : Ctx} (trail : c'.trail = c.trail) (vacant : c'.ctrl.current = none)
      (count : c'.count = c.count) : Calm c₀ c' :=
    ⟨.vacant (trail.trans taken.calm.1.1) vacant, count.trans taken.calm.2⟩
  refine (stopAndConfirmDead_ends inv taken.held).bind fun confirmed w₁ held₁ => ?_
  cases confirmed with
  | error error =>
      obtain ⟨unconfirmed, inv₁⟩ := held₁
      simp only [unconfirmed, if_true]
      refine (latchQuarantine_ends inv₁ (by simp [taken.owned]) (Ctrl.not_slotEpoch taken.vacant _)
        taken.unlisted (by simp) (by simp [taken.owned]) ?_).bind fun latched w₂ ⟨_, inv₂⟩ => ?_
      · exact fun _ current => by simp [taken.vacant] at current
      · exact .inr ⟨⟨latched, rfl⟩, _, inv₂, .vacant taken.vacant rfl rfl taken.saved rfl taken.pledge,
          calm rfl taken.vacant rfl⟩
  | ok _ =>
  refine (cleanupEpoch_ends (held₁.unpin [] (by simp)) [] (by simp [taken.owned]) (by simp)
    (Ctrl.not_slotEpoch taken.vacant _) taken.unlisted (by simp)).bind fun cleaned w₂ inv₂ => ?_
  cases cleaned with
  | error error =>
      refine (publishTerminalError_ends inv₂ taken.vacant error).bind fun _ w₃ inv₃ => ?_
      exact .inr ⟨⟨error, rfl⟩, _, inv₃, .vacant taken.vacant rfl rfl taken.saved rfl taken.pledge,
        calm rfl taken.vacant rfl⟩
  | ok _ => exact .inl ⟨rfl, inv₂⟩

/-- The slot of an idle manager is taken. -/
theorem Inv.taken (inv : Inv env c w) (idle : c.Idle env) (current : c.ctrl.current = some active)
    (showing : Showing) :
    Taken c { c with
      ctrl := c.ctrl.vacated,
      held := ⟨active.proc, active.plan.revision.epoch, true, false⟩ :: c.held,
      owned := active.plan.revision.epoch :: c.owned, showing := showing } active where
  __ := idle
  held := by rw [idle.held]
  owned := by rw [idle.owned]
  vacant := rfl
  unlisted := inv.valid.slotFree _ ⟨active, current, rfl⟩
  calm := ⟨.vacant rfl rfl, rfl⟩

/-- `stop` of a live process and `shutdown` end alike: the stop is published once
    the process is dead and its files are gone. -/
theorem stopLive_ends (inv : Inv env c w) (taken : Taken c₀ c active) :
    Ends env (show Manager (Except Error Unit) from do
      publish (.stopping active.plan.revision.epoch) (some active.plan)
      match ← stopTaken active publishTerminalError (.ok ()) with
      | .error error => return .error error
      | .ok () =>
          publish (.stopped (some .user)) none
          return .ok ()) w fun _ w' => Leaves env Calm c₀ w' := by
  refine (publish_ends inv _ (by simp)).bind fun _ w₁ inv₁ => ?_
  refine (stopTaken_ends inv₁ { taken with } _ _).bind fun result w₂ held₂ => ?_
  rcases held₂ with ⟨rfl, inv₂⟩ | ⟨⟨error, rfl⟩, leaves⟩
  · refine (publish_stopped_ends inv₂ none rfl (fun _ current => ?_) fun _ current => ?_).bind
      fun _ w₃ inv₃ => ?_
    · simp [taken.vacant] at current
    · simp [taken.vacant] at current
    · exact ⟨_, inv₃, .vacant taken.vacant rfl rfl taken.saved rfl taken.pledge,
        .vacant taken.calm.1.1 taken.vacant, taken.calm.2⟩
  · exact leaves

theorem shutdown_ends (inv : Inv env c w) (idle : c.Idle env) :
    Ends env shutdown w fun _ w' => Leaves env Calm c w' := by
  refine (dnsRestore_ends inv.upToDns).bind fun _ w₁ ⟨entry, inv₁⟩ => inv₁.bind_getCtrl ?_
  have idle₁ := idle.withDns entry
  cases slot : c.ctrl.current with
  | none =>
      simp only [Ctx.withDns, slot]
      exact ⟨_, inv₁, idle₁, ⟨rfl, .inr rfl⟩, rfl⟩
  | some active =>
      simp only [Ctx.withDns, slot]
      refine (takeSlot_ends inv₁ slot).bind fun _ w₂ inv₂ => ?_
      exact stopLive_ends inv₂ { inv₁.taken idle₁ slot .pending with }

theorem stop_ends (inv : Inv env c w) (idle : c.Idle env) :
    Ends env stop w fun _ w' => Leaves env Calm c w' := by
  refine (dnsRestore_ends inv.upToDns).bind ?_
  rintro _ w₁ ⟨entry, inv₁⟩
  apply inv₁.bind_getCtrl
  have idle₁ := idle.withDns entry
  cases slot : c.ctrl.current with
  | none =>
      simp only [Ctx.withDns, slot]
      exact ⟨_, inv₁, idle₁, ⟨rfl, .inr rfl⟩, rfl⟩
  | some active =>
  simp only [Ctx.withDns, slot]
  have serving := (inv₁.processes.slot active slot).2.2
  refine (snapshot_ends inv₁ serving).bind ?_
  rintro captured w₂ ⟨inv₂, _⟩
  refine (takeSlot_ends inv₂ slot).bind fun _ w₃ inv₃ => ?_
  have taken := inv₁.taken idle₁ slot .pending
  split
  case isFalse => exact stopLive_ends inv₃ { taken with }
  case isTrue ended =>
    refine (publish_stopped_ends inv₃ _ (by simpa using ended) (fun _ current => by cases current)
      fun _ current => by cases current).bind fun _ w₄ inv₄ => ?_
    refine (stopTaken_ends inv₄ { taken with } _ _).mono fun result w₅ held₅ => ?_
    rcases held₅ with ⟨_, inv₅⟩ | ⟨_, leaves⟩
    · exact ⟨_, inv₅, .vacant rfl rfl rfl taken.saved rfl taken.pledge, .vacant rfl rfl, rfl⟩
    · exact leaves

/-! ## Any operation -/

/-- The compare-and-set token an operation carries. -/
def Operation.expected : Operation → Option RevisionId
  | .applyConfig _ expected | .reconcile _ expected => expected
  | _ => none

def Operation.Effect (operation : Operation) : Reply → Ctx → Ctx → Prop
  | .applied outcome => outcome.Expecting operation.expected
  | _ => Forward

variable {result : Except Error α}

/-- What is known of an operation in its own terms, in the terms of all of them. -/
theorem does_map {β : Type} {effect' : β → Ctx → Ctx → Prop}
    (either : Either (fun _ w => Leaves env (Gated failed) c w) (fun answer w => Leaves env (Gated (effect answer)) c w) result w)
    (f : α → β) (error : ∀ c', failed c c' → Forward c c')
    (ok : ∀ a c', effect a c c' → effect' (f a) c c') : Does env c effect' (result.map f) w := by
  cases result with
  | error failure => exact Leaves.mono either fun c' done => ⟨error c' done.1, done.2⟩
  | ok answer => exact Leaves.mono either fun c' done => ⟨ok answer c' done.1, done.2⟩

theorem Leaves.does (leaves : Leaves env Calm c w) : Does env c (fun _ => Forward) result w := by
  cases result with
  | error error => exact leaves.calm
  | ok answer => exact leaves.calm

theorem Operation.run_ends (operation : Operation) (inv : Inv env c w) (idle : c.Idle env) :
    Ends env operation.run w (Does env c operation.Effect) := by
  cases operation with
  | start spec =>
      exact (start_ends inv idle spec).bind fun _ _ does =>
        does_map does _ (fun _ => id) fun _ _ => .inr
  | stop =>
      exact (stop_ends inv idle).bind fun _ _ leaves =>
        does_map leaves.does _ (fun _ => id) fun _ _ => id
  | switch spec =>
      exact (switch_ends inv idle spec).bind fun _ _ does =>
        does_map does _ (fun _ => id) fun _ _ => .inr
  | restart =>
      exact (restart_ends inv idle).bind fun _ _ leaves =>
        does_map leaves _ (fun _ ahead => ahead.imp id (·.advanced)) fun _ _ relaunched =>
          .inr relaunched.advanced
  | applyConfig spec expected =>
      exact (applyConfig_ends inv idle spec expected).bind fun _ _ does =>
        does_map does _ (fun _ => id) fun _ _ => id
  | reconcile spec expected =>
      exact (reconcile_ends inv idle spec expected).bind fun _ _ leaves =>
        does_map leaves _ (fun _ => .inl) fun _ _ => id
  | recoverQuarantine =>
      exact (recoverQuarantine_ends inv idle).bind fun _ _ leaves =>
        does_map leaves.does _ (fun _ => id) fun _ _ => id
  | shutdown =>
      exact (shutdown_ends inv idle).bind fun _ _ leaves =>
        does_map leaves.does _ (fun _ => id) fun _ _ => id

/-- What an operation has done, given what it answered. -/
def Operation.After (operation : Operation) : Except Error Reply → Ctx → Ctx → Prop
  | .error _ => Forward
  | .ok reply => operation.Effect reply

theorem Operation.leaves {operation : Operation} {reply : Except Error Reply} {w' : World}
    (inv : Inv env c w) (idle : c.Idle env) (run : operation.run env w = .ok (reply, w')) :
    Leaves env (Gated (operation.After reply)) c w' := by
  have does := (operation.run_ends inv idle).of_run run
  cases reply with
  | error error => exact does
  | ok reply => exact does

end Nyanpasu
