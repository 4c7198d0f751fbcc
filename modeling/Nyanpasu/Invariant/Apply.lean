import Nyanpasu.Invariant.Graceful

/-! # Applying a configuration under the invariant

An apply may change the file under a running core, so the backup stays pinned
until either the new plan is current or the old bytes are back.
-/

namespace Nyanpasu

open Naming Store Program

variable {env : Setting} {c c₀ : Ctx} {w : World} {active : Active}

/-! ## The effect of an outcome -/

/-- What an apply has done, by its outcome behind the durability warnings. -/
def ApplyOutcome.Effect (outcome : ApplyOutcome) (c c' : Ctx) : Prop :=
  match outcome.settled with
  | .noop _ => c'.installs = c.installs ∧ c'.revision = c.revision
  | .rolledBack _ _ => Restored c c'
  | _ => Advanced c c'

theorem ApplyOutcome.effect_durable (outcome : ApplyOutcome) (warning : DurabilityWarning) :
    (withDurabilityWarning outcome warning).Effect = outcome.Effect := by
  cases warning <;> rfl

/-- A failed apply installed and retained nothing; a successful one did what it says. -/
def Applies (env : Setting) (c : Ctx) : Except Error ApplyOutcome → World → Prop :=
  Either (fun _ w => Leaves env Kept c w) fun outcome w => Leaves env outcome.Effect c w

variable {result : Except Error ApplyOutcome}

theorem applies_durable (applies : Applies env c result w) (warning : DurabilityWarning)
    : Applies env c (withDurabilityResult result warning) w := by
  cases result with
  | error error => cases warning <;> exact applies
  | ok outcome =>
      show Leaves env (withDurabilityWarning outcome warning).Effect c w
      rw [ApplyOutcome.effect_durable]
      exact applies

/-- Effects are judged by the trail and the current revision only. -/
theorem Applies.rebase (applies : Applies env c result w) (c₀ : Ctx) (trail : c.trail = c₀.trail)
    (revision : c.revision = c₀.revision) : Applies env c₀ result w := by
  cases result with
  | error error => exact Leaves.rebase applies c₀ fun c' kept => kept.rebase trail (.inr revision)
  | ok outcome =>
      have installs : c.installs = c₀.installs := congrArg Prod.fst trail
      refine Leaves.rebase applies c₀ fun c' effect => ?_
      unfold ApplyOutcome.Effect Restored Advanced at effect ⊢
      rwa [installs, revision] at effect

/-! ## Changing the plan of the slot -/

def Ctrl.replanning (ctrl : Ctrl) (active : Active) (spec : Option InstanceSpec) : Ctrl :=
  { ctrl with current := some active, lastSpec := spec }

section

variable (inv : Inv env c w) (current : c.ctrl.current = some active)

include inv current

/-- The slot's process goes on under another plan of its epoch. -/
theorem Inv.replan (plan : EpochPlan) (installs : List ConfigRevision)
    (adopted : List Configuration) (pledge : Pledge Configuration) (spec : Option InstanceSpec)
    (own : plan.revision.epoch = active.plan.revision.epoch) (recorded : plan.revision ∈ installs)
    (newest : ∀ revision ∈ installs, revision.rank ≤ plan.revision.rank)
    (installed : ∀ revision ∈ installs, revision.epoch.get ≤ c.ctrl.epochs.last)
    (matched : adopted.map Prod.fst = installs)
    (feeding : Feeding env (some ⟨active.proc, plan⟩) adopted pledge w.commits w.feed w.marks) :
    Inv env { c with
      ctrl := c.ctrl.replanning ⟨active.proc, plan⟩ spec, installs := installs,
      adopted := adopted, pledge := pledge }
      { w with
        ctrl := c.ctrl.replanning ⟨active.proc, plan⟩ spec, installs := installs,
        adopted := adopted } := by
  have slotted {other : Active}
      (slot : (c.ctrl.replanning ⟨active.proc, plan⟩ spec).current = some other) :
      other = ⟨active.proc, plan⟩ := by
    cases slot
    rfl
  have slots {e : Epoch} : (c.ctrl.replanning ⟨active.proc, plan⟩ spec).SlotEpoch e ↔
      c.ctrl.SlotEpoch e := by
    unfold Ctrl.SlotEpoch
    rw [current]
    simp [Ctrl.replanning, own]
  have keeps {e : Epoch} : Keeps (c.ctrl.replanning ⟨active.proc, plan⟩ spec) c.owned e ↔
      Keeps c.ctrl c.owned e := or_congr Iff.rfl (or_congr slots Iff.rfl)
  have here {p : Nat} : (∃ other, (c.ctrl.replanning ⟨active.proc, plan⟩ spec).current =
      some other ∧ other.proc = p) ↔ ∃ other, c.ctrl.current = some other ∧ other.proc = p := by
    rw [current]
    simp [Ctrl.replanning]
  refine
    { inv with
      ctrl := rfl
      installs := rfl
      adopted := rfl
      valid :=
        { inv.valid with
          slotFree := fun e slot => inv.valid.slotFree e (slots.mp slot)
          issued := fun e kept => inv.valid.issued e (keeps.mp kept)
          installed := installed
          newest := fun other slot => by rw [slotted slot]; exact newest
          covered := fun h member => keeps.mpr (inv.valid.covered h member)
          recorded := fun other slot => by rw [slotted slot]; exact recorded
          matched := matched
          apart := fun h member other slot => ?_
          vacant := fun e announced => ?_ }
      processes := { inv.processes with
        tracked := fun p inside alive => ?_
        slot := fun other slot => ?_
        silent := fun p forwards => here.mpr (inv.processes.silent p forwards)
        forwarded := fun other slot => ?_ }
      files := { inv.files with
        owned := fun removals free x bounded present => by
          obtain ⟨e, same, kept⟩ := inv.files.owned removals free x bounded present
          exact ⟨e, same, keeps.mpr kept⟩ }
      tidy := inv.tidy.mono (fun _ covered => covered.imp id slots.mp) fun _ => id
      shown := { inv.shown with settled := fun showing => ?_ }
      feeding := feeding }
  · rw [slotted slot]
    exact inv.valid.apart h member active current
  · rw [inv.valid.vacant e announced] at current
    cases current
  · refine (inv.processes.tracked p inside alive).imp id (Or.imp ?_ id)
    exact here.mpr
  · rw [slotted slot, own]
    exact inv.processes.slot active current
  · rw [slotted slot]
    exact inv.processes.forwarded active current
  · have settled := inv.shown.settled showing
    refine ⟨(fun none => by cases none), fun other slot free alive => ?_,
      fun other slot free empty => ?_⟩
    · rw [slotted slot] at alive ⊢
      rw [own]
      exact settled.live active current free alive
    · rw [slotted slot, own]
      exact settled.converged active current free empty

theorem adoptPlan_ends {plan : EpochPlan} (own : plan.revision.epoch = active.plan.revision.epoch)
    (newest : ∀ revision ∈ c.installs, revision.rank ≤ plan.revision.rank)
    (admits : Admits env c.adopted plan) (kept : c.pledge = .kept) :
    Ends env (adoptPlan active plan) w fun adopted w' => adopted = ⟨active.proc, plan⟩ ∧
      Inv env { c with
        ctrl := c.ctrl.replanning ⟨active.proc, plan⟩ c.ctrl.lastSpec
        installs := plan.revision :: c.installs
        adopted := plan.configuration :: c.adopted
        pledge := .due } w' := by
  refine inv.ends_atomic fun k v inv' => ⟨rfl, ?_⟩
  have replanned := inv'.replan current plan (plan.revision :: c.installs)
    (plan.configuration :: c.adopted) .due c.ctrl.lastSpec own List.mem_cons_self
    (fun revision member => ?_) (fun revision member => ?_)
    (congrArg (plan.revision :: ·) inv'.valid.matched)
    (inv'.feeding.adopt admits (.inl ⟨rfl, kept⟩) active.proc)
  · rw [← inv'.ctrl, ← inv'.installs, ← inv'.adopted] at replanned ⊢
    exact replanned
  · rcases List.mem_cons.mp member with rfl | member
    · exact le_rfl
    · exact newest revision member
  · rcases List.mem_cons.mp member with rfl | member
    · rw [own]
      exact inv.valid.issued _ (.inr (.inl ⟨active, current, rfl⟩))
    · exact inv.valid.installed revision member

/-- The plan that has just become current is published, and with that committed. -/
theorem publishRunning_ends (due : c.pledge = .due) (pid : Nat) :
    Ends env (publishActive active (.running active.plan.revision.epoch pid)) w fun _ w' =>
      Inv env { c with showing := .settled, pledge := .kept } w' :=
  publishActive_ends inv current (fun _ _ same => by cases same; rfl)
    (fun _ early => by cases due.symm.trans early) (fun silent => absurd rfl (silent _ _))
    fun none => by cases none

end

/-- The compensations install first and publish afterwards. -/
theorem installAndPublish_ends (h : Held) (rest : List Epoch) {plan : EpochPlan}
    (inv : Inv env c w) (holds : c.held = [h]) (vacant : c.ctrl.current = none)
    (serving : h.serving = true) (ready : h.ready = true) (own : h.epoch = plan.revision.epoch)
    (unlisted : ¬ c.ctrl.Quarantined plan.revision.epoch)
    (newest : ∀ revision ∈ c.installs, revision.rank ≤ plan.revision.rank)
    (owned : c.owned.Perm (plan.revision.epoch :: rest)) (admits : Admits env c.adopted plan)
    (kept : c.pledge = .kept) :
    Ends env (installAndPublish h.proc plan) w fun _ w' => Inv env { c with
      ctrl := c.ctrl.installing h.proc plan, installs := plan.revision :: c.installs,
      adopted := plan.configuration :: c.adopted, held := [], owned := rest,
      showing := .settled, pledge := .kept } w' := by
  refine (pidOrDefault_ends inv h.proc).bind fun pid w₁ inv₁ => ?_
  refine (install_ends inv₁ holds vacant serving ready own unlisted newest owned admits
    (.inl rfl) (.inl ⟨rfl, kept⟩)).bind fun active w₂ ⟨isActive, inv₂⟩ => ?_
  subst isActive
  exact publishRunning_ends inv₂ rfl rfl pid

/-! ## Preparing an apply -/

/-- The next generation of the current plan, staged beside it. -/
def PlannedApply (env : Setting) (c : Ctx) (active : Active) (prepared : PreparedApply) (w : World) :
    Prop :=
  prepared.plan.revision.epoch = active.plan.revision.epoch ∧
    prepared.plan.revision.generation = active.plan.revision.generation + 1 ∧
    env.Full prepared.plan.configuration ∧ ∃ artifact contents, prepared.plan.Bytes env contents ∧
      StagedAs prepared.staged active.plan.revision.epoch artifact ∧
      (∀ file ∈ c.files, file.1 ≠ artifact) ∧
      Inv env { c with files := (artifact, contents) :: c.files } w

theorem nextGeneration_ends (inv : Inv env c w) (revision : ConfigRevision) :
    Ends env (nextGeneration revision) w fun next w' =>
      next = revision.generation + 1 ∧ Inv env c w' := by
  unfold nextGeneration
  split
  · exact ⟨rfl, inv⟩
  · exact ensures_abort (.inr rfl)

theorem prepareApply_ends (inv : Inv env c w) (current : c.ctrl.current = some active)
    (placed : active.plan.Placed) (input : InstanceSpec) (snapshot : ConfigSnapshot) :
    Ends env (prepareApply active.plan input snapshot) w (Either (fun _ w' => Inv env c w')
      fun prepared w' => PlannedApply env c active prepared w') := by
  have keeps : Keeps c.ctrl c.owned active.plan.revision.epoch :=
    .inr (.inl ⟨active, current, rfl⟩)
  refine (inv.ends_answer _).bind_either (fun _ _ inv₁ => inv₁) fun _ w₁ inv₁ => ?_
  refine (inv₁.ends_answer _).bind_either (fun _ _ inv₂ => inv₂) fun resolved w₂ inv₂ => ?_
  refine (prepare_ends inv₂ _ _ _ _ _).bind_either (fun _ _ inv₃ => inv₃)
    fun prepared w₃ ⟨serialised, built, inv₃⟩ => ?_
  refine (stageChecked_ends inv₃ keeps input prepared.bytes).bind_either (fun _ _ inv₄ => inv₄)
    fun staged w₄ ⟨artifact, named, unpinned, inv₄⟩ => ?_
  refine (nextGeneration_ends inv₄ _).bind fun next w₅ ⟨isNext, inv₅⟩ => ?_
  exact ⟨rfl, isNext, PreparedConfig.full serialised built _ _ _ _ _, artifact, prepared.bytes,
    ⟨serialised.1, serialised.2, placed.1, placed.1⟩, named, unpinned, inv₅⟩

theorem reconcileInPlace_ends (inv : Inv env c w) (p : Nat) (change : ConfigChange)
    (desired : EpochPlan) :
    Ends env (reconcileInPlace p change desired) w fun _ w' => Inv env c w' := by
  unfold reconcileInPlace
  split
  · exact patchAndVerify_ends inv _ _ _
  · exact inv
  · exact inv
  · refine (control_ends inv).bind fun client w₁ inv₁ => ?_
    cases client with
    | false => exact inv₁
    | true =>
        refine (control_ends inv₁).bind fun reloaded w₂ inv₂ => ?_
        cases reloaded with
        | false => exact inv₂
        | true => exact control_ends inv₂

/-! ## Rolling back -/

/-- The slot is empty, the old epoch is all the operation answers for, and the
    file of the old plan is back in place. -/
structure RollingBack (env : Setting) (c₀ c : Ctx) (old : EpochPlan) : Prop where
  held : c.held = []
  owned : c.owned = [old.revision.epoch]
  vacant : c.ctrl.current = none
  clear : c.ctrl.quarantine = []
  trail : c.trail = c₀.trail
  before : c₀.revision = some old.revision
  newest : ∀ revision ∈ c.installs, revision.rank ≤ old.revision.rank
  admits : Admits env c.adopted old
  pledge : c.pledge = .kept
  file : c.HasFile env old

section

variable {old : EpochPlan} {p : Nat}

variable {count : Nat}

section

variable (rolling : RollingBack env c₀ c old)

include rolling

/-- The old plan enters the slot again. -/
theorem RollingBack.install_ends
    (inv : Inv env { c with count := count, held := [⟨p, old.revision.epoch, true, true⟩], showing := .pending } w) :
    Ends env (installAndPublish p old) w fun _ w' => ∃ c', Inv env c' w' ∧ c'.held = [] ∧
      c'.owned = [] ∧ c'.showing = .settled ∧ c'.pledge = .kept ∧ c'.files = c.files ∧
      c'.saved = c.saved ∧ c'.ctrl.current = some ⟨p, old⟩ ∧ c'.installs = old.revision :: c₀.installs := by
  refine (installAndPublish_ends ⟨p, old.revision.epoch, true, true⟩ [] inv rfl rolling.vacant rfl
    rfl rfl (Ctrl.not_quarantined rolling.clear _) rolling.newest (by simp [rolling.owned])
    rolling.admits rolling.pledge).mono fun _ _ inv' => ?_
  exact ⟨_, inv', rfl, rfl, rfl, rfl, rfl, rfl, rfl, congrArg (old.revision :: ·) (congrArg Prod.fst rolling.trail)⟩

theorem RollingBack.restored {c' : Ctx} (inv : Inv env c' w) (held : c'.held = [])
    (owned : c'.owned = []) (saved : c'.saved = []) (showing : c'.showing = .settled)
    (pledge : c'.pledge = .kept) (files : c'.HasFile env old)
    (current : c'.ctrl.current = some ⟨p, old⟩)
    (installs : c'.installs = old.revision :: c₀.installs) : Leaves env Restored c₀ w := by
  refine ⟨c', inv, ⟨held, owned, saved, showing, pledge, fun other slot => ?_⟩, old.revision,
    installs, ?_, rolling.before⟩
  · rw [current] at slot
    cases slot
    exact files
  · rw [Ctx.revision, current]
    rfl

/-- A rollback that fails with its process accounted for. -/
theorem RollingBack.failed_ends {α : Type} {done : α → World → Prop} (exit : Abandonment)
    (error : Error) (inv : Inv env { c with count := count, showing := .pending } w) :
    Ends env (do
      mark (.abandoned exit) fun _ => true
      publishTerminalError error
      return .error error) w (Either (fun _ w' => Leaves env Kept c₀ w') done) := by
  refine bind_mark ?_
  have abandoned := (inv.mark (.abandoned exit)).abandon [] ⟨exit, List.mem_cons_self⟩ (by simp)
    (by simp [rolling.held])
  exact (publishTerminalError_leaves c₀ abandoned error rolling.vacant rolling.held rfl
    rolling.pledge rolling.trail).bind fun _ _ leaves => leaves

theorem RollingBack.unconfirmed_ends {error : Error}
    (inv : Inv env { c with count := count, held := [⟨p, old.revision.epoch, false, false⟩], showing := .pending } w) :
    Ends env (latchQuarantine old.revision.epoch error) w fun _ w' =>
      Leaves env Kept c₀ w' :=
  latchQuarantine_leaves c₀ inv (by simp [rolling.owned]) rolling.vacant
    (Ctrl.not_quarantined rolling.clear _) (by simp) (by simp [rolling.owned]) rolling.pledge
    rolling.trail

end

theorem rollbackRestart_ends {generation : Nat} (c₀ : Ctx) (inv : Inv env c w)
    (rolling : RollingBack env c₀ c old)
    (inHand : c.saved = [.backup old.revision.epoch.get generation]) (text : String) :
    Ends env (rollbackRestart old ⟨backupPath old.revision.epoch generation, old.revision.epoch⟩
      text) w (Applies env c₀) := by
  have clear := Ctrl.not_quarantined rolling.clear old.revision.epoch
  refine (publish_ends inv _ (by simp)).bind fun _ w₁ inv₁ => ?_
  refine (spawnReplacement_ends inv₁ (.inl (by simp [rolling.owned])) clear).bind_either
    (fun error w₂ ⟨count, failed⟩ => ?_) fun p w₂ ⟨isCount, inv₂⟩ => ?_
  · rcases failed with ⟨confirmed, inv₂⟩ | ⟨unconfirmed, inv₂⟩
    · simp only [confirmed, Bool.false_eq_true, if_false]
      exact rolling.failed_ends .restartRollback _ inv₂
    · simp only [unconfirmed, if_true]
      rw [rolling.held] at inv₂
      exact (rolling.unconfirmed_ends inv₂).bind fun _ _ leaves => leaves
  subst isCount
  rw [rolling.held] at inv₂
  refine (rolling.install_ends inv₂).bind fun _ w₃ ⟨c', inv₃, held, owned, showing, pledge, files,
    saved, current, installs⟩ => ?_
  obtain ⟨contents, bytes, pinned⟩ := rolling.file
  have fewer := inv₃.unpin [(.config old.revision.epoch.get, contents)] (by simpa [files] using pinned)
  refine (removeBackup_ends fewer (saved.trans inHand) (by simp)).bind fun _ w₄ inv₄ => ?_
  exact rolling.restored inv₄ held owned rfl showing pledge ⟨contents, bytes, by simp⟩ current
    installs

theorem rollbackSwitch_ends (inv : Inv env c w) (rolling : RollingBack env c₀ c old)
    (unsaved : c.saved = []) (text : String) : Ends env (rollbackSwitch old text) w (Applies env c₀) := by
  have clear := Ctrl.not_quarantined rolling.clear old.revision.epoch
  refine (publish_ends inv _ (by simp)).bind fun _ w₁ inv₁ => ?_
  refine (spawnReplacement_ends inv₁ (.inl (by simp [rolling.owned])) clear).bind_either
    (fun error w₂ ⟨count, failed⟩ => ?_) fun p w₂ ⟨isCount, inv₂⟩ => ?_
  · rcases failed with ⟨confirmed, inv₂⟩ | ⟨unconfirmed, inv₂⟩
    · simp only [confirmed, Bool.false_eq_true, if_false]
      exact rolling.failed_ends .switchRollback _ inv₂
    · simp only [unconfirmed, if_true]
      rw [rolling.held] at inv₂
      exact (rolling.unconfirmed_ends inv₂).bind fun _ _ leaves => leaves
  subst isCount
  rw [rolling.held] at inv₂
  refine (rolling.install_ends inv₂).bind fun _ w₃ ⟨c', inv₃, held, owned, showing, pledge, files,
    saved, current, installs⟩ => ?_
  obtain ⟨contents, bytes, pinned⟩ := rolling.file
  exact rolling.restored inv₃ held owned (saved.trans unsaved) showing pledge
    ⟨contents, bytes, files ▸ pinned⟩ current installs

/-! ## Replacing the process in place -/

/-- An apply that is past its commit: the slot still runs the old plan of the
    epoch, the file holds the desired bytes and the backup the old ones. -/
structure Committed (env : Setting) (c : Ctx) (active : Active) (desired : EpochPlan) : Prop where
  held : c.held = []
  owned : c.owned = []
  current : c.ctrl.current = some active
  clear : c.ctrl.quarantine = []
  own : desired.revision.epoch = active.plan.revision.epoch
  next : desired.revision.generation = active.plan.revision.generation + 1
  newest : ∀ revision ∈ c.installs, revision.rank ≤ active.plan.revision.rank
  known : Admits env c.adopted active.plan
  full : env.Full desired.configuration
  pledge : c.pledge = .kept
  file : c.HasFile env desired
  backup : ∃ contents, active.plan.Bytes env contents ∧
    (.backup active.plan.revision.epoch.get desired.revision.generation, contents) ∈ c.files
  saved : c.saved = [.backup active.plan.revision.epoch.get desired.revision.generation]

theorem Committed.revision {desired : EpochPlan} (committed : Committed env c active desired) :
    c.revision = some active.plan.revision := by
  rw [Ctx.revision, committed.current]
  rfl

section

variable {desired : EpochPlan} (committed : Committed env c active desired)

include committed

theorem Committed.newer : ∀ revision ∈ c.installs, revision.rank < desired.revision.rank := by
  intro revision member
  refine (committed.newest revision member).trans_lt ?_
  have next := committed.next
  exact Prod.Lex.toLex_lt_toLex.mpr (.inr ⟨congrArg Epoch.get committed.own.symm, by omega⟩)

theorem Committed.admits (inv : Inv env c w) : Admits env c.adopted desired :=
  ⟨committed.full, inv.valid.fits_newer committed.newer⟩

/-- The desired plan could not be launched: the old bytes are restored and the old
    plan relaunched. -/
theorem compensate_ends {text : String}
    (inv : Inv env { c with ctrl := c.ctrl.vacated, count := count, owned := [active.plan.revision.epoch], showing := .pending } w) :
    Ends env (do
      match ← restore ⟨backupPath active.plan.revision.epoch desired.revision.generation,
          active.plan.revision.epoch⟩ with
      | .error restoreError =>
          mark (.abandoned .restartRestore) fun _ => true
          let error := .applyRollbackFailed text
            ("runtime restore failed: " ++ restoreError.display)
          publishTerminalError error
          return .error error
      | .ok warning =>
          let rollback ← rollbackRestart active.plan
            ⟨backupPath active.plan.revision.epoch desired.revision.generation,
              active.plan.revision.epoch⟩ text
          return withDurabilityResult rollback warning) w (Applies env c) := by
  obtain ⟨contents, bytes, pinned⟩ := committed.backup
  refine (restore_ends inv (.inl (by simp)) pinned).bind_either
    (fun restoreError w₁ inv₁ => bind_mark ?_) fun warning w₁ inv₁ => ?_
  · have abandoned := (inv₁.mark (.abandoned .restartRestore)).abandon [] ⟨_, List.mem_cons_self⟩
      (by simp) (by simp [committed.held])
    exact (publishTerminalError_leaves c abandoned _ rfl committed.held rfl committed.pledge
      rfl).bind fun _ _ leaves => leaves
  · refine (rollbackRestart_ends c inv₁ ⟨committed.held, rfl, rfl, committed.clear, rfl,
      committed.revision, committed.newest, committed.known, committed.pledge,
      ⟨contents, bytes, by simp⟩⟩ committed.saved text).bind fun result w₂ applies => ?_
    exact applies_durable applies warning

end

theorem restartWithCompensation_ends {desired : EpochPlan} (inv : Inv env c w)
    (committed : Committed env c active desired) :
    Ends env (restartWithCompensation desired
      ⟨backupPath active.plan.revision.epoch desired.revision.generation,
        active.plan.revision.epoch⟩) w (Applies env c) := by
  have unlisted := Ctrl.not_quarantined committed.clear
  refine (retireCurrent_ends inv committed.current).bind_either
    (fun failure w₁ failed => ?_) fun old w₁ retired => ?_
  · obtain ⟨epochs, unconfirmed, inv₁⟩ := failed
    simp only [unconfirmed, if_true]
    rw [epochs]
    exact (latchQuarantine_leaves c inv₁ List.mem_cons_self rfl (unlisted _)
      (by simp [Ctx.retiring, committed.held]) (by simp [Ctx.retiring, committed.owned])
      committed.pledge rfl).bind fun _ _ leaves => leaves
  obtain ⟨isPlan, inv₁⟩ := retired
  subst isPlan
  refine (publish_ends inv₁ _ (by simp)).bind fun _ w₂ inv₂ => ?_
  refine (spawnReplacement_ends inv₂ (.inl ?_) (unlisted _)).bind_either
    (fun error w₃ failed => ?_) fun p w₃ spawned => ?_
  · simp [Ctx.retiring, committed.own]
  · obtain ⟨count, failed⟩ := failed
    rcases failed with ⟨confirmed, inv₃⟩ | ⟨unconfirmed, inv₃⟩
    · simp only [confirmed, Bool.false_eq_true, if_false]
      rw [Ctx.retiring, committed.owned] at inv₃
      exact compensate_ends committed inv₃
    · simp only [unconfirmed, if_true]
      exact (latchQuarantine_leaves c inv₃ (by simp [Ctx.retiring, committed.own]) rfl (unlisted _)
        (by simp [Ctx.retiring, committed.held])
        (by simp [Ctx.retiring, committed.owned, committed.own]) committed.pledge rfl).bind
        fun _ _ leaves => leaves
  obtain ⟨isCount, inv₃⟩ := spawned
  subst isCount
  refine (installAndPublish_ends ⟨c.count, desired.revision.epoch, true, true⟩ [] inv₃
    (by simp [Ctx.retiring, committed.held]) rfl rfl rfl rfl (unlisted _)
    (fun revision member => (committed.newer revision member).le)
    (by simp [Ctx.retiring, committed.owned, committed.own]) (committed.admits inv)
    committed.pledge).bind fun _ w₄ inv₄ => ?_
  obtain ⟨contents, bytes, pinned⟩ := committed.file
  have fewer := inv₄.unpin [(.config desired.revision.epoch.get, contents)]
    (by simpa [Ctx.retiring] using pinned)
  refine (removeBackup_ends fewer committed.saved (by simp)).bind fun _ w₅ inv₅ => ?_
  refine ⟨_, inv₅, ⟨rfl, rfl, rfl, rfl, rfl, fun other slot => ?_⟩, desired.revision, rfl, rfl,
    committed.newer⟩
  cases slot
  exact ⟨contents, bytes, by simp⟩

/-! ## Applying in place -/

theorem leaves_unchanged (inv : Inv env c w) (idle : c.Idle env) : Leaves env Kept c w :=
  ⟨c, inv, idle, rfl, .inr rfl⟩

theorem setLastSpec_ends (inv : Inv env c w) (spec : InstanceSpec) :
    Ends env (setLastSpec spec) w fun _ w' =>
      Inv env { c with ctrl := { c.ctrl with lastSpec := some spec } } w' :=
  inv.bind_getCtrl (ensures_act
    (inv.withCtrl { c.ctrl with lastSpec := some spec } rfl rfl rfl inv.dns))

/-- The new plan is live in the slot's own process. -/
theorem adopt_ends {desired : EpochPlan} {outcome : ApplyOutcome} (inv : Inv env c w)
    (committed : Committed env c active desired) (advances : outcome.Effect = Advanced) :
    Ends env (do
      let adopted ← adoptPlan active desired
      let pid ← pidOrDefault adopted.proc
      publishActive adopted (.running desired.revision.epoch pid)
      setLastSpec desired.sourceSpec
      let _ ← removeBackup ⟨backupPath active.plan.revision.epoch desired.revision.generation,
        active.plan.revision.epoch⟩
      return .ok outcome) w (Applies env c) := by
  refine (adoptPlan_ends inv committed.current committed.own
    (fun revision member => (committed.newer revision member).le) (committed.admits inv)
    committed.pledge).bind fun adopted w₁ ⟨isAdopted, inv₁⟩ => ?_
  subst isAdopted
  refine (pidOrDefault_ends inv₁ _).bind fun pid w₂ inv₂ => ?_
  refine (publishRunning_ends inv₂ rfl rfl pid).bind fun _ w₃ inv₃ => ?_
  refine (setLastSpec_ends inv₃ _).bind fun _ w₄ inv₄ => ?_
  obtain ⟨contents, bytes, pinned⟩ := committed.file
  have fewer := inv₄.unpin [(.config desired.revision.epoch.get, contents)] (by simpa using pinned)
  refine (removeBackup_ends fewer committed.saved (by simp)).bind fun _ w₅ inv₅ => ?_
  show Leaves env outcome.Effect c w₅
  rw [advances]
  refine ⟨_, inv₅, ⟨committed.held, committed.owned, rfl, rfl, rfl, fun other slot => ?_⟩,
    desired.revision, rfl, rfl, committed.newer⟩
  cases slot
  exact ⟨contents, bytes, by simp⟩

theorem applyInPlace_ends {prepared : PreparedApply} (idle : c.Idle env)
    (current : c.ctrl.current = some active) (clear : c.ctrl.quarantine = [])
    (planned : PlannedApply env c active prepared w) (change : ConfigChange) :
    Ends env (applyInPlace active change prepared) w (Applies env c) := by
  obtain ⟨own, next, full, artifact, contents, bytes, named, unpinned, inv⟩ := planned
  obtain ⟨before, oldBytes, pinned⟩ := idle.file active current
  have keeps : Keeps c.ctrl c.owned active.plan.revision.epoch :=
    .inr (.inl ⟨active, current, rfl⟩)
  refine (backup_ends inv keeps (List.mem_cons_of_mem _ pinned)).bind_either
    (fun error w₁ inv₁ => ?_) fun saved w₁ ⟨isSaved, unsaved, inv₁⟩ => ?_
  · exact (dropStaged_unpins inv₁ rfl named unpinned).bind
      fun _ _ inv₂ => leaves_unchanged inv₂ idle
  subst isSaved
  have inv₁ := inv₁.unpin ((artifact, contents) ::
    (.backup active.plan.revision.epoch.get prepared.plan.revision.generation, before) :: c.files)
    (by simp only [List.mem_cons]; tauto)
  rw [own]
  refine (commitReplace_ends inv₁ rfl named keeps ?_).bind_either (fun error w₂ inv₂ => ?_)
    fun warning w₂ inv₂ => ?_
  · intro file member
    rcases List.mem_cons.mp member with rfl | member
    · exact (unsaved (artifact, contents) List.mem_cons_self).symm
    · exact unpinned file member
  · refine (removeBackup_ends (inv₂.unpin c.files (by simp +contextual)) rfl
      fun file member => unsaved file (List.mem_cons_of_mem _ member)).bind fun _ _ inv₃ => ?_
    exact leaves_unchanged inv₃ idle
  have committed : Committed env { c with
      files := (.config active.plan.revision.epoch.get, contents) ::
        ((.backup active.plan.revision.epoch.get prepared.plan.revision.generation, before) ::
          c.files).filter (·.1 ≠ .config active.plan.revision.epoch.get)
      saved := .backup active.plan.revision.epoch.get prepared.plan.revision.generation ::
        c.saved } active prepared.plan :=
    { idle with
      current := current
      clear := clear
      own := own
      next := next
      newest := inv₂.valid.newest active current
      known := inv₂.admits_current current
      full := full
      file := ⟨contents, bytes, by simp [own]⟩
      backup := ⟨before, oldBytes, by simp⟩
      saved := by rw [idle.saved] }
  refine (withTimeout_ends (reconcileInPlace_ends inv₂ _ _ _)).bind fun taken w₃ inv₃ => ?_
  cases taken with
  | true =>
      have effect : (withDurabilityWarning (inPlaceOutcome change prepared.plan.revision)
          warning).Effect = Advanced := by
        rw [ApplyOutcome.effect_durable]
        cases change <;> rfl
      have adopted := adopt_ends inv₃ committed effect
      rw [own] at adopted
      exact adopted.mono fun _ _ applies => applies.rebase c rfl rfl
  | false =>
      refine (restartWithCompensation_ends inv₃ committed).bind fun _ _ applies => ?_
      exact applies_durable (applies.rebase c rfl rfl) warning

/-! ## Applying by a switch -/

theorem absent_of_not_hasArtifacts {epoch : Epoch} (none : hasArtifacts w epoch = false) :
    Absent epoch.get w.dir := by
  intro artifact own
  by_contra present
  obtain ⟨contents, found⟩ := Option.ne_none_iff_exists'.mp present
  have named := artifactEpoch_name (own ▸ epoch.bounded : artifact.epoch < 2 ^ 64)
  unfold hasArtifacts at none
  rw [List.any_eq_false] at none
  exact none _ (Dir.mem_of_get found) (by simp [named, own])

/-- A preparation that failed leaves its epoch to nobody; the mark says if a file
    stayed behind. -/
theorem Beside.markPrepare {epoch : Epoch} (inv : Inv env c w) (beside : Beside c₀ c epoch)
    (held : c.held = []) :
    Inv env { c with owned := [] }
      (w.markIf (.abandoned .switchPrepare) (hasArtifacts w epoch)) := by
  have only : c.owned.Perm [epoch] := by rw [beside.owned]
  refine (inv.markIf _ _).disown only (by simp [held]) fun _ free _ => ?_
  have clean : hasArtifacts w epoch = false := by
    by_contra left
    rw [Bool.not_eq_false] at left
    exact free ⟨.switchPrepare, World.mem_markIf_self left⟩
  unfold World.markIf
  rw [clean]
  exact absent_of_not_hasArtifacts clean

theorem switchWithCompensation_ends (inv : Inv env c w) (idle : c.Idle env)
    (current : c.ctrl.current = some active) (clear : c.ctrl.quarantine = [])
    (input : InstanceSpec) (snapshot : ConfigSnapshot) :
    Ends env (switchWithCompensation input snapshot) w (Applies env c) := by
  have unlisted := Ctrl.not_quarantined clear
  refine (allocateEpoch_ends inv).bind fun epoch w₁ allocated => ?_
  obtain ⟨fresh, unnamed, inv₁⟩ := allocated
  have inv₁ := inv₁.own epoch le_rfl fun _ _ => unnamed _ rfl
  have differs := fresh.slot_ne current
  refine (prepareLaunch_ends inv₁ (.inl List.mem_cons_self) input snapshot).bind_either
    (fun error w₂ inv₂ => bind_mark ?_) fun desired w₂ prepared => ?_
  · have left := Beside.markPrepare inv₂ ⟨fresh, rfl, rfl, by simp [idle.owned], idle.saved, idle.pledge,
      fun _ => id⟩ idle.held
    exact ⟨_, left, { idle with owned := rfl },
      rfl, .inr rfl⟩
  obtain ⟨own, _, full, contents, bytes, inv₂⟩ := prepared
  have newer := fresh.newer inv own
  subst own
  refine (retireCurrent_ends inv₂ current).bind_either
    (fun failure w₃ failed => ?_) fun old w₃ retired => ?_
  · obtain ⟨epochs, unconfirmed, inv₃⟩ := failed
    refine (cleanupEpoch_ends (inv₃.unpin c.files fun _ => List.mem_cons_of_mem _)
      [active.plan.revision.epoch] ?_ ?_ (Ctrl.not_slotEpoch rfl _) (unlisted _)
      fresh.unpinned).bind fun _ w₄ inv₄ => ?_
    · simpa [Ctx.retiring, idle.owned] using List.Perm.swap _ _ _
    · simpa [Ctx.retiring, idle.held] using differs
    simp only [unconfirmed, if_true]
    rw [epochs]
    exact (latchQuarantine_leaves c inv₄ (by simp) rfl (unlisted _)
      (by simp [Ctx.retiring, idle.held]) (by simp) idle.pledge rfl).bind
      fun _ _ leaves => leaves
  obtain ⟨isPlan, inv₃⟩ := retired
  subst isPlan
  refine (publish_ends inv₃ _ (by simp)).bind fun _ w₄ inv₄ => ?_
  refine (spawnReplacement_ends inv₄ (.inl (by simp [Ctx.retiring])) (unlisted _)).bind_either
    (fun error w₅ failed => ?_) fun p w₅ spawned => ?_
  · obtain ⟨count, failed⟩ := failed
    rcases failed with ⟨confirmed, inv₅⟩ | ⟨unconfirmed, inv₅⟩
    · simp only [confirmed, Bool.false_eq_true, if_false]
      refine (cleanupEpoch_ends (inv₅.unpin c.files fun _ => List.mem_cons_of_mem _)
        [active.plan.revision.epoch] ?_ ?_ (Ctrl.not_slotEpoch rfl _) (unlisted _)
        fresh.unpinned).bind fun _ w₆ inv₆ => ?_
      · simpa [Ctx.retiring, idle.owned] using List.Perm.swap _ _ _
      · simp [Ctx.retiring, idle.held]
      · refine rollbackSwitch_ends inv₆ ?_ idle.saved _
        exact ⟨idle.held, rfl, rfl, clear, rfl, by rw [Ctx.revision, current]; rfl,
          inv.valid.newest active current, inv.admits_current current, idle.pledge,
          idle.file active current⟩
    · simp only [unconfirmed, if_true]
      refine bind_mark ?_
      exact (latchQuarantine_leaves c (inv₅.mark (.abandoned .switchUnconfirmed))
        (by simp [Ctx.retiring]) rfl (unlisted _) (by simp [Ctx.retiring, idle.held])
        (fun free => absurd ⟨_, List.mem_cons_self⟩ free) idle.pledge rfl).bind
        fun _ _ leaves => leaves
  obtain ⟨isCount, inv₅⟩ := spawned
  subst isCount
  refine (installAndPublish_ends ⟨c.count, desired.revision.epoch, true, true⟩
    [active.plan.revision.epoch] inv₅ (by simp [Ctx.retiring, idle.held]) rfl rfl rfl rfl
    (unlisted _) (fun revision member => (newer revision member).le) ?_
    ⟨full, inv.valid.fits_newer newer⟩ idle.pledge).bind fun _ w₆ inv₆ => ?_
  · simpa [Ctx.retiring, idle.owned] using List.Perm.swap _ _ _
  have fewer := inv₆.unpin [(.config desired.revision.epoch.get, contents)] (by simp [Ctx.retiring])
  refine (cleanupEpoch_ends fewer [] (by simp) (by simp) ?_ (unlisted _) ?_).bind
    fun _ w₇ inv₇ => ?_
  · rintro ⟨other, slot, same⟩
    cases slot
    exact differs same.symm
  · simpa [Artifact.epoch] using fun same => differs (Epoch.get_inj.mp same).symm
  · refine ⟨_, inv₇, ⟨rfl, rfl, idle.saved, rfl, rfl, fun other slot => ?_⟩, desired.revision, rfl,
      rfl, newer⟩
    cases slot
    exact ⟨contents, bytes, by simp⟩

/-! ## The whole transaction -/

theorem retainSpec_ends (inv : Inv env c w) (current : c.ctrl.current = some active)
    (input : InstanceSpec) :
    Ends env (retainSpec active input) w fun _ w' => Inv env { c with
      ctrl := c.ctrl.replanning ⟨active.proc, { active.plan with sourceSpec := input }⟩
        (some input) } w' := by
  have valid := inv.valid
  refine inv.bind_getCtrl (ensures_act ?_)
  have feeding := inv.feeding
  rw [current, ← inv.adopted] at feeding
  have replanned := inv.replan current { active.plan with sourceSpec := input } w.installs
    w.adopted c.pledge (some input) rfl (inv.installs ▸ valid.recorded active current)
    (inv.installs ▸ valid.newest active current) (inv.installs ▸ valid.installed)
    (by rw [inv.adopted, inv.installs, valid.matched]) { feeding with }
  rw [← inv.installs, ← inv.adopted]
  exact replanned

theorem applyChecked_ends (inv : Inv env c w) (idle : c.Idle env)
    (current : c.ctrl.current = some active) (clear : c.ctrl.quarantine = [])
    (input : InstanceSpec) : Ends env (applyChecked active input) w (Applies env c) := by
  refine (inv.ends_answer _).bind_either (fun _ _ inv₁ => leaves_unchanged inv₁ idle)
    fun snapshot w₁ inv₁ => ?_
  obtain ⟨_, bytes, _⟩ := idle.file active current
  refine (prepareApply_ends inv₁ current bytes.2.2 input snapshot).bind_either
    (fun _ _ inv₂ => leaves_unchanged inv₂ idle) fun prepared w₂ planned => ?_
  obtain ⟨own, next, full, artifact, contents, bytes, named, unpinned, inv₂⟩ := planned
  refine (inv₂.ends_answer _).bind_either
    (fun _ w₃ inv₃ => (dropStaged_unpins inv₃ rfl named unpinned).bind
      fun _ _ inv₄ => leaves_unchanged inv₄ idle) fun change w₃ inv₃ => ?_
  have planned : PlannedApply env c active prepared w₃ :=
    ⟨own, next, full, artifact, contents, bytes, named, unpinned, inv₃⟩
  cases change with
  | noop =>
      refine (retainSpec_ends inv₃ current input).bind fun _ w₄ inv₄ => ?_
      refine (dropStaged_unpins inv₄ rfl named unpinned).bind fun _ w₅ inv₅ => ?_
      refine ⟨_, inv₅, { idle with file := fun other slot => ?_ }, rfl, ?_⟩
      · cases slot
        exact idle.file active current
      · simp [Ctx.revision, Ctrl.replanning, current]
  | switch =>
      refine (dropStaged_unpins inv₃ rfl named unpinned).bind fun _ w₄ inv₄ => ?_
      exact switchWithCompensation_ends inv₄ idle current clear input snapshot
  | patch patch projection => exact applyInPlace_ends idle current clear planned _
  | reload => exact applyInPlace_ends idle current clear planned _

/-- The current revision is the one the token names, if there is a token. -/
def Ctx.Expected (c : Ctx) (expected : Option RevisionId) : Prop :=
  ∀ token, expected = some token → ∃ revision, c.revision = some revision ∧ revision.id = token

theorem conflicts_eq_none {expected : Option RevisionId} {actual token : RevisionId}
    (passes : conflicts expected actual = none) (given : expected = some token) :
    actual = token := by
  subst given
  by_contra differs
  simp [conflicts, Ne.symm differs] at passes

theorem applyLocked_ends (inv : Inv env c w) (idle : c.Idle env)
    (clear : c.ctrl.quarantine = []) (input : InstanceSpec) (expected : Option RevisionId) :
    Ends env (applyLocked input expected) w (Either (fun _ w' => Leaves env Kept c w')
      fun outcome w' => Leaves env outcome.Effect c w' ∧ c.Expected expected) := by
  refine inv.bind_getCtrl ?_
  cases current : c.ctrl.current with
  | none => exact leaves_unchanged inv idle
  | some active =>
  refine (isRunning_ends inv).bind fun running w₁ ⟨inv₁, _⟩ => ?_
  cases running with
  | false => exact leaves_unchanged inv₁ idle
  | true =>
  dsimp only
  split
  case h_1 conflict => exact leaves_unchanged inv₁ idle
  case h_2 passes =>
    refine (applyChecked_ends inv₁ idle current clear input).mono_either (fun _ _ leaves => leaves)
      fun outcome w' leaves => ⟨leaves, fun token given => ?_⟩
    exact ⟨active.plan.revision, by rw [Ctx.revision, current]; rfl,
      conflicts_eq_none passes given⟩

end

end Nyanpasu
