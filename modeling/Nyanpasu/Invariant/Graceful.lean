import Nyanpasu.Invariant.Switching

/-! # The graceful switch

Two cores run side by side for a while, so every step after the bootstrap's
launch answers for two epochs.  The files of the retired one are abandoned on the
branches that return without cleaning it up.
-/

namespace Nyanpasu

open Naming Store Program

section

variable {env : Setting} {c c₀ : Ctx} {w : World} {epoch : Epoch} {active : Active}

/-! ## Replacements -/

/-- Nothing was installed, or one newer revision that was made of `source`. -/
def Ahead (source : InstanceSpec × Mapping) (c c' : Ctx) : Prop :=
  Kept c c' ∨ Launched source c c'

variable {source : InstanceSpec × Mapping}

theorem Ahead.rebase {c' : Ctx} (ahead : Ahead source c c') (trail : c.trail = c₀.trail)
    (revision : c.revision = none ∨ c.revision = c₀.revision) : Ahead source c₀ c' :=
  ahead.imp (·.rebase trail revision) (·.rebase (congrArg Prod.fst trail))

theorem Leaves.ahead (leaves : Leaves env Kept c w) : Leaves env (Ahead source) c w :=
  leaves.mono fun _ => .inl

theorem ends_ahead {α : Type} {program : Manager (Except Error α)} {done : α → World → Prop}
    (ends : Ends env program w (Either (fun _ w' => Leaves env Kept c w') done)) :
    Ends env program w (Either (fun _ w' => Leaves env (Ahead source) c w') done) :=
  ends.mono_either (fun _ _ leaves => leaves.ahead) fun _ _ holds => holds

variable {done : SwitchOutcome → World → Prop}

/-- A durability warning does not turn a failure into a success, or back. -/
theorem ends_switchError {failed : World → Prop} {error : Error} (warning : DurabilityWarning)
    (holds : failed w) :
    Ends env (pure (withSwitchDurabilityResult (.error error) warning)) w
      (Either (fun _ => failed) done) := by
  cases warning <;> exact holds

/-- A replacement that fails leaves no process, or one it could not stop and says so. -/
theorem spawnReplacement_ends {plan : EpochPlan} (inv : Inv env c w)
    (keeps : Keeps c.ctrl c.owned plan.revision.epoch)
    (unlisted : ¬ c.ctrl.Quarantined plan.revision.epoch) :
    Ends env (spawnReplacement plan) w (Either
      (fun error w' => ∃ count,
        error.isStopUnconfirmed = false ∧ Inv env { c with count := count } w' ∨
        error.isStopUnconfirmed = true ∧ Inv env { c with
          count := count
          held := ⟨c.count, plan.revision.epoch, false, false⟩ :: c.held } w')
      fun p w' => p = c.count ∧ Inv env { c with
        count := c.count + 1
        held := ⟨c.count, plan.revision.epoch, true, true⟩ :: c.held } w') := by
  refine (spawnInstance_ends inv keeps unlisted).bind_either
    (fun error w₁ ⟨confirmed, inv₁⟩ => ?_) fun p w₁ ⟨isCount, inv₁⟩ => ?_
  · exact ⟨c.count, .inl ⟨confirmed, inv₁⟩⟩
  subst isCount
  refine (waitReady_ends inv₁ rfl).bind_either (fun error w₂ ⟨confirmed, inv₂⟩ => ?_)
    fun _ w₂ inv₂ => ?_
  · refine (stopAndConfirmDead_ends inv₂ rfl).bind_either (fun stopError w₃ ⟨_, inv₃⟩ => ?_)
      fun _ w₃ inv₃ => ?_
    · exact ⟨c.count + 1, .inr ⟨rfl, inv₃⟩⟩
    · exact ⟨c.count + 1, .inl ⟨confirmed, inv₃⟩⟩
  · exact ⟨rfl, inv₂⟩

/-- The slot is empty, and the operation answers for the old epoch and for the new
    one. -/
structure Replacing (c : Ctx) (plan : EpochPlan) (old : Epoch) : Prop where
  vacant : c.ctrl.current = none
  clear : c.ctrl.quarantine = []
  owned : c.owned.Perm [plan.revision.epoch, old]
  saved : c.saved = []
  differs : plan.revision.epoch ≠ old
  pledge : c.pledge = .kept
  newer : ∀ earlier ∈ c.installs, earlier.rank < plan.revision.rank

theorem Replacing.keeps {plan : EpochPlan} {old : Epoch} (replacing : Replacing c plan old) :
    Keeps c.ctrl c.owned plan.revision.epoch :=
  .inl (replacing.owned.mem_iff.mpr (by simp))

/-- The old epoch is abandoned. -/
theorem Inv.abandonOld {plan : EpochPlan} {old : Epoch} (inv : Inv env c w)
    (replacing : Replacing c plan old) (exit : Abandonment)
    (mine : ∀ h ∈ c.held, h.epoch = plan.revision.epoch) :
    Inv env { c with owned := [plan.revision.epoch] }
      (w.markIf (.abandoned exit) true) := by
  refine (inv.mark (.abandoned exit)).abandon _ ⟨exit, List.mem_cons_self⟩ ?_ fun h member => ?_
  · simp [replacing.owned.mem_iff]
  · exact .inl (by simp [mine h member])

section

variable {plan : EpochPlan} {old : Epoch} {p : Nat} (inv : Inv env c w)
  (holds : c.held = [⟨p, plan.revision.epoch, true, true⟩]) (replacing : Replacing c plan old)
  (file : c.HasFile env plan) (full : env.Full plan.configuration)

include inv holds replacing file full

theorem installGraceful_ends (outcome : SwitchOutcome) (warning : DurabilityWarning) :
    Ends env (installGraceful p plan old outcome warning) w (Either
      (fun _ w' => Leaves env (Ahead plan.source) c w')
      fun _ w' => Leaves env (Launched plan.source) c w') := by
  obtain ⟨vacant, clear, owned, saved, differs, pledge, newer⟩ := replacing
  obtain ⟨contents, bytes, pinned⟩ := file
  have unlisted := Ctrl.not_quarantined clear
  refine announceInstall_ends ⟨p, plan.revision.epoch, true, true⟩ [old] inv holds vacant rfl rfl
    rfl (unlisted _) newer owned full pledge fun w₁ inv₁ => ?_
  have fewer := inv₁.unpin [(.config plan.revision.epoch.get, contents)] (by simpa using pinned)
  refine (cleanupEpoch_ends fewer [] (by simp) (by simp) ?_ (unlisted _) ?_).bind
    fun cleaned w₂ inv₂ => ?_
  · rintro ⟨active, current, same⟩
    cases current
    exact differs same
  · simpa [Artifact.epoch] using fun same => differs (Epoch.get_inj.mp same)
  have leaves : Leaves env (Launched plan.source) c w₂ := by
    refine ⟨_, inv₂, ⟨rfl, rfl, saved, rfl, rfl, fun active current => ?_⟩,
      ⟨plan.revision, rfl, rfl, newer⟩, rfl⟩
    cases current
    exact ⟨contents, bytes, by simp⟩
  cases cleaned with
  | error error => exact ends_switchError warning (leaves.mono fun _ => Or.inr)
  | ok _ => exact leaves

theorem replaceBootstrap_ends (warning : DurabilityWarning) :
    Ends env (replaceBootstrap p plan old warning) w (Either
      (fun _ w' => Leaves env (Ahead plan.source) c w')
      fun _ w' => Leaves env (Launched plan.source) c w') := by
  have unlisted := Ctrl.not_quarantined replacing.clear plan.revision.epoch
  refine (stopAndConfirmDead_ends inv holds).bind_either
    (fun error w₁ ⟨unconfirmed, inv₁⟩ => bind_mark ?_) fun _ w₁ inv₁ => ?_
  · have inv₁ := inv₁.abandonOld { replacing with } .gracefulStop (by simp)
    simp only [unconfirmed, if_true]
    refine (latchQuarantine_leaves c inv₁ (by simp) replacing.vacant unlisted (by simp) (by simp)
      replacing.pledge rfl).bind fun _ _ leaves => ends_switchError warning leaves.ahead
  refine (spawnReplacement_ends inv₁ replacing.keeps unlisted).bind_either
    (fun error w₂ ⟨count, failed⟩ => bind_mark ?_) fun q w₂ ⟨isCount, inv₂⟩ => ?_
  · rcases failed with ⟨confirmed, inv₂⟩ | ⟨unconfirmed, inv₂⟩
    · have inv₂ := inv₂.abandonOld { replacing with } .gracefulReplacement (by simp)
      simp only [confirmed, Bool.false_eq_true, if_false]
      refine (cleanupLast_ends inv₂ rfl rfl replacing.vacant replacing.clear).bind
        fun _ w₃ inv₃ => ?_
      exact (publishTerminalError_leaves c inv₃ error replacing.vacant rfl rfl replacing.pledge
        rfl).bind fun _ _ leaves => ends_switchError warning leaves.ahead
    · have inv₂ := inv₂.abandonOld { replacing with } .gracefulReplacement (by simp)
      simp only [unconfirmed, if_true]
      refine (latchQuarantine_leaves c inv₂ (by simp) replacing.vacant unlisted (by simp) (by simp)
        replacing.pledge rfl).bind fun _ _ leaves => ends_switchError warning leaves.ahead
  subst isCount
  exact (installGraceful_ends inv₂ rfl { replacing with } file full _ warning).mono_either
    (fun _ _ leaves => leaves.rebase c fun c' ahead => ahead.rebase rfl (.inr rfl))
    fun _ _ leaves => leaves.rebase c fun c' launched => launched.rebase rfl

end

theorem control_ends (inv : Inv env c w) : Ends env control w fun _ w' => Inv env c w' :=
  (inv.ends_ask _).mono fun _ _ answered => answered.1

theorem patchAndVerify_ends (inv : Inv env c w) (p : Nat) (patch projection : Mapping) :
    Ends env (patchAndVerify p patch projection) w fun _ w' => Inv env c w' := by
  refine (control_ends inv).bind fun client w₁ inv₁ => ?_
  cases client with
  | false => exact inv₁
  | true =>
      refine (control_ends inv₁).bind fun _ w₂ inv₂ => ?_
      refine (control_ends inv₂).bind fun verified w₃ inv₃ => ?_
      cases verified with
      | false => exact inv₃
      | true => exact control_ends inv₃

theorem withTimeout_ends {action : Manager Bool}
    (kept : Ends env action w fun _ w' => Inv env c w') :
    Ends env (withTimeout action) w fun _ w' => Inv env c w' :=
  kept.bind fun _ _ inv₁ => (inv₁.ends_ask _).bind fun _ _ answered => answered.1

variable {artifact : Artifact} {contents : Bytes} {files : List (Artifact × Bytes)}

variable {prepared : PreparedGraceful}

/-- From the moment the old core is gone: the staged full configuration is `contents`. -/
theorem finishGraceful_ends {old : Epoch} {p : Nat} (inv : Inv env c w)
    (holds : c.held = [⟨p, prepared.plan.revision.epoch, true, true⟩])
    (replacing : Replacing c prepared.plan old) (pinned : c.files = (artifact, contents) :: files)
    (named : StagedAs prepared.fullStaged prepared.plan.revision.epoch artifact)
    (unpinned : ∀ file ∈ files, file.1 ≠ artifact) (bytes : prepared.plan.Bytes env contents)
    (full : env.Full prepared.plan.configuration) :
    Ends env (finishGraceful p prepared old) w (Either
      (fun _ w' => Leaves env (Ahead prepared.plan.source) c w')
      fun _ w' => Leaves env (Launched prepared.plan.source) c w') := by
  have unlisted := Ctrl.not_quarantined replacing.clear prepared.plan.revision.epoch
  refine (commitReplace_ends inv pinned named replacing.keeps unpinned).bind_either
    (fun error w₁ inv₁ => bind_mark ?_) fun warning w₁ inv₁ => ?_
  · have inv₁ := inv₁.abandonOld { replacing with } .gracefulCommit (by simp [holds])
    refine (stopAndConfirmDead_ends inv₁ holds).bind_either (fun stopError w₂ alive => ?_)
      fun _ w₂ inv₂ => ?_
    · exact (latchQuarantine_leaves c alive.2 (by simp) replacing.vacant unlisted (by simp)
        (by simp) replacing.pledge rfl).bind fun _ _ leaves => leaves.ahead
    · refine (cleanupLast_ends inv₂ rfl rfl replacing.vacant replacing.clear).bind
        fun _ w₃ inv₃ => ?_
      exact (publishTerminalError_leaves c inv₃ error replacing.vacant rfl rfl replacing.pledge
        rfl).bind fun _ _ leaves => leaves.ahead
  have file : Ctx.HasFile env { c with
      files := (.config prepared.plan.revision.epoch.get, contents) ::
        files.filter (·.1 ≠ .config prepared.plan.revision.epoch.get) } prepared.plan :=
    ⟨contents, bytes, List.mem_cons_self⟩
  refine (withTimeout_ends (c := { c with
    files := (.config prepared.plan.revision.epoch.get, contents) ::
      files.filter (·.1 ≠ .config prepared.plan.revision.epoch.get) }) ?_).bind
    fun taken w₂ inv₂ => ?_
  · split
    · exact patchAndVerify_ends inv₁ _ _ _
    · exact control_ends inv₁
  cases taken with
  | true =>
      exact (installGraceful_ends inv₂ holds { replacing with } file full _ warning).mono_either
        (fun _ _ leaves => leaves.rebase c fun c' ahead => ahead.rebase rfl (.inr rfl))
        fun _ _ leaves => leaves.rebase c fun c' launched => launched.rebase rfl
  | false =>
      exact (replaceBootstrap_ends inv₂ holds { replacing with } file full warning).mono_either
        (fun _ _ leaves => leaves.rebase c fun c' ahead => ahead.rebase rfl (.inr rfl))
        fun _ _ leaves => leaves.rebase c fun c' launched => launched.rebase rfl

/-- Neither core may be running unnoticed: whichever cannot be proven dead is
    quarantined. -/
theorem abandonGraceful_ends (candidate stopped : Held) {plan : EpochPlan} {old : Epoch}
    {failure : RetireFailure} (inv : Inv env c w) (holds : c.held.Perm [candidate, stopped])
    (own : candidate.epoch = plan.revision.epoch) (retired : stopped.epoch = old)
    (replacing : Replacing c plan old) (epochs : failure.epoch = old)
    (unconfirmed : failure.error.isStopUnconfirmed = true) :
    Ends env (abandonGraceful candidate.proc plan.revision.epoch failure) w (Either
      (fun _ w' => Leaves env Kept c w') done) := by
  have unlisted := Ctrl.not_quarantined replacing.clear
  refine (stopAndConfirmDead_ends (inv.reorder holds) rfl).bind_either
    (fun stopError w₁ ⟨_, inv₁⟩ => ?_) fun _ w₁ inv₁ => ?_
  · simp only [unconfirmed, if_true]
    have recorded := inv₁.quarantine [{ candidate with serving := false }] [plan.revision.epoch]
      failure.error.display (inv₁.valid.issued old (.inl (replacing.owned.mem_iff.mpr (by simp))))
      (Ctrl.not_slotEpoch replacing.vacant _) (unlisted old) (by simp) (by simp [retired])
      (by simp [own, Keeps]) (by simp [replacing.owned.mem_iff]) (by simp [replacing.owned.mem_iff])
    refine (inv₁.ends_modifyQuarantine _).bind fun _ w₂ entered => ?_
    rw [epochs, recordQuarantine_fresh (unlisted old)] at entered
    subst entered
    refine (latchQuarantine_leaves c recorded (by simp) replacing.vacant ?_ (by simp [own])
      (by simp) replacing.pledge rfl).bind fun _ _ leaves => leaves
    rw [Ctrl.quarantined_withEntry]
    exact not_or.mpr ⟨unlisted _, replacing.differs⟩
  · refine (cleanupEpoch_ends (inv₁.unpin [] (by simp)) [old] replacing.owned ?_
      (Ctrl.not_slotEpoch replacing.vacant _) (unlisted _) (by simp)).bind fun _ w₂ inv₂ => ?_
    · simpa [retired] using replacing.differs.symm
    simp only [unconfirmed, if_true]
    rw [epochs]
    exact (latchQuarantine_leaves c inv₂ (by simp) replacing.vacant (unlisted _) (by simp [retired])
      (by simp) replacing.pledge rfl).bind fun _ _ leaves => leaves

section

variable (inv : Inv env c w)

include inv

theorem stageBootstrap_ends {fullStaged : StagedRuntimeConfig} {epoch : Epoch}
    (keeps : Keeps c.ctrl c.owned epoch) (pinned : c.files = (artifact, contents) :: files)
    (named : StagedAs fullStaged epoch artifact) (unpinned : ∀ file ∈ files, file.1 ≠ artifact)
    (spec : InstanceSpec) (bootstrap : Bytes) :
    Ends env (stageBootstrap spec epoch fullStaged bootstrap) w (Either
      (fun _ w' => Inv env { c with files := files } w')
      fun path w' => path = runtimePath epoch ∧ Inv env { c with
        files := (artifact, contents) :: (.config epoch.get, bootstrap) :: files } w') := by
  refine (stage_ends inv keeps bootstrap).bind_either (fun error w₁ inv₁ => ?_)
    fun staged w₁ ⟨bootArtifact, bootNamed, bootUnpinned, inv₁⟩ => ?_
  · exact (dropStaged_unpins inv₁ pinned named unpinned).bind fun _ _ inv₂ => inv₂
  refine (inv₁.ends_answer _).bind_either (fun error w₂ inv₂ => ?_) fun _ w₂ inv₂ => ?_
  · refine (dropStaged_unpins inv₂ rfl bootNamed bootUnpinned).bind fun _ w₃ inv₃ => ?_
    exact (dropStaged_unpins inv₃ pinned named unpinned).bind fun _ _ inv₄ => inv₄
  refine (commitNew_ends inv₂ rfl bootNamed keeps bootUnpinned).bind_either
    (fun error w₃ inv₃ => ?_) fun path w₃ ⟨isPath, _, inv₃⟩ => ?_
  · exact (dropStaged_unpins inv₃ pinned named unpinned).bind fun _ _ inv₄ => inv₄
  · refine ⟨isPath, inv₃.unpin _ fun file member => ?_⟩
    simp only [pinned, List.mem_cons] at member ⊢
    tauto

/-- A plan whose bootstrap is in place and whose full configuration is staged. -/
def PlannedGraceful (env : Setting) (c : Ctx) (epoch : Epoch) (source : InstanceSpec × Mapping)
    (prepared : PreparedGraceful) (w : World) : Prop :=
  prepared.plan.revision.epoch = epoch ∧ prepared.plan.source = source ∧
    env.Full prepared.plan.configuration ∧ ∃ artifact contents bootstrap,
    prepared.plan.Bytes env contents ∧ StagedAs prepared.fullStaged epoch artifact ∧
    (∀ file ∈ c.files, file.1 ≠ artifact) ∧ Inv env { c with
      files := (artifact, contents) :: (.config epoch.get, bootstrap) :: c.files } w

theorem prepareGraceful_ends {epoch : Epoch} (keeps : Keeps c.ctrl c.owned epoch)
    (spec : InstanceSpec) (snapshot : ConfigSnapshot) (resolved : ResolvedFeatures) :
    Ends env (prepareGraceful spec epoch snapshot resolved) w
      (Either (fun _ w' => Inv env c w') fun prepared w' =>
        PlannedGraceful env c epoch (spec, snapshot.document) prepared w') := by
  refine (prepare_ends inv _ _ _ _ _).bind_either (fun _ _ inv₁ => inv₁)
    fun full w₁ ⟨serialised, built, inv₁⟩ => ?_
  refine (prepare_ends inv₁ _ _ _ _ _).bind_either (fun _ _ inv₂ => inv₂)
    fun bootstrap w₂ ⟨_, _, inv₂⟩ => ?_
  dsimp only
  split
  · exact inv₂
  refine (inv₂.ends_answer _).bind_either (fun _ _ inv₃ => inv₃) fun restoration w₃ inv₃ => ?_
  refine (stageChecked_ends inv₃ keeps spec full.bytes).bind_either (fun _ _ inv₄ => inv₄)
    fun fullStaged w₄ ⟨artifact, named, unpinned, inv₄⟩ => ?_
  refine (stageBootstrap_ends inv₄ keeps rfl named unpinned spec bootstrap.bytes).bind_either
    (fun _ _ inv₅ => inv₅) fun path w₅ ⟨isPath, inv₅⟩ => ?_
  exact ⟨rfl, rfl, PreparedConfig.full serialised built _ _ _ _ _, artifact, full.bytes,
    bootstrap.bytes, ⟨serialised.1, serialised.2, isPath, isPath⟩, named, unpinned, inv₅⟩

/-- The candidate is quarantined beside the slot: the stop that is published with
    it is marked unless the slot's own instance has ended. -/
theorem quarantineBeside_ends {α : Type} {done : α → World → Prop} {error : Error}
    (beside : Beside c₀ c epoch) (mine : ∀ h ∈ c.held, h.epoch = epoch) (idle : c₀.Idle env)
    (current : c₀.ctrl.current = some active) :
    Ends env (do
      mark .quarantinedBesideLive World.slotLive
      let error ← latchQuarantine epoch error
      return .error error) w (Either (fun _ w' => Leaves env Kept c₀ w') done) := by
  have slot : c.ctrl.current = some active := by rw [beside.ctrl]; exact current
  refine bind_mark ((latchQuarantine_ends (inv.markIf _ _) (by simp [beside.owned]) ?_ ?_
    mine (by simp [beside.owned]) fun other isSlot free => ?_).bind fun _ w' ⟨_, inv'⟩ => ?_)
  · rw [beside.ctrl]
    exact beside.fresh.not_slotEpoch
  · rw [beside.ctrl]
    exact beside.fresh.not_quarantined
  · rw [World.markIf_procs]
    by_contra alive
    refine free.1 (World.mem_markIf_self ?_)
    simp only [World.slotLive, World.slot, inv.ctrl, isSlot, Option.map_some, Option.any_some]
    simpa using alive
  · refine ⟨_, inv', ⟨rfl, rfl, beside.saved, rfl, beside.pledge, fun other isSlot => ?_⟩,
      beside.trail, .inr ?_⟩
    · obtain ⟨contents, bytes, pinned⟩ := idle.file other
        (current.trans (slot.symm.trans isSlot))
      exact ⟨contents, bytes, beside.files _ pinned⟩
    · simp only [Ctx.revision, Ctrl.withEntry, slot, current]

/-- The candidate is ready beside the slot: the old core goes, and the candidate takes
    its place or goes as well. -/
theorem handOver_ends {p : Nat} (beside : Beside c₀ c prepared.plan.revision.epoch)
    (holds : c.held = [⟨p, prepared.plan.revision.epoch, true, true⟩])
    (current : c₀.ctrl.current = some active) (clear : c₀.ctrl.quarantine = [])
    (pinned : c.files = (artifact, contents) :: files)
    (named : StagedAs prepared.fullStaged prepared.plan.revision.epoch artifact)
    (unpinned : ∀ file ∈ files, file.1 ≠ artifact) (bytes : prepared.plan.Bytes env contents)
    (full : env.Full prepared.plan.configuration)
    (newer : ∀ earlier ∈ c₀.installs, earlier.rank < prepared.plan.revision.rank) :
    Ends env (do
      match ← retireCurrent with
      | .error failure =>
          dropStaged prepared.fullStaged
          abandonGraceful p prepared.plan.revision.epoch failure
      | .ok none => Program.abort (.expectFailed "running checked by caller")
      | .ok (some old) => finishGraceful p prepared old.revision.epoch) w (Either
      (fun _ w' => Leaves env (Ahead prepared.plan.source) c₀ w')
      fun _ w' => Leaves env (Launched prepared.plan.source) c₀ w') := by
  have differs := beside.fresh.slot_ne current
  have slot : c.ctrl.current = some active := by rw [beside.ctrl]; exact current
  have unlisted : c.ctrl.quarantine = [] := by rw [beside.ctrl]; exact clear
  have owned : (active.plan.revision.epoch :: c.owned).Perm
      [prepared.plan.revision.epoch, active.plan.revision.epoch] := by
    rw [beside.owned]
    exact .swap _ _ _
  rw [← beside.installs] at newer
  refine (retireCurrent_ends inv slot).bind_either
    (fun failure w₁ ⟨epochs, unconfirmed, inv₁⟩ => ?_) fun old w₁ ⟨isPlan, inv₁⟩ => ?_
  · refine (dropStaged_unpins inv₁ pinned named unpinned).bind fun _ w₂ inv₂ => ?_
    refine (abandonGraceful_ends ⟨p, prepared.plan.revision.epoch, true, true⟩
      ⟨active.proc, active.plan.revision.epoch, false, false⟩ inv₂ ?_ rfl rfl
      ⟨rfl, unlisted, owned, beside.saved, differs.symm, beside.pledge, newer⟩ epochs
      unconfirmed).mono_either
      (fun _ _ leaves => (leaves.rebase c₀ fun c' kept =>
        kept.rebase beside.trail (.inl rfl)).ahead) fun _ _ done => done
    simpa [Ctx.retiring, holds] using List.Perm.swap _ _ _
  · subst isPlan
    refine (finishGraceful_ends inv₁ holds ⟨rfl, unlisted, owned, beside.saved, differs.symm,
      beside.pledge, newer⟩ pinned named unpinned bytes full).mono_either
      (fun _ _ leaves => leaves.rebase c₀ fun c' ahead => ahead.rebase beside.trail (.inl rfl))
      fun _ _ leaves => leaves.rebase c₀ fun c' launched => launched.rebase beside.installs

theorem gracefulSwitch_ends (idle : c.Idle env) (current : c.ctrl.current = some active)
    (clear : c.ctrl.quarantine = []) (spec : InstanceSpec) (snapshot : ConfigSnapshot)
    (resolved : ResolvedFeatures) :
    Ends env (gracefulSwitch spec snapshot resolved) w (Either
      (fun _ w' => Leaves env (Ahead (spec, snapshot.document)) c w')
      fun _ w' => Leaves env (Launched (spec, snapshot.document)) c w') := by
  have unlisted := Ctrl.not_quarantined clear
  refine inv.bind_getCtrl ((allocateEpoch_ends inv).bind fun epoch w₁ ⟨fresh, unnamed, inv₁⟩ => ?_)
  have inv₁ := inv₁.own epoch le_rfl fun _ _ => unnamed _ rfl
  have differs := fresh.slot_ne current
  refine (prepareGraceful_ends inv₁ (.inl List.mem_cons_self) spec snapshot resolved).bind_either
    (fun error w₂ inv₂ => ?_) fun prepared w₂ planned => ?_
  · exact ends_ahead (retreat_ends inv₂ ⟨fresh, rfl, rfl, by simp [idle.owned], idle.saved,
      idle.pledge, fun _ => id⟩ idle.held idle current error)
  obtain ⟨own, made, full, artifact, contents, bootstrap, bytes, named, unpinned, inv₂⟩ := planned
  have staged : ∀ file ∈ (.config epoch.get, bootstrap) :: c.files, file.1 ≠ artifact := by
    intro file member
    rcases List.mem_cons.mp member with rfl | member
    · exact named.not_config _
    · exact unpinned file member
  refine (publish_ends inv₂ _ (by simp)).bind fun _ w₃ inv₃ => ?_
  refine (spawnInstance_ends inv₃ (.inl (by simp [own])) (unlisted _)).bind_either
    (fun error w₄ ⟨_, inv₄⟩ => ?_) fun p w₄ ⟨isCount, inv₄⟩ => ?_
  · refine (dropStaged_unpins inv₄ rfl named staged).bind fun _ w₅ inv₅ => ?_
    exact ends_ahead (retreat_ends inv₅ ⟨fresh, rfl, rfl, by simp [idle.owned], idle.saved,
      idle.pledge, fun _ => List.mem_cons_of_mem _⟩ idle.held idle current error)
  subst isCount
  refine (waitReady_ends inv₄ rfl).bind_either (fun error w₅ ⟨_, inv₅⟩ => ?_) fun _ w₅ inv₅ => ?_
  · refine (dropStaged_unpins inv₅ rfl named staged).bind fun _ w₆ inv₆ => ?_
    refine (stopAndConfirmDead_ends inv₆ rfl).bind_either (fun stopError w₇ alive => ?_)
      fun _ w₇ inv₇ => ?_
    · exact ends_ahead (quarantineBeside_ends alive.2 ⟨fresh, rfl, rfl, by simp [idle.owned],
        idle.saved, idle.pledge, fun _ => List.mem_cons_of_mem _⟩ (by simp [idle.held, own]) idle
        current)
    · exact ends_ahead (retreat_ends inv₇ ⟨fresh, rfl, rfl, by simp [idle.owned], idle.saved,
        idle.pledge, fun _ => List.mem_cons_of_mem _⟩ idle.held idle current error)
  have newer := fresh.newer inv own
  subst own
  rw [← made]
  exact handOver_ends inv₅ ⟨fresh, rfl, rfl, by simp [idle.owned], idle.saved, idle.pledge,
    fun _ member => List.mem_cons_of_mem _ (List.mem_cons_of_mem _ member)⟩ (by simp [idle.held])
    current clear rfl named staged bytes full newer

/-! ## Start and switch as a whole -/

/-- A start over whatever stale epoch is in the slot. -/
theorem restartStale_ends {α : Type} {outcome : α} (idle : c.Idle env)
    (clear : c.ctrl.quarantine = []) (spec : InstanceSpec) :
    Ends env (do
      match ← discardStale with
      | .error error => return .error error
      | .ok () =>
      match ← startLocked spec with
      | .error error => return .error error
      | .ok () => return .ok outcome) w (Either (fun _ w' => Leaves env Kept c w')
      fun _ w' => Leaves env (LaunchedFrom env spec) c w') := by
  refine (discardStale_ends inv idle clear).bind_either (fun _ _ leaves => leaves)
    fun _ w₁ inv₁ => ?_
  refine (startLocked_ends inv₁ idle.held idle.owned idle.saved rfl clear idle.pledge spec).bind_either
    (fun error w₂ leaves => ?_) fun _ w₂ leaves => ?_
  · exact leaves.rebase c fun c' kept => kept.rebase rfl (.inl rfl)
  · exact leaves.rebase c fun c' launched => launched.rebase rfl

end

/-- Nothing was installed, or one newer revision for the spec. -/
def AheadFrom (env : Env) (spec : InstanceSpec) (c c' : Ctx) : Prop :=
  Kept c c' ∨ LaunchedFrom env spec c c'

theorem AheadFrom.forward {spec : InstanceSpec} {c' : Ctx} (ahead : AheadFrom env spec c c') :
    Forward c c' :=
  ahead.imp id (·.advanced)

theorem switchLocked_ends (inv : Inv env c w) (idle : c.Idle env)
    (clear : c.ctrl.quarantine = []) (spec : InstanceSpec) :
    Ends env (switchLocked spec) w (Either (fun _ w' => Leaves env (AheadFrom env spec) c w')
      fun _ w' => Leaves env (LaunchedFrom env spec) c w') := by
  refine (isRunning_ends inv).bind fun running w₁ ⟨inv₁, occupied⟩ => ?_
  cases running with
  | false =>
      exact (restartStale_ends inv₁ idle clear spec).mono_either
        (fun _ _ leaves => leaves.mono fun _ => .inl) fun _ _ leaves => leaves
  | true =>
  obtain ⟨active, current⟩ := occupied rfl
  have leaves {v : World} (inv : Inv env c v) : Leaves env (AheadFrom env spec) c v :=
    ⟨c, inv, idle, .inl ⟨rfl, .inr rfl⟩⟩
  refine (loadSnapshot_ends env w₁ spec.configPath).bind_either
    (fun _ _ isNext => isNext ▸ leaves inv₁.tick) fun snapshot w₂ ⟨isNext, reads⟩ => ?_
  subst isNext
  have inv₂ := inv₁.tick
  refine (inv₂.ends_answer _).bind_either (fun _ _ inv₃ => leaves inv₃) fun _ w₃ inv₃ => ?_
  refine (inv₃.ends_answer _).bind_either (fun _ _ inv₄ => leaves inv₄) fun resolved w₄ inv₄ => ?_
  refine (inv₄.ends_ask _).bind fun keepHttp w₅ ⟨inv₅, _⟩ => inv₅.bind_getCtrl ?_
  refine (inv₅.ends_ask _).bind fun block w₆ ⟨inv₆, _⟩ => ?_
  split
  · exact (hardSwitch_ends inv₆ idle current clear spec snapshot resolved).bind_either
      (fun _ _ leaves => leaves.mono fun _ => .inl)
      fun _ _ leaves => leaves.mono fun _ launched => ⟨_, reads, launched⟩
  · exact (gracefulSwitch_ends inv₆ idle current clear spec snapshot resolved).mono_either
      (fun _ _ leaves => leaves.mono fun _ ahead =>
        ahead.imp id fun launched => ⟨_, reads, launched⟩)
      fun _ _ leaves => leaves.mono fun _ launched => ⟨_, reads, launched⟩

end

end Nyanpasu
