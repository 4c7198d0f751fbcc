import Nyanpasu.Manager.Operations

/-! # Where conflicts come from

A revision conflict is the answer of the compare-and-set check and of nothing else:
no file operation, launch, cleanup or compensation fails with one.  `Plain` says so
of a program, and follows the structure of the program.
-/

namespace Nyanpasu

open Naming Store Program

def Error.isConflict : Error → Bool
  | revisionConflict _ _ => true
  | _ => false

theorem ExternalError.not_isConflict (failure : ExternalError) :
    failure.error.isConflict = false := by
  obtain ⟨error, external⟩ := failure
  cases error with
  | revisionConflict expected actual => exact absurd external Bool.false_ne_true
  | _ => rfl

/-- The program fails with an error that is no conflict, if it fails. -/
def Plain {α : Type} (program : Manager (Except Error α)) : Prop :=
  ∀ env w error w', program env w = .ok (.error error, w') → error.isConflict = false

section

variable {α β : Type}

theorem plain_ok (a : α) : Plain (pure (.ok a)) := by
  intro env w error w' run
  cases run

theorem plain_error (error : Error) (harmless : error.isConflict = false) :
    Plain (pure (.error error) : Manager (Except Error α)) := by
  intro env w error w' run
  cases run
  exact harmless

theorem plain_abort (panic : Panic) : Plain (Program.abort panic : Manager (Except Error α)) := by
  intro env w error w' run
  cases run

theorem plain_atomic {f : Env → Nat → World → Except Error α × World}
    (harmless : ∀ env k w error, (f env k w).1 = .error error → error.isConflict = false) :
    Plain (atomic f) := by
  intro env w error w' run
  have ended : f env w.clock (w.tick env) = (.error error, w') := Except.ok.inj run
  exact harmless env w.clock (w.tick env) error (by rw [ended])

/-- What comes first cannot end the program. -/
theorem Plain.after {first : Manager β} {rest : β → Manager (Except Error α)}
    (plain : ∀ b, Plain (rest b)) : Plain (first >>= rest) := by
  intro env w error w' run
  obtain ⟨b, v, _, run⟩ := run_bind run
  exact plain b env v error w' run

theorem Plain.bind {first : Manager (Except Error β)}
    {rest : Except Error β → Manager (Except Error α)} (plain : Plain first)
    (failed : ∀ error, error.isConflict = false → Plain (rest (.error error)))
    (done : ∀ b, Plain (rest (.ok b))) : Plain (first >>= rest) := by
  intro env w error w' run
  obtain ⟨result, v, ran, run⟩ := run_bind run
  cases result with
  | error before => exact failed before (plain env w before v ran) env v error w' run
  | ok b => exact done b env v error w' run

/-- An error goes out after something else was done about it. -/
theorem plain_failed {first : Error → Manager β} (error : Error)
    (harmless : error.isConflict = false) :
    Plain (first error >>= fun _ => pure (.error error : Except Error α)) :=
  .after fun _ => plain_error _ harmless

end

/-! ## File operations -/

section

variable {α : Type}

theorem plain_fileOp {f : Dir → Except Error (α × Dir)}
    (harmless : ∀ dir error, f dir = .error error → error.isConflict = false) :
    Plain (fileOp f) := by
  apply plain_atomic
  intro env k w error failed
  cases fault : env.fault k with
  | some failure =>
      simp only [fault] at failed
      cases failed
      exact failure.not_isConflict
  | none =>
      simp only [fault] at failed
      cases done : f w.dir with
      | error other =>
          simp only [done] at failed
          cases failed
          exact harmless w.dir _ done
      | ok ended =>
          simp only [done] at failed
          cases failed

/-- An operation that only looks, or only writes, has no failure of its own. -/
theorem plain_fileOp_ok {f : Dir → α × Dir} : Plain (fileOp fun dir => .ok (f dir)) :=
  plain_fileOp fun _ _ failed => by cases failed

theorem plain_validateAbsent (path : FileName) : Plain (validateAbsentRegularTarget path) := by
  apply plain_fileOp
  intro dir error failed
  split at failed <;> cases failed
  rfl

theorem plain_validateExisting (path : FileName) :
    Plain (validateExistingRegularTarget path) := by
  apply plain_fileOp
  intro dir error failed
  split at failed <;> cases failed
  rfl

theorem plain_createNew (path : FileName) : Plain (createNew path) := by
  apply plain_fileOp
  intro dir error failed
  split at failed <;> cases failed
  rfl

theorem plain_readFile (path : FileName) : Plain (readFile path) := by
  apply plain_fileOp
  intro dir error failed
  split at failed <;> cases failed
  rfl

theorem plain_atomicMoveNew (source target : FileName) : Plain (atomicMoveNew source target) := by
  apply plain_fileOp
  intro dir error failed
  split at failed
  · cases failed
    rfl
  · split at failed <;> cases failed
    rfl

theorem plain_atomicReplace (replacement destination : FileName) :
    Plain (atomicReplace replacement destination) := by
  apply plain_fileOp
  intro dir error failed
  split at failed <;> cases failed
  rfl

theorem plain_removeRegularFile (path : FileName) : Plain (removeRegularFile path) := by
  apply plain_atomic
  intro env k w error failed
  split at failed <;> cases failed
  exact ExternalError.not_isConflict _

theorem plain_stage (epoch : Epoch) (contents : Bytes) : Plain (stage epoch contents) := by
  apply Plain.after
  rintro ⟨process, counter⟩
  refine (plain_validateAbsent _).bind plain_error fun _ => ?_
  refine (plain_createNew _).bind plain_error fun _ => ?_
  refine plain_fileOp_ok.bind plain_error fun _ => ?_
  refine plain_fileOp_ok.bind plain_failed fun _ => ?_
  exact plain_ok _

theorem plain_validateStaged (staged : StagedRuntimeConfig) (epoch : Epoch) :
    Plain (validateStaged staged epoch) := by
  unfold validateStaged
  split
  · exact plain_validateExisting _
  · exact plain_error _ rfl

theorem plain_commitNew (staged : StagedRuntimeConfig) (epoch : Epoch) :
    Plain (commitNew staged epoch) := by
  refine (plain_validateStaged staged epoch).bind plain_failed fun _ => ?_
  refine (plain_validateAbsent _).bind plain_failed fun _ => ?_
  refine (plain_atomicMoveNew _ _).bind plain_failed fun _ => ?_
  refine plain_fileOp_ok.bind plain_error fun _ => ?_
  exact plain_ok _

theorem plain_commitReplace (staged : StagedRuntimeConfig) (epoch : Epoch) :
    Plain (commitReplace staged epoch) := by
  refine (plain_validateStaged staged epoch).bind plain_failed fun _ => ?_
  refine (plain_validateExisting _).bind plain_failed fun _ => ?_
  refine (plain_atomicReplace _ _).bind plain_failed fun _ => ?_
  exact .after fun _ => plain_ok _

theorem plain_backup (epoch : Epoch) (generation : Nat) : Plain (backup epoch generation) := by
  refine (plain_validateExisting _).bind plain_error fun _ => ?_
  refine (plain_readFile _).bind plain_error fun contents => ?_
  refine (plain_stage epoch contents).bind plain_error fun staged => ?_
  refine (plain_validateAbsent _).bind plain_failed fun _ => ?_
  refine (plain_atomicMoveNew _ _).bind plain_failed fun _ => ?_
  refine plain_fileOp_ok.bind plain_failed fun _ => ?_
  exact plain_ok _

theorem plain_restore (saved : RuntimeConfigBackup) : Plain (restore saved) := by
  refine (plain_validateExisting _).bind plain_error fun _ => ?_
  refine (plain_readFile _).bind plain_error fun contents => ?_
  refine (plain_stage saved.epoch contents).bind plain_error fun staged => ?_
  exact plain_commitReplace staged saved.epoch

/-! ## Cleanup -/

theorem plain_cleanupController (n : Nat) : Plain (cleanupController n) := by
  apply Plain.after
  intro separate
  cases separate with
  | false => exact plain_ok _
  | true =>
      refine plain_fileOp_ok.bind plain_failed fun _ => ?_
      exact plain_ok _

theorem plain_removeSocketArtifact (n : Nat) : Plain (removeSocketArtifact n) := by
  refine plain_fileOp_ok.bind plain_failed fun present => ?_
  cases present with
  | false => exact plain_ok _
  | true => exact plain_removeRegularFile _

theorem plain_removeEntries (n : Nat) : Plain (removeEntries n) := by
  apply plain_atomic
  intro env k w error failed
  split at failed <;> cases failed <;> exact ExternalError.not_isConflict _

theorem plain_cleanupArtifacts (n : Nat) : Plain (cleanupArtifacts n) := by
  refine (plain_removeRegularFile _).bind plain_error fun _ => ?_
  refine (plain_removeRegularFile _).bind plain_error fun _ => ?_
  refine (plain_removeSocketArtifact n).bind plain_error fun _ => ?_
  refine (plain_removeEntries n).bind plain_failed fun _ => ?_
  exact plain_fileOp_ok

theorem plain_cleanupEpoch (epoch : Epoch) : Plain (cleanupEpoch epoch) := by
  refine (plain_cleanupController _).bind plain_error fun _ => ?_
  exact plain_cleanupArtifacts _

/-! ## Processes -/

theorem plain_ask {answer : Env → Nat → Except Error α}
    (harmless : ∀ env k error, answer env k = .error error → error.isConflict = false) :
    Plain (ask answer) :=
  plain_atomic fun env k _ error failed => harmless env k error failed

theorem plain_spawnInstance (plan : EpochPlan) : Plain (spawnInstance plan) := by
  apply plain_atomic
  intro env k w error failed
  split at failed <;> cases failed
  exact ExternalError.not_isConflict _

theorem plain_waitReady (p : Nat) : Plain (waitReady p) := by
  apply plain_atomic
  intro env k w error failed
  dsimp only at failed
  split at failed
  · cases failed
  · split at failed <;> cases failed <;> rfl
  · cases failed
    rfl

theorem plain_stopAndConfirmDead (p : Nat) : Plain (stopAndConfirmDead p) := by
  apply plain_atomic
  intro env k w error failed
  split at failed <;> cases failed
  rfl

/-- The latch hands back the error it was given. -/
theorem latchQuarantine_returns {env : Env} {w w' : World} {epoch : Epoch} {error returned : Error}
    (run : latchQuarantine epoch error env w = .ok (returned, w')) : returned = error := by
  obtain ⟨_, v₁, _, run⟩ := run_bind run
  obtain ⟨ctrl, v₂, _, run⟩ := run_bind run
  cases refused : quarantineError ctrl.quarantine with
  | none =>
      simp only [refused] at run
      cases run
  | some quarantine =>
      simp only [refused] at run
      obtain ⟨_, v₃, _, run⟩ := run_bind run
      cases run
      rfl

theorem Plain.latched {epoch : Epoch} {error : Error} {rest : Error → Manager (Except Error α)}
    (plain : Plain (rest error)) : Plain (latchQuarantine epoch error >>= rest) := by
  intro env w failure w' run
  obtain ⟨returned, v, ran, run⟩ := run_bind run
  rw [latchQuarantine_returns ran] at run
  exact plain env v failure w' run

/-- What `retire_current` reports is an unconfirmed stop. -/
theorem retireCurrent_plain {env : Env} {w w' : World} {failure : RetireFailure}
    (run : retireCurrent env w = .ok (.error failure, w')) :
    failure.error.isConflict = false := by
  obtain ⟨ctrl, v, _, run⟩ := run_bind run
  cases slot : ctrl.current with
  | none =>
      simp only [slot] at run
      cases run
  | some active =>
      simp only [slot] at run
      obtain ⟨_, v₁, _, run⟩ := run_bind run
      obtain ⟨stopped, v₂, ran, run⟩ := run_bind run
      cases stopped with
      | ok _ => cases run
      | error error =>
          cases run
          exact plain_stopAndConfirmDead active.proc env v₁ _ _ ran

theorem Plain.retired {rest : Except RetireFailure (Option EpochPlan) → Manager (Except Error α)}
    (failed : ∀ failure : RetireFailure, failure.error.isConflict = false →
      Plain (rest (.error failure)))
    (done : ∀ old, Plain (rest (.ok old))) : Plain (retireCurrent >>= rest) := by
  intro env w error w' run
  obtain ⟨retired, v, ran, run⟩ := run_bind run
  cases retired with
  | error failure => exact failed failure (retireCurrent_plain ran) env v error w' run
  | ok old => exact done old env v error w' run

/-- An unconfirmed stop is latched; any other error goes its own way. -/
theorem Plain.unconfirmed {confirms : Prop} [Decidable confirms] {epoch : Epoch} {error : Error}
    {rest : Error → Manager (Except Error α)} {other : Manager (Except Error α)}
    (plain : Plain (rest error)) (otherwise : Plain other) :
    Plain (if confirms then latchQuarantine epoch error >>= rest else other) := by
  split
  · exact .latched plain
  · exact otherwise

theorem plain_discardStale : Plain discardStale := by
  refine .retired (fun failure harmless => ?_) fun old => ?_
  · exact .unconfirmed (plain_error _ harmless) (plain_error _ harmless)
  · cases old with
    | none => exact plain_ok _
    | some plan =>
        exact (plain_cleanupEpoch _).bind plain_failed fun _ => plain_ok _

theorem plain_spawnReplacement (plan : EpochPlan) : Plain (spawnReplacement plan) := by
  refine (plain_spawnInstance plan).bind plain_error fun p => ?_
  refine (plain_waitReady p).bind (fun error harmless => ?_) fun _ => plain_ok _
  refine (plain_stopAndConfirmDead p).bind (fun _ _ => plain_error _ rfl) fun _ => ?_
  exact plain_error _ harmless

/-! ## Preparation -/

theorem plain_loadSnapshot (path : FileName) : Plain (loadSnapshot path) := by
  apply plain_ask
  intro env k error failed
  split at failed
  · cases failed
    exact ExternalError.not_isConflict _
  · split at failed <;> cases failed
    exact ExternalError.not_isConflict _

theorem plain_prepare (snapshot : ConfigSnapshot) (spec : InstanceSpec) (epoch : Epoch)
    (resolved : ResolvedFeatures) (zeroInbounds : Bool) :
    Plain (prepare snapshot spec epoch resolved zeroInbounds) := by
  apply plain_ask
  intro env k error failed
  unfold prepareConfig at failed
  split at failed
  · cases failed
    exact ExternalError.not_isConflict _
  · split at failed <;> cases failed
    exact ExternalError.not_isConflict _

section

variable (spec : InstanceSpec)

include spec

theorem plain_validateLaunchable : Plain (validateLaunchable spec) := by
  apply plain_ask
  intro env k error failed
  split at failed <;> cases failed
  rfl

theorem plain_resolveFeatures : Plain (resolveFeatures spec) := by
  apply plain_ask
  intro env k error failed
  dsimp only at failed
  split at failed
  · cases failed
    rfl
  · split at failed <;> cases failed
    exact ExternalError.not_isConflict _

theorem plain_checkConfig : Plain (checkConfig spec) := by
  apply plain_ask
  intro env k error failed
  split at failed <;> cases failed
  exact ExternalError.not_isConflict _

theorem plain_stageChecked (epoch : Epoch) (bytes : Bytes) :
    Plain (stageChecked spec epoch bytes) := by
  refine (plain_stage epoch bytes).bind plain_error fun staged => ?_
  exact (plain_checkConfig _).bind plain_failed fun _ => plain_ok _

theorem plain_prepareLaunchWithFeatures (epoch : Epoch) (snapshot : ConfigSnapshot)
    (resolved : ResolvedFeatures) :
    Plain (prepareLaunchWithFeatures spec epoch snapshot resolved) := by
  refine (plain_prepare _ _ _ _ _).bind plain_error fun prepared => ?_
  refine (plain_stageChecked _ _ _).bind plain_error fun staged => ?_
  exact (plain_commitNew staged epoch).bind plain_error fun _ => plain_ok _

theorem plain_prepareLaunch (epoch : Epoch) (snapshot : ConfigSnapshot) :
    Plain (prepareLaunch spec epoch snapshot) := by
  refine (plain_validateLaunchable spec).bind plain_error fun _ => ?_
  refine (plain_resolveFeatures spec).bind plain_error fun resolved => ?_
  exact plain_prepareLaunchWithFeatures spec epoch snapshot resolved

theorem plain_stageBootstrap (epoch : Epoch) (full : StagedRuntimeConfig) (bytes : Bytes)
    : Plain (stageBootstrap spec epoch full bytes) := by
  refine (plain_stage epoch bytes).bind plain_failed fun staged => ?_
  refine (plain_checkConfig _).bind (fun _ harmless => ?_) fun _ => ?_
  · exact .after fun _ => .after fun _ => plain_error _ harmless
  · exact (plain_commitNew staged epoch).bind plain_failed fun _ => plain_ok _

end

theorem plain_restorationPatch (bootstrap full : Mapping) :
    Plain (restorationPatch bootstrap full) := by
  apply plain_ask
  intro env k error failed
  split at failed <;> cases failed
  exact ExternalError.not_isConflict _

theorem plain_prepareGraceful (spec : InstanceSpec) (epoch : Epoch) (snapshot : ConfigSnapshot)
    (resolved : ResolvedFeatures) : Plain (prepareGraceful spec epoch snapshot resolved) := by
  refine (plain_prepare _ _ _ _ _).bind plain_error fun full => ?_
  refine (plain_prepare _ _ _ _ _).bind plain_error fun bootstrap => ?_
  dsimp only
  split
  · exact plain_error _ rfl
  refine (plain_restorationPatch _ _).bind plain_error fun restoration => ?_
  refine (plain_stageChecked _ _ _).bind plain_error fun staged => ?_
  exact (plain_stageBootstrap _ _ _ _).bind plain_error fun _ => plain_ok _

/-! ## Starting and switching -/

/-- A failure that cleans up and is then published. -/
theorem plain_published {epoch : Epoch} {report : Error → Manager Unit} (error : Error)
    (harmless : error.isConflict = false) :
    Plain (do
      let _ ← cleanupEpoch epoch
      report error
      return (.error error : Except Error α)) :=
  .after fun _ => .after fun _ => plain_error _ harmless

theorem plain_startPrepared (plan : EpochPlan) : Plain (startPrepared plan) := by
  apply Plain.after
  intro _
  refine (plain_spawnInstance plan).bind plain_published fun p => ?_
  refine (plain_waitReady p).bind (fun error harmless => ?_) fun _ => ?_
  · refine (plain_stopAndConfirmDead p).bind (fun _ _ => ?_) fun _ => plain_published _ harmless
    exact .latched (plain_error _ rfl)
  · exact .after fun _ => .after fun _ => .after fun _ => plain_ok _

theorem plain_startLocked (spec : InstanceSpec) : Plain (startLocked spec) := by
  apply Plain.after
  intro epoch
  refine (plain_loadSnapshot _).bind plain_failed fun snapshot => ?_
  refine (plain_prepareLaunch spec epoch snapshot).bind plain_published fun plan => ?_
  exact plain_startPrepared plan

theorem plain_hardSwitch (spec : InstanceSpec) (snapshot : ConfigSnapshot)
    (resolved : ResolvedFeatures) : Plain (hardSwitch spec snapshot resolved) := by
  apply Plain.after
  intro epoch
  refine (plain_prepareLaunchWithFeatures _ _ _ _).bind plain_published fun plan => ?_
  refine .after fun ctrl => .after fun _ => .retired (fun failure harmless => ?_) fun old => ?_
  · exact .after fun _ => .unconfirmed (plain_error _ harmless) (plain_failed _ harmless)
  cases old with
  | none => exact plain_abort _
  | some old =>
      refine (plain_cleanupEpoch _).bind (fun _ harmless => ?_) fun _ => plain_startPrepared plan
      exact .after fun _ => .after fun _ => plain_error _ harmless

theorem plain_switchDurability (warning : DurabilityWarning) (error : Error)
    (harmless : error.isConflict = false) :
    Plain (pure (withSwitchDurabilityResult (.error error) warning)) := by
  cases warning with
  | none => exact plain_error _ harmless
  | some text => exact plain_error _ rfl

theorem plain_installGraceful (p : Nat) (plan : EpochPlan) (oldEpoch : Epoch)
    (outcome : SwitchOutcome) (warning : DurabilityWarning) :
    Plain (installGraceful p plan oldEpoch outcome warning) := by
  refine .after fun pid => .after fun _ => .after fun _ => ?_
  exact (plain_cleanupEpoch oldEpoch).bind (plain_switchDurability warning) fun _ => plain_ok _

theorem plain_replaceBootstrap (p : Nat) (plan : EpochPlan) (oldEpoch : Epoch)
    (warning : DurabilityWarning) : Plain (replaceBootstrap p plan oldEpoch warning) := by
  refine (plain_stopAndConfirmDead p).bind (fun error harmless => ?_) fun _ => ?_
  · have plain := plain_switchDurability warning error harmless
    exact .after fun _ => .unconfirmed plain (.after fun _ => plain)
  refine (plain_spawnReplacement plan).bind (fun error harmless => ?_)
    fun q => plain_installGraceful q plan oldEpoch _ warning
  have plain := plain_switchDurability warning error harmless
  exact .after fun _ => .unconfirmed plain (.after fun _ => .after fun _ => plain)

theorem plain_finishGraceful (p : Nat) (prepared : PreparedGraceful) (oldEpoch : Epoch) :
    Plain (finishGraceful p prepared oldEpoch) := by
  refine (plain_commitReplace _ _).bind (fun error harmless => ?_) fun warning => ?_
  · refine .after fun _ => (plain_stopAndConfirmDead p).bind (fun _ _ => ?_)
      fun _ => plain_published _ harmless
    exact .latched (plain_error _ rfl)
  · refine .after fun reconciled => ?_
    split
    · exact plain_installGraceful p prepared.plan oldEpoch _ warning
    · exact plain_replaceBootstrap p prepared.plan oldEpoch warning

theorem plain_abandonGraceful (p : Nat) (epoch : Epoch) (failure : RetireFailure)
    (harmless : failure.error.isConflict = false) :
    Plain (abandonGraceful p epoch failure) := by
  refine (plain_stopAndConfirmDead p).bind (fun _ _ => ?_) fun _ => ?_
  · dsimp only
    split
    · exact .after fun _ => .latched (plain_error _ rfl)
    · exact .latched (plain_error _ rfl)
  · exact .after fun _ => .unconfirmed (plain_error _ harmless) (plain_failed _ harmless)

theorem plain_gracefulSwitch (spec : InstanceSpec) (snapshot : ConfigSnapshot)
    (resolved : ResolvedFeatures) : Plain (gracefulSwitch spec snapshot resolved) := by
  refine .after fun ctrl => .after fun epoch => ?_
  refine (plain_prepareGraceful _ _ _ _).bind plain_published fun prepared => .after fun _ => ?_
  refine (plain_spawnInstance _).bind (fun _ harmless => ?_) fun p => ?_
  · exact .after fun _ => .after fun _ => .after fun _ => plain_error _ harmless
  refine (plain_waitReady p).bind (fun error harmless => ?_) fun _ => ?_
  · refine .after fun _ => (plain_stopAndConfirmDead p).bind (fun _ _ => ?_)
      fun _ => .after fun _ => .after fun _ => plain_error _ harmless
    exact .after fun _ => .latched (plain_error _ rfl)
  refine .retired (fun failure harmless => ?_) fun old => ?_
  · exact .after fun _ => plain_abandonGraceful p epoch failure harmless
  cases old with
  | none => exact plain_abort _
  | some old => exact plain_finishGraceful p prepared _

theorem plain_switchLocked (spec : InstanceSpec) : Plain (switchLocked spec) := by
  apply Plain.after
  intro running
  cases running with
  | false =>
      refine plain_discardStale.bind plain_error fun _ => ?_
      exact (plain_startLocked spec).bind plain_error fun _ => plain_ok _
  | true =>
  refine (plain_loadSnapshot _).bind plain_error fun snapshot => ?_
  refine (plain_validateLaunchable spec).bind plain_error fun _ => ?_
  refine (plain_resolveFeatures spec).bind plain_error fun resolved => ?_
  refine .after fun keepHttp => .after fun ctrl => .after fun block => ?_
  split
  · exact (plain_hardSwitch _ _ _).bind plain_error fun _ => plain_ok _
  · exact plain_gracefulSwitch spec snapshot resolved

/-! ## Applying -/

theorem plain_durability {warning : DurabilityWarning} (error : Error)
    (harmless : error.isConflict = false) :
    Plain (pure (withDurabilityResult (.error error) warning)) := by
  cases warning with
  | none => exact plain_error _ harmless
  | some text => exact plain_error _ rfl

theorem plain_prepareApply (current : EpochPlan) (input : InstanceSpec)
    (snapshot : ConfigSnapshot) : Plain (prepareApply current input snapshot) := by
  refine (plain_validateLaunchable input).bind plain_error fun _ => ?_
  refine (plain_resolveFeatures input).bind plain_error fun resolved => ?_
  refine (plain_prepare _ _ _ _ _).bind plain_error fun prepared => ?_
  refine (plain_stageChecked _ _ _).bind plain_error fun staged => ?_
  exact .after fun _ => plain_ok _

theorem plain_rollbackRestart (old : EpochPlan) (saved : RuntimeConfigBackup) (text : String) :
    Plain (rollbackRestart old saved text) := by
  apply Plain.after
  intro _
  refine (plain_spawnReplacement old).bind (fun error harmless => ?_) fun p => ?_
  · exact .unconfirmed (plain_error _ rfl) (.after fun _ => plain_failed _ rfl)
  · exact .after fun _ => .after fun _ => plain_ok _

theorem plain_restartWithCompensation (desired : EpochPlan) (saved : RuntimeConfigBackup) :
    Plain (restartWithCompensation desired saved) := by
  refine .retired (fun failure harmless => ?_) fun old => ?_
  · exact .unconfirmed (plain_error _ harmless) (plain_failed _ rfl)
  cases old with
  | none => exact plain_abort _
  | some old =>
  refine .after fun _ => (plain_spawnReplacement desired).bind (fun error harmless => ?_)
    fun p => .after fun _ => .after fun _ => plain_ok _
  refine .unconfirmed (plain_error _ harmless) ?_
  refine (plain_restore saved).bind (fun _ _ => ?_) fun warning => ?_
  · exact .after fun _ => .after fun _ => plain_error _ rfl
  · exact (plain_rollbackRestart _ _ _).bind plain_durability fun _ => plain_ok _

theorem plain_rollbackSwitch (old : EpochPlan) (text : String) :
    Plain (rollbackSwitch old text) := by
  apply Plain.after
  intro _
  refine (plain_spawnReplacement old).bind (fun error harmless => ?_) fun p => ?_
  · exact .unconfirmed (plain_error _ rfl) (.after fun _ => plain_failed _ rfl)
  · exact .after fun _ => plain_ok _

theorem plain_switchWithCompensation (input : InstanceSpec) (snapshot : ConfigSnapshot) :
    Plain (switchWithCompensation input snapshot) := by
  apply Plain.after
  intro epoch
  refine (plain_prepareLaunch _ _ _).bind plain_failed fun desired => ?_
  refine .retired (fun failure harmless => ?_) fun old => ?_
  · exact .after fun _ => .unconfirmed (plain_error _ harmless) (plain_failed _ rfl)
  cases old with
  | none => exact plain_abort _
  | some old =>
  refine .after fun _ => (plain_spawnReplacement desired).bind (fun error harmless => ?_)
    fun p => .after fun _ => .after fun _ => plain_ok _
  dsimp only
  split
  · exact .after fun _ => .latched (plain_error _ harmless)
  · exact .after fun _ => plain_rollbackSwitch _ _

theorem plain_applyInPlace (active : Active) (change : ConfigChange) (prepared : PreparedApply) :
    Plain (applyInPlace active change prepared) := by
  refine (plain_backup _ _).bind plain_failed fun saved => ?_
  refine (plain_commitReplace _ _).bind plain_failed fun warning => ?_
  apply Plain.after
  intro reconciled
  split
  · exact .after fun _ => .after fun _ => .after fun _ => .after fun _ => .after fun _ => plain_ok _
  · exact (plain_restartWithCompensation _ _).bind plain_durability fun _ => plain_ok _

theorem plain_classify (current desired : EpochPlan) : Plain (classify current desired) := by
  apply plain_ask
  intro env k error failed
  split at failed <;> cases failed
  exact ExternalError.not_isConflict _

theorem plain_applyChecked (active : Active) (input : InstanceSpec) :
    Plain (applyChecked active input) := by
  refine (plain_loadSnapshot _).bind plain_error fun snapshot => ?_
  refine (plain_prepareApply _ _ _).bind plain_error fun prepared => ?_
  refine (plain_classify _ _).bind plain_failed fun change => ?_
  cases change with
  | noop => exact .after fun _ => .after fun _ => plain_ok _
  | switch => exact .after fun _ => plain_switchWithCompensation _ _
  | patch _ _ => exact plain_applyInPlace _ _ _
  | reload => exact plain_applyInPlace _ _ _

/-! ## The operations -/

theorem plain_rejectQuarantine : Plain rejectQuarantine := by
  apply Plain.after
  intro ctrl
  cases rejected : quarantineError ctrl.quarantine with
  | none => exact plain_ok _
  | some error =>
      apply plain_error
      unfold quarantineError at rejected
      split at rejected <;> cases rejected <;> rfl

theorem plain_stopTaken (active : Active) (report : Error → Manager Unit)
    {stopped : Except Error Unit} (harmless : Plain (pure stopped)) :
    Plain (stopTaken active report stopped) := by
  refine (plain_stopAndConfirmDead _).bind (fun error unstopped => ?_) fun _ => ?_
  · exact .unconfirmed (plain_error _ unstopped) (plain_failed _ unstopped)
  · exact (plain_cleanupEpoch _).bind plain_failed fun _ => harmless

theorem plain_stop : Plain stop := by
  refine .after fun _ => .after fun ctrl => ?_
  split
  · exact plain_error _ rfl
  refine .after fun captured => .after fun _ => ?_
  split
  · exact .after fun _ => plain_stopTaken _ _ (plain_error _ rfl)
  · exact .after fun _ => (plain_stopTaken _ _ (plain_ok _)).bind plain_error fun _ => .after fun _ => plain_ok _

theorem plain_shutdown : Plain shutdown := by
  refine .after fun _ => .after fun ctrl => ?_
  split
  · exact plain_ok _
  · exact .after fun _ => .after fun _ =>
      (plain_stopTaken _ _ (plain_ok _)).bind plain_error fun _ => .after fun _ => plain_ok _

theorem plain_start (spec : InstanceSpec) : Plain (start spec) := by
  refine plain_rejectQuarantine.bind plain_error fun _ => .after fun running => ?_
  cases running with
  | true => exact plain_error _ rfl
  | false =>
      exact plain_discardStale.bind plain_error fun _ => plain_startLocked spec

theorem plain_restart : Plain restart := by
  refine plain_rejectQuarantine.bind plain_error fun _ => .after fun ctrl => ?_
  split
  · exact plain_error _ rfl
  · exact plain_switchLocked _

theorem plain_switch (spec : InstanceSpec) : Plain (switch spec) :=
  plain_rejectQuarantine.bind plain_error fun _ => plain_switchLocked spec

theorem plain_recoverQuarantine : Plain recoverQuarantine := by
  apply Plain.after
  intro ctrl
  split
  · exact plain_ok _
  apply Plain.after
  intro failures
  cases failures with
  | nil => exact .after fun _ => .after fun _ => .after fun _ => .after fun _ => plain_ok _
  | cons =>
      apply Plain.after
      intro ctrl
      split
      · exact plain_abort _
      · exact plain_error _ rfl

end

end Nyanpasu
