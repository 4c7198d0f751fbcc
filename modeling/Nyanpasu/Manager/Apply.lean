import Nyanpasu.Manager.Switching

/-! # Applying a configuration to a running core

`manager/apply.rs`: the compare-and-set check, the in-place change with its
backup, and the two compensations that replace the process and fall back to the
old plan.
-/

namespace Nyanpasu

open Naming Store

inductive ApplyOutcome where
  | started (revision : ConfigRevision)
  | noop (revision : ConfigRevision)
  | patched (revision : ConfigRevision)
  | reloaded (revision : ConfigRevision)
  | restarted (revision : ConfigRevision)
  | switched (revision : ConfigRevision)
  | rolledBack (revision : ConfigRevision) (failedApply : String)
  | durabilityUncertain (outcome : ApplyOutcome) (warning : String)
  deriving DecidableEq

namespace ApplyOutcome

/-- The outcome behind its durability warnings. -/
def settled : ApplyOutcome → ApplyOutcome
  | durabilityUncertain outcome _ => outcome.settled
  | outcome => outcome

end ApplyOutcome

def withDurabilityWarning (outcome : ApplyOutcome) : DurabilityWarning → ApplyOutcome
  | some warning => .durabilityUncertain outcome warning
  | none => outcome

def withDurabilityResult (result : Except Error ApplyOutcome) (warning : DurabilityWarning) :
    Except Error ApplyOutcome :=
  match result, warning with
  | .ok outcome, warning => .ok (withDurabilityWarning outcome warning)
  | .error error, some warning => .error (.durabilityUncertain error warning)
  | .error error, none => .error error

structure PreparedApply where
  plan : EpochPlan
  staged : StagedRuntimeConfig

/-- The next generation of an epoch is one more; running out of generations is
    an arithmetic overflow. -/
def nextGeneration (revision : ConfigRevision) : Manager Nat :=
  if revision.generation + 1 < 2 ^ 64 then return revision.generation + 1
  else Program.abort .generationOverflow

def prepareApply (current : EpochPlan) (input : InstanceSpec) (snapshot : ConfigSnapshot) :
    Manager (Except Error PreparedApply) := do
  match ← validateLaunchable input with
  | .error error => return .error error
  | .ok () =>
  match ← resolveFeatures input with
  | .error error => return .error error
  | .ok resolved =>
  let epoch := current.revision.epoch
  match ← prepare snapshot input epoch resolved false with
  | .error error => return .error error
  | .ok prepared =>
  match ← stageChecked input epoch prepared.bytes with
  | .error error => return .error error
  | .ok staged =>
      let generation ← nextGeneration current.revision
      return .ok ⟨makePlan input snapshot resolved prepared epoch generation
        current.revision.runtimePath, staged⟩

def reconcileInPlace (p : Nat) (change : ConfigChange) (_desired : EpochPlan) : Manager Bool := do
  match change with
  | .patch patch projection => patchAndVerify p patch projection
  | .switch => return false
  | .noop => return true
  | .reload =>
      match ← control with  -- the control client
      | false => return false
      | true =>
          match ← control with  -- the forced reload
          | false => return false
          | true => control

/-- Both compensations install a process and then publish it. -/
def installAndPublish (p : Nat) (plan : EpochPlan) : Manager Unit := do
  let pid ← pidOrDefault p
  let active ← install p plan
  publishActive active (.running plan.revision.epoch pid)

/-- Bring the old plan back after the desired one failed. -/
def rollbackRestart (old : EpochPlan) (backup : RuntimeConfigBackup) (applyText : String) :
    Manager (Except Error ApplyOutcome) := do
  publish (.restarting old.revision.epoch 0) (some old)
  match ← spawnReplacement old with
  | .ok p =>
      installAndPublish p old
      let _ ← removeBackup backup
      return .ok (.rolledBack old.revision applyText)
  | .error rollbackError =>
      if rollbackError.isStopUnconfirmed then
        let error ← latchQuarantine old.revision.epoch (.stopUnconfirmed
          ("desired apply failed (" ++ applyText ++ "); rollback replacement " ++
            rollbackError.display))
        return .error error
      else
        mark (.abandoned .restartRollback) fun _ => true
        let error := .applyRollbackFailed applyText rollbackError.display
        publishTerminalError error
        return .error error

def restartWithCompensation (desired : EpochPlan) (backup : RuntimeConfigBackup) :
    Manager (Except Error ApplyOutcome) := do
  match ← retireCurrent with
  | .error failure =>
      if failure.error.isStopUnconfirmed then
        let error ← latchQuarantine failure.epoch failure.error
        return .error error
      else
        let error := .applyFailed
          ("failed to stop current epoch for reconcile: " ++ failure.error.display)
        publishTerminalError error
        return .error error
  | .ok none => Program.abort (.expectFailed "current held by control lock")
  | .ok (some old) =>
  publish (.restarting desired.revision.epoch 0) (some desired)
  match ← spawnReplacement desired with
  | .ok p =>
      installAndPublish p desired
      let _ ← removeBackup backup
      return .ok (.restarted desired.revision)
  | .error applyError =>
      if applyError.isStopUnconfirmed then
        let error ← latchQuarantine desired.revision.epoch applyError
        return .error error
      else
        match ← restore backup with
        | .error restoreError =>
            mark (.abandoned .restartRestore) fun _ => true
            let error := .applyRollbackFailed applyError.display
              ("runtime restore failed: " ++ restoreError.display)
            publishTerminalError error
            return .error error
        | .ok warning =>
            let rollback ← rollbackRestart old backup applyError.display
            return withDurabilityResult rollback warning

/-- The directory still holds a file of the epoch. -/
def hasArtifacts (w : World) (epoch : Epoch) : Bool :=
  w.dir.any fun file => artifactEpoch file.1 = some epoch.get

def rollbackSwitch (old : EpochPlan) (applyText : String) :
    Manager (Except Error ApplyOutcome) := do
  publish (.restarting old.revision.epoch 0) (some old)
  match ← spawnReplacement old with
  | .ok p =>
      installAndPublish p old
      return .ok (.rolledBack old.revision applyText)
  | .error rollbackError =>
      if rollbackError.isStopUnconfirmed then
        let error ← latchQuarantine old.revision.epoch (.stopUnconfirmed
          ("desired switch failed (" ++ applyText ++ "); rollback replacement " ++
            rollbackError.display))
        return .error error
      else
        mark (.abandoned .switchRollback) fun _ => true
        let error := .applyRollbackFailed applyText rollbackError.display
        publishTerminalError error
        return .error error

def switchWithCompensation (input : InstanceSpec) (snapshot : ConfigSnapshot) :
    Manager (Except Error ApplyOutcome) := do
  let epoch ← allocateEpoch
  match ← prepareLaunch input epoch snapshot with
  | .error error =>
      mark (.abandoned .switchPrepare) fun w => hasArtifacts w epoch
      return .error error
  | .ok desired =>
  match ← retireCurrent with
  | .error failure =>
      let _ ← cleanupEpoch epoch
      if failure.error.isStopUnconfirmed then
        let error ← latchQuarantine failure.epoch failure.error
        return .error error
      else
        let error := .applyFailed
          ("failed to stop current epoch for switch: " ++ failure.error.display)
        publishTerminalError error
        return .error error
  | .ok none => Program.abort (.expectFailed "current held by control lock")
  | .ok (some old) =>
  publish (.switching (some old.revision.epoch) desired.revision.epoch) (some desired)
  match ← spawnReplacement desired with
  | .ok p =>
      installAndPublish p desired
      let _ ← cleanupEpoch old.revision.epoch
      return .ok (.switched desired.revision)
  | .error applyError =>
      if applyError.isStopUnconfirmed then
        mark (.abandoned .switchUnconfirmed) fun _ => true
        let error ← latchQuarantine desired.revision.epoch applyError
        return .error error
      else
        let _ ← cleanupEpoch epoch
        rollbackSwitch old applyError.display

/-- The desired plan is live in the slot's own process. -/
def adoptPlan (active : Active) (desired : EpochPlan) : Manager Active :=
  atomic fun _ _ w =>
    (⟨active.proc, desired⟩, { w with
      ctrl := { w.ctrl with current := some ⟨active.proc, desired⟩ }
      installs := desired.revision :: w.installs
      adopted := desired.configuration :: w.adopted })

def setLastSpec (spec : InstanceSpec) : Manager Unit := do
  let ctrl ← getCtrl
  setCtrl { ctrl with lastSpec := some spec }

def inPlaceOutcome (change : ConfigChange) (revision : ConfigRevision) : ApplyOutcome :=
  match change with
  | .patch _ _ => .patched revision
  | _ => .reloaded revision

/-- From the backup on: replace the file, have the core take it, or compensate. -/
def applyInPlace (active : Active) (change : ConfigChange) (prepared : PreparedApply) :
    Manager (Except Error ApplyOutcome) := do
  match ← backup active.plan.revision.epoch prepared.plan.revision.generation with
  | .error error =>
      dropStaged prepared.staged
      return .error error
  | .ok backup =>
  match ← commitReplace prepared.staged prepared.plan.revision.epoch with
  | .error error =>
      let _ ← removeBackup backup
      return .error error
  | .ok warning =>
  if ← withTimeout (reconcileInPlace active.proc change prepared.plan) then
    let active ← adoptPlan active prepared.plan
    let pid ← pidOrDefault active.proc
    publishActive active (.running prepared.plan.revision.epoch pid)
    setLastSpec prepared.plan.sourceSpec
    let _ ← removeBackup backup
    return .ok (withDurabilityWarning (inPlaceOutcome change prepared.plan.revision) warning)
  else
    let result ← restartWithCompensation prepared.plan backup
    return withDurabilityResult result warning

def classify (current desired : EpochPlan) : Manager (Except Error ConfigChange) :=
  ask fun env _ =>
    match env.pipeline.classify current.classificationView desired.classificationView with
    | .error failure => .error failure.error
    | .ok change => .ok change

/-- Nothing changes but the retained spec, which an explicit restart uses. -/
def retainSpec (active : Active) (input : InstanceSpec) : Manager Unit := do
  let ctrl ← getCtrl
  setCtrl { ctrl with
    current := some { active with plan := { active.plan with sourceSpec := input } }
    lastSpec := some input }

def applyChecked (active : Active) (input : InstanceSpec) :
    Manager (Except Error ApplyOutcome) := do
  match ← loadSnapshot input.configPath with
  | .error error => return .error error
  | .ok snapshot =>
  match ← prepareApply active.plan input snapshot with
  | .error error => return .error error
  | .ok prepared =>
  match ← classify active.plan prepared.plan with
  | .error error =>
      dropStaged prepared.staged
      return .error error
  | .ok .noop =>
      retainSpec active input
      dropStaged prepared.staged
      return .ok (.noop active.plan.revision)
  | .ok .switch =>
      dropStaged prepared.staged
      switchWithCompensation input snapshot
  | .ok change => applyInPlace active change prepared

/-- The compare-and-set token names another revision than the current one. -/
def conflicts (expected : Option RevisionId) (actual : RevisionId) : Option Error :=
  match expected with
  | none => none
  | some expected =>
      if expected ≠ actual then some (.revisionConflict expected (some actual)) else none

def applyLocked (input : InstanceSpec) (expected : Option RevisionId) :
    Manager (Except Error ApplyOutcome) := do
  match (← getCtrl).current with
  | none => return .error .notStarted
  | some active =>
  match ← isRunning with
  | false => return .error .notStarted
  | true =>
  match conflicts expected active.plan.revision.id with
  | some error => return .error error
  | none => applyChecked active input

end Nyanpasu
