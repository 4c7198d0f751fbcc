import Nyanpasu.Manager.Lifecycle

/-! # Preparing, starting and switching epochs

`start_locked` and `start_prepared` of `manager/mod.rs`, and
`manager/switching.rs`: the launch preparation, the hard switch that stops the
old core first, and the graceful switch that runs a bootstrap beside it.
-/

namespace Nyanpasu

open Naming Store

/-! ## Preparation -/

def localIpcSettings (env : Env) (spec : InstanceSpec) : LocalIpcSettings :=
  spec.options.localIpc.getD ⟨env.localIpcPolicy, false⟩

/-- `ConfigSnapshot::load`: read and parse the user's file once. -/
def loadSnapshot (path : FileName) : Manager (Except Error ConfigSnapshot) :=
  ask fun env k =>
    match env.document path k with
    | .error failure => .error failure.error
    | .ok document =>
        match env.pipeline.serialize document with
        | .error failure => .error failure.error
        | .ok canonical => .ok ⟨path, document, semanticHash canonical⟩

/-- `ConfigSnapshot::prepare`: the bytes are the serialised effective document
    and the effective hash is theirs. -/
def prepareConfig (env : Env) (snapshot : ConfigSnapshot) (epoch : Epoch)
    (runtime : List RuntimeFeature) (settings : LocalIpcSettings) (zeroInbounds : Bool) :
    Except Error PreparedConfig :=
  match env.pipeline.effective snapshot.document epoch runtime settings zeroInbounds with
  | .error failure => .error failure.error
  | .ok (document, controller) =>
      match env.pipeline.serialize document with
      | .error failure => .error failure.error
      | .ok bytes =>
          .ok ⟨bytes, document, controller, runtime.contains .localIpc, snapshot.sourceHash,
            semanticHash bytes⟩

def prepare (snapshot : ConfigSnapshot) (spec : InstanceSpec) (epoch : Epoch)
    (resolved : ResolvedFeatures) (zeroInbounds : Bool) : Manager (Except Error PreparedConfig) :=
  ask fun env _ =>
    prepareConfig env snapshot epoch resolved.runtime (localIpcSettings env spec) zeroInbounds

def validateLaunchable (spec : InstanceSpec) : Manager (Except Error Unit) :=
  ask fun env k =>
    if env.binaryPresent k then .ok ()
    else .error (.binaryNotFound (String.ofList spec.core.binaryPath))

def resolveFeatures (spec : InstanceSpec) : Manager (Except Error ResolvedFeatures) :=
  ask fun env k =>
    let policy := (localIpcSettings env spec).policy
    if !env.localIpcAvailable && policy = .force then
      .error (.invalidManagerOptions "the host cannot authorize local IPC")
    else
      match env.features k (if env.localIpcAvailable then policy else .disable) with
      | .error failure => .error failure.error
      | .ok resolved => .ok resolved

def checkConfig (_spec : InstanceSpec) : Manager (Except Error Unit) :=
  ask fun env k =>
    match env.check k with
    | some failure => .error failure.error
    | none => .ok ()

/-- The plan an epoch runs under, once its runtime file is named. -/
def makePlan (spec : InstanceSpec) (snapshot : ConfigSnapshot) (resolved : ResolvedFeatures)
    (prepared : PreparedConfig) (epoch : Epoch) (generation : Nat) (runtimePath : FileName) :
    EpochPlan where
  sourceSpec := spec
  effectiveSpec := { spec with configPath := runtimePath, pidFile := some (pidPath epoch) }
  controller := prepared.controller
  revision := ⟨epoch, generation, prepared.sourceHash, prepared.effectiveHash, runtimePath⟩
  capabilities := resolved.capabilities
  runtimeFeatures := resolved.runtime
  sourceDocument := snapshot.document
  effectiveDocument := prepared.document

/-- Stage bytes and have the core check them; a rejected staging is removed. -/
def stageChecked (spec : InstanceSpec) (epoch : Epoch) (bytes : Bytes) :
    Manager (Except Error StagedRuntimeConfig) := do
  match ← stage epoch bytes with
  | .error error => return .error error
  | .ok staged =>
  match ← checkConfig { spec with configPath := staged.path } with
  | .error error =>
      dropStaged staged
      return .error error
  | .ok () => return .ok staged

def prepareLaunchWithFeatures (spec : InstanceSpec) (epoch : Epoch) (snapshot : ConfigSnapshot)
    (resolved : ResolvedFeatures) : Manager (Except Error EpochPlan) := do
  match ← prepare snapshot spec epoch resolved false with
  | .error error => return .error error
  | .ok prepared =>
  match ← stageChecked spec epoch prepared.bytes with
  | .error error => return .error error
  | .ok staged =>
  match ← commitNew staged epoch with
  | .error error => return .error error
  | .ok runtimePath =>
      return .ok (makePlan spec snapshot resolved prepared epoch 1 runtimePath)

def prepareLaunch (spec : InstanceSpec) (epoch : Epoch) (snapshot : ConfigSnapshot) :
    Manager (Except Error EpochPlan) := do
  match ← validateLaunchable spec with
  | .error error => return .error error
  | .ok () =>
  match ← resolveFeatures spec with
  | .error error => return .error error
  | .ok resolved => prepareLaunchWithFeatures spec epoch snapshot resolved

structure PreparedGraceful where
  plan : EpochPlan
  fullStaged : StagedRuntimeConfig
  restoration : Option (Mapping × Mapping)

/-- The bootstrap of a graceful switch, once the full configuration is staged.
    Every early return drops the full staging. -/
def stageBootstrap (spec : InstanceSpec) (epoch : Epoch) (fullStaged : StagedRuntimeConfig)
    (bytes : Bytes) : Manager (Except Error FileName) := do
  match ← stage epoch bytes with
  | .error error =>
      dropStaged fullStaged
      return .error error
  | .ok bootstrapStaged =>
  match ← checkConfig { spec with configPath := bootstrapStaged.path } with
  | .error error =>
      dropStaged bootstrapStaged
      dropStaged fullStaged
      return .error error
  | .ok () =>
  match ← commitNew bootstrapStaged epoch with
  | .error error =>
      dropStaged fullStaged
      return .error error
  | .ok runtimePath => return .ok runtimePath

def restorationPatch (bootstrap full : Mapping) :
    Manager (Except Error (Option (Mapping × Mapping))) :=
  ask fun env _ =>
    match env.pipeline.restorationPatch bootstrap full with
    | .error failure => .error failure.error
    | .ok patch => .ok patch

def prepareGraceful (spec : InstanceSpec) (epoch : Epoch) (snapshot : ConfigSnapshot)
    (resolved : ResolvedFeatures) : Manager (Except Error PreparedGraceful) := do
  match ← prepare snapshot spec epoch resolved false with
  | .error error => return .error error
  | .ok full =>
  match ← prepare snapshot spec epoch resolved true with
  | .error error => return .error error
  | .ok bootstrap =>
  if full.controller ≠ bootstrap.controller then
    return .error (.invalidConfig "full and bootstrap configs resolved different controllers")
  else
  match ← restorationPatch bootstrap.document full.document with
  | .error error => return .error error
  | .ok restoration =>
  match ← stageChecked spec epoch full.bytes with
  | .error error => return .error error
  | .ok fullStaged =>
  match ← stageBootstrap spec epoch fullStaged bootstrap.bytes with
  | .error error => return .error error
  | .ok runtimePath =>
      return .ok ⟨makePlan spec snapshot resolved full epoch 1 runtimePath, fullStaged, restoration⟩

/-! ## Starting -/

/-- Launch a committed epoch.  A process that does not become ready is stopped at
    once, and only a proven death lets its files go. -/
def startPrepared (plan : EpochPlan) : Manager (Except Error Unit) := do
  let epoch := plan.revision.epoch
  publish (.starting epoch) (some plan)
  match ← spawnInstance plan with
  | .error error =>
      let _ ← cleanupEpoch epoch
      publishTerminalError error
      return .error error
  | .ok p =>
  match ← waitReady p with
  | .error readinessError =>
      match ← stopAndConfirmDead p with
      | .ok () =>
          let _ ← cleanupEpoch epoch
          publishTerminalError readinessError
          return .error readinessError
      | .error stopError =>
          let error ← latchQuarantine epoch (.stopUnconfirmed
            (readinessError.display ++ "; failed to stop rejected initial instance: " ++
              stopError.display))
          return .error error
  | .ok () =>
      let pid ← pidOrDefault p
      publishInstance p (.running epoch pid) plan
      let _ ← install p plan
      return .ok ()

def startLocked (spec : InstanceSpec) : Manager (Except Error Unit) := do
  let epoch ← allocateEpoch
  match ← loadSnapshot spec.configPath with
  | .error error =>
      publishTerminalError error
      return .error error
  | .ok snapshot =>
  match ← prepareLaunch spec epoch snapshot with
  | .error error =>
      let _ ← cleanupEpoch epoch
      publishTerminalError error
      return .error error
  | .ok plan => startPrepared plan

/-! ## Switching -/

inductive DegradeReason where
  | notRunning
  | unsupportedKind
  | dnsListen
  | inboundConflict
  | patchFailed
  | httpController
  deriving Repr, DecidableEq

inductive SwitchOutcome where
  | graceful
  | hard (reason : DegradeReason)
  | durabilityUncertain (outcome : SwitchOutcome) (warning : String)
  deriving Repr, DecidableEq

def gracefulDegradeReason (localController : Bool) (kind : CoreKind)
    (overlapBlock : Option OverlapBlock) : Option DegradeReason :=
  if !localController then some .httpController
  else if kind ≠ .mihomo then some .unsupportedKind
  else
    match overlapBlock with
    | some .dnsListen => some .dnsListen
    | some .inboundSurface => some .inboundConflict
    | none => none

def withSwitchDurabilityWarning (outcome : SwitchOutcome) : DurabilityWarning → SwitchOutcome
  | some warning => .durabilityUncertain outcome warning
  | none => outcome

def withSwitchDurabilityResult (result : Except Error SwitchOutcome) (warning : DurabilityWarning) :
    Except Error SwitchOutcome :=
  match result, warning with
  | .ok outcome, warning => .ok (withSwitchDurabilityWarning outcome warning)
  | .error error, some warning => .error (.durabilityUncertain error warning)
  | .error error, none => .error error

/-- Launch under an existing plan and wait; a process that is not ready is
    stopped before the error returns. -/
def spawnReplacement (plan : EpochPlan) : Manager (Except Error Nat) := do
  match ← spawnInstance plan with
  | .error error => return .error error
  | .ok p =>
  match ← waitReady p with
  | .ok () => return .ok p
  | .error error =>
      match ← stopAndConfirmDead p with
      | .ok () => return .error error
      | .error stopError =>
          return .error (.stopUnconfirmed
            (error.display ++ "; failed to stop rejected replacement: " ++ stopError.display))

def hardSwitch (spec : InstanceSpec) (snapshot : ConfigSnapshot) (resolved : ResolvedFeatures) :
    Manager (Except Error Unit) := do
  let epoch ← allocateEpoch
  match ← prepareLaunchWithFeatures spec epoch snapshot resolved with
  | .error error =>
      let _ ← cleanupEpoch epoch
      republishRetained
      return .error error
  | .ok plan =>
  let oldEpoch := (← getCtrl).current.map (·.plan.revision.epoch)
  publish (.switching oldEpoch epoch) (some plan)
  match ← retireCurrent with
  | .error failure =>
      let _ ← cleanupEpoch epoch
      if failure.error.isStopUnconfirmed then
        let error ← latchQuarantine failure.epoch failure.error
        return .error error
      else
        publishTerminalError failure.error
        return .error failure.error
  | .ok none => Program.abort (.expectFailed "running checked by caller")
  | .ok (some old) =>
  match ← cleanupEpoch old.revision.epoch with
  | .error error =>
      mark (.abandoned .hardSwitchCleanup) fun _ => true
      publishTerminalError error
      return .error error
  | .ok () => startPrepared plan

/-- One answer of the controller: a client that builds, a read that verifies, a
    probe that is healthy. -/
def control : Manager Bool := ask fun env k => env.control k

/-- The result of a patch request is uncertain either way; only the read back
    and the probe count. -/
def patchAndVerify (_p : Nat) (_patch _projection : Mapping) : Manager Bool := do
  match ← control with
  | false => return false
  | true =>
      let _ ← control
      match ← control with
      | false => return false
      | true => control

/-- A future under a timeout; `false` when the time is up. -/
def withTimeout (action : Manager Bool) : Manager Bool := do
  let answer ← action
  let elapsed ← ask fun env k => env.timeout k
  return answer && !elapsed

/-- `Running` is published before the epoch enters the slot, and the retired
    epoch is cleaned afterwards. -/
def installGraceful (p : Nat) (plan : EpochPlan) (oldEpoch : Epoch) (outcome : SwitchOutcome)
    (warning : DurabilityWarning) : Manager (Except Error SwitchOutcome) := do
  let pid ← pidOrDefault p
  publishInstance p (.running plan.revision.epoch pid) plan
  let _ ← install p plan
  match ← cleanupEpoch oldEpoch with
  | .error error => return withSwitchDurabilityResult (.error error) warning
  | .ok () => return withSwitchDurabilityResult (.ok outcome) warning

/-- The bootstrap did not take the full configuration: replace the process. -/
def replaceBootstrap (p : Nat) (plan : EpochPlan) (oldEpoch : Epoch)
    (warning : DurabilityWarning) : Manager (Except Error SwitchOutcome) := do
  let epoch := plan.revision.epoch
  match ← stopAndConfirmDead p with
  | .error error =>
      mark (.abandoned .gracefulStop) fun _ => true
      if error.isStopUnconfirmed then
        let error ← latchQuarantine epoch error
        return withSwitchDurabilityResult (.error error) warning
      else
        publishTerminalError error
        return withSwitchDurabilityResult (.error error) warning
  | .ok () =>
  match ← spawnReplacement plan with
  | .ok q => installGraceful q plan oldEpoch (.hard .patchFailed) warning
  | .error error =>
      mark (.abandoned .gracefulReplacement) fun _ => true
      if error.isStopUnconfirmed then
        let error ← latchQuarantine epoch error
        return withSwitchDurabilityResult (.error error) warning
      else
        let _ ← cleanupEpoch epoch
        publishTerminalError error
        return withSwitchDurabilityResult (.error error) warning

/-- The old core is gone: commit the full configuration and bring the bootstrap
    up to it. -/
def finishGraceful (p : Nat) (prepared : PreparedGraceful) (oldEpoch : Epoch) :
    Manager (Except Error SwitchOutcome) := do
  let epoch := prepared.plan.revision.epoch
  match ← commitReplace prepared.fullStaged epoch with
  | .error error =>
      mark (.abandoned .gracefulCommit) fun _ => true
      match ← stopAndConfirmDead p with
      | .ok () =>
          let _ ← cleanupEpoch epoch
          publishTerminalError error
          return .error error
      | .error stopError =>
          let error ← latchQuarantine epoch (.stopUnconfirmed
            ("full runtime commit failed: " ++ error.display ++
              "; bootstrap stop also failed: " ++ stopError.display))
          return .error error
  | .ok warning =>
      let reconciled ← withTimeout (match prepared.restoration with
        | some (patch, projection) => patchAndVerify p patch projection
        | none => control)
      if reconciled then installGraceful p prepared.plan oldEpoch .graceful warning
      else replaceBootstrap p prepared.plan oldEpoch warning

/-- The old core could not be proven dead: the bootstrap must go as well. -/
def abandonGraceful (p : Nat) (epoch : Epoch) (failure : RetireFailure) :
    Manager (Except Error SwitchOutcome) := do
  match ← stopAndConfirmDead p with
  | .ok () =>
      let _ ← cleanupEpoch epoch
      if failure.error.isStopUnconfirmed then
        let error ← latchQuarantine failure.epoch failure.error
        return .error error
      else
        publishTerminalError failure.error
        return .error failure.error
  | .error stopError =>
      if failure.error.isStopUnconfirmed then
        modifyQuarantine fun quarantine =>
          recordQuarantine quarantine failure.epoch failure.error.display
      let error ← latchQuarantine epoch (.stopUnconfirmed
        ("old epoch stop failed: " ++ failure.error.display ++
          "; new bootstrap stop also failed: " ++ stopError.display))
      return .error error

def gracefulSwitch (spec : InstanceSpec) (snapshot : ConfigSnapshot)
    (resolved : ResolvedFeatures) : Manager (Except Error SwitchOutcome) := do
  let oldEpoch := (← getCtrl).current.map (·.plan.revision.epoch)
  let epoch ← allocateEpoch
  match ← prepareGraceful spec epoch snapshot resolved with
  | .error error =>
      let _ ← cleanupEpoch epoch
      republishRetained
      return .error error
  | .ok prepared =>
  publish (.switching oldEpoch epoch) (some prepared.plan)
  match ← spawnInstance prepared.plan with
  | .error error =>
      dropStaged prepared.fullStaged
      let _ ← cleanupEpoch epoch
      republishRetained
      return .error error
  | .ok p =>
  match ← waitReady p with
  | .error error =>
      dropStaged prepared.fullStaged
      match ← stopAndConfirmDead p with
      | .ok () =>
          let _ ← cleanupEpoch epoch
          republishRetained
          return .error error
      | .error stopError =>
          mark .quarantinedBesideLive World.slotLive
          let error ← latchQuarantine epoch (.stopUnconfirmed
            (error.display ++ "; failed to stop rejected graceful bootstrap: " ++
              stopError.display))
          return .error error
  | .ok () =>
  match ← retireCurrent with
  | .error failure =>
      dropStaged prepared.fullStaged
      abandonGraceful p epoch failure
  | .ok none => Program.abort (.expectFailed "running checked by caller")
  | .ok (some old) => finishGraceful p prepared old.revision.epoch

def hasHttp (document : Mapping) : Bool :=
  ["external-controller", "external-controller-tls"].any fun field =>
    ((document.get field).bind Value.asStr).any (· ≠ "")

def overlapBlock (document : Mapping) : Manager (Option OverlapBlock) :=
  ask fun env _ => env.pipeline.overlapBlock document

def keepHttpController (spec : InstanceSpec) : Manager Bool :=
  ask fun env _ => (localIpcSettings env spec).keepHttpController

def switchLocked (spec : InstanceSpec) : Manager (Except Error SwitchOutcome) := do
  match ← isRunning with
  | false =>
      match ← discardStale with
      | .error error => return .error error
      | .ok () =>
      match ← startLocked spec with
      | .error error => return .error error
      | .ok () => return .ok (.hard .notRunning)
  | true =>
  match ← loadSnapshot spec.configPath with
  | .error error => return .error error
  | .ok snapshot =>
  match ← validateLaunchable spec with
  | .error error => return .error error
  | .ok () =>
  match ← resolveFeatures spec with
  | .error error => return .error error
  | .ok resolved =>
  let keepHttp ← keepHttpController spec
  let httpListener :=
    (← getCtrl).current.any (fun active => hasHttp active.plan.effectiveDocument) ||
      (keepHttp && hasHttp snapshot.document)
  let block ← overlapBlock snapshot.document
  match gracefulDegradeReason (resolved.runtime.contains .localIpc && !httpListener)
      spec.core.kind block with
  | some reason =>
      match ← hardSwitch spec snapshot resolved with
      | .error error => return .error error
      | .ok () => return .ok (.hard reason)
  | none => gracefulSwitch spec snapshot resolved

end Nyanpasu
