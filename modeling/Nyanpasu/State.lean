import Nyanpasu.Config

/-! # Epochs, revisions and the published status

The vocabulary of the orchestrator: identifiers, the two state machines
(`InstanceState` of one supervised process, `CoreState` of the whole manager),
the status snapshot subscribers see, and the errors with their texts.
-/

namespace Nyanpasu

open Naming

/-- An issued epoch: never zero and always a 64-bit number. -/
structure Epoch where
  get : Nat
  positive : 0 < get
  bounded : get < 2 ^ 64
  deriving DecidableEq

theorem Epoch.one_bounded : 1 < 2 ^ 64 := by decide

namespace Epoch

def new (value : Nat) : Option Epoch :=
  if h : 0 < value ∧ value < 2 ^ 64 then some ⟨value, h.1, h.2⟩ else none

@[ext] theorem ext {a b : Epoch} (same : a.get = b.get) : a = b := by
  cases a; cases b; simp_all

theorem get_injective : Function.Injective Epoch.get := fun _ _ => Epoch.ext

@[simp] theorem get_inj {a b : Epoch} : a.get = b.get ↔ a = b := get_injective.eq_iff

def display (epoch : Epoch) : String := String.ofList (decimal epoch.get)

end Epoch

/-! ## Launch specifications -/

inductive CoreKind where
  | mihomo
  | clashRust
  | clashPremium
  | meow
  deriving Repr, DecidableEq

inductive Feature where
  | namedPipeIpc
  | unixSocketIpc
  | disableTcpController
  | namedPipeSecurityDescriptor
  deriving Repr, DecidableEq

inductive RuntimeFeature where
  | localIpc
  deriving Repr, DecidableEq

inductive LocalIpcPolicy where
  | force
  | prefer
  | disable
  deriving Repr, DecidableEq

structure LocalIpcSettings where
  policy : LocalIpcPolicy
  keepHttpController : Bool
  deriving Repr, DecidableEq

/-- Both thresholds are non-zero by construction, as `NonZeroU32` is. -/
structure HealthPolicy where
  interval : Nat
  timeout : Nat
  failureThreshold : Nat
  successThreshold : Nat
  startPeriod : Nat
  failurePositive : 0 < failureThreshold
  successPositive : 0 < successThreshold
  deriving DecidableEq

def HealthPolicy.default : HealthPolicy :=
  ⟨250, 1000, 3, 1, 0, by decide, by decide⟩

/-- `process::RestartPolicy` of the utilities; the manager only compares it. -/
inductive RestartPolicy where
  | onFailure (maxRestarts : Nat)
  deriving Repr, DecidableEq

/-- `process::Backoff` of the utilities, exponential between two delays; likewise. -/
structure Backoff where
  initial : Nat
  max : Nat
  jitter : Bool
  deriving Repr, DecidableEq

structure InstanceOptions where
  localIpc : Option LocalIpcSettings
  startupTimeout : Nat
  health : HealthPolicy
  restartPolicy : RestartPolicy
  backoff : Backoff
  deriving DecidableEq

def InstanceOptions.default : InstanceOptions :=
  ⟨none, 30000, HealthPolicy.default, .onFailure 5, ⟨1000, 30000, true⟩⟩

structure CoreSpec where
  kind : CoreKind
  binaryPath : FileName
  version : Option String
  features : List String
  deriving DecidableEq

structure InstanceSpec where
  core : CoreSpec
  configPath : FileName
  workingDir : FileName
  pidFile : Option FileName
  options : InstanceOptions
  deriving DecidableEq

/-! ## Instance state -/

inductive HealthState where
  | starting
  | healthy
  | unhealthy
  deriving Repr, DecidableEq

structure HealthStatus where
  state : HealthState
  changedAt : Int
  consecutiveFailures : Nat
  lastError : Option String
  lastSuccessAt : Option Int
  deriving Repr, DecidableEq

def HealthStatus.starting (now : Int) : HealthStatus := ⟨.starting, now, 0, none, none⟩

inductive StopReason where
  | finished
  | user
  | error (message : String)
  deriving Repr, DecidableEq

inductive InstanceState where
  | starting
  | running (pid : Nat)
  | restarting (attempt : Nat)
  | stopping
  | stopped (reason : StopReason)
  deriving Repr, DecidableEq

def InstanceState.isTerminal : InstanceState → Bool
  | .stopped _ => true
  | _ => false

/-- Identity of one OS process start, fresh for every run. -/
abbrev InstanceId := Nat

structure InstanceStatus where
  instanceId : Option InstanceId
  state : InstanceState
  health : Option HealthStatus
  deriving Repr, DecidableEq

def InstanceStatus.initial (now : Int) : InstanceStatus :=
  ⟨none, .starting, some (HealthStatus.starting now)⟩

/-! ## Manager state -/

inductive CoreState where
  | stopped (reason : Option StopReason)
  | starting (epoch : Epoch)
  | running (epoch : Epoch) (pid : Nat)
  | restarting (epoch : Epoch) (attempt : Nat)
  | switching (source : Option Epoch) (target : Epoch)
  | stopping (epoch : Epoch)
  deriving DecidableEq

def CoreState.isStopped : CoreState → Bool
  | .stopped _ => true
  | _ => false

/-- The manager state an instance state stands for in its epoch. -/
def instanceCoreState (epoch : Epoch) : InstanceState → CoreState
  | .starting => .starting epoch
  | .running pid => .running epoch pid
  | .restarting attempt => .restarting epoch attempt
  | .stopping => .stopping epoch
  | .stopped reason => .stopped (some reason)

@[simp] theorem instanceCoreState_isStopped (epoch : Epoch) (state : InstanceState) :
    (instanceCoreState epoch state).isStopped = state.isTerminal := by
  cases state <;> rfl

structure SpecSummary where
  kind : CoreKind
  configPath : FileName
  capabilities : List Feature
  runtimeFeatures : List RuntimeFeature
  deriving DecidableEq

structure RevisionId where
  epoch : Epoch
  generation : Nat
  effectiveHash : String
  deriving DecidableEq

structure ConfigRevision where
  epoch : Epoch
  generation : Nat
  sourceHash : String
  effectiveHash : String
  runtimePath : FileName
  deriving DecidableEq

def ConfigRevision.id (revision : ConfigRevision) : RevisionId :=
  ⟨revision.epoch, revision.generation, revision.effectiveHash⟩

def RevisionId.display (id : RevisionId) : String :=
  "epoch " ++ id.epoch.display ++ " generation " ++ String.ofList (decimal id.generation) ++
    " (" ++ id.effectiveHash ++ ")"

/-- The snapshot on the manager's watch channel. -/
structure CoreStatus where
  instanceId : Option InstanceId
  state : CoreState
  changedAt : Int
  health : Option HealthStatus
  spec : Option SpecSummary
  controller : Option Host
  revision : Option ConfigRevision
  deriving DecidableEq

def CoreStatus.initial (now : Int) : CoreStatus :=
  ⟨none, .stopped none, now, none, none, none, none⟩

/-- A committed configuration as the commit feed carries it. -/
structure EffectiveConfigSnapshot where
  instanceId : InstanceId
  revision : ConfigRevision
  config : Mapping

/-! ## Errors -/

inductive Error where
  | alreadyRunning
  | notStarted
  | configNotFound (path : String)
  | binaryNotFound (path : String)
  | coreVersionProbeFailed (binaryPath detail : String)
  | controllerMissing
  | requiredLocalIpcUnsupported (kind version : String)
  | configCheckFailed (detail : String)
  | invalidConfig (detail : String)
  | invalidManagerOptions (detail : String)
  | invalidHealthPolicy (detail : String)
  | unsafeRuntimeArtifact (path : String)
  | runtimeDirectoryOwned (path : String)
  | stopUnconfirmed (detail : String)
  | managerQuarantined (epoch : Epoch) (reason : String)
  | revisionConflict (expected : RevisionId) (actual : Option RevisionId)
  | applyFailed (detail : String)
  | applyRollbackFailed (apply rollback : String)
  | durabilityUncertain (source : Error) (warning : String)
  | startupTimeout (stderrTail : String)
  | startupFailed (stderrTail : String)
  | process (detail : String)
  | api (detail : String)
  | yaml (detail : String)
  | io (detail : String)
  deriving DecidableEq

namespace Error

/-- `{:?}` of the revision a conflict reports as the actual one. -/
def debugRevision : Option RevisionId → String
  | none => "None"
  | some id =>
      "Some(RevisionId \x7b epoch: Epoch(" ++ id.epoch.display ++ "), generation: " ++
        String.ofList (decimal id.generation) ++ ", effective_hash: \"" ++ id.effectiveHash ++
        "\" \x7d)"

/-- The text of the source's `Display`. -/
def display : Error → String
  | alreadyRunning => "core is already running"
  | notStarted => "core is not running"
  | configNotFound path => "config file not found: " ++ path
  | binaryNotFound path => "core binary not found: " ++ path
  | coreVersionProbeFailed binaryPath detail =>
      "failed to probe version from core binary `" ++ binaryPath ++ "`: " ++ detail
  | controllerMissing => "no external controller configured; the version health probe needs one"
  | requiredLocalIpcUnsupported kind version =>
      "core `" ++ kind ++ "` version `" ++ version ++
        "` does not support the required local IPC transport; use LocalIpcPolicy::Prefer or " ++
        "LocalIpcPolicy::Disable"
  | configCheckFailed detail => "config check failed: " ++ detail
  | invalidConfig detail => "invalid runtime config: " ++ detail
  | invalidManagerOptions detail => "invalid manager options: " ++ detail
  | invalidHealthPolicy detail => "invalid health policy: " ++ detail
  | unsafeRuntimeArtifact path => "unsafe runtime artifact: " ++ path
  | runtimeDirectoryOwned path =>
      "runtime directory is already owned by another manager: " ++ path
  | stopUnconfirmed detail => "core process death could not be confirmed: " ++ detail
  | managerQuarantined epoch reason =>
      "manager is quarantined by uncertain epoch " ++ epoch.display ++ ": " ++ reason
  | revisionConflict expected actual =>
      "config revision conflict: expected " ++ expected.display ++ ", actual " ++
        debugRevision actual
  | applyFailed detail => "config apply failed: " ++ detail
  | applyRollbackFailed apply rollback =>
      "config apply failed (" ++ apply ++ "); rollback also failed (" ++ rollback ++ ")"
  | durabilityUncertain source warning =>
      source.display ++ "; runtime durability warning: " ++ warning
  | startupTimeout stderrTail =>
      "core did not become healthy before the startup timeout; diagnostic log tail:\n" ++
        stderrTail
  | startupFailed stderrTail => "core failed to start; diagnostic log tail:\n" ++ stderrTail
  | process detail | api detail | io detail => detail
  | yaml detail => "failed to process config YAML: " ++ detail

def isStopUnconfirmed : Error → Bool
  | stopUnconfirmed _ => true
  | _ => false

/-- Failures that come from outside the orchestrator: the file system, the
    parser, the core binary, the controller.  The remaining errors are the
    orchestrator's own verdicts. -/
def isExternal : Error → Bool
  | alreadyRunning | notStarted | stopUnconfirmed _ | managerQuarantined _ _
  | revisionConflict _ _ | applyFailed _ | applyRollbackFailed _ _
  | durabilityUncertain _ _ => false
  | _ => true

end Error

/-- A failure the environment may report. -/
structure ExternalError where
  error : Error
  external : error.isExternal = true

theorem ExternalError.not_stopUnconfirmed (failure : ExternalError) :
    failure.error.isStopUnconfirmed = false := by
  obtain ⟨error, external⟩ := failure
  cases error with
  | stopUnconfirmed detail => exact absurd external Bool.false_ne_true
  | _ => rfl

end Nyanpasu
