import Nyanpasu.Service.Echo

/-! # The status as a client sees it

The wire types of `nyanpasu_ipc` and their projection from the manager's snapshot in
`manager_bridge.rs`.  How an instance id is written out and how the credentials are taken
out of a URL is left to the libraries.
-/

namespace Nyanpasu

open Naming

def StopReason.display : StopReason → String
  | finished => "core exited"
  | user => "stopped by user"
  | error message => message

namespace Wire

inductive CoreState where
  | running
  | stopped (reason : Option String)
  deriving Repr, DecidableEq

inductive CoreControllerInfo where
  | namedPipe (path : String)
  | unixSocket (path : String)
  | http (url : String)
  deriving Repr, DecidableEq

inductive CoreHealthState where
  | starting
  | healthy
  | unhealthy
  deriving Repr, DecidableEq

structure CoreHealthInfo where
  state : CoreHealthState
  changedAt : Int
  consecutiveFailures : Nat
  lastError : Option String
  lastSuccessAt : Option Int
  deriving Repr, DecidableEq

structure ConfigRevisionInfo where
  epoch : Nat
  generation : Nat
  sourceHash : String
  effectiveHash : String
  deriving Repr, DecidableEq

inductive CoreStateDetail where
  | stopped (reason : Option String)
  | starting (epoch : Nat)
  | running (epoch pid : Nat)
  | restarting (epoch attempt : Nat)
  | switching (source : Option Nat) (target : Nat)
  | stopping (epoch : Nat)
  deriving Repr, DecidableEq

structure CoreInfos where
  instanceId : Option String
  type : Option CoreType
  state : CoreState
  stateChangedAt : Int
  configPath : Option FileName
  controller : Option CoreControllerInfo
  health : Option CoreHealthInfo
  revision : Option ConfigRevisionInfo
  detail : Option CoreStateDetail
  deriving Repr, DecidableEq

/-- The frames of the event stream.  A log record is its raw line here. -/
inductive Event where
  | coreStateChanged (state : CoreState)
  | coreStatusChanged (infos : CoreInfos)
  | coreLog (raw : String)
  deriving Repr, DecidableEq

/-- The texts that come from the libraries. -/
structure Format where
  uuid : InstanceId → String
  withoutCredentials : String → String

/-! ## The projection -/

def mapCoreState : Nyanpasu.CoreState → CoreState
  | .running _ _ | .switching _ _ | .stopping _ => .running
  | .starting _ | .restarting _ _ => .stopped none
  | .stopped reason => .stopped (reason.map StopReason.display)

def mapController (format : Format) : Host → Option CoreControllerInfo
  | .namedPipe path => some (.namedPipe path)
  | .unixSocket path => some (.unixSocket path)
  | .http url => some (.http (format.withoutCredentials url))

def mapHealth (health : HealthStatus) : CoreHealthInfo where
  state :=
    match health.state with
    | .starting => .starting
    | .healthy => .healthy
    | .unhealthy => .unhealthy
  changedAt := health.changedAt
  consecutiveFailures := health.consecutiveFailures
  lastError := health.lastError
  lastSuccessAt := health.lastSuccessAt

def mapRevision (revision : ConfigRevision) : ConfigRevisionInfo :=
  ⟨revision.epoch.get, revision.generation, revision.sourceHash, revision.effectiveHash⟩

def mapStateDetail : Nyanpasu.CoreState → Option CoreStateDetail
  | .stopped reason => some (.stopped (reason.map StopReason.display))
  | .starting epoch => some (.starting epoch.get)
  | .running epoch pid => some (.running epoch.get pid)
  | .restarting epoch attempt => some (.restarting epoch.get attempt)
  | .switching source target => some (.switching (source.map Epoch.get) target.get)
  | .stopping epoch => some (.stopping epoch.get)

def sameIpcState : CoreState → CoreState → Bool
  | .running, .running => true
  | .stopped previous, .stopped next => previous == next
  | _, _ => false

def projectCoreInfos (format : Format) (status : CoreStatus) (requestedCore : Option CoreType) :
    CoreInfos where
  instanceId := status.instanceId.map format.uuid
  type := requestedCore
  state := mapCoreState status.state
  stateChangedAt := status.changedAt
  configPath := status.spec.map (·.configPath)
  controller := status.controller.bind (mapController format)
  health := status.health.map mapHealth
  revision := status.revision.map mapRevision
  detail := mapStateDetail status.state

/-! ## What a stream of frames has shown -/

def Event.status : Event → Option CoreInfos
  | coreStatusChanged infos => some infos
  | _ => none

/-- The last status among the frames. -/
def lastStatus (frames : List Event) : Option CoreInfos := (frames.filterMap Event.status).getLast?

theorem lastStatus_append_status (frames : List Event) (infos : CoreInfos) :
    lastStatus (frames ++ [.coreStatusChanged infos]) = some infos := by
  simp [lastStatus, Event.status]

theorem lastStatus_append_other {event : Event} (other : event.status = none)
    (frames : List Event) : lastStatus (frames ++ [event]) = lastStatus frames := by
  simp [lastStatus, other]

end Wire

end Nyanpasu
