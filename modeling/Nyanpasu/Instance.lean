import Nyanpasu.State

/-! # One supervised core process

An instance is a process under supervision together with the monitor task that
turns supervisor events and health observations into its published status.
The status sits on a watch channel: a value with a version that every write
increments.  A forwarder reads that channel with the version it has seen.

The monitor handles whatever arrives.  What can arrive follows the supervisor's own
protocol, which is an assumption about the events (`Instance.supervised`).
-/

namespace Nyanpasu

/-! ## Health tracking -/

/-- The thresholds are positive by their types; the start period is not looked at. -/
def HealthPolicy.new (spec : HealthPolicy) : Except Error HealthPolicy :=
  if spec.interval = 0 then .error (.invalidHealthPolicy "interval must be greater than zero")
  else if spec.timeout = 0 then .error (.invalidHealthPolicy "timeout must be greater than zero")
  else .ok spec

inductive ProbeResult where
  | healthy
  | unhealthy (detail : Option String)
  deriving Repr, DecidableEq

def ProbeResult.isHealthy : ProbeResult → Bool
  | .healthy => true
  | .unhealthy _ => false

inductive ProbePhase where
  | readiness
  | liveness
  | reconcile
  deriving Repr, DecidableEq

structure ProbeObservation where
  runId : Nat
  pid : Nat
  phase : ProbePhase
  completedAt : Nat
  completedAtMs : Int
  result : ProbeResult
  deriving Repr, DecidableEq

structure TrackerUpdate where
  state : HealthState
  transitioned : Bool
  consecutiveFailures : Nat
  lastError : Option String
  deriving Repr, DecidableEq

structure HealthTracker where
  policy : HealthPolicy
  startedAt : Nat
  graceEnded : Bool
  state : HealthState
  consecutiveFailures : Nat
  consecutiveSuccesses : Nat
  lastError : Option String
  deriving DecidableEq

/-- The longest prefix of whole characters that fits the byte budget. -/
def takeBytes : Nat → List Char → List Char
  | _, [] => []
  | budget, c :: cs =>
      if c.utf8Size ≤ budget then c :: takeBytes (budget - c.utf8Size) cs else []

def maxLastErrorBytes : Nat := 512

def capDetail (detail : String) : String :=
  String.ofList (takeBytes maxLastErrorBytes detail.toList)

/-- `u32::saturating_add(1)`. -/
def saturatingSucc (n : Nat) : Nat := if n + 1 < 2 ^ 32 then n + 1 else 2 ^ 32 - 1

/-- On Unix an `Instant` counts its seconds in an `i64`; this is the first millisecond beyond. -/
def instantLimit : Nat := 2 ^ 63 * 1000

namespace HealthTracker

def new (policy : HealthPolicy) (startedAt : Nat) : HealthTracker :=
  ⟨policy, startedAt, false, .starting, 0, 0, none⟩

def observeHealthy (t : HealthTracker) : HealthTracker :=
  if t.state = .healthy then
    { t with
      graceEnded := true, consecutiveFailures := 0, lastError := none, consecutiveSuccesses := 0 }
  else
    let successes := saturatingSucc t.consecutiveSuccesses
    if t.policy.successThreshold ≤ successes then
      { t with
        graceEnded := true, consecutiveFailures := 0, lastError := none,
        state := .healthy, consecutiveSuccesses := 0 }
    else
      { t with
        graceEnded := true, consecutiveFailures := 0, lastError := none,
        consecutiveSuccesses := successes }

def observeUnhealthy (t : HealthTracker) (now : Nat) (detail : Option String) : HealthTracker :=
  let t := { t with consecutiveSuccesses := 0, lastError := detail.map capDetail }
  if !t.graceEnded && decide (now < t.startedAt + t.policy.startPeriod) then t
  else
    let failures := saturatingSucc t.consecutiveFailures
    if t.state ≠ .unhealthy ∧ t.policy.failureThreshold ≤ failures then
      { t with consecutiveFailures := failures, state := .unhealthy }
    else { t with consecutiveFailures := failures }

def advance (t : HealthTracker) (now : Nat) : ProbeResult → HealthTracker
  | .healthy => t.observeHealthy
  | .unhealthy detail => t.observeUnhealthy now detail

/-- A failure before any healthy observation has `started_at + start_period` computed,
    which panics beyond the last instant. -/
def overflows (t : HealthTracker) (result : ProbeResult) : Bool :=
  !result.isHealthy && !t.graceEnded && decide (instantLimit ≤ t.startedAt + t.policy.startPeriod)

/-- Nothing comes back from a panic. -/
def observe (t : HealthTracker) (now : Nat) (result : ProbeResult) :
    Option (TrackerUpdate × HealthTracker) :=
  if t.overflows result then none
  else
    let next := t.advance now result
    some (⟨next.state, t.state ≠ next.state, next.consecutiveFailures, next.lastError⟩, next)

theorem observe_eq_some {t next : HealthTracker} {now : Nat} {result : ProbeResult}
    {update : TrackerUpdate} (observed : t.observe now result = some (update, next)) :
    next = t.advance now result ∧ update.state = next.state := by
  obtain ⟨_, same⟩ := Option.ite_none_left_eq_some.mp observed
  cases same
  exact ⟨rfl, rfl⟩

end HealthTracker

def resetStartingHealth (now : Int) (previous : Option HealthStatus) : HealthStatus :=
  match previous.filter (·.state = .starting) with
  | some status => ⟨.starting, status.changedAt, 0, none, none⟩
  | none => ⟨.starting, now, 0, none, none⟩

def healthStatus (previous : Option HealthStatus) (update : TrackerUpdate)
    (observation : ProbeObservation) : HealthStatus where
  state := update.state
  changedAt := match previous.filter (·.state = update.state) with
    | some status => status.changedAt
    | none => observation.completedAtMs
  consecutiveFailures := update.consecutiveFailures
  lastError := update.lastError
  lastSuccessAt :=
    if observation.result.isHealthy then some observation.completedAtMs
    else previous.bind (·.lastSuccessAt)

/-! ## The monitor -/

structure TerminatedPayload where
  code : Option Int
  signal : Option Int
  deriving Repr, DecidableEq

/-- Where the supervisor's own loop stands, as its events tell.  A start is due at the
    beginning and after every announced restart. -/
inductive SupervisorPhase where
  | startDue
  | alive
  | exited
  | ended
  deriving Repr, DecidableEq

structure RunState where
  runId : Nat
  pid : Nat
  ackAttempted : Bool
  ready : Bool
  tracker : HealthTracker
  deriving DecidableEq

/-- The local variables of `monitor_loop`. -/
structure Monitor where
  everReady : Bool
  timeoutFired : Bool
  probesCancelled : Bool
  nextRunId : Nat
  current : Option RunState
  initialDeadline : Nat
  respawnDeadline : Option Nat
  lastExit : Option TerminatedPayload
  finished : Bool
  deriving DecidableEq

def Monitor.initial (deadline : Nat) : Monitor :=
  ⟨false, false, false, 0, none, deadline, none, none, false⟩

/-- One OS process start under supervision. -/
structure ProcessRun where
  number : Nat
  pid : Nat
  instanceId : InstanceId
  deriving Repr, DecidableEq

/-- The status forwarder of an installed instance: the version it has seen, and
    the value it has taken from the channel but not yet published. -/
structure Forwarder where
  seen : Nat
  holding : Option InstanceStatus
  finished : Bool
  deriving DecidableEq

/-- `runs` and `history` are bookkeeping the source does not keep: the process
    starts so far, and every published value with the run that was the latest
    when it was published. -/
structure Instance where
  epoch : Epoch
  options : InstanceOptions
  controller : ResolvedController
  status : InstanceStatus
  version : Nat
  userStop : Bool
  probeTimeout : Bool
  probeCancel : Bool
  phase : SupervisorPhase
  monitor : Monitor
  forwarder : Option Forwarder
  provenDead : Bool
  runs : List ProcessRun
  history : List (Nat × InstanceStatus)

inductive MonitorEvent where
  | probeCancelled
  | started (pid : Nat) (real : 0 < pid) (instanceId : InstanceId) (now : Nat) (nowMs : Int)
  | restarting (attempt : Nat) (nowMs : Int)
  | exited (payload : TerminatedPayload)
  | gaveUp (diagnostics : String)
  | stopped (diagnostics : String)
  | closed (diagnostics : String)
  | initialDeadline (drained : List (ProbeObservation × Bool))
  | respawnDeadline (drained : List (ProbeObservation × Bool))
  | observation (observation : ProbeObservation) (acknowledged : Bool)

namespace Instance

/-- A supervised process right after its launch. -/
def launched (epoch : Epoch) (options : InstanceOptions) (controller : ResolvedController)
    (now : Nat) (nowMs : Int) : Instance where
  epoch := epoch
  options := options
  controller := controller
  status := InstanceStatus.initial nowMs
  version := 0
  userStop := false
  probeTimeout := false
  probeCancel := false
  phase := .startDue
  monitor := Monitor.initial (now + options.startupTimeout)
  forwarder := none
  provenDead := false
  runs := []
  history := [(0, InstanceStatus.initial nowMs)]

/-- What stands at a process number that has not been handed out. -/
def absent : Instance :=
  { launched ⟨1, Nat.one_pos, Epoch.one_bounded⟩ InstanceOptions.default ⟨.http "", none⟩ 0 0 with
    provenDead := true }

def publishStatus (i : Instance) (status : InstanceStatus) : Instance :=
  { i with
    status := status
    version := i.version + 1
    history := (i.monitor.nextRunId, status) :: i.history }

/-- `Shared::publish`: a terminal or stopping state carries no identity. -/
def publish (i : Instance) (state : InstanceState) : Instance :=
  match state with
  | .stopping | .stopped _ => i.publishStatus ⟨none, state, none⟩
  | _ => i.publishStatus { i.status with state := state }

/-- `{:?}` of the last exit a supervisor reported. -/
def debugExit : Option TerminatedPayload → String
  | none => "None"
  | some payload =>
      "Some(TerminatedPayload \x7b code: " ++ field payload.code ++ ", signal: " ++
        field payload.signal ++ " \x7d)"
where
  field : Option Int → String
    | none => "None"
    | some value => "Some(" ++ toString value ++ ")"

def terminalReason (i : Instance) (diagnostics : String) : StopReason :=
  if i.userStop then .user
  else if i.probeTimeout then .error ("health probe timed out\n" ++ diagnostics)
  else
    match i.monitor.lastExit with
    | some ⟨some 0, _⟩ => .finished
    | _ =>
        .error ("core exited unexpectedly (" ++ debugExit i.monitor.lastExit ++ ")\n" ++
          diagnostics)

/-- Forget the current run: its observations no longer count. -/
def dropRun (i : Instance) : Instance :=
  { i with monitor := { i.monitor with current := none, respawnDeadline := none } }

def beyondDeadline (i : Instance) (observation : ProbeObservation) : Bool :=
  (!i.monitor.everReady && decide (i.monitor.initialDeadline < observation.completedAt)) ||
    i.monitor.respawnDeadline.any fun deadline => decide (deadline < observation.completedAt)

/-- The deadline passed without readiness: the supervisor is told to end. -/
def timeOut (i : Instance) : Instance :=
  { i.dropRun with probeTimeout := true, probeCancel := true }

/-- The monitor's task panicked: its variables are gone, and it sends nothing more. -/
def crashed (i : Instance) : Instance :=
  { i.dropRun with monitor := { i.dropRun.monitor with finished := true } }

/-- What the supervisor sends: a start when one is due, an exit after a start or a failed
    one, a restart or its giving up after an exit; and fewer than `2 ^ 64` starts. -/
def supervised (i : Instance) : MonitorEvent → Bool
  | .started .. => decide (i.phase = .startDue) && decide (i.monitor.nextRunId + 1 < 2 ^ 64)
  | .restarting .. | .gaveUp _ => decide (i.phase = .exited)
  | .exited _ => decide (i.phase = .startDue) || decide (i.phase = .alive)
  | _ => true

/-- What `stop_and_confirm_dead` does to the instance before it waits. -/
def beginStop (i : Instance) : Instance :=
  if i.status.state.isTerminal then i
  else { i with userStop := true, probeCancel := true }.publish .stopping

end Instance

end Nyanpasu
