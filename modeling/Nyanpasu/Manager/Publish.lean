import Nyanpasu.Store

/-! # Publication of the manager's status

`manager/publish.rs`.  An operation publishes either a state of its own, with
the plan it speaks for, or the state of an instance: then the pid it read
before, the snapshot of the instance, and the send are three separate steps, and
the instance may move between them.
-/

namespace Nyanpasu

open Naming

def specSummary (plan : EpochPlan) : SpecSummary where
  kind := plan.sourceSpec.core.kind
  configPath := plan.sourceSpec.configPath
  capabilities := plan.capabilities
  runtimeFeatures := plan.runtimeFeatures

/-- Health of the wanted kind, keeping what the previous one of that kind said. -/
def keepHealth (now : Int) (previous : Option HealthStatus) (target : HealthState) :
    HealthStatus :=
  match previous.filter (·.state = target) with
  | some previous =>
      ⟨target, previous.changedAt, previous.consecutiveFailures, previous.lastError,
        previous.lastSuccessAt⟩
  | none => { HealthStatus.starting now with state := target }

def defaultHealthForState (now : Int) (previous : Option HealthStatus) :
    CoreState → Option HealthStatus
  | .starting _ | .restarting _ _ | .switching _ _ => some (keepHealth now previous .starting)
  | .running _ _ => some (keepHealth now previous .healthy)
  | .stopping _ | .stopped _ => none

/-- `changed_at` moves only when the lifecycle state does. -/
def changedAt (now : Int) (status : CoreStatus) (state : CoreState) : Int :=
  if status.state ≠ state then now else status.changedAt

/-- Publish a state of the operation itself; without a plan no epoch is behind it. -/
def publish (state : CoreState) (plan : Option EpochPlan) : Manager Unit :=
  atomic fun env k w =>
    ((), w.send
      { instanceId := none
        state := state
        changedAt := changedAt (env.now k) w.status state
        health := defaultHealthForState (env.now k) w.status.health state
        spec := plan.map specSummary
        controller := plan.map (·.controller.host)
        revision := plan.map (·.revision) })

/-- The value on the instance's watch channel. -/
def snapshot (p : Nat) : Manager InstanceStatus := observe fun w => (w.procs p).status

def commitConfig (snapshot : EffectiveConfigSnapshot) : Manager Unit :=
  update fun w => { w with commits := some snapshot, feed := snapshot :: w.feed }

/-- A running state whose pid is not the one of the snapshot it goes out with. -/
def splits (state : CoreState) (snapshot : InstanceStatus) : Bool :=
  match state with
  | .running _ pid => snapshot.state ≠ .running pid
  | _ => false

/-- The slot's forwarder has nothing left to say, and the state about to be
    published is not the instance's. -/
def isStale (w : World) (p : Nat) (state : CoreState) : Bool :=
  w.ctrl.current.any (·.proc = p) && w.caughtUp p &&
    instanceCoreState (w.procs p).epoch (w.procs p).status.state ≠ state

/-- A running state commits the configuration under the identity it goes out with;
    without an identity nothing is committed. -/
def commitRunning (state : CoreState) (snapshot : InstanceStatus) (plan : EpochPlan) :
    Manager Unit :=
  match state, snapshot.instanceId with
  | .running _ _, some instanceId =>
      commitConfig ⟨instanceId, plan.revision, plan.effectiveDocument⟩
  | .running _ _, none =>
      mark .uncommitted fun w => w.commits.map (·.revision) ≠ some plan.revision
  | _, _ => return ()

def sendInstance (p : Nat) (state : CoreState) (snapshot : InstanceStatus) (plan : EpochPlan) :
    Manager Unit :=
  atomic fun env k w =>
    ((), (w.markIf .staleState (isStale w p state)).send
      { instanceId := snapshot.instanceId
        state := state
        changedAt := changedAt (env.now k) w.status state
        health := snapshot.health
        spec := some (specSummary plan)
        controller := some (w.procs p).controller.host
        revision := some plan.revision })

def publishInstance (p : Nat) (state : CoreState) (plan : EpochPlan) : Manager Unit := do
  let snapshot ← snapshot p
  mark .splitSnapshot fun _ => splits state snapshot
  commitRunning state snapshot plan
  sendInstance p state snapshot plan

def publishActive (active : Active) (state : CoreState) : Manager Unit :=
  publishInstance active.proc state active.plan

def publishTerminalError (error : Error) : Manager Unit :=
  publish (.stopped (some (.error error.display))) none

/-- Show the instance that stayed in the slot again. -/
def republishRetained : Manager Unit := do
  match (← getCtrl).current with
  | none => return ()
  | some active =>
      let state ← observe fun w =>
        instanceCoreState (w.procs active.proc).epoch (w.procs active.proc).status.state
      publishActive active state

/-- `instance.pid().unwrap_or_default()`. -/
def pidOrDefault (p : Nat) : Manager Nat :=
  observe fun w =>
    match (w.procs p).status.state with
    | .running pid => pid
    | _ => 0

end Nyanpasu
