import Nyanpasu.Manager.Apply

/-! # The manager's operations and its runs

The eight operations of `CoreManager`, its construction over a directory, and
what a run is: a construction followed by operations, each to completion, with
the environment free to move at any time.
-/

namespace Nyanpasu

open Naming Store

/-! ## The operations -/

def start (spec : InstanceSpec) : Manager (Except Error Unit) := do
  match ← rejectQuarantine with
  | .error error => return .error error
  | .ok () =>
  match ← isRunning with
  | true => return .error .alreadyRunning
  | false =>
  match ← discardStale with
  | .error error => return .error error
  | .ok () => startLocked spec

/-- Stop a process that left the slot, and clean up after a proven death.
    `report` is what happens to a failure other than an unconfirmed stop. -/
def stopTaken (active : Active) (report : Error → Manager Unit) (stopped : Except Error Unit) :
    Manager (Except Error Unit) := do
  let epoch := active.plan.revision.epoch
  match ← stopAndConfirmDead active.proc with
  | .error error =>
      if error.isStopUnconfirmed then
        let error ← latchQuarantine epoch error
        return .error error
      else
        report error
        return .error error
  | .ok () =>
  match ← cleanupEpoch epoch with
  | .error error =>
      publishTerminalError error
      return .error error
  | .ok () => return stopped

def stop : Manager (Except Error Unit) := do
  dnsRestore
  match (← getCtrl).current with
  | none => return .error .notStarted
  | some active =>
      let captured ← snapshot active.proc
      takeSlot active.proc
      if captured.state.isTerminal then
        publish (instanceCoreState active.plan.revision.epoch captured.state) (some active.plan)
        stopTaken active (fun _ => pure ()) (.error .notStarted)
      else
        publish (.stopping active.plan.revision.epoch) (some active.plan)
        match ← stopTaken active publishTerminalError (.ok ()) with
        | .error error => return .error error
        | .ok () =>
            publish (.stopped (some .user)) none
            return .ok ()

/-- `shutdown` up to the end of the log sink, which no other state depends on. -/
def shutdown : Manager (Except Error Unit) := do
  dnsRestore
  match (← getCtrl).current with
  | none => return .ok ()
  | some active =>
      takeSlot active.proc
      publish (.stopping active.plan.revision.epoch) (some active.plan)
      match ← stopTaken active publishTerminalError (.ok ()) with
      | .error error => return .error error
      | .ok () =>
          publish (.stopped (some .user)) none
          return .ok ()

def restart : Manager (Except Error SwitchOutcome) := do
  match ← rejectQuarantine with
  | .error error => return .error error
  | .ok () =>
  match (← getCtrl).lastSpec with
  | none => return .error .notStarted
  | some spec => switchLocked spec

def switch (spec : InstanceSpec) : Manager (Except Error SwitchOutcome) := do
  match ← rejectQuarantine with
  | .error error => return .error error
  | .ok () => switchLocked spec

def applyConfig (input : InstanceSpec) (expected : Option RevisionId) :
    Manager (Except Error ApplyOutcome) := do
  match ← rejectQuarantine with
  | .error error => return .error error
  | .ok () => applyLocked input expected

def reconcileLocked (spec : InstanceSpec) (expected : Option RevisionId) :
    Manager (Except Error ApplyOutcome) := do
  match ← isRunning with
  | true => applyLocked spec expected
  | false =>
  match expected with
  | some expected => return .error (.revisionConflict expected none)
  | none =>
  match ← discardStale with
  | .error error => return .error error
  | .ok () =>
  match ← startLocked spec with
  | .error error => return .error error
  | .ok () =>
  match (← getCtrl).current with
  | none => Program.abort (.expectFailed "start_locked installed the active runtime")
  | some active => return .ok (.started active.plan.revision)

/-- DNS converges with the transaction, except after a refusal that left the
    previous runtime alive. -/
def reconcile (spec : InstanceSpec) (expected : Option RevisionId) :
    Manager (Except Error ApplyOutcome) := do
  match ← rejectQuarantine with
  | .error error => return .error error
  | .ok () =>
      let result ← reconcileLocked spec expected
      let alive ← isRunning
      if result.isOk || !alive then dnsConverge
      return result

/-! ## Recovery -/

/-- The process a PID record names is dead, so the epoch has no living process. -/
def World.buryEpoch (w : World) (epoch : Epoch) : World :=
  { w with procs := fun p =>
      if (w.procs p).epoch = epoch then { w.procs p with provenDead := true } else w.procs p }

/-- One entry of the loop: reap it unless its death is proven already, then clean
    up and forget it.  The result is the failure text, if any. -/
def recoverEntry (entry : QuarantinedEpoch) : Manager (Option String) := do
  let described := "epoch " ++ entry.epoch.display ++ ": " ++ entry.reason
  match ← reapEntry entry with
  | .error text => return some (described ++ text)
  | .ok () =>
  match ← cleanupEpoch entry.epoch with
  | .ok () =>
      modifyQuarantine fun quarantine => quarantine.filter fun other => other.epoch ≠ entry.epoch
      return none
  | .error error => return some (described ++ "; artifact cleanup failed: " ++ error.display)
where
  /-- The PID record of an epoch names its process; killing it proves the death. -/
  reapEntry (entry : QuarantinedEpoch) : Manager (Except String Unit) := do
    if entry.deathProven then return .ok ()
    else
      match ← ask fun env k => env.reap k with
      | .ok .alreadyExited | .ok .killed =>
          modifyQuarantine (updateEntry entry.epoch fun e => { e with deathProven := true })
          Program.act fun _ w => (.ok (), w.buryEpoch entry.epoch)
      | .ok .notFound => return .error "; authoritative epoch pid record is unavailable"
      | .error failure => return .error ("; recovery failed: " ++ failure.error.display)

def recoverEntries : List QuarantinedEpoch → Manager (List String)
  | [] => return []
  | entry :: rest => do
      let failure ← recoverEntry entry
      let failures ← recoverEntries rest
      return failure.toList ++ failures

def recoverQuarantine : Manager (Except Error Unit) := do
  match (← getCtrl).quarantine with
  | [] => return .ok ()
  | quarantined@(_ :: _) =>
      match ← recoverEntries quarantined with
      | failures@(_ :: _) =>
          match (← getCtrl).quarantine with
          | [] => Program.abort (.expectFailed "a failed recovery leaves its epoch quarantined")
          | first :: _ =>
              return .error (.managerQuarantined first.epoch (String.intercalate " | " failures))
      | [] =>
          mark (.recoveredBesideSlot true) World.slotLive
          mark (.recoveredBesideSlot false) fun w => w.slot.isSome
          publish (.stopped none) none
          dnsRestore
          return .ok ()

/-! ## Construction -/

/-- One number found in the directory: reap its process, remove its files. -/
def sweepArtifact (artifact : Nat) : Manager (Except Error Unit) := do
  match ← tryExists (Artifact.pid artifact).name with
  | .error error => return .error error
  | .ok present =>
  match ← reapOrphan present with
  | .error error => return .error error
  | .ok () =>
  match ← cleanupOwnController artifact with
  | .error error => return .error error
  | .ok () => cleanupArtifacts artifact
where
  reapOrphan (present : Bool) : Manager (Except Error Unit) :=
    ask fun env k =>
      match present, env.reap k with
      | true, .error failure => .error failure.error
      | _, _ => .ok ()
  /-- A zero found in a name is no epoch and has no controller socket. -/
  cleanupOwnController (artifact : Nat) : Manager (Except Error Unit) :=
    match Epoch.new artifact with
    | some epoch => cleanupController epoch.get
    | none => return .ok ()

def sweepArtifacts : List Nat → Manager (Except Error Unit)
  | [] => return .ok ()
  | artifact :: rest => do
      match ← sweepArtifact artifact with
      | .error error => return .error error
      | .ok () => sweepArtifacts rest

/-- `sweep_orphans`: the largest number found seeds the allocator. -/
def sweepOrphans : Manager (Except Error Nat) := do
  match ← artifactEpochs with
  | .error error => return .error error
  | .ok discovered =>
  match ← sweepArtifacts discovered with
  | .error error => return .error error
  | .ok () => return .ok (discovered.foldl max 0)

/-- An override a dead manager left behind is restored and its record cleared. -/
def reconcileOrphanRecord : Manager Unit := do
  let found ← observe (·.dnsFile)
  let dns ← ask fun env _ => env.dns
  match found, dns with
  | some (some _), some dns =>
      match ← callDns .restore dns.restore with
      | .done () =>
          let _ ← writeDnsRecord none
          return ()
      | _ => return ()
  | _, _ => return ()

/-- The stateful part of `build_configured`, once the options are validated and
    the directory lock is held. -/
def build : Manager (Except Error Unit) := do
  match ← sweepOrphans with
  | .error error => return .error error
  | .ok maxEpoch =>
      reconcileOrphanRecord
      setCtrl (Ctrl.new maxEpoch)
      atomic fun env k w => ((), { w with status := CoreStatus.initial (env.now k) })
      return .ok ()

/-! ## Runs -/

inductive Operation where
  | start (spec : InstanceSpec)
  | stop
  | switch (spec : InstanceSpec)
  | restart
  | applyConfig (spec : InstanceSpec) (expected : Option RevisionId)
  | reconcile (spec : InstanceSpec) (expected : Option RevisionId)
  | recoverQuarantine
  | shutdown

/-- What an operation answers, by its kind. -/
inductive Reply where
  | done
  | switched (outcome : SwitchOutcome)
  | applied (outcome : ApplyOutcome)
  deriving DecidableEq

def Operation.run : Operation → Manager (Except Error Reply)
  | .start spec => return (← Nyanpasu.start spec).map fun () => .done
  | .stop => return (← Nyanpasu.stop).map fun () => .done
  | .switch spec => return (← Nyanpasu.switch spec).map .switched
  | .restart => return (← Nyanpasu.restart).map .switched
  | .applyConfig spec expected => return (← Nyanpasu.applyConfig spec expected).map .applied
  | .reconcile spec expected => return (← Nyanpasu.reconcile spec expected).map .applied
  | .recoverQuarantine => return (← Nyanpasu.recoverQuarantine).map fun () => .done
  | .shutdown => return (← Nyanpasu.shutdown).map fun () => .done

/-- The worlds between operations: a manager is built over some directory, the
    environment moves, operations run to completion. -/
inductive Reachable (env : Env) (dir : Dir) : World → Prop where
  | built {dnsFile : RecordFile} {w : World} :
      build env (World.boot dir dnsFile) = .ok (.ok (), w) → Reachable env dir w
  | moved {w : World} : Reachable env dir w → Reachable env dir (w.tick env)
  | operated {w w' : World} {operation : Operation} {reply : Except Error Reply} :
      Reachable env dir w → operation.run env w = .ok (reply, w') → Reachable env dir w'

/-- A whole run as one computation. -/
def execute (env : Env) (dir : Dir) (operations : List Operation) :
    Except Panic (Except Error Unit × List (Except Error Reply) × World) := do
  let (built, w) ← build env (World.boot dir none)
  let (replies, w) ← (operations.mapM Operation.run) env w
  return (built, replies, w)

end Nyanpasu
