import Nyanpasu.Manager.Publish

/-! # Quarantine, launch, stop and host DNS

The parts of `manager/mod.rs`, `manager/quarantine.rs` and `manager/dns_sync.rs`
every operation is assembled from.
-/

namespace Nyanpasu

open Naming Store

/-! ## Quarantine -/

def quarantineError (quarantine : List QuarantinedEpoch) : Option Error :=
  match quarantine with
  | [] => none
  | [first] => some (.managerQuarantined first.epoch first.reason)
  | first :: _ =>
      let epochs := String.intercalate ", " (quarantine.map (·.epoch.display))
      some (.managerQuarantined first.epoch
        (first.reason ++ "; additional uncertain epochs: " ++ epochs))

/-- Change the first entry of an epoch. -/
def updateEntry (epoch : Epoch) (f : QuarantinedEpoch → QuarantinedEpoch) :
    List QuarantinedEpoch → List QuarantinedEpoch
  | [] => []
  | entry :: rest =>
      if entry.epoch = epoch then f entry :: rest else entry :: updateEntry epoch f rest

def recordQuarantine (quarantine : List QuarantinedEpoch) (epoch : Epoch) (reason : String) :
    List QuarantinedEpoch :=
  if quarantine.any (·.epoch = epoch) then
    updateEntry epoch (fun entry => { entry with reason := reason }) quarantine
  else quarantine ++ [⟨epoch, reason, false⟩]

def modifyQuarantine (f : List QuarantinedEpoch → List QuarantinedEpoch) : Manager Unit := do
  let ctrl ← getCtrl
  setCtrl { ctrl with quarantine := f ctrl.quarantine }

def rejectQuarantine : Manager (Except Error Unit) := do
  match quarantineError (← getCtrl).quarantine with
  | some error => return .error error
  | none => return .ok ()

/-- The uncertain epoch is recorded and the stop is published; the error that
    made it uncertain goes to the caller. -/
def latchQuarantine (epoch : Epoch) (error : Error) : Manager Error := do
  modifyQuarantine fun quarantine => recordQuarantine quarantine epoch error.display
  match quarantineError (← getCtrl).quarantine with
  | none => Program.abort (.expectFailed "quarantine was just inserted")
  | some quarantine =>
      publishTerminalError quarantine
      return error

/-! ## Cleanup -/

/-- The socket of an epoch in a separate controller directory. -/
def cleanupController (discovered : Nat) : Manager (Except Error Unit) := do
  match ← ask fun env _ => env.controllerDir with
  | false => return .ok ()
  | true =>
      match ← fileOp fun dir => .ok ((), dir) with
      | .error error =>
          markCutShort discovered
          return .error error
      | .ok () => return .ok ()

def cleanupEpoch (epoch : Epoch) : Manager (Except Error Unit) := do
  match ← cleanupController epoch.get with
  | .error error => return .error error
  | .ok () => cleanupArtifacts epoch.get

/-! ## Processes -/

def allocateEpoch : Manager Epoch := do
  let ctrl ← getCtrl
  match ctrl.epochs.next with
  | none => Program.abort .epochSpaceExhausted
  | some (epoch, epochs) =>
      Program.act fun _ w =>
        (epoch, { w with
          ctrl := { w.ctrl with epochs := epochs }
          allocated := (epoch, w.dir) :: w.allocated })

/-- `RuntimeBackend::launch`: a failed launch leaves no process. -/
def spawnInstance (plan : EpochPlan) : Manager (Except Error Nat) :=
  atomic fun env k w =>
    match env.launch k with
    | some failure => (.error failure.error, w)
    | none =>
        (.ok w.procCount, w.launch (Instance.launched plan.revision.epoch
          plan.effectiveSpec.options plan.controller (env.instant k) (env.now k)))

/-- `Instance::wait_ready`.  The last case is the closed watch channel. -/
def waitReady (p : Nat) : Manager (Except Error Unit) :=
  atomic fun env k w =>
    let failure := env.failureSummary k
    match (w.procs p).status.state with
    | .running _ => (.ok (), w)
    | .stopped _ =>
        if (w.procs p).probeTimeout then (.error (.startupTimeout failure), w)
        else (.error (.startupFailed failure), w)
    | _ => (.error (.startupFailed failure), w)

/-- `stop_and_confirm_dead`: success proves the death, and the only failure is an
    unconfirmed stop. -/
def stopAndConfirmDead (p : Nat) : Manager (Except Error Unit) :=
  atomic fun env k w =>
    match env.stop k with
    | some detail => (.error (.stopUnconfirmed detail), w.updateProc p Instance.beginStop)
    | none => (.ok (), w.updateProc p fun i => { i.beginStop with provenDead := true })

/-- The epoch enters the slot with a fresh forwarder, which has seen nothing. -/
def install (p : Nat) (plan : EpochPlan) : Manager Active :=
  atomic fun _ _ w =>
    (⟨p, plan⟩, { w.updateProc p fun i => { i with forwarder := some ⟨0, none, false⟩ } with
      ctrl := { w.ctrl with lastSpec := some plan.sourceSpec, current := some ⟨p, plan⟩ }
      installs := plan.revision :: w.installs
      adopted := plan.configuration :: w.adopted })

/-- The slot is emptied and its forwarder silenced: a value already taken from
    the channel still goes out, a pending one does not. -/
def takeSlot (p : Nat) : Manager Unit :=
  atomic fun env k w =>
    ((), { (w.deliver p (env.now k)).updateProc p fun i => { i with forwarder := none } with
      ctrl := { w.ctrl with current := none } })

structure RetireFailure where
  epoch : Epoch
  error : Error

def retireCurrent : Manager (Except RetireFailure (Option EpochPlan)) := do
  match (← getCtrl).current with
  | none => return .ok none
  | some active =>
      takeSlot active.proc
      match ← stopAndConfirmDead active.proc with
      | .error error => return .error ⟨active.plan.revision.epoch, error⟩
      | .ok () => return .ok (some active.plan)

/-- The slot is occupied by an instance that has not ended. -/
def isRunning : Manager Bool := observe World.slotLive

/-- Retire a terminal epoch and remove its artifacts before the slot is reused. -/
def discardStale : Manager (Except Error Unit) := do
  match ← retireCurrent with
  | .ok none => return .ok ()
  | .ok (some plan) =>
      match ← cleanupEpoch plan.revision.epoch with
      | .ok () => return .ok ()
      | .error error =>
          mark .stopUnpublished fun w => !w.status.state.isStopped
          return .error error
  | .error failure =>
      if failure.error.isStopUnconfirmed then
        let error ← latchQuarantine failure.epoch failure.error
        return .error error
      else return .error failure.error

/-! ## Host DNS -/

/-- The record file: staged, then published under its final name; or removed. -/
def writeDnsRecord : Option DnsOverrideRecord → Manager (Except Error Unit)
  | some entry => do
      match ← fileOp fun dir => .ok ((), dir) with
      | .error error => return .error error
      | .ok () =>
          atomic fun env k w =>
            match env.fault k with
            | some failure => (.error failure.error, w)
            | none => (.ok (), { w with dnsFile := some (some entry) })
  | none =>
      atomic fun env k w =>
        match env.removeFault k with
        | some failure => (.error failure.error, w)
        | none => (.ok (), { w with dnsFile := none })

/-- The record in memory follows once the file is visible, synced or not. -/
def persistDnsRecord (record : Option DnsOverrideRecord) : Manager (Except Error Unit) := do
  match ← writeDnsRecord record with
  | .error error => return .error error
  | .ok () =>
      let _ ← syncDir
      let ctrl ← getCtrl
      setCtrl { ctrl with dnsRecord := record }
      return .ok ()

def callDns {α : Type} (call : Bounded α → DnsCall) (answer : Nat → Bounded α) :
    Manager (Bounded α) :=
  atomic fun _ k w => (answer k, { w with dnsCalls := call (answer k) :: w.dnsCalls })

def dnsRestore : Manager Unit := do
  match ← ask fun env _ => env.dns, (← getCtrl).dnsRecord with
  | some dns, some record =>
      let _ ← persistDnsRecord (some { record with state := .restorePending })
      match ← callDns .restore dns.restore with
      | .done () =>
          let _ ← persistDnsRecord none
          return ()
      | _ => return ()
  | _, _ => return ()

/-- The override wanted while the slot's instance runs. -/
def dnsDesired (dns : DnsController) : Manager (Option (DnsIntent × Epoch)) :=
  observe fun w =>
    w.ctrl.current.bind fun active =>
      if (w.procs active.proc).status.state.isTerminal then none
      else (dns.desired active.plan.effectiveDocument).map fun intent =>
        (intent, (w.procs active.proc).epoch)

def dnsApply (dns : DnsController) (intent : DnsIntent) (epoch : Epoch) : Manager Unit := do
  let baseline := (← getCtrl).dnsRecord.filter (·.interface ≠ "")
  let preRecord : DnsOverrideRecord :=
    { interface := (baseline.map (·.interface)).getD ""
      previous := (baseline.map (·.previous)).getD []
      applied := intent.servers
      runtimeEpoch := epoch.get
      ownerGeneration := none
      state := .applied }
  match ← persistDnsRecord (some preRecord) with
  | .error _ => return ()
  | .ok () =>
  match ← callDns (fun _ => .apply) dns.apply with
  | .done record =>
      match baseline with
      | none =>
          let _ ← persistDnsRecord (some record)
          return ()
      | some base =>
          if record.interface ≠ base.interface then return ()
          else
            let _ ← persistDnsRecord (some { record with previous := base.previous })
            return ()
  | _ => return ()

def dnsConverge : Manager Unit := do
  match ← ask fun env _ => env.dns with
  | none => return ()
  | some dns =>
      match ← dnsDesired dns with
      | none => dnsRestore
      | some (intent, epoch) => dnsApply dns intent epoch

end Nyanpasu
