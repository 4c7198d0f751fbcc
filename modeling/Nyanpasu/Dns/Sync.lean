import Nyanpasu.Script
import Nyanpasu.World

/-! # The synchronisation of host DNS, command by command

`manager/dns_sync.rs` with a controller injected, as scripts over its single file
operations and host calls, and the lives of managers over one runtime directory: a
construction, operations, and a crash at any point.
-/

namespace Nyanpasu

namespace Dns

/-- The last two fields are seen by nobody: whether an override of this manager may be in
    place on the host, and the first interface and servers that a record named since the
    last successful restore. -/
structure State where
  file : RecordFile
  record : Option DnsOverrideRecord
  override : Bool
  promised : Option (String × List String)
  deriving DecidableEq

/-- The record on disk. -/
def State.onDisk (s : State) : Option DnsOverrideRecord := s.file.join

/-- `stage` is everything before the record is published under its name. -/
inductive Command : Type → Type where
  | read : Command RecordFile
  | stage : Command Bool
  | publish (entry : DnsOverrideRecord) : Command Bool
  | remove : Command Bool
  | syncDir : Command Bool
  | record : Command (Option DnsOverrideRecord)
  | setRecord (record : Option DnsOverrideRecord) : Command Unit
  | desired : Command (Option (DnsIntent × Epoch))
  | apply (intent : DnsIntent) (epoch : Epoch) : Command (Bounded DnsOverrideRecord)
  | restore (record : DnsOverrideRecord) : Command (Bounded Unit)

abbrev Sync := Script Command

open Script (perform)

/-! ## The functions of the source -/

def writeDnsRecord : Option DnsOverrideRecord → Sync Bool
  | some entry => do
      if ← perform .stage then perform (.publish entry) else return false
  | none => perform .remove

/-- The record in memory follows once the file is visible, synced or not. -/
def persistDnsRecord (record : Option DnsOverrideRecord) : Sync Bool := do
  if ← writeDnsRecord record then
    let _ ← perform .syncDir
    perform (.setRecord record)
    return true
  else return false

def dnsRestore : Sync Unit := do
  match ← perform .record with
  | none => return ()
  | some record =>
      let _ ← persistDnsRecord (some { record with state := .restorePending })
      match ← perform (.restore record) with
      | .done () =>
          let _ ← persistDnsRecord none
          return ()
      | .failed | .elapsed => return ()

def preRecord (baseline : Option DnsOverrideRecord) (intent : DnsIntent) (epoch : Epoch) :
    DnsOverrideRecord where
  interface := (baseline.map (·.interface)).getD ""
  previous := (baseline.map (·.previous)).getD []
  applied := intent.servers
  runtimeEpoch := epoch.get
  ownerGeneration := none
  state := .applied

/-- The read-back of an apply: the baseline recorded first stays the one to restore. -/
def keepReadBack (baseline : Option DnsOverrideRecord) (record : DnsOverrideRecord) :
    Sync Unit := do
  match baseline with
  | none =>
      let _ ← persistDnsRecord (some record)
      return ()
  | some base =>
      if record.interface ≠ base.interface then return ()
      else
        let _ ← persistDnsRecord (some { record with previous := base.previous })
        return ()

def dnsApply (intent : DnsIntent) (epoch : Epoch) : Sync Unit := do
  let baseline := (← perform .record).filter (·.interface ≠ "")
  if ← persistDnsRecord (some (preRecord baseline intent epoch)) then
    match ← perform (.apply intent epoch) with
    | .done record => keepReadBack baseline record
    | .failed | .elapsed => return ()
  else return ()

def dnsConverge : Sync Unit := do
  match ← perform .desired with
  | none => dnsRestore
  | some (intent, epoch) => dnsApply intent epoch

/-- An unreadable file and one that does not parse are both left alone. -/
def reconcileOrphanRecord : Sync Unit := do
  match ← perform .read with
  | some (some record) =>
      match ← perform (.restore record) with
      | .done () =>
          let _ ← perform .remove
          return ()
      | .failed | .elapsed => return ()
  | some none | none => return ()

/-! ## What the commands do -/

/-- The interface and servers that a published record promises to restore. -/
def promise (promised : Option (String × List String)) (entry : DnsOverrideRecord) :
    Option (String × List String) :=
  promised.or (if entry.interface ≠ "" then some (entry.interface, entry.previous) else none)

/-- `faulty` says whether operations on the record file may fail.  Publishing is all or
    nothing.  An apply may have taken effect whatever it answers; a restore has taken
    effect if it says so. -/
def Effects (faulty : Prop) : Script.Effect Command State
  | _, .read, s, answer, s' => s' = s ∧ (answer = s.file ∨ faulty ∧ answer = none)
  | _, .stage, s, answer, s' => s' = s ∧ (answer = true ∨ faulty)
  | _, .publish entry, s, answer, s' =>
      answer = true ∧
          s' = { s with file := some (some entry), promised := promise s.promised entry } ∨
        faulty ∧ answer = false ∧ s' = s
  | _, .remove, s, answer, s' =>
      answer = true ∧ s' = { s with file := none } ∨ faulty ∧ answer = false ∧ s' = s
  | _, .syncDir, s, _, s' => s' = s
  | _, .record, s, answer, s' => answer = s.record ∧ s' = s
  | _, .setRecord record, s, _, s' => s' = { s with record := record }
  | _, .desired, s, _, s' => s' = s
  | _, .apply _ _, s, _, s' => s' = { s with override := true }
  | _, .restore _, s, .done _, s' => s' = { s with override := false, promised := none }
  | _, .restore _, s, _, s' => s' = s

/-! ## The lives of managers over one directory -/

inductive Phase : Type 1 where
  | down
  | building (script : Sync Unit)
  | idle
  | operating (script : Sync Unit)

structure Life : Type 1 where
  phase : Phase
  state : State

/-- `stop`, `shutdown` and `recover_quarantine` restore, `reconcile` converges; what else
    they do touches nothing here.  A crash takes what is in memory. -/
inductive Step (faulty : Prop) : Life → Life → Prop where
  | construct {s : State} : Step faulty ⟨.down, s⟩ ⟨.building reconcileOrphanRecord, s⟩
  | build {script script' : Sync Unit} {s s' : State} :
      Script.Advances (Effects faulty) script s script' s' →
      Step faulty ⟨.building script, s⟩ ⟨.building script', s'⟩
  | built {s : State} : Step faulty ⟨.building (.ret ()), s⟩ ⟨.idle, s⟩
  | restore {s : State} : Step faulty ⟨.idle, s⟩ ⟨.operating dnsRestore, s⟩
  | converge {s : State} : Step faulty ⟨.idle, s⟩ ⟨.operating dnsConverge, s⟩
  | operate {script script' : Sync Unit} {s s' : State} :
      Script.Advances (Effects faulty) script s script' s' →
      Step faulty ⟨.operating script, s⟩ ⟨.operating script', s'⟩
  | finish {s : State} : Step faulty ⟨.operating (.ret ()), s⟩ ⟨.idle, s⟩
  | crash {phase : Phase} {s : State} :
      Step faulty ⟨phase, s⟩ ⟨.down, { s with record := none }⟩

/-- Before the first manager: any file, and no override. -/
def State.start (file : RecordFile) : State where
  file := file
  record := none
  override := false
  promised := file.join.bind (promise none)

/-- A state that shows the record file, the record in memory, and whether the calls may
    have left an override. -/
structure Views (file : RecordFile) (record : Option DnsOverrideRecord) (calls : List DnsCall)
    (s : State) : Prop where
  file : s.file = file
  record : s.record = record
  override : s.override = overriding calls

/-- With a controller injected, some life of managers is between two operations and
    shows this. -/
def Lived (env : Env) (file : RecordFile) (record : Option DnsOverrideRecord)
    (calls : List DnsCall) : Prop :=
  ∀ dns, env.dns = some dns → ∃ origin s,
    Relation.ReflTransGen (Step True) ⟨.down, .start origin⟩ ⟨.idle, s⟩ ∧ Views file record calls s

end Dns

end Nyanpasu
