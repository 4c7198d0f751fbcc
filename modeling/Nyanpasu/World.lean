import Nyanpasu.Monitor.Turn
import Nyanpasu.Program

/-! # The orchestrator's world and its environment

`World` is everything the orchestrator can change: the control block behind its
lock, the runtime directory, the processes it launched, the published status.
`Env` supplies every answer that comes from outside.  Answers are indexed by a
clock that each atomic step advances, so an environment fixes one outcome for
every call of a run and a statement about all environments is a statement about
every choice of outcomes.

Before each atomic step the environment may interfere: monitors advance,
forwarders take and publish values, running cores write their PID record and
socket.  Nothing else runs concurrently with an operation, because operations
hold the control lock from start to end.
-/

namespace Nyanpasu

open Naming

/-! ## The runtime directory -/

/-- A directory lists its files with their contents, at most one per name. -/
abbrev Dir := List (FileName × Bytes)

namespace Dir

def get (dir : Dir) (name : FileName) : Option Bytes := dir.lookup name

def erase (dir : Dir) (name : FileName) : Dir := dir.filter fun file => file.1 ≠ name

def write (dir : Dir) (name : FileName) (contents : Bytes) : Dir :=
  (name, contents) :: dir.erase name

/-- Remove every file whose name is selected. -/
def sweep (dir : Dir) (selected : FileName → Bool) : Dir :=
  dir.filter fun file => !selected file.1

@[simp] theorem get_nil (name : FileName) : get [] name = none := rfl

theorem get_filter (dir : Dir) (keep : FileName → Bool) (name : FileName) :
    get (dir.filter fun file => keep file.1) name = if keep name then dir.get name else none := by
  induction dir with
  | nil => simp
  | cons file dir ih =>
      obtain ⟨other, contents⟩ := file
      simp only [List.filter_cons, get, List.lookup_cons] at ih ⊢
      by_cases same : name = other
      · subst same
        by_cases kept : keep name <;> simp [kept] at ih ⊢
        exact ih
      · have differs : (name == other) = false := by simpa using same
        by_cases kept : keep other <;> simp [kept, List.lookup_cons, differs, ih]

theorem mem_of_get {dir : Dir} {name : FileName} {contents : Bytes}
    (found : dir.get name = some contents) : (name, contents) ∈ dir := by
  obtain ⟨before, after, split, _⟩ := List.lookup_eq_some_iff.mp found
  exact split ▸ List.mem_append_right before List.mem_cons_self

theorem get_erase (dir : Dir) (name other : FileName) :
    (dir.erase name).get other = if other = name then none else dir.get other := by
  rw [erase, get_filter dir (fun file => decide (file ≠ name)) other]
  by_cases same : other = name <;> simp [same]

theorem get_write (dir : Dir) (name other : FileName) (contents : Bytes) :
    (dir.write name contents).get other = if other = name then some contents else dir.get other := by
  have rest := get_erase dir name other
  unfold get at rest ⊢
  rw [write, List.lookup_cons]
  by_cases same : other = name
  · simp [same]
  · have differs : (other == name) = false := by simpa using same
    simp [differs, rest, same]

theorem get_sweep (dir : Dir) (selected : FileName → Bool) (name : FileName) :
    (dir.sweep selected).get name = if selected name then none else dir.get name := by
  rw [sweep, get_filter dir (fun file => !selected file) name]
  cases selected name <;> rfl

end Dir

/-! ## The control block -/

inductive DnsOverrideState where
  | applied
  | restorePending
  deriving Repr, DecidableEq

structure DnsIntent where
  servers : List String
  deriving Repr, DecidableEq

structure DnsOverrideRecord where
  interface : String
  previous : List String
  applied : List String
  runtimeEpoch : Nat
  ownerGeneration : Option Nat
  state : DnsOverrideState
  deriving Repr, DecidableEq

/-- The record file: absent, no record that parses, or a record. -/
abbrev RecordFile := Option (Option DnsOverrideRecord)

/-- Everything the manager knows about one epoch besides the live process. -/
structure EpochPlan where
  sourceSpec : InstanceSpec
  effectiveSpec : InstanceSpec
  controller : ResolvedController
  revision : ConfigRevision
  capabilities : List Feature
  runtimeFeatures : List RuntimeFeature
  sourceDocument : Mapping
  effectiveDocument : Mapping

/-- A revision and its full document. -/
abbrev Configuration := ConfigRevision × Mapping

def EpochPlan.configuration (plan : EpochPlan) : Configuration :=
  (plan.revision, plan.effectiveDocument)

def EffectiveConfigSnapshot.configuration (snapshot : EffectiveConfigSnapshot) : Configuration :=
  (snapshot.revision, snapshot.config)

/-- The slot's occupant: a launched process, by its number, and its plan. -/
structure Active where
  proc : Nat
  plan : EpochPlan

structure QuarantinedEpoch where
  epoch : Epoch
  reason : String
  deathProven : Bool

structure EpochAllocator where
  last : Nat

/-- The next epoch, or nothing once all 64-bit numbers are used up. -/
def EpochAllocator.next (allocator : EpochAllocator) : Option (Epoch × EpochAllocator) :=
  if bounded : allocator.last + 1 < 2 ^ 64 then
    some (⟨allocator.last + 1, by omega, bounded⟩, ⟨allocator.last + 1⟩)
  else none

structure Ctrl where
  epochs : EpochAllocator
  current : Option Active
  lastSpec : Option InstanceSpec
  quarantine : List QuarantinedEpoch
  dnsRecord : Option DnsOverrideRecord

def Ctrl.new (maxEpoch : Nat) : Ctrl := ⟨⟨maxEpoch⟩, none, none, [], none⟩

/-! ## What the environment decides -/

structure ClassificationView where
  source : Mapping
  effective : Mapping
  spec : InstanceSpec

def EpochPlan.classificationView (plan : EpochPlan) : ClassificationView :=
  ⟨plan.sourceDocument, plan.effectiveDocument, plan.sourceSpec⟩

/-- The rules that know YAML keys, as far as the orchestrator consults them.
    `effective` is the document a launch writes (with the inbounds zeroed for a
    bootstrap) and the controller it resolves to. -/
structure ConfigPipeline where
  serialize : Mapping → Except ExternalError Bytes
  effective : Mapping → Epoch → List RuntimeFeature → LocalIpcSettings → Bool →
    Except ExternalError (Mapping × ResolvedController)
  restorationPatch : Mapping → Mapping → Except ExternalError (Option (Mapping × Mapping))
  overlapBlock : Mapping → Option OverlapBlock
  classify : ClassificationView → ClassificationView → Except ExternalError ConfigChange

structure ResolvedFeatures where
  capabilities : List Feature
  runtime : List RuntimeFeature
  version : Option String

inductive OrphanReapOutcome where
  | notFound
  | alreadyExited
  | killed
  deriving Repr, DecidableEq

/-- The answer to a call under a timeout. -/
inductive Bounded (α : Type) where
  | elapsed
  | failed
  | done (value : α)

structure DnsController where
  desired : Mapping → Option DnsIntent
  apply : Nat → Bounded DnsOverrideRecord
  restore : Nat → Bounded Unit

inductive DnsCall where
  | apply
  | restore (answer : Bounded Unit)

/-- An override may be in place: after an apply, whatever it answered, until a restore is
    done.  The newest call comes first. -/
def overriding : List DnsCall → Bool
  | [] | .restore (.done ()) :: _ => false
  | .apply :: _ => true
  | .restore _ :: before => overriding before

/-- What may happen between two atomic steps of an operation. -/
inductive Interference where
  | monitor (proc : Nat) (event : MonitorEvent)
  | observe (proc : Nat)
  | deliver (proc : Nat) (now : Int)
  | pidFile (proc : Nat) (contents : Option Bytes)
  | socket (proc : Nat) (contents : Option Bytes)

/-- `fault` answers every fallible file operation that removes nothing;
    `removeFault` and `entryFault` answer removals, `listFault` the directory
    listing, each of the latter two with the entries not reached. -/
structure Env where
  pipeline : ConfigPipeline
  localIpcPolicy : LocalIpcPolicy
  localIpcAvailable : Bool
  controllerDir : Bool
  processId : Nat
  dns : Option DnsController
  interference : Nat → List Interference
  now : Nat → Int
  instant : Nat → Nat
  fault : Nat → Option ExternalError
  removeFault : Nat → Option ExternalError
  listFault : Nat → Option (ExternalError × (FileName → Bool))
  entryFault : Nat → Option (ExternalError × (FileName → Bool))
  tempCounter : Nat → Nat
  document : FileName → Nat → Except ExternalError Mapping
  binaryPresent : Nat → Bool
  features : Nat → LocalIpcPolicy → Except ExternalError ResolvedFeatures
  check : Nat → Option ExternalError
  launch : Nat → Option ExternalError
  failureSummary : Nat → String
  stop : Nat → Option String
  reap : Nat → Except ExternalError OrphanReapOutcome
  control : Nat → Bool
  timeout : Nat → Bool

/-- File removals always succeed. -/
def Env.RemovalsSucceed (env : Env) : Prop :=
  (∀ k, env.removeFault k = none) ∧ ∀ k, env.entryFault k = none

/-! ## The world -/

/-- Exits at which an epoch that nothing owns any more keeps its files. -/
inductive Abandonment where
  /-- Cleanup fails before it has removed everything. -/
  | cleanupCutShort
  /-- `hard_switch`: the new epoch, after the old one's cleanup failed. -/
  | hardSwitchCleanup
  /-- `graceful_switch`: the retired epoch, after the full commit failed. -/
  | gracefulCommit
  /-- `graceful_switch`: the retired epoch, after the bootstrap's stop failed. -/
  | gracefulStop
  /-- `graceful_switch`: the retired epoch, after the replacement failed. -/
  | gracefulReplacement
  /-- `switch_with_compensation`: the new epoch, after its preparation failed
      with a file left behind. -/
  | switchPrepare
  /-- `switch_with_compensation`: the retired epoch, after the desired process
      could neither start nor be proven dead. -/
  | switchUnconfirmed
  /-- `switch_with_compensation`: the retired epoch, after its relaunch failed. -/
  | switchRollback
  /-- `restart_with_compensation`: the epoch, after the restore failed. -/
  | restartRestore
  /-- `restart_with_compensation`: the epoch, after its relaunch failed. -/
  | restartRollback
  deriving DecidableEq

/-- Places in the source where an operation ends without what a neighbouring
    branch does.  The world records each visit. -/
inductive Mark where
  /-- A rejected graceful candidate is quarantined, and the stop published,
      while the slot holds an instance that has not ended. -/
  | quarantinedBesideLive
  /-- Recovery publishes the stop while the slot is occupied. -/
  | recoveredBesideSlot (live : Bool)
  /-- A state is published that the instance has already left, after the
      forwarder had caught up. -/
  | staleState
  /-- A stale epoch is dropped from the slot and its cleanup fails before the
      stop was published. -/
  | stopUnpublished
  /-- A running status pairs a pid with the snapshot of another run. -/
  | splitSnapshot
  /-- A running status goes out without the identity of a run, and the revision
      it speaks for is not the one committed last. -/
  | uncommitted
  /-- A backup is renamed into place and the sync of the directory after it
      fails: the backup stays, and nobody has it in hand. -/
  | unsyncedBackup
  | abandoned (exit : Abandonment)
  deriving DecidableEq

/-- The first five fields are the program's own state, together with the host's
    DNS record.  `allocated`, `installs`, `adopted`, `published`, `feed`, `dnsCalls`
    and `marks` only record what happened: the epochs handed out with the
    directory at that moment, the revisions that became current, alone and with
    their documents, every status and every committed configuration sent, the
    calls to the DNS controller, and the marked branches.  Newest entries come
    first. -/
structure World where
  ctrl : Ctrl
  dir : Dir
  procCount : Nat
  procs : Nat → Instance
  status : CoreStatus
  commits : Option EffectiveConfigSnapshot
  dnsFile : RecordFile
  clock : Nat
  allocated : List (Epoch × Dir)
  installs : List ConfigRevision
  adopted : List Configuration
  published : List CoreStatus
  feed : List EffectiveConfigSnapshot
  dnsCalls : List DnsCall
  marks : List Mark

/-- `apply_epoch_status`: the new status, or nothing when the value belongs to
    another epoch or changes nothing. -/
def applyEpochStatus (status : CoreStatus) (epoch : Epoch) (instance_ : InstanceStatus)
    (now : Int) : Option CoreStatus :=
  if status.revision.map (·.epoch) ≠ some epoch then none
  else
    let state := instanceCoreState epoch instance_.state
    if status.state = state ∧ status.health = instance_.health ∧
        status.instanceId = instance_.instanceId then none
    else some { status with
      state := state
      health := instance_.health
      instanceId := instance_.instanceId
      changedAt := if status.state ≠ state then now else status.changedAt }

namespace World

def updateProc (w : World) (p : Nat) (f : Instance → Instance) : World :=
  { w with procs := fun q => if q = p then f (w.procs q) else w.procs q }

/-- A new process under the next number. -/
def launch (w : World) (process : Instance) : World :=
  { w with
    procCount := w.procCount + 1
    procs := fun q => if q = w.procCount then process else w.procs q }

/-- Every status sent on the watch channel is recorded. -/
def send (w : World) (status : CoreStatus) : World :=
  { w with status := status, published := status :: w.published }

/-- The forwarder of `p` publishes the value it holds, and ends after a terminal one. -/
def deliver (w : World) (p : Nat) (now : Int) : World :=
  match (w.procs p).forwarder with
  | some ⟨seen, some held, finished⟩ =>
      let w := w.updateProc p fun i =>
        { i with forwarder := some ⟨seen, none, finished || held.state.isTerminal⟩ }
      match applyEpochStatus w.status (w.procs p).epoch held now with
      | some status => w.send status
      | none => w
  | _ => w

/-- The forwarder of `p` takes the newest value it has not seen. -/
def observeProc (w : World) (p : Nat) : World :=
  match (w.procs p).forwarder with
  | some ⟨seen, none, false⟩ =>
      if seen = (w.procs p).version then w
      else w.updateProc p fun i => { i with forwarder := some ⟨i.version, some i.status, false⟩ }
  | _ => w

/-- A core that is not proven dead may write or remove a file of its epoch. -/
def writeOwn (w : World) (p : Nat) (name : FileName) (contents : Option Bytes) : World :=
  if p < w.procCount ∧ (w.procs p).provenDead = false then
    match contents with
    | some contents => { w with dir := w.dir.write name contents }
    | none => { w with dir := w.dir.erase name }
  else w

def interfere (w : World) : Interference → World
  | .monitor p event => w.updateProc p (·.receive event)
  | .observe p => w.observeProc p
  | .deliver p now => w.deliver p now
  | .pidFile p contents => w.writeOwn p (Artifact.pid (w.procs p).epoch.get).name contents
  | .socket p contents => w.writeOwn p (Artifact.socket (w.procs p).epoch.get).name contents

/-- The environment's moves before the next atomic step. -/
def tick (env : Env) (w : World) : World :=
  { (env.interference w.clock).foldl interfere w with clock := w.clock + 1 }

/-- A world before a manager is built over the directory. -/
def boot (dir : Dir) (dnsFile : RecordFile) : World where
  ctrl := Ctrl.new 0
  dir := dir
  procCount := 0
  procs := fun _ => Instance.absent
  status := CoreStatus.initial 0
  commits := none
  dnsFile := dnsFile
  clock := 0
  allocated := []
  installs := []
  adopted := []
  published := []
  feed := []
  dnsCalls := []
  marks := []

/-- The instance in the slot, if any. -/
def slot (w : World) : Option Instance := w.ctrl.current.map fun active => w.procs active.proc

/-- The slot is occupied by an instance that has not ended. -/
def slotLive (w : World) : Bool := w.slot.any fun i => !i.status.state.isTerminal

/-- The slot's forwarder has taken and published everything. -/
def caughtUp (w : World) (p : Nat) : Bool :=
  (w.procs p).forwarder.any fun f => f.holding.isNone && f.seen == (w.procs p).version

def markIf (w : World) (place : Mark) (holds : Bool) : World :=
  if holds then { w with marks := place :: w.marks } else w

end World

/-! ## Atomic steps -/

inductive Panic where
  | epochSpaceExhausted
  | generationOverflow
  | expectFailed (message : String)
  deriving Repr, DecidableEq

abbrev Manager := Program Env World Panic

/-- One atomic step: the environment moves, then `f` runs on the clock the step
    started at. -/
def atomic {α : Type} (f : Env → Nat → World → α × World) : Manager α :=
  Program.act fun env w => f env w.clock (w.tick env)

def ask {α : Type} (answer : Env → Nat → α) : Manager α :=
  atomic fun env k w => (answer env k, w)

def observe {α : Type} (f : World → α) : Manager α := atomic fun _ _ w => (f w, w)

def update (f : World → World) : Manager Unit := atomic fun _ _ w => ((), f w)

/-- Reading and writing the control block happens under the lock. -/
def getCtrl : Manager Ctrl := Program.act fun _ w => (w.ctrl, w)

def setCtrl (ctrl : Ctrl) : Manager Unit := Program.act fun _ w => ((), { w with ctrl := ctrl })

/-- Record a visit of a marked place when the world is as described. -/
def mark (place : Mark) (holds : World → Bool) : Manager Unit :=
  Program.act fun _ w => ((), w.markIf place (holds w))

end Nyanpasu
