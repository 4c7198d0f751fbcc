import Nyanpasu.Invariant.Runs

/-! # Processes and their configuration

What holds between the operations of every run: no process is lost, and the file
a process is started on holds the configuration that is committed for it.
-/

namespace Nyanpasu

open Naming Store

variable {env : Env} {dir : Dir} {w : World}

/-! ## An environment to compute runs in -/

/-- Documents are mappings of which only the length is serialised; a change of the
    configuration is applied by a reload. -/
def lengthPipeline : ConfigPipeline where
  serialize := fun document => .ok [document.length.toUInt8]
  effective := fun document _ _ _ _ => .ok (document, ⟨.http "127.0.0.1:9090", none⟩)
  restorationPatch := fun _ _ => .ok none
  overlapBlock := fun _ => none
  classify := fun _ _ => .ok .reload

def sampleSpec : InstanceSpec where
  core := ⟨.mihomo, ['m'], none, []⟩
  configPath := ['c']
  workingDir := ['w']
  pidFile := none
  options := .default

/-- The process comes up under a pid of its own and reports that it is ready. -/
def comesUp (p : Nat) : List Interference :=
  [.monitor p (.started (100 + p) (by omega) (7 + p) 0 0),
    .monitor p (.observation ⟨1, 100 + p, .readiness, 0, 0, .healthy⟩ true)]

/-- Every call succeeds.  The first process launched comes up while it is waited
    for; nothing else happens. -/
def calmEnv : Env where
  pipeline := lengthPipeline
  localIpcPolicy := .prefer
  localIpcAvailable := true
  controllerDir := false
  processId := 5
  dns := none
  interference := fun k => if k = 21 then comesUp 0 else []
  now := fun k => k
  instant := fun _ => 0
  fault := fun _ => none
  removeFault := fun _ => none
  listFault := fun _ => none
  entryFault := fun _ => none
  tempCounter := fun k => k
  document := fun _ _ => .ok []
  binaryPresent := fun _ => true
  features := fun _ _ => .ok ⟨[], [.localIpc], none⟩
  check := fun _ => none
  launch := fun _ => none
  failureSummary := fun _ => ""
  stop := fun _ => none
  reap := fun _ => .ok .killed
  control := fun _ => true
  timeout := fun _ => false

/-- No stop can be confirmed. -/
def stubbornEnv : Env := { calmEnv with stop := fun _ => some "still running" }

/-! ## No process is lost -/

/-- Every process that was launched and is not proven dead sits in the slot, or its
    epoch is quarantined; and beside a quarantine nothing is launched. -/
theorem live_process_tracked (reachable : Reachable env dir w) :
    (∀ p < w.procCount, (w.procs p).provenDead = false →
      (∃ active, w.ctrl.current = some active ∧ active.proc = p) ∨
        ∃ entry ∈ w.ctrl.quarantine, entry.epoch = (w.procs p).epoch) ∧
    ∀ operation reply w', w.ctrl.quarantine ≠ [] →
      Operation.run operation env w = .ok (reply, w') → w'.procCount = w.procCount := by
  obtain ⟨c, inv, idle⟩ := reachable.stable
  constructor
  · intro p inside alive
    rw [inv.ctrl]
    rcases inv.processes.tracked p (inv.count ▸ inside) alive with ⟨h, member, _⟩ | tracked
    · simp [idle.held] at member
    · exact tracked
  · intro operation reply w' listed run
    obtain ⟨c', inv', _, _, calm⟩ := operation.leaves inv idle run
    rw [inv'.count, inv.count]
    exact calm (inv.ctrl ▸ listed)

/-- After a switch whose candidate could neither start nor be stopped, two
    processes are alive: one in the slot and one under quarantine. -/
theorem live_process_tracked_beside : ∃ w, Reachable stubbornEnv [] w ∧
    (w.procCount = 2 ∧ (w.procs 0).provenDead = false ∧ (w.procs 1).provenDead = false ∧
      w.ctrl.quarantine ≠ []) ∧
    (∀ p < w.procCount, (w.procs p).provenDead = false →
      (∃ active, w.ctrl.current = some active ∧ active.proc = p) ∨
        ∃ entry ∈ w.ctrl.quarantine, entry.epoch = (w.procs p).epoch) ∧
    ∀ operation reply w', w.ctrl.quarantine ≠ [] →
      Operation.run operation stubbornEnv w = .ok (reply, w') → w'.procCount = w.procCount := by
  obtain ⟨w, reachable, holds⟩ := reachable_of_endsWith stubbornEnv []
    [.start sampleSpec, .switch sampleSpec]
    (fun w => w.procCount = 2 && !(w.procs 0).provenDead && !(w.procs 1).provenDead &&
      w.ctrl.quarantine ≠ []) (by decide +kernel)
  refine ⟨w, reachable, ?_, live_process_tracked reachable⟩
  simpa [and_assoc] using holds

/-! ## The runtime file -/

/-- The file of the current epoch holds the bytes of the committed plan, and it is
    the file the plan's process is started on. -/
theorem runtime_file_committed {active : Active} (reachable : Reachable env dir w)
    (current : w.ctrl.current = some active) :
    active.plan.effectiveSpec.configPath = runtimePath active.plan.revision.epoch ∧
      ∃ contents, w.dir.get (runtimePath active.plan.revision.epoch) = some contents ∧
        env.pipeline.serialize active.plan.effectiveDocument = .ok contents ∧
        semanticHash contents = active.plan.revision.effectiveHash := by
  obtain ⟨c, inv, idle⟩ := reachable.stable
  rw [inv.ctrl] at current
  obtain ⟨contents, ⟨serialised, hashed, placed⟩, pinned⟩ := idle.file active current
  exact ⟨placed.2, contents, inv.files.pinned _ pinned, serialised, hashed⟩

/-- A configuration applied in place is a second generation of the same file. -/
theorem runtime_file_committed_applied : ∃ w active, Reachable calmEnv [] w ∧
    w.ctrl.current = some active ∧ active.plan.revision.generation = 2 ∧
    active.plan.effectiveSpec.configPath = runtimePath active.plan.revision.epoch ∧
      ∃ contents, w.dir.get (runtimePath active.plan.revision.epoch) = some contents ∧
        calmEnv.pipeline.serialize active.plan.effectiveDocument = .ok contents ∧
        semanticHash contents = active.plan.revision.effectiveHash := by
  obtain ⟨w, reachable, holds⟩ := reachable_of_endsWith calmEnv []
    [.start sampleSpec, .applyConfig sampleSpec none]
    (fun w => w.ctrl.current.any fun active => active.plan.revision.generation = 2)
    (by decide +kernel)
  rw [Option.any_eq_true] at holds
  obtain ⟨active, current, second⟩ := holds
  exact ⟨w, active, reachable, current, of_decide_eq_true second,
    runtime_file_committed reachable current⟩

end Nyanpasu
