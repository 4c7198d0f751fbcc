import Nyanpasu.Guarantees.Processes

/-! # The published status

Between operations the status speaks of the slot, follows the instance in it, and
never mixes two runs of a process.  Each of the three holds as long as the run has
not passed the marked places of the source at which it is given up.
-/

namespace Nyanpasu

open Naming Store

variable {env : Env} {dir : Dir} {w : World}

/-! ## A live core is not reported stopped -/

/-- Unless a stop was published beside a live slot, by the quarantine of a switch's
    candidate or by a recovery, the status names the epoch of a live core. -/
theorem live_core_reported {active : Active} (reachable : Reachable env dir w)
    (unquarantined : .quarantinedBesideLive ∉ w.marks)
    (unrecovered : .recoveredBesideSlot true ∉ w.marks)
    (current : w.ctrl.current = some active)
    (live : (w.procs active.proc).status.state.isTerminal = false) :
    w.status.revision.map (·.epoch) = some active.plan.revision.epoch ∧
      w.status.state.isStopped = false := by
  obtain ⟨c, inv, idle⟩ := reachable.stable
  have settled := inv.shown.settled idle.showing
  rw [inv.ctrl] at current
  exact settled.live active current ⟨unquarantined, unrecovered⟩ live

/-- A switch whose candidate does not come up leaves the old core in place, and
    reported. -/
theorem live_core_reported_retained : ∃ w active, Reachable calmEnv [] w ∧ w.procCount = 2 ∧
    w.ctrl.current = some active ∧
    w.status.revision.map (·.epoch) = some active.plan.revision.epoch ∧
      w.status.state.isStopped = false := by
  obtain ⟨w, reachable, holds⟩ := reachable_of_endsWith calmEnv []
    [.start sampleSpec, .switch sampleSpec]
    (fun w => w.procCount = 2 && w.marks = [] && w.ctrl.current.any fun active =>
      !(w.procs active.proc).status.state.isTerminal) (by decide +kernel)
  simp only [Bool.and_eq_true, decide_eq_true_eq, Option.any_eq_true, Bool.not_eq_true'] at holds
  obtain ⟨⟨launched, unmarked⟩, active, current, live⟩ := holds
  refine ⟨w, active, reachable, launched, current, ?_⟩
  exact live_core_reported reachable (by simp [unmarked]) (by simp [unmarked]) current live

/-- If the candidate's death cannot be confirmed either, the live core is reported
    stopped; the recovery of the candidate reports it stopped as well. -/
theorem live_core_reported_stopped :
    (∃ w active, Reachable stubbornEnv [] w ∧ w.ctrl.current = some active ∧
      (w.procs active.proc).status.state.isTerminal = false ∧ w.status.state.isStopped = true) ∧
    ∃ w active, Reachable stubbornEnv [] w ∧ w.ctrl.quarantine = [] ∧
      w.ctrl.current = some active ∧ (w.procs active.proc).status.state.isTerminal = false ∧
      w.status.state.isStopped = true := by
  constructor
  · obtain ⟨w, reachable, holds⟩ := reachable_of_endsWith stubbornEnv []
      [.start sampleSpec, .switch sampleSpec]
      (fun w => w.status.state.isStopped && w.ctrl.current.any fun active =>
        !(w.procs active.proc).status.state.isTerminal) (by decide +kernel)
    simp only [Bool.and_eq_true, Option.any_eq_true, Bool.not_eq_true'] at holds
    obtain ⟨stopped, active, current, live⟩ := holds
    exact ⟨w, active, reachable, current, live, stopped⟩
  · obtain ⟨w, reachable, holds⟩ := reachable_of_endsWith stubbornEnv []
      [.start sampleSpec, .switch sampleSpec, .recoverQuarantine]
      (fun w => w.status.state.isStopped && w.ctrl.quarantine.isEmpty &&
        w.ctrl.current.any fun active => !(w.procs active.proc).status.state.isTerminal)
      (by decide +kernel)
    simp only [Bool.and_eq_true, Option.any_eq_true, Bool.not_eq_true', List.isEmpty_iff] at holds
    obtain ⟨⟨stopped, clear⟩, active, current, live⟩ := holds
    exact ⟨w, active, reachable, clear, current, live, stopped⟩

/-! ## The status converges -/

/-- Unless an operation published over a forwarder that had nothing left to say, the
    status of an unquarantined manager is the state of the slot's instance as soon as
    the forwarder has consumed every change, and `Stopped` over an empty slot. -/
theorem status_converges (reachable : Reachable env dir w)
    (fresh : .staleState ∉ w.marks) (published : .stopUnpublished ∉ w.marks)
    (vacant : .recoveredBesideSlot false ∉ w.marks) (clear : w.ctrl.quarantine = []) :
    (w.ctrl.current = none → w.status.state.isStopped = true) ∧
      ∀ active, w.ctrl.current = some active →
        (∀ f, (w.procs active.proc).forwarder = some f →
          f.holding = none ∧ f.seen = (w.procs active.proc).version) →
        w.status.state = instanceCoreState active.plan.revision.epoch
          (w.procs active.proc).status.state := by
  obtain ⟨c, inv, idle⟩ := reachable.stable
  have settled := inv.shown.settled idle.showing
  have free : NoStalePublication w.marks := ⟨fresh, published, vacant⟩
  rw [inv.ctrl] at clear
  constructor
  · intro empty
    rw [inv.ctrl] at empty
    exact settled.vacant empty free clear
  · intro active current consumed
    rw [inv.ctrl] at current
    -- the slot always has a forwarder, so the hypothesis is about an existing task
    obtain ⟨f, forwards⟩ := Option.ne_none_iff_exists'.mp (inv.processes.forwarded active current)
    exact (settled.converged active current free clear).2 ⟨f, forwards, consumed f forwards⟩

theorem consumed_of_caughtUp {p : Nat} (caught : w.caughtUp p = true) :
    ∀ f, (w.procs p).forwarder = some f → f.holding = none ∧ f.seen = (w.procs p).version := by
  intro f forwards
  rw [World.caughtUp, forwards, Option.any_some, Bool.and_eq_true, Option.isNone_iff_eq_none,
    beq_iff_eq] at caught
  exact caught

/-- The forwarder takes and delivers the first states after the start. -/
def forwardingEnv : Env :=
  { calmEnv with
    interference := fun k =>
      if k = 21 then comesUp 0 else if k = 27 then [.observe 0, .deliver 0 9] else [] }

theorem status_converges_started : ∃ w active, Reachable forwardingEnv [] w ∧
    w.ctrl.current = some active ∧ w.status.state =
      instanceCoreState active.plan.revision.epoch (w.procs active.proc).status.state := by
  obtain ⟨w, reachable, holds⟩ := reachable_of_endsWith forwardingEnv []
    [.start sampleSpec, .start sampleSpec]
    (fun w => w.marks = [] && w.ctrl.quarantine.isEmpty && w.ctrl.current.any fun active =>
      w.caughtUp active.proc) (by decide +kernel)
  simp only [Bool.and_eq_true, decide_eq_true_eq, Option.any_eq_true, List.isEmpty_iff] at holds
  obtain ⟨⟨unmarked, clear⟩, active, current, caught⟩ := holds
  refine ⟨w, active, reachable, current, ?_⟩
  exact (status_converges reachable (by simp [unmarked]) (by simp [unmarked]) (by simp [unmarked])
    clear).2 active current (consumed_of_caughtUp caught)

/-- The core gives up while a configuration is applied in place, and the forwarder
    has published that by the time the operation publishes the state it read. -/
def crashingEnv : Env :=
  { calmEnv with
    interference := fun k =>
      if k = 21 then comesUp 0
      else if k = 61 then
        [.monitor 0 (.exited ⟨some 1, none⟩), .monitor 0 (.gaveUp ""), .observe 0, .deliver 0 9]
      else [] }

/-- The status stays `Running` over an instance that has stopped, although the
    forwarder has consumed everything. -/
theorem status_diverges : ∃ w active, Reachable crashingEnv [] w ∧ w.ctrl.quarantine = [] ∧
    w.ctrl.current = some active ∧
    (∀ f, (w.procs active.proc).forwarder = some f →
      f.holding = none ∧ f.seen = (w.procs active.proc).version) ∧
    w.status.state ≠
      instanceCoreState active.plan.revision.epoch (w.procs active.proc).status.state := by
  obtain ⟨w, reachable, holds⟩ := reachable_of_endsWith crashingEnv []
    [.start sampleSpec, .applyConfig sampleSpec none]
    (fun w => w.ctrl.quarantine.isEmpty && w.ctrl.current.any fun active =>
      w.caughtUp active.proc && w.status.state ≠
        instanceCoreState active.plan.revision.epoch (w.procs active.proc).status.state)
    (by decide +kernel)
  simp only [Bool.and_eq_true, decide_eq_true_eq, Option.any_eq_true, List.isEmpty_iff] at holds
  obtain ⟨clear, active, current, caught, stale⟩ := holds
  exact ⟨w, active, reachable, clear, current, consumed_of_caughtUp caught, stale⟩

/-! ## One run behind every running status -/

/-- Unless an operation published a pid over the snapshot of another run, every
    `Running` status ever sent has the pid, the identity and the health of one run. -/
theorem published_running_coherent (reachable : Reachable env dir w)
    (unsplit : .splitSnapshot ∉ w.marks) :
    ∀ sent ∈ w.published, Coherent w.procCount w.procs sent := by
  obtain ⟨c, inv, _⟩ := reachable.stable
  rw [inv.count]
  exact inv.shown.coherent unsplit

theorem published_running_coherent_started : ∃ w epoch, Reachable calmEnv [] w ∧
    (∃ sent ∈ w.published, sent.state = .running epoch 100) ∧
    ∀ sent ∈ w.published, Coherent w.procCount w.procs sent := by
  obtain ⟨w, reachable, holds⟩ := reachable_of_endsWith calmEnv [] [.start sampleSpec]
    (fun w => w.marks = [] && w.published.any fun sent =>
      sent.state = .running ⟨1, by decide, by decide⟩ 100) (by decide +kernel)
  simp only [Bool.and_eq_true, decide_eq_true_eq, List.any_eq_true] at holds
  obtain ⟨unmarked, sent, member, running⟩ := holds
  exact ⟨w, _, reachable, ⟨sent, member, running⟩,
    published_running_coherent reachable (by simp [unmarked])⟩

/-- The process crashes and is respawned between the read of its pid and the
    snapshot the pid is published with. -/
def respawningEnv : Env :=
  { calmEnv with
    interference := fun k =>
      if k = 21 then comesUp 0
      else if k = 23 then
        [.monitor 0 (.exited ⟨some 1, none⟩), .monitor 0 (.restarting 1 0),
          .monitor 0 (.started 200 (by decide) 20 0 0),
          .monitor 0 (.observation ⟨2, 200, .readiness, 0, 0, .healthy⟩ true)]
      else [] }

/-- The process crashes before its pid is read. -/
def crashedEnv : Env :=
  { calmEnv with
    interference := fun k =>
      if k = 21 then comesUp 0
      else if k = 22 then
        [.monitor 0 (.exited ⟨some 1, none⟩), .monitor 0 (.restarting 1 0)]
      else [] }

/-- A start publishes the pid of one run under the identity of the next; or a
    placeholder where no process runs. -/
theorem published_running_split :
    (∃ w, Reachable respawningEnv [] w ∧
      ∃ sent ∈ w.published, ¬ Coherent w.procCount w.procs sent) ∧
    ∃ w epoch, Reachable crashedEnv [] w ∧ ∃ sent ∈ w.published, sent.state = .running epoch 0 := by
  constructor
  · obtain ⟨w, reachable, holds⟩ := reachable_of_endsWith respawningEnv [] [.start sampleSpec]
      (fun w => (w.procCount = 1 && (w.procs 0).runs.all fun run =>
          run.pid ≠ 100 || run.instanceId ≠ 20) &&
        w.published.any fun sent =>
          sent.state = .running ⟨1, by decide, by decide⟩ 100 && sent.instanceId = some 20)
      (by decide +kernel)
    simp only [Bool.and_eq_true, Bool.or_eq_true, decide_eq_true_eq, List.any_eq_true,
      List.all_eq_true] at holds
    obtain ⟨⟨single, apart⟩, sent, member, running, identity⟩ := holds
    refine ⟨w, reachable, sent, member, fun coherent => ?_⟩
    obtain ⟨_, p, inside, _, run, among, pid, same, _⟩ := coherent _ _ running
    obtain rfl : p = 0 := by omega
    rw [identity, Option.some.injEq] at same
    rcases apart run among with other | other
    · exact other pid
    · exact other same.symm
  · obtain ⟨w, reachable, holds⟩ := reachable_of_endsWith crashedEnv [] [.start sampleSpec]
      (fun w => w.published.any fun sent => sent.state = .running ⟨1, by decide, by decide⟩ 0)
      (by decide +kernel)
    simp only [decide_eq_true_eq, List.any_eq_true] at holds
    exact ⟨w, _, reachable, holds⟩

end Nyanpasu
