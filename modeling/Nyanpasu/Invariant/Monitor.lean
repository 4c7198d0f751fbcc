import Nyanpasu.Manager.Operations

/-! # What a monitor can do to its instance

A monitor never changes who its instance is, its published values only ever get
newer, and a terminal value is its last.  Along the way the instance stays
sound: whatever it shows as running was shown by the run that has that pid.
-/

namespace Nyanpasu

namespace Instance

/-- `j` is `i` with more to show. -/
structure Grows (i j : Instance) : Prop where
  epoch : j.epoch = i.epoch
  controller : j.controller = i.controller
  userStop : j.userStop = i.userStop
  provenDead : j.provenDead = i.provenDead
  forwarder : j.forwarder = i.forwarder
  runs : ∀ run ∈ i.runs, run ∈ j.runs
  history : ∀ entry ∈ i.history, entry ∈ j.history
  newer : (j.version = i.version ∧ j.status = i.status) ∨ i.version < j.version

theorem Grows.refl (i : Instance) : Grows i i :=
  ⟨rfl, rfl, rfl, rfl, rfl, fun _ => id, fun _ => id, .inl ⟨rfl, rfl⟩⟩

theorem Grows.trans {i j k : Instance} (first : Grows i j) (second : Grows j k) : Grows i k where
  epoch := second.epoch.trans first.epoch
  controller := second.controller.trans first.controller
  userStop := second.userStop.trans first.userStop
  provenDead := second.provenDead.trans first.provenDead
  forwarder := second.forwarder.trans first.forwarder
  runs := fun run member => second.runs run (first.runs run member)
  history := fun entry member => second.history entry (first.history entry member)
  newer := by
    rcases first.newer with ⟨version, status⟩ | newer <;>
      rcases second.newer with ⟨version', status'⟩ | newer'
    · exact .inl ⟨version'.trans version, status'.trans status⟩
    · exact .inr (by omega)
    · exact .inr (by omega)
    · exact .inr (by omega)

/-- `j` is `i` after its monitor moved. -/
structure Follows (i j : Instance) : Prop extends Grows i j where
  final : i.monitor.finished = true → j = i

theorem Follows.refl (i : Instance) : Follows i i := ⟨.refl i, fun _ => rfl⟩

theorem Follows.trans {i j k : Instance} (first : Follows i j) (second : Follows j k) :
    Follows i k where
  __ := first.toGrows.trans second.toGrows
  final := fun finished => by
    have same := first.final finished
    subst same
    exact second.final finished

theorem Follows.setForwarder {i j : Instance} (follows : Follows i j) (f : Option Forwarder) :
    Follows { i with forwarder := f } { j with forwarder := f } where
  __ := follows
  forwarder := rfl
  final := fun finished => by rw [follows.final finished]

/-- `j` is `i` after its monitor and its forwarder moved. -/
def Evolves (i j : Instance) : Prop := Follows { i with forwarder := j.forwarder } j

theorem Evolves.refl (i : Instance) : Evolves i i := Follows.refl i

theorem Evolves.trans {i j k : Instance} (first : Evolves i j) (second : Evolves j k) :
    Evolves i k :=
  Follows.trans (Follows.setForwarder first k.forwarder) second

theorem Follows.evolves {i j : Instance} (follows : Follows i j) : Evolves i j := by
  have moved := follows.setForwarder j.forwarder
  exact moved

theorem evolves_setForwarder (i : Instance) (f : Option Forwarder) :
    Evolves i { i with forwarder := f } :=
  Follows.refl _

/-! ## Turns -/

theorem grows_monitor (i : Instance) (m : Monitor) (phase : SupervisorPhase) (timeout cancel : Bool) :
    Grows i { i with monitor := m, phase := phase, probeTimeout := timeout, probeCancel := cancel } :=
  ⟨rfl, rfl, rfl, rfl, rfl, fun _ => id, fun _ => id, .inl ⟨rfl, rfl⟩⟩

theorem grows_weigh (i : Instance) (observation : ProbeObservation) (acknowledged : Bool) :
    Grows i (i.weigh observation acknowledged).2.inst := by
  have weighs := weighs_weigh i observation acknowledged
  generalize i.weigh observation acknowledged = result at weighs ⊢
  cases weighs with
  | ignored => exact .refl i
  | weighed run =>
      simp only [weighInTime]
      split
      · exact grows_monitor i _ _ _ _
      · split_ifs <;> exact grows_monitor i _ _ _ _

theorem grows_sift (i : Instance) (drained : List (ProbeObservation × Bool)) :
    Grows i (i.sift drained).2.inst := by
  apply sift_induction (P := fun i turn => Grows i turn.inst)
  · exact .refl
  · exact grows_weigh
  · intro i first second grows later
    exact grows.trans later

theorem grows_turn (i : Instance) (event : MonitorEvent) : Grows i (i.turn event).inst := by
  cases event with
  | probeCancelled =>
      simp only [turn]
      split_ifs
      · exact grows_monitor i _ _ _ _
      · exact .refl i
  | started =>
      exact ⟨rfl, rfl, rfl, rfl, rfl, fun _ => List.mem_cons_of_mem _, fun _ => id, .inl ⟨rfl, rfl⟩⟩
  | restarting | exited | gaveUp | stopped | closed => exact grows_monitor i _ _ _ _
  | initialDeadline drained | respawnDeadline drained =>
      have grows := grows_sift i drained
      simp only [turn]
      split_ifs
      · exact grows.trans (grows_monitor _ _ _ _ _)
      · exact grows
      · exact .refl i
  | observation observation acknowledged => exact grows_weigh i observation acknowledged

theorem grows_writes (i : Instance) (writes : List Write) : Grows i (writes.foldl write i) := by
  induction writes generalizing i with
  | nil => exact .refl i
  | cons w rest ih =>
      have grows : Grows i (i.write w) :=
        ⟨rfl, rfl, rfl, rfl, rfl, fun _ => id, fun _ => List.mem_cons_of_mem _,
          .inr (Nat.lt_succ_self _)⟩
      exact grows.trans (ih _)

theorem receive_follows (i : Instance) (event : MonitorEvent) : Follows i (i.receive event) := by
  unfold receive
  split
  case isFalse => exact .refl i
  case isTrue =>
    cases active : i.monitor.finished with
    | true =>
        rw [step_finished active]
        exact .refl i
    | false =>
        rw [← settled_turn active]
        exact ⟨(grows_turn i event).trans (grows_writes _ _),
          fun finished => by simp [active] at finished⟩

/-! ## Soundness of what an instance shows -/

/-- The value was shown by the run whose pid it names, and carries its identity. -/
def Vouches (i : Instance) (shown : InstanceStatus) : Prop :=
  ∀ pid, shown.state = .running pid →
    0 < pid ∧ ∃ run ∈ i.runs, run.pid = pid ∧ shown.instanceId = some run.instanceId ∧
      (run.number, shown) ∈ i.history

theorem Vouches.mono {i j : Instance} {shown : InstanceStatus} (vouches : i.Vouches shown)
    (follows : Follows i j) : j.Vouches shown := by
  intro pid running
  obtain ⟨real, run, member, same, identity, entry⟩ := vouches pid running
  exact ⟨real, run, follows.runs run member, same, identity, follows.history _ entry⟩

/-- The value on the channel belongs to the latest run. -/
def ShowsLatest (i : Instance) (pid : Nat) : Prop :=
  0 < pid ∧ ∃ run ∈ i.runs, run.number = i.monitor.nextRunId ∧ run.pid = pid ∧
    i.status.instanceId = some run.instanceId

/-- The part about identities holds until a stop begins, which erases them. -/
structure Sound (i : Instance) : Prop where
  terminal : i.status.state.isTerminal = true → i.monitor.finished = true
  unpublished : i.version = 0 → i.status.state = .starting
  recorded : ∃ number, (number, i.status) ∈ i.history ∧
    ∀ pid, i.status.state = .running pid → number = i.monitor.nextRunId
  running : i.userStop = false → ∀ pid, i.status.state = .running pid → i.ShowsLatest pid
  current : i.userStop = false → i.monitor.finished = false →
    ∀ run, i.monitor.current = some run → i.ShowsLatest run.pid
  due : i.userStop = false → i.phase = .startDue →
    i.monitor.current = none ∧ ∀ pid, i.status.state ≠ .running pid

theorem Sound.vouches {i : Instance} (sound : i.Sound) (serving : i.userStop = false) :
    i.Vouches i.status := by
  intro pid running
  obtain ⟨real, run, member, number, same, identity⟩ := sound.running serving pid running
  obtain ⟨recorded, entry, latest⟩ := sound.recorded
  have numbers : run.number = recorded := number.trans (latest pid running).symm
  exact ⟨real, run, member, same, identity, numbers ▸ entry⟩

theorem launched_sound (epoch : Epoch) (options : InstanceOptions)
    (controller : ResolvedController) (now : Nat) (nowMs : Int) :
    (launched epoch options controller now nowMs).Sound where
  terminal := by simp [launched, InstanceStatus.initial, InstanceState.isTerminal]
  unpublished := fun _ => rfl
  recorded := ⟨0, by simp [launched], by simp [launched, InstanceStatus.initial]⟩
  running := by simp [launched, InstanceStatus.initial]
  current := by simp [launched, Monitor.initial]
  due := by simp [launched, Monitor.initial, InstanceStatus.initial]

/-- A value that names no running process may be published at any time, as long
    as no run stays current under another identity. -/
private theorem publishStatus_sound {i : Instance} {status : InstanceStatus}
    (terminal : status.state.isTerminal = true → i.monitor.finished = true)
    (idle : ∀ pid, status.state ≠ .running pid) (noRun : i.monitor.current = none) :
    (i.publishStatus status).Sound where
  terminal := terminal
  unpublished := fun version => by simp [publishStatus] at version
  recorded := ⟨i.monitor.nextRunId, List.mem_cons_self, fun _ _ => rfl⟩
  running := fun _ pid running => absurd running (idle pid)
  current := fun _ _ run current => by simp [publishStatus, noRun] at current
  due := fun _ _ => ⟨noRun, idle⟩

theorem dropRun_sound {i : Instance} (sound : i.Sound) : i.dropRun.Sound where
  __ := sound
  current := fun _ _ run current => by simp [dropRun] at current
  due := fun serving due => ⟨rfl, (sound.due serving due).2⟩

theorem starting_sound {i : Instance} (sound : i.Sound) (due : i.phase = .startDue) (pid : Nat)
    (real : 0 < pid) (instanceId : InstanceId) (now : Nat) (nowMs : Int) :
    (i.starting pid instanceId now nowMs).settled.Sound where
  terminal := sound.terminal
  unpublished := fun version => by cases version
  recorded := ⟨_, List.mem_cons_self, fun _ _ => rfl⟩
  running := fun serving pid running => absurd running ((sound.due serving due).2 pid)
  current := fun _ _ run current => by
    cases current
    exact ⟨real, ⟨_, pid, instanceId⟩, List.mem_cons_self, rfl, rfl, rfl⟩
  due := fun _ phase => by cases phase

theorem leaving_sound (i : Instance) {w : Write} (final : w.isFinal = true) :
    (i.leaving w).settled.Sound := by
  obtain ⟨reason, composed⟩ :
      ∃ reason, w.compose i.status.health i.status.instanceId (i.leaving w).inst =
        ⟨none, .stopped reason, none⟩ := by
    cases w <;> first | exact ⟨_, rfl⟩ | cases final
  show ((i.leaving w).inst.publishStatus
    (w.compose i.status.health i.status.instanceId (i.leaving w).inst)).Sound
  rw [composed]
  exact
    { terminal := fun _ => rfl
      unpublished := fun version => by cases version
      recorded := ⟨_, List.mem_cons_self, fun _ running => by cases running⟩
      running := fun _ pid running => by cases running
      current := fun _ active => by cases active
      due := fun _ phase => by cases phase }

section

variable {i : Instance} (sound : i.Sound)

include sound

/-- A monitor that is gone has let go of its run, so a run that is weighed is the latest. -/
theorem applyObservation_sound (gone : i.monitor.finished = true → i.monitor.current = none)
    (observation : ProbeObservation) (acknowledged : Bool) :
    (i.applyObservation observation acknowledged).2.Sound ∧
      ((i.applyObservation observation acknowledged).2.monitor.finished = true →
        (i.applyObservation observation acknowledged).2.monitor.current = none) := by
  have weighs := weighs_weigh i observation acknowledged
  unfold applyObservation
  generalize i.weigh observation acknowledged = result at weighs ⊢
  cases weighs with
  | ignored => exact ⟨sound, gone⟩
  | weighed run current =>
      have active : i.monitor.finished = false := by
        by_contra finished
        simp [gone (by simpa using finished)] at current
      have alive : i.userStop = false → i.phase ≠ .startDue := fun serving due => by
        simp [(sound.due serving due).1] at current
      have latest : i.userStop = false → i.ShowsLatest run.pid := fun serving =>
        sound.current serving active run current
      simp only [weighInTime]
      split
      · have dropped := dropRun_sound sound
        exact ⟨{ dropped with terminal := fun _ => rfl, current := fun _ _ run none => by cases none },
          fun _ => rfl⟩
      · refine ⟨?_, ?_⟩
        · split_ifs
          · exact
              { terminal := fun terminal => by cases terminal
                unpublished := fun version => by cases version
                recorded := ⟨_, List.mem_cons_self, fun _ _ => rfl⟩
                running := fun serving pid running => by
                  cases running
                  exact latest serving
                current := fun serving _ r same => by
                  cases same
                  exact latest serving
                due := fun serving due => absurd due (alive serving) }
          · exact
              { sound with
                current := fun serving _ r same => by
                  cases same
                  exact latest serving
                due := fun serving due => absurd due (alive serving) }
          · exact
              { sound with
                unpublished := fun version => by cases version
                recorded := ⟨_, List.mem_cons_self, fun _ _ => rfl⟩
                current := fun serving _ r same => by
                  cases same
                  exact latest serving
                due := fun serving due => absurd due (alive serving) }
        · split_ifs <;>
            exact fun finished : i.monitor.finished = true => by simp [active] at finished

theorem drain_sound (gone : i.monitor.finished = true → i.monitor.current = none)
    (drained : List (ProbeObservation × Bool)) : (i.drain drained).2.Sound := by
  induction drained generalizing i with
  | nil => exact sound
  | cons entry rest ih =>
      obtain ⟨observation, acknowledged⟩ := entry
      have first := applyObservation_sound sound gone observation acknowledged
      simp only [drain]
      generalize i.applyObservation observation acknowledged = applied at first ⊢
      obtain ⟨_ | _, j⟩ := applied
      · exact ih first.1 first.2
      · exact first.1

theorem timeOut_sound : i.timeOut.Sound :=
  let dropped := dropRun_sound sound
  { dropped with }

theorem receive_sound (event : MonitorEvent) : (i.receive event).Sound := by
  unfold receive step
  split
  case isFalse => exact sound
  split
  case isTrue => exact sound
  case isTrue.isFalse supervised active =>
    have gone : i.monitor.finished = true → i.monitor.current = none := fun finished =>
      absurd finished active
    have dropped := dropRun_sound sound
    cases event with
    | probeCancelled =>
        simp only [turn]
        split_ifs
        · exact { dropped with }
        · exact sound
    | started pid real instanceId now nowMs =>
        exact starting_sound sound (supervised_started supervised).1 pid real instanceId now nowMs
    | restarting attempt nowMs =>
        exact publishStatus_sound (fun terminal => by cases terminal) (fun _ => by simp [Write.compose])
          rfl
    | exited payload => exact { dropped with due := fun _ phase => by cases phase }
    | gaveUp | stopped | closed => exact leaving_sound i rfl
    | initialDeadline drained =>
        dsimp only
        split
        · have first := drain_sound sound gone drained
          split
          · have ended := timeOut_sound first
            exact { ended with }
          · exact first
        · exact sound
    | respawnDeadline drained =>
        dsimp only
        split
        · have first := drain_sound sound gone drained
          split
          · exact timeOut_sound first
          · exact first
        · exact sound
    | observation observation acknowledged =>
        exact (applyObservation_sound sound gone observation acknowledged).1

theorem beginStop_sound : i.beginStop.Sound := by
  unfold beginStop
  split
  · exact sound
  · exact
      { terminal := fun terminal => by
          simp [publish, publishStatus, InstanceState.isTerminal] at terminal
        unpublished := fun version => by simp [publish, publishStatus] at version
        recorded := ⟨i.monitor.nextRunId, List.mem_cons_self, fun _ _ => rfl⟩
        running := fun serving => by simp [publish, publishStatus] at serving
        current := fun serving => by simp [publish, publishStatus] at serving
        due := fun serving => by simp [publish, publishStatus] at serving }

theorem Sound.proven (dead : Bool) : Sound { i with provenDead := dead } :=
  { sound with }

end

/-- A stop leaves everything in place but the status and the flags. -/
theorem beginStop_static (i : Instance) :
    i.beginStop.epoch = i.epoch ∧ i.beginStop.provenDead = i.provenDead ∧
      i.beginStop.forwarder = i.forwarder ∧ i.version ≤ i.beginStop.version ∧
      i.beginStop.runs = i.runs ∧ ∀ entry ∈ i.history, entry ∈ i.beginStop.history := by
  unfold beginStop
  split
  · exact ⟨rfl, rfl, rfl, le_rfl, rfl, fun _ => id⟩
  · exact ⟨rfl, rfl, rfl, Nat.le_succ _, rfl, fun _ => List.mem_cons_of_mem _⟩

end Instance

end Nyanpasu
