import Nyanpasu.Instance

/-! # One iteration of the monitor

The watch channel is shared with the stop request, and nothing makes an iteration of
`monitor_loop` atomic.  A turn is the part of an iteration that only the monitor sees,
together with the values the iteration then composes from the channel and sends.
`Instance.step` is an iteration that nobody gets between: it settles its turn at once,
except that a deadline sends what one observation has to say before it weighs the next.
-/

namespace Nyanpasu

/-- A value the monitor is going to send, up to what it still reads. -/
inductive Write where
  | started (instanceId : InstanceId) (nowMs : Int)
  | restarting (attempt : Nat) (nowMs : Int)
  | observed (update : TrackerUpdate) (observation : ProbeObservation)
  | running (pid : Nat) (update : TrackerUpdate) (observation : ProbeObservation)
  | gaveUp (diagnostics : String)
  | ended (diagnostics : String)

namespace Write

/-- The monitor returns after this value. -/
def isFinal : Write → Bool
  | gaveUp _ | ended _ => true
  | _ => false

/-- The value, given the health and the identity that were read before; the lifecycle
    and the flags are read now. -/
def compose (health : Option HealthStatus) (instanceId : Option InstanceId) (i : Instance) :
    Write → InstanceStatus
  | started fresh nowMs => ⟨some fresh, i.status.state, some (resetStartingHealth nowMs health)⟩
  | restarting attempt nowMs =>
      ⟨none, .restarting attempt, some (resetStartingHealth nowMs health)⟩
  | observed update observation =>
      ⟨instanceId, i.status.state, some (healthStatus health update observation)⟩
  | running pid update observation =>
      ⟨instanceId, .running pid, some (healthStatus health update observation)⟩
  | gaveUp diagnostics =>
      ⟨none,
        .stopped (.error ("core kept crashing; restart budget exhausted\n" ++ diagnostics)), none⟩
  | ended diagnostics => ⟨none, .stopped (i.terminalReason diagnostics), none⟩

end Write

/-- What happened to the monitor, as bookkeeping the source does not keep. -/
inductive Incident where
  | started (run pid now : Nat)
  | observed (observation : ProbeObservation)
  | acknowledged (run : Nat) (success : Bool)
  deriving DecidableEq

/-- `incidents` has the newest first. -/
structure Turn where
  inst : Instance
  writes : List Write
  incidents : List Incident

namespace Instance

/-- A turn that leaves the channel alone. -/
def silently (i : Instance) : Turn := ⟨i, [], []⟩

def ignoring (i : Instance) (observation : ProbeObservation) : Turn :=
  ⟨i, [], [.observed observation]⟩

/-- `ProbeReconcile::apply` once the observation is known to be in time.  The result says
    whether it is the last: the instance became ready, or the monitor panicked. -/
def weighInTime (i : Instance) (run : RunState) (observation : ProbeObservation)
    (acknowledged : Bool) : Bool × Turn :=
  match run.tracker.observe observation.completedAt observation.result with
  | none => (true, ⟨i.crashed, [], [.observed observation]⟩)
  | some (update, tracker) =>
  if !run.ackAttempted && update.state = .healthy then
    let run := { run with ackAttempted := true, tracker := tracker }
    let incidents := [.acknowledged run.runId acknowledged, .observed observation]
    if acknowledged then
      (true,
        { inst := { i with monitor := { i.monitor with
            everReady := true, respawnDeadline := none,
            current := some { run with ready := true } } }
          writes := [.running run.pid update observation]
          incidents := incidents })
    else (false, ⟨{ i with monitor := { i.monitor with current := some run } }, [], incidents⟩)
  else
    (false,
      { inst := { i with monitor := { i.monitor with
          current := some { run with tracker := tracker } } }
        writes := [.observed update observation]
        incidents := [.observed observation] })

/-- `ProbeReconcile::apply`: an observation of another run, or a late one, is dropped, and
    a run started after the probes were cancelled has no driver to observe it. -/
def weigh (i : Instance) (observation : ProbeObservation) (acknowledged : Bool) : Bool × Turn :=
  match i.monitor.current with
  | none => (false, i.ignoring observation)
  | some run =>
      if i.monitor.probesCancelled then (false, i.ignoring observation)
      else if observation.runId ≠ run.runId ∨ observation.pid ≠ run.pid then
        (false, i.ignoring observation)
      else if i.beyondDeadline observation then (false, i.ignoring observation)
      else i.weighInTime run observation acknowledged

end Instance

def Turn.followedBy (first second : Turn) : Turn :=
  ⟨second.inst, first.writes ++ second.writes, second.incidents ++ first.incidents⟩

namespace Instance

/-- `ProbeReconcile::drain`. -/
def sift (i : Instance) : List (ProbeObservation × Bool) → Bool × Turn
  | [] => (false, i.silently)
  | (observation, acknowledged) :: rest =>
      let (last, turn) := i.weigh observation acknowledged
      if last then (true, turn)
      else
        let (last, later) := turn.inst.sift rest
        (last, turn.followedBy later)

/-- The monitor is about to return. -/
def leaving (i : Instance) (write : Write) : Turn :=
  ⟨{ i with phase := .ended, monitor := { i.monitor with finished := true } }, [write], []⟩

/-- The run that `Started` begins, under the next number that a `u64` has. -/
def starting (i : Instance) (pid : Nat) (instanceId : InstanceId) (now : Nat) (nowMs : Int) :
    Turn :=
  let number := min (i.monitor.nextRunId + 1) (2 ^ 64 - 1)
  { inst := { i with
      phase := .alive
      runs := ⟨number, pid, instanceId⟩ :: i.runs
      monitor := { i.monitor with
        nextRunId := number
        current := some ⟨number, pid, false, false, HealthTracker.new i.options.health now⟩
        respawnDeadline :=
          if i.monitor.everReady then some (now + i.options.startupTimeout) else none } }
    writes := [.started instanceId nowMs]
    incidents := [.started number pid now] }

/-- One iteration of `monitor_loop` up to its writes. -/
def turn (i : Instance) (event : MonitorEvent) : Turn :=
  match event with
  | .probeCancelled =>
      if i.probeCancel && !i.monitor.probesCancelled then
        { i.dropRun with monitor := { i.dropRun.monitor with probesCancelled := true } }.silently
      else i.silently
  | .started pid _ instanceId now nowMs => i.starting pid instanceId now nowMs
  | .restarting attempt nowMs =>
      ⟨{ i.dropRun with phase := .startDue }, [.restarting attempt nowMs], []⟩
  | .exited payload =>
      { i.dropRun with
        phase := .exited
        monitor := { i.dropRun.monitor with lastExit := some payload } }.silently
  | .gaveUp diagnostics => i.leaving (.gaveUp diagnostics)
  | .stopped diagnostics | .closed diagnostics => i.leaving (.ended diagnostics)
  | .initialDeadline drained =>
      if !i.monitor.everReady && !i.monitor.timeoutFired then
        let (last, turn) := i.sift drained
        if !last && !turn.inst.monitor.everReady then
          { turn with inst := { turn.inst.timeOut with
              monitor := { turn.inst.timeOut.monitor with timeoutFired := true } } }
        else turn
      else i.silently
  | .respawnDeadline drained =>
      if i.monitor.respawnDeadline.isSome then
        let (last, turn) := i.sift drained
        if !last && turn.inst.monitor.respawnDeadline.isSome then
          { turn with inst := turn.inst.timeOut }
        else turn
      else i.silently
  | .observation observation acknowledged => (i.weigh observation acknowledged).2

def write (i : Instance) (w : Write) : Instance :=
  i.publishStatus (w.compose i.status.health i.status.instanceId i)

end Instance

def Turn.settled (turn : Turn) : Instance := turn.writes.foldl Instance.write turn.inst

namespace Instance

def applyObservation (i : Instance) (observation : ProbeObservation) (acknowledged : Bool) :
    Bool × Instance :=
  (i.weigh observation acknowledged).map id Turn.settled

/-- `ProbeReconcile::drain` over the observations already queued. -/
def drain (i : Instance) : List (ProbeObservation × Bool) → Bool × Instance
  | [] => (false, i)
  | (observation, acknowledged) :: rest =>
      match i.applyObservation observation acknowledged with
      | (true, i) => (true, i)
      | (false, i) => drain i rest

/-- One iteration of `monitor_loop`. -/
def step (i : Instance) (event : MonitorEvent) : Instance :=
  if i.monitor.finished then i
  else match event with
  | .initialDeadline drained =>
      if !i.monitor.everReady && !i.monitor.timeoutFired then
        match i.drain drained with
        | (last, i) =>
            if !last && !i.monitor.everReady then
              { i.timeOut with monitor := { i.timeOut.monitor with timeoutFired := true } }
            else i
      else i
  | .respawnDeadline drained =>
      if i.monitor.respawnDeadline.isSome then
        match i.drain drained with
        | (last, i) => if !last && i.monitor.respawnDeadline.isSome then i.timeOut else i
      else i
  | event => (i.turn event).settled

theorem step_finished {i : Instance} (finished : i.monitor.finished = true) (event : MonitorEvent) :
    i.step event = i := by
  unfold step
  rw [if_pos finished]

/-- The next event, if the supervisor can have sent it. -/
def receive (i : Instance) (event : MonitorEvent) : Instance :=
  if i.supervised event then i.step event else i

/-- The same monitor, with another past on its channel. -/
def showing (i : Instance) (status : InstanceStatus) (version : Nat)
    (history : List (Nat × InstanceStatus)) : Instance :=
  { i with status := status, version := version, history := history }

@[simp] theorem monitor_showing (i : Instance) (status : InstanceStatus) (version : Nat)
    (history : List (Nat × InstanceStatus)) :
    (i.showing status version history).monitor = i.monitor := rfl

/-- Two instances whose channels agree, and whose next value gets the same run. -/
structure SameChannel (i j : Instance) : Prop where
  status : j.status = i.status
  version : j.version = i.version
  history : j.history = i.history
  run : j.monitor.nextRunId = i.monitor.nextRunId

theorem SameChannel.trans {i j k : Instance} (first : i.SameChannel j) (second : j.SameChannel k) :
    i.SameChannel k where
  status := second.status.trans first.status
  version := second.version.trans first.version
  history := second.history.trans first.history
  run := second.run.trans first.run

/-- What a turn about an observation can be: it ignores the observation for one of three
    reasons, or weighs it. -/
inductive Weighs (i : Instance) (observation : ProbeObservation) (acknowledged : Bool) :
    Bool × Turn → Prop where
  | ignored : (∀ run, i.monitor.current = some run → i.monitor.probesCancelled = true ∨
        (observation.runId ≠ run.runId ∨ observation.pid ≠ run.pid) ∨
        i.beyondDeadline observation = true) →
      Weighs i observation acknowledged (false, i.ignoring observation)
  | weighed (run : RunState) : i.monitor.current = some run → i.monitor.probesCancelled = false →
      observation.runId = run.runId → observation.pid = run.pid →
      i.beyondDeadline observation = false →
      Weighs i observation acknowledged (i.weighInTime run observation acknowledged)

theorem weighs_weigh (i : Instance) (observation : ProbeObservation) (acknowledged : Bool) :
    Weighs i observation acknowledged (i.weigh observation acknowledged) := by
  unfold weigh
  cases current : i.monitor.current with
  | none => exact .ignored fun run same => by simp [current] at same
  | some run =>
      have ignored (reason : i.monitor.probesCancelled = true ∨
          (observation.runId ≠ run.runId ∨ observation.pid ≠ run.pid) ∨
          i.beyondDeadline observation = true) :
          Weighs i observation acknowledged (false, i.ignoring observation) := by
        apply Weighs.ignored
        intro other same
        rw [current, Option.some.injEq] at same
        exact same ▸ reason
      dsimp only
      split_ifs with cancelled other late
      · exact ignored (.inl cancelled)
      · exact ignored (.inr (.inl other))
      · exact ignored (.inr (.inr late))
      · rw [not_or, not_not, not_not] at other
        exact .weighed run current (by simpa using cancelled) other.1 other.2 (by simpa using late)

/-- A turn that weighs observations touches neither the channel nor the flags, and has
    no final value to send. -/
structure Turns (i : Instance) (turn : Turn) : Prop where
  channel : i.SameChannel turn.inst
  news : ∀ w ∈ turn.writes, w.isFinal = false
  phase : turn.inst.phase = i.phase
  probeCancel : turn.inst.probeCancel = i.probeCancel

theorem turns_weighInTime (i : Instance) (run : RunState) (observation : ProbeObservation)
    (acknowledged : Bool) : i.Turns (i.weighInTime run observation acknowledged).2 := by
  simp only [weighInTime]
  split
  · exact ⟨⟨rfl, rfl, rfl, rfl⟩, by simp, rfl, rfl⟩
  · split_ifs
    · exact ⟨⟨rfl, rfl, rfl, rfl⟩, by simp [Write.isFinal], rfl, rfl⟩
    · exact ⟨⟨rfl, rfl, rfl, rfl⟩, by simp, rfl, rfl⟩
    · exact ⟨⟨rfl, rfl, rfl, rfl⟩, by simp [Write.isFinal], rfl, rfl⟩

theorem turns_weigh (i : Instance) (observation : ProbeObservation) (acknowledged : Bool) :
    i.Turns (i.weigh observation acknowledged).2 := by
  have weighs := weighs_weigh i observation acknowledged
  generalize i.weigh observation acknowledged = result at weighs ⊢
  cases weighs with
  | ignored => exact ⟨⟨rfl, rfl, rfl, rfl⟩, by simp [ignoring], rfl, rfl⟩
  | weighed run => exact turns_weighInTime i run observation acknowledged

theorem Turns.followedBy {i : Instance} {first second : Turn} (turns : i.Turns first)
    (later : first.inst.Turns second) : i.Turns (first.followedBy second) where
  channel := turns.channel.trans later.channel
  news := by
    intro w member
    rcases List.mem_append.mp member with earlier | rest
    · exact turns.news w earlier
    · exact later.news w rest
  phase := later.phase.trans turns.phase
  probeCancel := later.probeCancel.trans turns.probeCancel

/-- What holds of every turn about one observation, and along them, holds of a drain. -/
theorem sift_induction {P : Instance → Turn → Prop} (nothing : ∀ i : Instance, P i i.silently)
    (weigh : ∀ (i : Instance) observation acknowledged, P i (i.weigh observation acknowledged).2)
    (followed : ∀ (i : Instance) first second, P i first → P first.inst second →
      P i (first.followedBy second))
    (i : Instance) (drained : List (ProbeObservation × Bool)) : P i (i.sift drained).2 := by
  induction drained generalizing i with
  | nil => exact nothing i
  | cons entry rest ih =>
      have first := weigh i entry.1 entry.2
      simp only [sift]
      split_ifs
      · exact first
      · exact followed i _ _ first (ih _)

theorem turns_sift (i : Instance) (drained : List (ProbeObservation × Bool)) :
    i.Turns (i.sift drained).2 := by
  apply sift_induction
  · intro i
    exact ⟨⟨rfl, rfl, rfl, rfl⟩, by simp [silently], rfl, rfl⟩
  · exact turns_weigh
  · intro i first second turns later
    exact turns.followedBy later

/-! ## What a turn leaves in place -/

variable {i : Instance}

/-- What every turn leaves in place. -/
structure Taken (i : Instance) (turn : Turn) : Prop where
  status : turn.inst.status = i.status
  history : turn.inst.history = i.history
  probeCancel : i.probeCancel = true → turn.inst.probeCancel = true
  next : turn.inst.monitor.nextRunId = i.monitor.nextRunId ∨ i.phase = .startDue
  writes : (∀ w ∈ turn.writes, w.isFinal = false) ∨
    turn.inst.monitor.finished = true ∧ ∃ w, turn.writes = [w] ∧ w.isFinal = true

theorem taken_silently {j : Instance} (status : j.status = i.status)
    (history : j.history = i.history) (probeCancel : i.probeCancel = true → j.probeCancel = true)
    (next : j.monitor.nextRunId = i.monitor.nextRunId) : i.Taken j.silently :=
  ⟨status, history, probeCancel, .inl next, .inl (by simp [silently])⟩

theorem Turns.taken {turn : Turn} (turns : i.Turns turn) : i.Taken turn where
  status := turns.channel.status
  history := turns.channel.history
  probeCancel := fun cancel => turns.probeCancel.trans cancel
  next := .inl turns.channel.run
  writes := .inl turns.news

theorem supervised_started {pid : Nat} {real : 0 < pid} {instanceId : InstanceId} {now : Nat}
    {nowMs : Int} (supervised : i.supervised (.started pid real instanceId now nowMs) = true) :
    i.phase = .startDue ∧ i.monitor.nextRunId + 1 < 2 ^ 64 := by
  simpa [Instance.supervised] using supervised

theorem taken_turn {event : MonitorEvent} (supervised : i.supervised event = true) :
    i.Taken (i.turn event) := by
  have same : i.Taken i.silently := taken_silently rfl rfl id rfl
  cases event with
  | probeCancelled =>
      simp only [turn]
      split_ifs
      · exact taken_silently rfl rfl id rfl
      · exact same
  | exited payload => exact taken_silently rfl rfl id rfl
  | started pid real instanceId now nowMs =>
      exact ⟨rfl, rfl, id, .inr (supervised_started supervised).1,
        .inl (by simp [turn, starting, Write.isFinal])⟩
  | restarting attempt nowMs =>
      exact ⟨rfl, rfl, id, .inl rfl, .inl (by simp [turn, Write.isFinal])⟩
  | gaveUp diagnostics | stopped diagnostics | closed diagnostics =>
      exact ⟨rfl, rfl, id, .inl rfl, .inr ⟨rfl, _, rfl, rfl⟩⟩
  | initialDeadline drained | respawnDeadline drained =>
      have turns := turns_sift i drained
      simp only [turn]
      split_ifs
      · exact ⟨turns.channel.status, turns.channel.history, fun _ => rfl,
          .inl turns.channel.run, .inl turns.news⟩
      · exact turns.taken
      · exact same
  | observation observation acknowledged => exact (turns_weigh i observation acknowledged).taken

/-! ## Turns that hear nothing -/

/-- A monitor that no observation gets through to: it has no run, or its probes were
    cancelled. -/
def Deaf (i : Instance) : Prop :=
  i.monitor.current = none ∨ i.monitor.probesCancelled = true

theorem weigh_deaf {i : Instance} (deaf : i.Deaf) (observation : ProbeObservation)
    (acknowledged : Bool) : i.weigh observation acknowledged = (false, i.ignoring observation) := by
  unfold weigh
  rcases deaf with none | cancelled
  · rw [none]
  · simp only [cancelled, if_true]
    split <;> rfl

theorem sift_deaf {i : Instance} (deaf : i.Deaf) (drained : List (ProbeObservation × Bool)) :
    (i.sift drained).2.writes = [] := by
  induction drained with
  | nil => rfl
  | cons entry rest ih =>
      simp only [sift, weigh_deaf deaf, Bool.false_eq_true, if_false]
      exact ih

/-! ## Sending a turn's values at once -/

/-- News is composed from the channel alone, so the monitor may move on before it is
    sent. -/
theorem foldl_write {i j : Instance} (same : i.SameChannel j) (writes : List Write)
    (news : ∀ w ∈ writes, w.isFinal = false) :
    writes.foldl write j = j.showing (writes.foldl write i).status (writes.foldl write i).version
      (writes.foldl write i).history := by
  induction writes generalizing i j with
  | nil =>
      show j = j.showing i.status i.version i.history
      rw [← same.status, ← same.version, ← same.history]
      rfl
  | cons w rest ih =>
      have composed : w.compose j.status.health j.status.instanceId j =
          w.compose i.status.health i.status.instanceId i := by
        have fresh := news w List.mem_cons_self
        cases w <;> simp_all [Write.compose, Write.isFinal, same.status]
      have after : (i.write w).SameChannel (j.write w) :=
        ⟨composed, congrArg (· + 1) same.version, by
          simp only [write, publishStatus, composed, same.run, same.history], same.run⟩
      exact ih after fun w member => news w (List.mem_cons_of_mem _ member)

/-! A turn's values do not depend on what the channel showed before it. -/

section

variable (i : Instance) (status : InstanceStatus) (version : Nat)
  (history : List (Nat × InstanceStatus))

theorem weigh_showing (observation : ProbeObservation) (acknowledged : Bool) :
    (i.showing status version history).weigh observation acknowledged =
      (i.weigh observation acknowledged).map id fun turn =>
        { turn with inst := turn.inst.showing status version history } := by
  have late : (i.showing status version history).beyondDeadline observation =
      i.beyondDeadline observation := rfl
  unfold weigh
  rw [monitor_showing, late]
  cases i.monitor.current with
  | none => rfl
  | some run =>
      dsimp only
      split_ifs
      · rfl
      · rfl
      · rfl
      · unfold weighInTime
        cases run.tracker.observe observation.completedAt observation.result with
        | none => rfl
        | some observed =>
            dsimp only
            split_ifs <;> rfl

theorem drain_showing (drained : List (ProbeObservation × Bool)) :
    (i.showing status version history).drain drained =
      (i.sift drained).map id
        fun turn => turn.writes.foldl write (turn.inst.showing status version history) := by
  induction drained generalizing i status version history with
  | nil => rfl
  | cons entry rest ih =>
      obtain ⟨observation, acknowledged⟩ := entry
      have turns := turns_weigh i observation acknowledged
      rw [drain, applyObservation, weigh_showing, sift]
      generalize i.weigh observation acknowledged = weighed at turns ⊢
      obtain ⟨last, turn⟩ := weighed
      cases last with
      | true => rfl
      | false =>
          -- the first observation's news is sent before or after the rest is weighed
          have same : (turn.inst.showing status version history).SameChannel
              ((turn.inst.sift rest).2.inst.showing status version history) :=
            ⟨rfl, rfl, rfl, (turns_sift turn.inst rest).channel.run⟩
          show (turn.writes.foldl write (turn.inst.showing status version history)).drain rest =
            ((turn.inst.sift rest).1, (turn.writes ++ (turn.inst.sift rest).2.writes).foldl write
              ((turn.inst.sift rest).2.inst.showing status version history))
          rw [List.foldl_append, foldl_write same _ turns.news,
            foldl_write ⟨rfl, rfl, rfl, rfl⟩ _ turns.news]
          exact ih turn.inst _ _ _

end

theorem drain_eq (i : Instance) (drained : List (ProbeObservation × Bool)) :
    i.drain drained = ((i.sift drained).1, (i.sift drained).2.settled) := by
  have channel := (turns_sift i drained).channel
  have same : (i.sift drained).2.inst.showing i.status i.version i.history =
      (i.sift drained).2.inst := by
    rw [← channel.status, ← channel.version, ← channel.history]
    rfl
  have whole := drain_showing i i.status i.version i.history drained
  rwa [Prod.map, same] at whole

/-- An iteration that nobody gets between is a step of the instance. -/
theorem settled_turn {i : Instance} (active : i.monitor.finished = false) (event : MonitorEvent) :
    (i.turn event).settled = i.step event := by
  unfold step
  rw [active, if_neg Bool.false_ne_true]
  cases event with
  | probeCancelled | started | restarting | exited | gaveUp | stopped | closed | observation => rfl
  | initialDeadline drained | respawnDeadline drained =>
      have news := (turns_sift i drained).news
      have moved {j} (same : (i.sift drained).2.inst.SameChannel j) := foldl_write same _ news
      have left : (i.sift drained).2.settled = _ := moved ⟨rfl, rfl, rfl, rfl⟩
      simp only [turn, drain_eq, left, monitor_showing]
      split_ifs
      · exact moved ⟨rfl, rfl, rfl, rfl⟩
      · exact left
      · rfl

end Instance

end Nyanpasu
