import Nyanpasu.Monitor.Interleaving

/-! # How a run earns its readiness

The incidents of a scene are the starts, observations and acknowledgements its monitor
went through, whatever it did about them.  Read from the incidents alone, a run is
ready when enough of its own observations in a row were healthy and in time, and its
supervisor then confirmed the acknowledgement.  Only such a run is ever shown as
running.
-/

namespace Nyanpasu

namespace Incident

def isSuccess : Incident → Bool
  | acknowledged _ success => success
  | _ => false

def acknowledges (run : Nat) : Incident → Bool
  | acknowledged other _ => decide (other = run)
  | _ => false

/-- The observation, if it is one of this run. -/
def observationOf (run pid : Nat) : Incident → Option ProbeObservation
  | observed observation =>
      if observation.runId = run ∧ observation.pid = pid then some observation else none
  | _ => none

end Incident

/-- When a run has to be ready that started `now`, after these incidents: the first
    start has its time from the launch, a start after readiness has its own. -/
def deadlineOf (options : InstanceOptions) (launch : Nat) (earlier : List Incident) (now : Nat) :
    Nat :=
  (if earlier.any Incident.isSuccess then now else launch) + options.startupTimeout

def observationsOf (run pid : Nat) (incidents : List Incident) : List ProbeObservation :=
  incidents.filterMap (Incident.observationOf run pid)

/-- How many of the latest observations were healthy, late ones left out. -/
def timelyStreak (deadline : Nat) (observations : List ProbeObservation) : Nat :=
  ((observations.filter fun o => decide (o.completedAt ≤ deadline)).takeWhile
    fun o => o.result.isHealthy).length

/-- How many of the latest observations were healthy and in time. -/
def strictStreak (deadline : Nat) (observations : List ProbeObservation) : Nat :=
  (observations.takeWhile fun o =>
    o.result.isHealthy && decide (o.completedAt ≤ deadline)).length

/-- The run started, then had enough healthy observations in a row, the last of them in
    time, and was then acknowledged. -/
def Earned (streak : Nat → List ProbeObservation → Nat) (options : InstanceOptions)
    (launch : Nat) (incidents : List Incident) (run pid : Nat) : Prop :=
  ∃ newer last since now earlier,
    incidents = newer ++ .acknowledged run true :: .observed last :: since ++
      .started run pid now :: earlier ∧
    last.runId = run ∧ last.pid = pid ∧
    last.completedAt ≤ deadlineOf options launch earlier now ∧
    options.health.successThreshold ≤ streak (deadlineOf options launch earlier now)
      (observationsOf run pid (.observed last :: since))

/-- A driver makes one attempt after the other, so a run's observations arrive in the
    order in which they were completed. -/
def InOrder (incidents : List Incident) : Prop :=
  ∀ run pid, (observationsOf run pid incidents).Pairwise fun newer older =>
    older.completedAt ≤ newer.completedAt

variable {pid : Nat}

theorem Earned.mono {streak : Nat → List ProbeObservation → Nat} {options : InstanceOptions}
    {launch run : Nat} {incidents : List Incident}
    (earned : Earned streak options launch incidents run pid) (newest : List Incident) :
    Earned streak options launch (newest ++ incidents) run pid := by
  obtain ⟨newer, last, since, now, earlier, rfl, rest⟩ := earned
  exact ⟨newest ++ newer, last, since, now, earlier, by simp, rest⟩

variable {deadline : Nat} {observations : List ProbeObservation}

theorem timelyStreak_eq (inTime : ∀ o ∈ observations, o.completedAt ≤ deadline) :
    timelyStreak deadline observations = strictStreak deadline observations := by
  have all : (observations.filter fun o => decide (o.completedAt ≤ deadline)) = observations :=
    List.filter_eq_self.mpr fun o member => decide_eq_true (inTime o member)
  rw [timelyStreak, all, strictStreak]
  induction observations with
  | nil => rfl
  | cons o rest ih =>
      have rest := ih (fun later member => inTime later (List.mem_cons_of_mem _ member))
        (List.filter_eq_self.mpr fun later member =>
          decide_eq_true (inTime later (List.mem_cons_of_mem _ member)))
      cases healthy : o.result.isHealthy <;>
        simp [healthy, inTime o List.mem_cons_self, rest]

/-- With observations in order nothing late came between, so the streak is strict. -/
theorem Earned.strict {options : InstanceOptions} {launch run : Nat} {incidents : List Incident}
    (earned : Earned timelyStreak options launch incidents run pid) (inOrder : InOrder incidents)
    : Earned strictStreak options launch incidents run pid := by
  obtain ⟨newer, last, since, now, earlier, rfl, sameRun, samePid, inTime, enough⟩ := earned
  refine ⟨newer, last, since, now, earlier, rfl, sameRun, samePid, inTime, ?_⟩
  have ordered := inOrder run pid
  simp only [observationsOf, List.filterMap_append, List.filterMap_cons, List.append_assoc,
    List.cons_append, Incident.observationOf, sameRun, samePid, and_self, if_true,
    List.pairwise_append, List.pairwise_cons] at ordered
  have before : ∀ o ∈ observationsOf run pid (.observed last :: since),
      o.completedAt ≤ deadlineOf options launch earlier now := by
    intro o member
    simp only [observationsOf, List.filterMap_cons, Incident.observationOf, sameRun, samePid,
      and_self, if_true, List.mem_cons] at member
    rcases member with rfl | older
    · exact inTime
    · exact (ordered.2.1.1 o (List.mem_append_left _ older)).trans inTime
  rwa [← timelyStreak_eq before]

/-! ## The streak and the tracker -/

theorem saturatingSucc_le (n : Nat) : saturatingSucc n ≤ n + 1 := by
  unfold saturatingSucc
  split <;> omega

namespace HealthTracker

/-- An unready tracker and the observations it has seen: its count is no higher than
    their streak. -/
structure Behind (t : HealthTracker) (policy : HealthPolicy) (streak : Nat) : Prop where
  policy : t.policy = policy
  unready : t.state ≠ .healthy
  successes : t.consecutiveSuccesses ≤ streak

theorem behind_new (policy : HealthPolicy) (now : Nat) :
    (HealthTracker.new policy now).Behind policy 0 :=
  ⟨rfl, by simp [new], le_rfl⟩

variable {t : HealthTracker} {policy : HealthPolicy}

theorem Behind.observeHealthy {streak : Nat} (behind : t.Behind policy streak) :
    t.observeHealthy.state = .healthy ∧ policy.successThreshold ≤ streak + 1 ∨
      t.observeHealthy.Behind policy (streak + 1) := by
  have step := saturatingSucc_le t.consecutiveSuccesses
  have count := behind.successes
  simp only [HealthTracker.observeHealthy, behind.unready, if_false]
  split
  case isTrue reached =>
    rw [behind.policy] at reached
    exact .inl ⟨rfl, by omega⟩
  case isFalse => exact .inr ⟨behind.policy, behind.unready, step.trans (by omega)⟩

theorem Behind.observeUnhealthy {streak : Nat} (behind : t.Behind policy streak) (now : Nat)
    (detail : Option String) : (t.observeUnhealthy now detail).Behind policy 0 := by
  simp only [HealthTracker.observeUnhealthy]
  split_ifs
  · exact ⟨behind.policy, behind.unready, le_rfl⟩
  · exact ⟨behind.policy, by simp, le_rfl⟩
  · exact ⟨behind.policy, behind.unready, le_rfl⟩

/-- An observation in time takes the tracker to health only at the end of a long enough
    streak, and otherwise leaves it behind. -/
theorem Behind.advance {o : ProbeObservation}
    (behind : t.Behind policy (timelyStreak deadline observations))
    (inTime : o.completedAt ≤ deadline) :
    ((t.advance o.completedAt o.result).state = .healthy ∧
        policy.successThreshold ≤ timelyStreak deadline (o :: observations)) ∨
      (t.advance o.completedAt o.result).Behind policy
        (timelyStreak deadline (o :: observations)) := by
  cases result : o.result with
  | healthy =>
      have longer : timelyStreak deadline (o :: observations) =
          timelyStreak deadline observations + 1 := by
        simp [timelyStreak, inTime, result, ProbeResult.isHealthy]
      rw [longer]
      exact behind.observeHealthy
  | unhealthy detail =>
      have after := behind.observeUnhealthy o.completedAt detail
      exact .inr ⟨after.policy, after.unready, after.successes.trans (Nat.zero_le _)⟩

end HealthTracker

/-! ## What the monitor keeps about its runs -/

/-- A run that has not been acknowledged, in terms of the incidents since its start and
    of those before. -/
structure Unready (options : InstanceOptions) (launch : Nat) (m : Monitor) (run : RunState)
    (since : List Incident) (now : Nat) (earlier : List Incident) : Prop where
  quiet : ∀ incident ∈ since,
    incident.acknowledges run.runId = false ∧ incident.isSuccess = false
  respawn : m.respawnDeadline =
    if earlier.any Incident.isSuccess then some (now + options.startupTimeout) else none
  behind : m.probesCancelled = false → run.tracker.Behind options.health
    (timelyStreak (deadlineOf options launch earlier now)
      (observationsOf run.runId run.pid since))

/-- The current run is the latest start. -/
def Tracks (options : InstanceOptions) (launch : Nat) (m : Monitor) (incidents : List Incident)
    (run : RunState) : Prop :=
  run.runId = m.nextRunId ∧
    ∃ since now earlier, incidents = since ++ .started run.runId run.pid now :: earlier ∧
      (∀ incident ∈ earlier, incident.acknowledges run.runId = false) ∧
      (run.ackAttempted = false → Unready options launch m run since now earlier)

/-- What the monitor's variables say about the incidents. -/
structure Accounts (options : InstanceOptions) (launch : Nat) (i : Instance)
    (incidents : List Incident) : Prop where
  configured : i.options = options
  initial : i.monitor.initialDeadline = launch + options.startupTimeout
  ready : i.monitor.everReady = incidents.any Incident.isSuccess
  fresh : ∀ run, i.monitor.nextRunId < run →
    ∀ incident ∈ incidents, incident.acknowledges run = false
  once : ∀ run, incidents.countP (Incident.acknowledges run) ≤ 1
  due : i.phase = .startDue → i.monitor.current = none
  current : ∀ run, i.monitor.current = some run → Tracks options launch i.monitor incidents run

/-- The process a value announces as running. -/
def Write.announced : Write → Option Nat
  | running pid _ _ => some pid
  | _ => none

section

variable {options : InstanceOptions} {launch : Nat} {i j : Instance} {incidents : List Incident}
  {run : RunState} {since earlier : List Incident} {now : Nat} {observation : ProbeObservation}

/-- The deadline the monitor checks is the one the incidents give. -/
theorem Accounts.late_iff (accounts : Accounts options launch i incidents)
    (all : incidents = since ++ .started run.runId run.pid now :: earlier)
    (unready : Unready options launch i.monitor run since now earlier) :
    i.beyondDeadline observation = true ↔
      deadlineOf options launch earlier now < observation.completedAt := by
  have ready : i.monitor.everReady = earlier.any Incident.isSuccess := by
    have none : since.any Incident.isSuccess = false :=
      List.any_eq_false.mpr fun incident member => by simp [(unready.quiet incident member).2]
    rw [accounts.ready, all, List.any_append, List.any_cons, none]
    rfl
  simp only [Instance.beyondDeadline, ready, accounts.initial, unready.respawn, deadlineOf]
  cases earlier.any Incident.isSuccess <;> simp

theorem observationsOf_other {run : Nat} (other : observation.runId ≠ run ∨ observation.pid ≠ pid)
    (since : List Incident) :
    observationsOf run pid (.observed observation :: since) = observationsOf run pid since := by
  have none : ¬ (observation.runId = run ∧ observation.pid = pid) := by tauto
  simp [observationsOf, Incident.observationOf, none]

theorem observationsOf_same {run : Nat} (sameRun : observation.runId = run)
    (samePid : observation.pid = pid) (since : List Incident) :
    observationsOf run pid (.observed observation :: since) =
      observation :: observationsOf run pid since := by
  simp [observationsOf, Incident.observationOf, sameRun, samePid]

/-- A run stays unready under an observation that its tracker took or need not take. -/
theorem Unready.observe {m : Monitor} (unready : Unready options launch m run since now earlier)
    (tracker : HealthTracker) (observation : ProbeObservation)
    (behind : m.probesCancelled = false → tracker.Behind options.health
      (timelyStreak (deadlineOf options launch earlier now)
        (observationsOf run.runId run.pid (.observed observation :: since)))) :
    Unready options launch m { run with tracker := tracker } (.observed observation :: since) now
      earlier where
  quiet := by
    intro incident member
    rcases List.mem_cons.mp member with rfl | older
    · exact ⟨rfl, rfl⟩
    · exact unready.quiet incident older
  respawn := unready.respawn
  behind := behind

section

variable (accounts : Accounts options launch i incidents)

include accounts

/-- An observation that is not weighed changes nothing about the run. -/
theorem Accounts.unheard (all : incidents = since ++ .started run.runId run.pid now :: earlier)
    (unready : Unready options launch i.monitor run since now earlier)
    (reason : i.monitor.probesCancelled = true ∨ (observation.runId ≠ run.runId ∨ observation.pid ≠ run.pid) ∨ i.beyondDeadline observation = true) :
    Unready options launch i.monitor run (.observed observation :: since) now earlier := by
  apply unready.observe run.tracker observation
  intro probing
  rcases reason with cancelled | other | late
  · simp [probing] at cancelled
  · rw [observationsOf_other other]
    exact unready.behind probing
  · have late := (accounts.late_iff all unready).mp late
    by_cases other : observation.runId ≠ run.runId ∨ observation.pid ≠ run.pid
    · rw [observationsOf_other other]
      exact unready.behind probing
    · rw [not_or, not_not, not_not] at other
      rw [observationsOf_same other.1 other.2, timelyStreak,
        List.filter_cons_of_neg (by simp [late])]
      exact unready.behind probing

/-- Incidents that acknowledge nothing leave the books as they are, up to the run. -/
theorem Accounts.observed (observation : ProbeObservation) (configured : j.options = i.options)
    (initial : j.monitor.initialDeadline = i.monitor.initialDeadline)
    (ready : j.monitor.everReady = i.monitor.everReady)
    (next : j.monitor.nextRunId = i.monitor.nextRunId)
    (due : j.phase = .startDue → j.monitor.current = none)
    (current : ∀ run, j.monitor.current = some run → Tracks options launch j.monitor (.observed observation :: incidents) run) :
    Accounts options launch j (.observed observation :: incidents) where
  configured := configured.trans accounts.configured
  initial := initial.trans accounts.initial
  ready := by
    rw [ready, accounts.ready]
    rfl
  fresh := by
    intro run later incident member
    rcases List.mem_cons.mp member with rfl | older
    · rfl
    · exact accounts.fresh run (next ▸ later) incident older
  once := by
    intro run
    rw [List.countP_cons_of_neg (by simp [Incident.acknowledges])]
    exact accounts.once run
  due := due
  current := current

theorem Accounts.ignore
    (reason : ∀ run, i.monitor.current = some run → i.monitor.probesCancelled = true ∨ (observation.runId ≠ run.runId ∨ observation.pid ≠ run.pid) ∨ i.beyondDeadline observation = true) :
    Accounts options launch i (.observed observation :: incidents) := by
  apply accounts.observed observation rfl rfl rfl rfl accounts.due
  intro run current
  obtain ⟨latest, since, now, earlier, all, before, unready⟩ := accounts.current run current
  refine ⟨latest, .observed observation :: since, now, earlier, by rw [all]; rfl, before, ?_⟩
  intro untried
  exact accounts.unheard all (unready untried) (reason run current)

/-- What a turn about observations gives: the books go on, and a value that announces a
    running process is for the run they make ready. -/
structure Earns (options : InstanceOptions) (launch : Nat) (i : Instance)
    (incidents : List Incident) (turn : Turn) : Prop where
  accounts : Accounts options launch turn.inst (turn.incidents ++ incidents)
  next : turn.inst.monitor.nextRunId = i.monitor.nextRunId
  earned : ∀ w ∈ turn.writes, ∀ pid, w.announced = some pid →
    Earned timelyStreak options launch (turn.incidents ++ incidents) i.monitor.nextRunId pid

section

variable (current : i.monitor.current = some run)

include current

/-- The tracker has not got there yet, or there is nothing left to ask for. -/
theorem Accounts.weighed_on (latest : run.runId = i.monitor.nextRunId)
    (all : incidents = since ++ .started run.runId run.pid now :: earlier)
    (before : ∀ incident ∈ earlier, incident.acknowledges run.runId = false)
    {tracker : HealthTracker}
    (unready : run.ackAttempted = false → Unready options launch i.monitor { run with tracker := tracker } (.observed observation :: since) now earlier)
    (update : TrackerUpdate) :
    Earns options launch i incidents
      ⟨{ i with monitor := { i.monitor with current := some { run with tracker := tracker } } },
        [.observed update observation], [.observed observation]⟩ := by
  refine ⟨accounts.observed observation rfl rfl rfl rfl ?_ ?_, rfl, by simp [Write.announced]⟩
  · intro due
    simp [accounts.due due] at current
  · intro other same
    cases same
    refine ⟨latest, .observed observation :: since, now, earlier, by rw [all]; rfl, before,
      fun untried => ?_⟩
    have after := unready untried
    exact { after with }

/-- The acknowledgement of a run that has not been tried before. -/
theorem Accounts.acknowledge (untried : run.ackAttempted = false) (success : Bool)
    (kept : j.options = i.options ∧ j.monitor.initialDeadline = i.monitor.initialDeadline ∧ j.monitor.everReady = (success || i.monitor.everReady) ∧ j.monitor.nextRunId = i.monitor.nextRunId ∧ j.phase = i.phase)
    (tried : ∃ after, j.monitor.current = some after ∧ after.runId = run.runId ∧ after.pid = run.pid ∧ after.ackAttempted = true) :
    Accounts options launch j
      (.acknowledged run.runId success :: .observed observation :: incidents) := by
  obtain ⟨configured, initial, ready, next, phase⟩ := kept
  obtain ⟨latest, since, now, earlier, all, before, unready⟩ := accounts.current run current
  have quiet := (unready untried).quiet
  exact
    { configured := configured.trans accounts.configured
      initial := initial.trans accounts.initial
      ready := by
        rw [ready, accounts.ready]
        rfl
      fresh := by
        intro later newer incident member
        have newer : i.monitor.nextRunId < later := next ▸ newer
        simp only [List.mem_cons] at member
        rcases member with rfl | rfl | older
        · simp only [Incident.acknowledges, decide_eq_false_iff_not]
          omega
        · rfl
        · exact accounts.fresh later newer incident older
      once := by
        intro other
        by_cases same : run.runId = other
        · -- nothing acknowledged this run before
          have none : incidents.countP (Incident.acknowledges other) = 0 := by
            rw [List.countP_eq_zero]
            intro incident member
            rw [all, List.mem_append, List.mem_cons] at member
            rcases member with newer | rfl | older
            · simp [← same, (quiet incident newer).1]
            · simp [Incident.acknowledges]
            · simp [← same, before incident older]
          simp [List.countP_cons, Incident.acknowledges, none]
          split <;> omega
        · rw [List.countP_cons_of_neg (by simpa [Incident.acknowledges] using same),
            List.countP_cons_of_neg (by simp [Incident.acknowledges])]
          exact accounts.once other
      due := by
        intro due
        simp [accounts.due (phase ▸ due)] at current
      current := by
        intro other same
        obtain ⟨after, installed, sameRun, samePid, done⟩ := tried
        rw [installed, Option.some.injEq] at same
        subst same
        refine ⟨by rw [sameRun, latest, next],
          .acknowledged run.runId success :: .observed observation :: since, now, earlier,
          by rw [all, sameRun, samePid]; rfl, ?_, fun untried => by simp [done] at untried⟩
        rw [sameRun]
        exact before }

theorem Accounts.weighInTime (probing : i.monitor.probesCancelled = false)
    (sameRun : observation.runId = run.runId) (samePid : observation.pid = run.pid)
    (punctual : i.beyondDeadline observation = false) (acknowledged : Bool) :
    Earns options launch i incidents (i.weighInTime run observation acknowledged).2 := by
  obtain ⟨latest, since, now, earlier, all, before, unready⟩ := accounts.current run current
  unfold Instance.weighInTime
  cases observed : run.tracker.observe observation.completedAt observation.result with
  | none =>
      -- a panic leaves no run
      exact ⟨accounts.observed observation rfl rfl rfl rfl (fun _ => rfl) (fun _ none => by cases none),
        rfl, by simp⟩
  | some answer =>
      obtain ⟨update, tracker⟩ := answer
      obtain ⟨rfl, shows⟩ := HealthTracker.observe_eq_some observed
      have inTime (untried : run.ackAttempted = false) :
          observation.completedAt ≤ deadlineOf options launch earlier now := by
        apply Nat.not_lt.mp
        intro late
        rw [(accounts.late_iff all (unready untried)).mpr late] at punctual
        cases punctual
      have weighed (untried : run.ackAttempted = false) :=
        ((unready untried).behind probing).advance (inTime untried)
      simp only [← observationsOf_same sameRun samePid] at weighed
      dsimp only
      split
      case isTrue reached =>
        obtain ⟨untried, healthy⟩ := Bool.and_eq_true_iff.mp reached
        have untried : run.ackAttempted = false := by simpa using untried
        have healthy := shows.symm.trans (of_decide_eq_true healthy)
        have enough := ((weighed untried).resolve_right fun behind => behind.unready healthy).2
        cases acknowledged with
        | true =>
            refine ⟨?_, rfl, ?_⟩
            · exact accounts.acknowledge current untried true ⟨rfl, rfl, rfl, rfl, rfl⟩
                ⟨_, rfl, rfl, rfl, rfl⟩
            · intro w member pid announces
              cases List.mem_singleton.mp member
              cases announces
              rw [← latest]
              exact ⟨[], observation, since, now, earlier, by rw [all]; rfl, sameRun, samePid,
                inTime untried, enough⟩
        | false =>
            refine ⟨?_, rfl, by simp⟩
            exact accounts.acknowledge current untried false ⟨rfl, rfl, rfl, rfl, rfl⟩
              ⟨_, rfl, rfl, rfl, rfl⟩
      case isFalse unreached =>
        refine accounts.weighed_on current latest all before (fun untried => ?_) update
        apply (unready untried).observe _ observation
        intro _
        refine (weighed untried).resolve_left fun reached => unreached ?_
        simp [untried, shows, reached.1]

end

theorem Accounts.weigh (observation : ProbeObservation) (acknowledged : Bool) :
    Earns options launch i incidents (i.weigh observation acknowledged).2 := by
  have weighs := Instance.weighs_weigh i observation acknowledged
  generalize i.weigh observation acknowledged = result at weighs ⊢
  cases weighs with
  | ignored reason => exact ⟨accounts.ignore reason, rfl, by simp [Instance.ignoring]⟩
  | weighed run current probing sameRun samePid punctual =>
      exact accounts.weighInTime current probing sameRun samePid punctual acknowledged

end

theorem Earns.followedBy {first second : Turn} (earns : Earns options launch i incidents first)
    (later : Earns options launch first.inst (first.incidents ++ incidents) second) :
    Earns options launch i incidents (first.followedBy second) where
  accounts := by
    rw [Turn.followedBy, List.append_assoc]
    exact later.accounts
  next := later.next.trans earns.next
  earned := by
    intro w member pid announces
    rw [Turn.followedBy, List.append_assoc]
    rcases List.mem_append.mp member with older | newer
    · exact (earns.earned w older pid announces).mono second.incidents
    · exact earns.next ▸ later.earned w newer pid announces

theorem Accounts.sift (accounts : Accounts options launch i incidents)
    (drained : List (ProbeObservation × Bool)) :
    Earns options launch i incidents (i.sift drained).2 := by
  apply Instance.sift_induction
    (P := fun i turn => ∀ incidents, Accounts options launch i incidents →
      Earns options launch i incidents turn)
  · intro i incidents accounts
    exact ⟨accounts, rfl, by simp [Instance.silently]⟩
  · intro i observation acknowledged incidents accounts
    exact accounts.weigh observation acknowledged
  · intro i first second earns later incidents accounts
    have first := earns incidents accounts
    exact first.followedBy (later _ first.accounts)
  · exact accounts

/-- A monitor that has let go of its run. -/
theorem Accounts.dropped (accounts : Accounts options launch i incidents)
    (configured : j.options = i.options)
    (initial : j.monitor.initialDeadline = i.monitor.initialDeadline)
    (ready : j.monitor.everReady = i.monitor.everReady)
    (next : j.monitor.nextRunId = i.monitor.nextRunId) (none : j.monitor.current = none) :
    Accounts options launch j incidents where
  configured := configured.trans accounts.configured
  initial := initial.trans accounts.initial
  ready := ready.trans accounts.ready
  fresh := next ▸ accounts.fresh
  once := accounts.once
  due := fun _ => none
  current := fun run current => by simp [none] at current

theorem Accounts.start (accounts : Accounts options launch i incidents)
    (room : i.monitor.nextRunId + 1 < 2 ^ 64) (pid : Nat) (instanceId : InstanceId) (now : Nat)
    (nowMs : Int) :
    Accounts options launch (i.starting pid instanceId now nowMs).inst
      ((i.starting pid instanceId now nowMs).incidents ++ incidents) where
  __ := accounts
  fresh := by
    intro run newer incident member
    have newer : min (i.monitor.nextRunId + 1) (2 ^ 64 - 1) < run := newer
    rcases List.mem_cons.mp member with rfl | older
    · rfl
    · exact accounts.fresh run (by omega) incident older
  once := by
    intro run
    rw [Instance.starting, List.singleton_append,
      List.countP_cons_of_neg (by simp [Incident.acknowledges])]
    exact accounts.once run
  due := fun due => by simp [Instance.starting] at due
  current := by
    intro run current
    simp only [Instance.starting, Option.some.injEq] at current
    subst current
    have newer : i.monitor.nextRunId < min (i.monitor.nextRunId + 1) (2 ^ 64 - 1) := by omega
    refine ⟨rfl, [], now, incidents, rfl, accounts.fresh _ newer, fun _ => ?_⟩
    refine ⟨by simp, ?_, fun _ => ?_⟩
    · simp only [Instance.starting, accounts.ready, accounts.configured]
    · rw [accounts.configured]
      exact HealthTracker.behind_new options.health now

/-- What any turn gives; a start moves on to the next number. -/
structure Goes (options : InstanceOptions) (launch : Nat) (incidents : List Incident)
    (turn : Turn) : Prop where
  accounts : Accounts options launch turn.inst (turn.incidents ++ incidents)
  earned : ∀ w ∈ turn.writes, ∀ pid, w.announced = some pid →
    Earned timelyStreak options launch (turn.incidents ++ incidents)
      turn.inst.monitor.nextRunId pid

theorem Earns.goes {turn : Turn} (earns : Earns options launch i incidents turn) :
    Goes options launch incidents turn :=
  ⟨earns.accounts, fun w member pid announces =>
    earns.next ▸ earns.earned w member pid announces⟩

/-- A drain after which the run is given up. -/
theorem Earns.timeOut {turn : Turn} (earns : Earns options launch i incidents turn)
    (configured : j.options = turn.inst.options)
    (initial : j.monitor.initialDeadline = turn.inst.monitor.initialDeadline)
    (ready : j.monitor.everReady = turn.inst.monitor.everReady)
    (next : j.monitor.nextRunId = turn.inst.monitor.nextRunId)
    (none : j.monitor.current = none) : Goes options launch incidents { turn with inst := j } where
  accounts := earns.accounts.dropped configured initial ready next none
  earned := fun w member pid announces => by
    rw [next]
    exact earns.goes.earned w member pid announces

theorem Accounts.turn (accounts : Accounts options launch i incidents) {event : MonitorEvent}
    (supervised : i.supervised event = true) : Goes options launch incidents (i.turn event) := by
  have same : Goes options launch incidents i.silently :=
    ⟨accounts, by simp [Instance.silently]⟩
  have leaving (w : Write) (final : w.announced = none) :
      Goes options launch incidents (i.leaving w) := by
    refine ⟨⟨accounts.configured, accounts.initial, accounts.ready, accounts.fresh, accounts.once,
      fun due => by simp [Instance.leaving] at due, ?_⟩, ?_⟩
    · intro run current
      obtain ⟨latest, since, now, earlier, all, before, unready⟩ := accounts.current run current
      refine ⟨latest, since, now, earlier, all, before, fun untried => ?_⟩
      exact ⟨(unready untried).quiet, (unready untried).respawn, (unready untried).behind⟩
    · intro other member pid announces
      rw [List.mem_singleton.mp member, final] at announces
      cases announces
  cases event with
  | probeCancelled =>
      simp only [Instance.turn]
      split_ifs
      · exact ⟨accounts.dropped rfl rfl rfl rfl rfl, by simp [Instance.silently]⟩
      · exact same
  | exited payload =>
      exact ⟨accounts.dropped rfl rfl rfl rfl rfl, by simp [Instance.turn, Instance.silently]⟩
  | started pid real instanceId now nowMs =>
      have room := (Instance.supervised_started supervised).2
      exact ⟨accounts.start room pid instanceId now nowMs, by
        simp [Instance.turn, Instance.starting, Write.announced]⟩
  | restarting attempt nowMs =>
      exact ⟨accounts.dropped rfl rfl rfl rfl rfl, by simp [Instance.turn, Write.announced]⟩
  | gaveUp diagnostics | stopped diagnostics | closed diagnostics => exact leaving _ rfl
  | initialDeadline drained | respawnDeadline drained =>
      have earns := accounts.sift drained
      simp only [Instance.turn]
      split_ifs
      · exact earns.timeOut rfl rfl rfl rfl rfl
      · exact earns.goes
      · exact same
  | observation observation acknowledged => exact (accounts.weigh observation acknowledged).goes

/-- A turn after which a start is due announced it, or it was due before and the turn
    said nothing. -/
theorem turn_due {event : MonitorEvent} (due : i.phase = .startDue → i.monitor.current = none)
    (after : (i.turn event).inst.phase = .startDue) :
    (i.phase = .startDue ∧ (i.turn event).writes = []) ∨
      ∃ attempt nowMs, (i.turn event).writes = [.restarting attempt nowMs] := by
  have quiet (drained : List (ProbeObservation × Bool)) (before : i.phase = .startDue) :
      (i.sift drained).2.writes = [] := Instance.sift_deaf (.inl (due before)) drained
  cases event with
  | probeCancelled =>
      simp only [Instance.turn] at after ⊢
      split_ifs at after ⊢ <;> exact .inl ⟨after, rfl⟩
  | started | exited | gaveUp | stopped | closed => cases after
  | restarting attempt nowMs => exact .inr ⟨attempt, nowMs, rfl⟩
  | initialDeadline drained | respawnDeadline drained =>
      have kept := (Instance.turns_sift i drained).phase
      simp only [Instance.turn] at after ⊢
      split_ifs at after ⊢
      · have before := kept.symm.trans after
        exact .inl ⟨before, quiet drained before⟩
      · have before := kept.symm.trans after
        exact .inl ⟨before, quiet drained before⟩
      · exact .inl ⟨after, rfl⟩
  | observation observation acknowledged =>
      have before := (Instance.turns_weigh i observation acknowledged).phase.symm.trans after
      refine .inl ⟨before, ?_⟩
      simp only [Instance.turn, Instance.weigh_deaf (.inl (due before))]
      rfl

/-- The accounts do not look at the channel or at the flags of the stop request. -/
theorem Accounts.beside (accounts : Accounts options launch i incidents) (configured : j.options = i.options)
    (phase : j.phase = i.phase) (monitor : j.monitor = i.monitor) :
    Accounts options launch j incidents where
  configured := configured.trans accounts.configured
  initial := monitor ▸ accounts.initial
  ready := monitor ▸ accounts.ready
  fresh := monitor ▸ accounts.fresh
  once := accounts.once
  due := fun due => monitor ▸ accounts.due (phase ▸ due)
  current := monitor ▸ accounts.current

end

/-- An observation of another run, or of another process, is dropped. -/
theorem Instance.weigh_stale {i : Instance} {observation : ProbeObservation}
    (stale : ∀ run, i.monitor.current = some run →
      observation.runId ≠ run.runId ∨ observation.pid ≠ run.pid) (acknowledged : Bool) :
    i.weigh observation acknowledged = (false, i.ignoring observation) := by
  have weighs := Instance.weighs_weigh i observation acknowledged
  generalize i.weigh observation acknowledged = result at weighs ⊢
  cases weighs with
  | ignored => rfl
  | weighed run current probing sameRun samePid =>
      rcases stale run current with other | other
      · exact absurd sameRun other
      · exact absurd samePid other

/-! ## Along a run -/

namespace Scene

/-- Whatever shows a process as running, on the channel or on its way there, was earned
    by the latest run; and no run is shown while the next start is due. -/
structure Credits (options : InstanceOptions) (launch : Nat) (s : Scene) : Prop where
  accounts : Accounts options launch s.inst s.incidents
  history : ∀ number status pid, (number, status) ∈ s.inst.history →
    status.state = .running pid → Earned timelyStreak options launch s.incidents number pid
  shown : ∀ pid, s.inst.status.state = .running pid →
    Earned timelyStreak options launch s.incidents s.inst.monitor.nextRunId pid
  writes : ∀ w ∈ s.writes, ∀ pid, w.announced = some pid →
    Earned timelyStreak options launch s.incidents s.inst.monitor.nextRunId pid
  drafted : ∀ w status, s.hand = .draft w status →
    (∀ pid, status.state = .running pid →
      Earned timelyStreak options launch s.incidents s.inst.monitor.nextRunId pid) ∧
    ∀ attempt nowMs, w = .restarting attempt nowMs → status.state = .restarting attempt
  due : s.aborted = false → s.inst.phase = .startDue →
    (s.writes = [] ∧ ∀ pid, s.inst.status.state ≠ .running pid) ∨
      ∃ attempt nowMs, s.writes = [.restarting attempt nowMs]

variable {options : InstanceOptions} {launch : Nat} {s s' : Scene}

theorem credits_launched (epoch : Epoch) (options : InstanceOptions)
    (controller : ResolvedController) (now : Nat) (nowMs : Int) :
    Credits options now (launched epoch options controller now nowMs) where
  accounts :=
    { configured := rfl
      initial := rfl
      ready := rfl
      fresh := by simp [launched]
      once := by simp [launched]
      due := fun _ => rfl
      current := fun run current => by cases current }
  history := by
    intro number status pid member running
    cases List.mem_singleton.mp member
    cases running
  shown := fun pid running => by cases running
  writes := by simp [launched, Scene.writes, Hand.writes]
  drafted := fun w status drafted => by cases drafted
  due := fun _ _ => .inl ⟨rfl, fun pid running => by cases running⟩

section

variable (credits : Credits options launch s)

include credits

theorem Credits.take {event : MonitorEvent} (empty : s.writes = []) (alive : s.aborted = false)
    (supervised : s.inst.supervised event = true) : Credits options launch (s.take event) := by
  have goes := credits.accounts.turn supervised
  have taken := Instance.taken_turn supervised
  have writes := writes_take empty event
  -- a start finds no run on the channel
  have started : s.inst.phase = .startDue → ∀ pid, s.inst.status.state ≠ .running pid := by
    intro due
    rcases credits.due alive due with ⟨_, idle⟩ | ⟨attempt, nowMs, restarting⟩
    · exact idle
    · simp [empty] at restarting
  exact
    { accounts := goes.accounts
      history := by
        intro number status pid member running
        have member : (number, status) ∈ s.inst.history := taken.history ▸ member
        exact (credits.history number status pid member running).mono _
      shown := by
        intro pid running
        have running : s.inst.status.state = .running pid := taken.status ▸ running
        rcases taken.next with next | due
        · show Earned _ _ _ _ (s.inst.turn event).inst.monitor.nextRunId pid
          rw [next]
          exact (credits.shown pid running).mono _
        · exact absurd running (started due pid)
      writes := by
        rw [writes]
        exact goes.earned
      drafted := fun w status drafted => by simp [Scene.take, hand_free empty] at drafted
      due := by
        intro _ after
        rw [writes]
        rcases turn_due credits.accounts.due after with ⟨before, none⟩ | restarting
        · refine .inl ⟨none, ?_⟩
          simp only [Scene.take, taken.status]
          exact started before
        · exact .inr restarting }

/-- A move of the monitor's hand, or of the stop request beside the channel. -/
theorem Credits.move {hand : Hand} {pending : List Write} {stop : StopPhase}
    (same : hand.writes ++ pending = s.writes)
    (drafted : ∀ w status, hand = .draft w status → (∀ pid, status.state = .running pid → Earned timelyStreak options launch s.incidents s.inst.monitor.nextRunId pid) ∧ ∀ attempt nowMs, w = .restarting attempt nowMs → status.state = .restarting attempt) :
    Credits options launch { s with hand := hand, pending := pending, stop := stop } := by
  have same : Scene.writes { s with hand := hand, pending := pending, stop := stop } = s.writes :=
    same
  exact
    { credits with
      writes := by
        rw [same]
        exact credits.writes
      drafted := drafted
      due := by
        rw [same]
        exact credits.due }

theorem Credits.compose {w : Write} (member : w ∈ s.writes) (health : Option HealthStatus)
    (instanceId : Option InstanceId) :
    (∀ pid, (w.compose health instanceId s.inst).state = .running pid →
      Earned timelyStreak options launch s.incidents s.inst.monitor.nextRunId pid) ∧
    ∀ attempt nowMs, w = .restarting attempt nowMs →
      (w.compose health instanceId s.inst).state = .restarting attempt := by
  constructor
  · intro pid running
    cases w with
    | started | observed => exact credits.shown pid running
    | running other update observation =>
        cases running
        exact credits.writes _ member _ rfl
    | restarting | gaveUp | ended => cases running
  · rintro attempt nowMs rfl
    rfl

theorem Credits.send {w : Write} {status : InstanceStatus} (hand : s.hand = .draft w status) :
    Credits options launch { s with inst := s.inst.publishStatus status, hand := .free } := by
  have all : s.writes = w :: s.pending := by simp [Scene.writes, hand, Hand.writes]
  obtain ⟨earned, restarting⟩ := credits.drafted w status hand
  exact
    { accounts := credits.accounts.beside rfl rfl rfl
      history := by
        intro number shown pid member running
        rcases List.mem_cons.mp member with newest | older
        · cases newest
          exact earned pid running
        · exact credits.history number shown pid older running
      shown := earned
      writes := fun later member => credits.writes later (all ▸ List.mem_cons_of_mem _ member)
      drafted := fun w status drafted => by cases drafted
      due := by
        intro alive due
        rcases credits.due alive due with ⟨none, _⟩ | ⟨attempt, nowMs, only⟩
        · simp [all] at none
        · rw [all, List.cons.injEq] at only
          refine .inl ⟨only.2, fun pid running => ?_⟩
          have running : status.state = .running pid := running
          rw [restarting attempt nowMs only.1] at running
          cases running }

/-- A value of the stop request. -/
theorem Credits.publish {status : InstanceStatus} {stop : StopPhase}
    (idle : ∀ pid, status.state ≠ .running pid) :
    Credits options launch { s with inst := s.inst.publishStatus status, stop := stop } where
  __ := credits
  accounts := credits.accounts.beside rfl rfl rfl
  history := by
    intro number shown pid member running
    rcases List.mem_cons.mp member with newest | older
    · cases newest
      exact absurd running (idle pid)
    · exact credits.history number shown pid older running
  shown := fun pid running => absurd running (idle pid)
  due := by
    intro alive due
    rcases credits.due alive due with ⟨none, _⟩ | restarting
    · exact .inl ⟨none, idle⟩
    · exact .inr restarting

theorem Credits.step {action : Action} (acts : s.act action = some s')
    : Credits options launch s' := by
  cases acts_of_act acts with
  | take event empty alive _ _ supervised => exact credits.take empty alive supervised
  | readHealth write rest hand pending =>
      exact credits.move (by simp [Scene.writes, hand, pending, Hand.writes])
        fun w status drafted => by cases drafted
  | readIdentity write health hand =>
      exact credits.move (by simp [Scene.writes, hand, Hand.writes])
        fun w status drafted => by cases drafted
  | compose write health instanceId hand =>
      have member : write ∈ s.writes := by simp [Scene.writes, hand, Hand.writes]
      refine credits.move (by simp [Scene.writes, hand, Hand.writes]) fun w status drafted => ?_
      cases drafted
      exact credits.compose member health instanceId
  | send write status hand => exact credits.send hand
  | found | check | join | conclude => exact credits.move rfl credits.drafted
  | flag =>
      exact { credits with accounts := credits.accounts.beside rfl rfl rfl }
  | publishStopping => exact credits.publish fun pid running => by cases running
  | abort =>
      exact
        { credits with
          writes := by simp [Scene.writes, Hand.writes]
          drafted := fun w status drafted => by cases drafted
          due := fun alive => by cases alive }
  | confirm => exact credits.publish fun pid running => by cases running

end

theorem Runs.credits {epoch : Epoch} {controller : ResolvedController} {now : Nat} {nowMs : Int}
    (runs : Runs (launched epoch options controller now nowMs) s) : Credits options now s := by
  induction runs with
  | refl => exact credits_launched epoch options controller now nowMs
  | tail _ step ih =>
      obtain ⟨action, acts⟩ := step
      exact ih.step acts

/-- A run is shown as running only once it has earned it, at most one acknowledgement is
    asked for each run, and no observation of another run or process gets
    anywhere. -/
theorem readiness_earned {epoch : Epoch} {controller : ResolvedController} {now : Nat}
    {nowMs : Int} (runs : Runs (launched epoch options controller now nowMs) s) :
    (∀ number status pid, (number, status) ∈ s.inst.history → status.state = .running pid →
      Earned timelyStreak options now s.incidents number pid ∧
        (InOrder s.incidents → Earned strictStreak options now s.incidents number pid)) ∧
    (∀ run, s.incidents.countP (Incident.acknowledges run) ≤ 1) ∧
    ∀ (i : Instance) (observation : ProbeObservation) (acknowledged : Bool),
      (∀ run, i.monitor.current = some run →
        observation.runId ≠ run.runId ∨ observation.pid ≠ run.pid) →
      i.weigh observation acknowledged = (false, i.ignoring observation) := by
  have credits := Runs.credits runs
  refine ⟨?_, credits.accounts.once, ?_⟩
  · intro number status pid member running
    have earned := credits.history number status pid member running
    exact ⟨earned, earned.strict⟩
  · intro i observation acknowledged stale
    exact Instance.weigh_stale stale acknowledged

/-- Two healthy observations in a row are asked for. -/
def patient : InstanceOptions :=
  { InstanceOptions.default with health :=
    { HealthPolicy.default with successThreshold := 2, successPositive := Nat.two_pos } }

/-- One healthy observation, a stale one, and a second one that is acknowledged. -/
def twiceHealthy : List Action :=
  [.take (.started 2 Nat.two_pos 40 0 0), .advance, .advance, .advance, .advance,
    .take (.observation ⟨1, 2, .readiness, 5, 5, .healthy⟩ true),
    .advance, .advance, .advance, .advance,
    .take (.observation ⟨0, 6, .readiness, 6, 6, .unhealthy none⟩ true),
    .take (.observation ⟨1, 2, .readiness, 8, 8, .healthy⟩ true),
    .advance, .advance, .advance, .advance]

/-- The instance after those observations. -/
def readied : Scene :=
  (launched ⟨1, Nat.one_pos, Epoch.one_bounded⟩ patient ⟨.http "", none⟩ 0 0).replay twiceHealthy

theorem readiness_earned_twice :
    readied.inst.history.map (fun entry => (entry.1, entry.2.state)) =
      [(1, .running 2), (1, .starting), (1, .starting), (0, .starting)] ∧
    Earned timelyStreak patient 0 readied.incidents 1 2 := by
  have runs := runs_replay
    (launched ⟨1, Nat.one_pos, Epoch.one_bounded⟩ patient ⟨.http "", none⟩ 0 0) twiceHealthy
  exact ⟨by decide +kernel, ((readiness_earned runs).1 1 _ 2 List.mem_cons_self rfl).1⟩

end Scene

end Nyanpasu
