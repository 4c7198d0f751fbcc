import Nyanpasu.Guarantees.Stopping
import Nyanpasu.Machine

/-! # Health and lifecycle

A run that is not acknowledged yet has a tracker all the same, and what the tracker says is
published with the lifecycle that is on the channel.  The two fit as long as such a run's
tracker neither reaches the failure threshold nor is asked again after a refused
acknowledgement, and `Stopping` is not published under an observation whose value is
still to be composed.
-/

namespace Nyanpasu

def InstanceState.isRunning : InstanceState → Bool
  | running _ => true
  | _ => false

/-- Starting and restarting go with starting health or none, and any other health with
    running only. -/
structure InstanceStatus.HealthMatches (status : InstanceStatus) : Prop where
  starting : (status.state = .starting ∨ ∃ attempt, status.state = .restarting attempt) →
    ∀ health, status.health = some health → health.state = .starting
  running : ∀ health, status.health = some health →
    health.state = .healthy ∨ health.state = .unhealthy → ∃ pid, status.state = .running pid

namespace InstanceStatus

variable {status : InstanceStatus}

theorem healthMatches_of_starting
    (starting : ∀ health, status.health = some health → health.state = .starting) :
    status.HealthMatches where
  starting := fun _ => starting
  running := fun health shown other => by
    rw [starting health shown] at other
    rcases other with other | other <;> cases other

theorem healthMatches_of_running (running : status.state.isRunning = true) :
    status.HealthMatches := by
  cases state : status.state with
  | running pid =>
      refine ⟨?_, fun _ _ _ => ⟨pid, state⟩⟩
      rintro (starting | ⟨attempt, restarting⟩)
      · rw [state] at starting
        cases starting
      · rw [state] at restarting
        cases restarting
  | _ =>
      rw [state] at running
      cases running

end InstanceStatus

/-! ## The tracker of a run that is not ready -/

/-- The observation counts as a failure and reaches the threshold. -/
def HealthTracker.fails (t : HealthTracker) (now : Nat) : ProbeResult → Bool
  | .healthy => false
  | .unhealthy _ =>
      (t.graceEnded || decide (t.startedAt + t.policy.startPeriod ≤ now)) &&
        decide (t.policy.failureThreshold ≤ saturatingSucc t.consecutiveFailures)

theorem HealthTracker.advance_starting {t : HealthTracker} (starting : t.state = .starting)
    {now : Nat} {result : ProbeResult} (bears : t.fails now result = false) :
    (t.advance now result).state = .starting ∨ (t.advance now result).state = .healthy := by
  cases result with
  | healthy =>
      have other : t.state ≠ .healthy := by simp [starting]
      simp only [advance, observeHealthy, if_neg other]
      split
      · exact .inr rfl
      · exact .inl starting
  | unhealthy detail =>
      left
      simp only [advance, observeUnhealthy]
      split_ifs with grace threshold
      · exact starting
      · -- the failure counts, so it is below the threshold
        simp only [fails, Bool.and_eq_false_iff, Bool.or_eq_false_iff, decide_eq_false_iff_not]
          at bears
        simp only [Bool.and_eq_true, Bool.not_eq_true', decide_eq_true_eq] at grace
        rcases bears with ⟨running, early⟩ | below
        · exact absurd ⟨running, Nat.lt_of_not_le early⟩ grace
        · exact absurd threshold.2 below
      · exact starting

/-- A run that is not ready is observed after its acknowledgement was refused, or fails. -/
def RunState.premature (run : RunState) (observation : ProbeObservation) : Bool :=
  !run.ready &&
    (run.ackAttempted || run.tracker.fails observation.completedAt observation.result)

namespace Instance

/-- The monitor weighs a premature observation. -/
def weighsPrematurely (i : Instance) (observation : ProbeObservation) : Bool :=
  i.monitor.current.any fun run =>
    !i.monitor.probesCancelled && decide (observation.runId = run.runId) &&
      decide (observation.pid = run.pid) && !i.beyondDeadline observation &&
      run.premature observation

def siftsPrematurely (i : Instance) : List (ProbeObservation × Bool) → Bool
  | [] => false
  | (observation, acknowledged) :: rest =>
      i.weighsPrematurely observation ||
        (!(i.weigh observation acknowledged).1 &&
          (i.weigh observation acknowledged).2.inst.siftsPrematurely rest)

/-- The turn for this event weighs a premature observation. -/
def turnsPrematurely (i : Instance) : MonitorEvent → Bool
  | .observation observation _ => i.weighsPrematurely observation
  | .initialDeadline drained =>
      !i.monitor.everReady && !i.monitor.timeoutFired && i.siftsPrematurely drained
  | .respawnDeadline drained => i.monitor.respawnDeadline.isSome && i.siftsPrematurely drained
  | _ => false

end Instance

namespace Write

/-- The value comes from an observation. -/
def observes : Write → Bool
  | observed _ _ | running _ _ _ => true
  | _ => false

def isRunning : Write → Bool
  | running _ _ _ => true
  | _ => false

/-- The value shows the health of an observation beside a lifecycle that is still to be
    read. -/
def bearsHealth : Write → Bool
  | observed update _ => decide (update.state ≠ .starting)
  | _ => false

variable {w : Write} {health : Option HealthStatus} {instanceId : Option InstanceId} {i : Instance}

theorem resetStartingHealth_state (now : Int) (previous : Option HealthStatus) :
    (resetStartingHealth now previous).state = .starting := by
  unfold resetStartingHealth
  split <;> rfl

theorem compose_matches (fits : w.bearsHealth = true → i.status.state.isRunning = true) :
    (w.compose health instanceId i).HealthMatches := by
  cases w with
  | started fresh nowMs | restarting attempt nowMs =>
      apply InstanceStatus.healthMatches_of_starting
      rintro _ ⟨⟩
      exact resetStartingHealth_state nowMs health
  | observed update observation =>
      by_cases starting : update.state = .starting
      · apply InstanceStatus.healthMatches_of_starting
        rintro _ ⟨⟩
        exact starting
      · exact InstanceStatus.healthMatches_of_running (fits (decide_eq_true starting))
  | running pid update observation => exact InstanceStatus.healthMatches_of_running rfl
  | gaveUp diagnostics => exact InstanceStatus.healthMatches_of_starting fun _ none => by cases none
  | ended diagnostics => exact InstanceStatus.healthMatches_of_starting fun _ none => by cases none

/-- An observation's value says running when the channel does, or when it announces it. -/
theorem compose_running (observes : w.observes = true)
    (running : w.isRunning = true ∨ i.status.state.isRunning = true) :
    (w.compose health instanceId i).state.isRunning = true := by
  cases w with
  | observed update observation => exact running.resolve_left (by simp [isRunning])
  | running pid update observation => rfl
  | started | restarting | gaveUp | ended => cases observes

end Write

namespace Instance

variable {i : Instance} {observation : ProbeObservation} {run : RunState}

/-- A run that has not been acknowledged and has not tried to has nothing to say yet. -/
def Undecided (i : Instance) : Prop :=
  ∀ run, i.monitor.current = some run → run.ready = false → run.ackAttempted = false →
    run.tracker.state = .starting

def HasReady (i : Instance) : Prop := ∃ run, i.monitor.current = some run ∧ run.ready = true

/-- What weighing observations comes to; `last` says whether the instance became ready or
    the monitor panicked. -/
structure Behaves (i : Instance) (last : Bool) (turn : Turn) : Prop where
  undecided : turn.inst.Undecided
  observes : ∀ w ∈ turn.writes, w.observes = true
  carried : ∀ w ∈ turn.writes, w.bearsHealth = true →
    i.monitor.probesCancelled = false ∧ i.HasReady
  kept : last = false → turn.inst.HasReady → i.HasReady
  announced : last = true → turn.inst.HasReady → ∃ w ∈ turn.writes, w.isRunning = true
  cancelled : turn.inst.monitor.probesCancelled = i.monitor.probesCancelled

section

variable (undecided : i.Undecided)

include undecided

theorem behaves_weighInTime (current : i.monitor.current = some run)
    (probing : i.monitor.probesCancelled = false) (timely : run.premature observation = false)
    (acknowledged : Bool) :
    i.Behaves (i.weighInTime run observation acknowledged).1
      (i.weighInTime run observation acknowledged).2 := by
  unfold weighInTime
  cases observed : run.tracker.observe observation.completedAt observation.result with
  | none =>
      exact ⟨fun _ none => (by cases none), by simp, by simp, fun none => (by cases none),
        fun _ serving => (by obtain ⟨_, ⟨⟩, _⟩ := serving), rfl⟩
  | some answer =>
      obtain ⟨update, tracker⟩ := answer
      obtain ⟨rfl, shows⟩ := HealthTracker.observe_eq_some observed
      -- a run that is not ready has a starting tracker, which this observation leaves so or makes
      -- healthy
      have early (unready : run.ready = false) : run.ackAttempted = false ∧
          (update.state = .starting ∨ update.state = .healthy) := by
        simp only [RunState.premature, unready, Bool.not_false, Bool.true_and, Bool.or_eq_false_iff]
          at timely
        rw [shows]
        exact ⟨timely.1, HealthTracker.advance_starting (undecided run current unready timely.1) timely.2⟩
      dsimp only
      split_ifs with tries
      · refine ⟨?_, by simp [Write.observes], by simp [Write.bearsHealth], fun none => (by cases none),
          fun _ _ => ⟨_, List.mem_cons_self, rfl⟩, rfl⟩
        rintro _ ⟨⟩ unready
        cases unready
      · refine ⟨?_, by simp, by simp, ?_, fun none => (by cases none), rfl⟩
        · rintro _ ⟨⟩ _ untried
          cases untried
        · rintro _ ⟨_, ⟨⟩, ready⟩
          exact ⟨run, current, ready⟩
      · have still (unready : run.ready = false) : update.state = .starting := by
          obtain ⟨untried, starting | healthy⟩ := early unready
          · exact starting
          · simp [untried, healthy] at tries
        refine ⟨?_, by simp [Write.observes], ?_, ?_, fun none => (by cases none), rfl⟩
        · rintro _ ⟨⟩ unready _
          exact shows.symm.trans (still unready)
        · intro w member bears
          obtain rfl := List.mem_singleton.mp member
          refine ⟨probing, run, current, ?_⟩
          by_contra unready
          have unready : run.ready = false := by simpa using unready
          exact of_decide_eq_true bears (still unready)
        · rintro _ ⟨_, ⟨⟩, ready⟩
          exact ⟨run, current, ready⟩

theorem behaves_ignoring (observation : ProbeObservation) :
    i.Behaves false (i.ignoring observation) :=
  ⟨undecided, by simp [ignoring], by simp [ignoring], fun _ => id, fun none => (by cases none), rfl⟩

theorem behaves_weigh (timely : i.weighsPrematurely observation = false) (acknowledged : Bool) :
    i.Behaves (i.weigh observation acknowledged).1 (i.weigh observation acknowledged).2 := by
  have weighs := weighs_weigh i observation acknowledged
  generalize i.weigh observation acknowledged = result at weighs ⊢
  cases weighs with
  | ignored => exact behaves_ignoring undecided observation
  | weighed run current probing sameRun samePid punctual =>
      simp only [weighsPrematurely, current, Option.any_some, probing, sameRun, samePid, punctual,
        Bool.not_false, decide_true, Bool.true_and] at timely
      exact behaves_weighInTime undecided current probing timely acknowledged

theorem behaves_sift {drained : List (ProbeObservation × Bool)}
    (timely : i.siftsPrematurely drained = false) :
    i.Behaves (i.sift drained).1 (i.sift drained).2 := by
  induction drained generalizing i with
  | nil =>
      exact ⟨undecided, by simp [sift, silently], by simp [sift, silently], fun _ => id,
        fun none => (by cases none), rfl⟩
  | cons entry rest ih =>
      obtain ⟨observation, acknowledged⟩ := entry
      simp only [siftsPrematurely, Bool.or_eq_false_iff, Bool.and_eq_false_iff] at timely
      have first := behaves_weigh undecided timely.1 acknowledged
      simp only [sift]
      split_ifs with last
      · rw [last] at first
        exact first
      · have unready : (i.weigh observation acknowledged).1 = false := by simpa using last
        have later := ih first.undecided (by simpa [unready] using timely.2)
        refine ⟨later.undecided, ?_, ?_, ?_, ?_, later.cancelled.trans first.cancelled⟩
        · intro w member
          rcases List.mem_append.mp member with early | late
          · exact first.observes w early
          · exact later.observes w late
        · intro w member bears
          rcases List.mem_append.mp member with early | late
          · exact first.carried w early bears
          · obtain ⟨probing, serving⟩ := later.carried w late bears
            exact ⟨first.cancelled ▸ probing, first.kept unready serving⟩
        · intro never serving
          exact first.kept unready (later.kept never serving)
        · intro became serving
          obtain ⟨w, member, running⟩ := later.announced became serving
          exact ⟨w, List.mem_append_right _ member, running⟩

end

/-- What a whole turn comes to. -/
structure Proceeds (i : Instance) (turn : Turn) : Prop where
  undecided : turn.inst.Undecided
  shape : (∀ w ∈ turn.writes, w.observes = true) ∨ ∃ w, turn.writes = [w]
  carried : ∀ w ∈ turn.writes, w.bearsHealth = true →
    i.monitor.probesCancelled = false ∧ i.HasReady
  ready : turn.inst.monitor.finished = false → turn.inst.HasReady →
    (∀ w ∈ turn.writes, w.observes = true) ∧ (i.HasReady ∨ ∃ w ∈ turn.writes, w.isRunning = true)

theorem Behaves.proceeds {last : Bool} {turn : Turn} (behaves : i.Behaves last turn) :
    i.Proceeds turn where
  __ := behaves
  shape := .inl behaves.observes
  ready := fun _ serving => by
    refine ⟨behaves.observes, ?_⟩
    cases last with
    | false => exact .inl (behaves.kept rfl serving)
    | true => exact .inr (behaves.announced rfl serving)

/-- A turn after which there is no run to speak of. -/
theorem proceeds_without_run {turn : Turn} (dropped : turn.inst.monitor.current = none)
    (shape : (∀ w ∈ turn.writes, w.observes = true) ∨ ∃ w, turn.writes = [w])
    (carried : ∀ w ∈ turn.writes, w.bearsHealth = true →
      i.monitor.probesCancelled = false ∧ i.HasReady) : i.Proceeds turn := by
  refine ⟨?_, shape, carried, ?_⟩
  · intro run current
    rw [dropped] at current
    cases current
  · rintro _ ⟨run, current, _⟩
    rw [dropped] at current
    cases current

theorem proceeds_silently (undecided : i.Undecided) : i.Proceeds i.silently :=
  ⟨undecided, .inl (by simp [silently]), by simp [silently],
    fun _ serving => ⟨by simp [silently], .inl serving⟩⟩

theorem proceeds_turn (undecided : i.Undecided) {event : MonitorEvent}
    (timely : i.turnsPrematurely event = false) : i.Proceeds (i.turn event) := by
  have same := proceeds_silently undecided
  cases event with
  | probeCancelled =>
      simp only [turn]
      split_ifs
      · exact proceeds_without_run rfl (.inl (by simp [silently])) (by simp [silently])
      · exact same
  | exited payload =>
      exact proceeds_without_run rfl (.inl (by simp [turn, silently])) (by simp [turn, silently])
  | started pid real instanceId now nowMs =>
      refine ⟨?_, .inr ⟨_, rfl⟩, by simp [turn, starting, Write.bearsHealth], ?_⟩
      · rintro _ ⟨⟩ _ _
        rfl
      · rintro _ ⟨_, ⟨⟩, ready⟩
        cases ready
  | restarting attempt nowMs =>
      exact proceeds_without_run rfl (.inr ⟨_, rfl⟩) (by simp [turn, Write.bearsHealth])
  | gaveUp diagnostics | stopped diagnostics | closed diagnostics =>
      exact ⟨undecided, .inr ⟨_, rfl⟩, by simp [turn, leaving, Write.bearsHealth],
        fun active => (by cases active)⟩
  | initialDeadline drained | respawnDeadline drained =>
      simp only [turn]
      split_ifs with waiting late
      · simp only [turnsPrematurely, waiting, Bool.true_and] at timely
        have behaves := behaves_sift undecided timely
        exact proceeds_without_run rfl (.inl behaves.observes) behaves.carried
      · simp only [turnsPrematurely, waiting, Bool.true_and] at timely
        exact (behaves_sift undecided timely).proceeds
      · exact same
  | observation observation acknowledged => exact (behaves_weigh undecided timely acknowledged).proceeds

end Instance

/-- The write the monitor has begun and not composed yet. -/
def Hand.uncomposed : Hand → List Write
  | health write _ | identity write _ _ => [write]
  | _ => []

namespace Scene

/-- The values that are still to be composed. -/
def uncomposed (s : Scene) : List Write := s.hand.uncomposed ++ s.pending

/-- The lifecycle on the channel once the value in hand is sent. -/
def latest (s : Scene) : InstanceState :=
  match s.hand with
  | .draft _ status => status.state
  | _ => s.inst.status.state

/-- The action weighs nothing premature, and does not change the lifecycle under a health
    that is still to be composed with it. -/
def paired (s : Scene) : Action → Bool
  | .take event => !s.inst.turnsPrematurely event
  | .publishStopping => s.uncomposed.all fun w => !w.bearsHealth
  | _ => true

structure Paired (s : Scene) : Prop where
  history : ∀ status ∈ s.published, status.HealthMatches
  drafted : ∀ w status, s.hand = .draft w status → status.HealthMatches
  undecided : s.inst.Undecided
  shape : (∀ w ∈ s.writes, w.observes = true) ∨ ∃ w, s.writes = [w]
  carried : ∀ w ∈ s.uncomposed, w.bearsHealth = true → s.inst.status.state.isRunning = true
  queued : ∀ w status, s.hand = .draft w status → (∃ w ∈ s.pending, w.bearsHealth = true) →
    status.state.isRunning = true
  ready : s.inst.probeCancel = false → s.inst.monitor.finished = false → s.inst.HasReady →
    (∀ w ∈ s.writes, w.observes = true) ∧
      ((∃ w ∈ s.uncomposed, w.isRunning = true) ∨ s.latest.isRunning = true)
  joined : s.stop = .joined → s.Silent
  cancelled : s.stop = .flagged ∨ s.stop.published = true → s.inst.probeCancel = true

variable {s s' : Scene} {w : Write} {status : InstanceStatus}

theorem paired_launched (epoch : Epoch) (options : InstanceOptions)
    (controller : ResolvedController) (now : Nat) (nowMs : Int) :
    (launched epoch options controller now nowMs).Paired where
  history := by
    intro status member
    obtain rfl := List.mem_singleton.mp member
    apply InstanceStatus.healthMatches_of_starting
    rintro _ ⟨⟩
    rfl
  drafted := fun _ _ none => by cases none
  undecided := fun _ none => by cases none
  shape := .inl fun _ none => by cases none
  carried := fun _ none => by cases none
  queued := fun _ _ none => by cases none
  ready := by
    rintro _ _ ⟨_, current, _⟩
    cases current
  joined := fun none => by cases none
  cancelled := by simp [launched, StopPhase.published]

section

variable (paired : s.Paired)

include paired

theorem Paired.take {event : MonitorEvent} (empty : s.writes = []) (alive : s.aborted = false)
    (active : s.inst.monitor.finished = false) (selects : s.selects event = true)
    (supervised : s.inst.supervised event = true)
    (timely : s.inst.turnsPrematurely event = false) : (s.take event).Paired := by
  have taken := Instance.taken_turn supervised
  have proceeds := Instance.proceeds_turn paired.undecided timely
  have free := hand_free empty
  have writes := writes_take empty event
  have uncomposed : (s.take event).uncomposed = (s.inst.turn event).writes := by
    simp [Scene.uncomposed, Scene.take, free, Hand.uncomposed]
  have status : (s.take event).inst.status = s.inst.status := taken.status
  have latest : (s.take event).latest = s.inst.status.state := by
    simp only [Scene.latest, Scene.take, free]
    rw [taken.status]
  -- nobody else has written, so a ready run is on the channel as running
  have running : s.inst.probeCancel = false → s.inst.HasReady →
      s.inst.status.state.isRunning = true := by
    intro unflagged serving
    rcases (paired.ready unflagged active serving).2 with ⟨w, member, _⟩ | shown
    · have none : s.uncomposed = [] := by
        simp only [Scene.writes, free, Hand.writes, List.nil_append] at empty
        simp [Scene.uncomposed, free, Hand.uncomposed, empty]
      rw [none] at member
      cases member
    · simpa [Scene.latest, free] using shown
  refine ⟨?_, ?_, proceeds.undecided, ?_, ?_, ?_, ?_, ?_, ?_⟩
  · have published : (s.take event).published = s.published := by
      simp [Scene.published, Scene.take, taken.history]
    rw [published]
    exact paired.history
  · intro w status drafted
    simp [Scene.take, free] at drafted
  · rw [writes]
    exact proceeds.shape
  · intro w member bears
    rw [uncomposed] at member
    rw [status]
    obtain ⟨probing, serving⟩ := proceeds.carried w member bears
    refine running ?_ serving
    simp only [Scene.selects, probing, Bool.or_false, Bool.or_eq_true, Bool.not_eq_true'] at selects
    rcases selects with cancels | unflagged
    · -- the cancellation itself writes nothing
      cases event <;> simp [MonitorEvent.isProbeCancelled] at cancels
      simp only [Instance.turn] at member
      split_ifs at member <;> simp [Instance.silently] at member
    · exact unflagged
  · intro w status drafted
    simp [Scene.take, free] at drafted
  · intro unflagged unfinished serving
    have before : s.inst.probeCancel = false := by
      by_contra set
      have set : s.inst.probeCancel = true := by simpa using set
      exact absurd (taken.probeCancel set) (by simpa [Scene.take] using unflagged)
    obtain ⟨observes, known | announced⟩ := proceeds.ready unfinished serving
    · rw [writes, latest]
      exact ⟨observes, .inr (running before known)⟩
    · rw [writes, uncomposed]
      exact ⟨observes, .inl announced⟩
  · intro joined
    rcases (paired.joined joined).left with aborted | finished
    · simp [alive] at aborted
    · simp [active] at finished
  · intro stage
    exact taken.probeCancel (paired.cancelled stage)

/-- The monitor reads for the value it is going to compose. -/
theorem Paired.move {hand : Hand} {pending : List Write}
    (writes : hand.writes ++ pending = s.writes)
    (uncomposed : hand.uncomposed ++ pending = s.uncomposed)
    (before : ∀ w status, s.hand ≠ .draft w status) (after : ∀ w status, hand ≠ .draft w status) :
    Paired { s with hand := hand, pending := pending } where
  __ := paired
  drafted := fun w status drafted => absurd drafted (after w status)
  shape := by
    change (∀ w ∈ hand.writes ++ pending, _) ∨ ∃ w, hand.writes ++ pending = [w]
    rw [writes]
    exact paired.shape
  carried := by
    change ∀ w ∈ hand.uncomposed ++ pending, _
    rw [uncomposed]
    exact paired.carried
  queued := fun w status drafted => absurd drafted (after w status)
  ready := by
    have same : Scene.latest { s with hand := hand, pending := pending } = s.latest := by
      have now : s.latest = s.inst.status.state := by
        unfold latest
        split
        · rename_i w status drafted
          exact absurd drafted (before w status)
        · rfl
      have then_ : Scene.latest { s with hand := hand, pending := pending } =
          s.inst.status.state := by
        unfold latest
        split
        · rename_i w status drafted
          exact absurd drafted (after w status)
        · rfl
      rw [now, then_]
    rw [same]
    change _ → _ → _ → (∀ w ∈ hand.writes ++ pending, _) ∧ ((∃ w ∈ hand.uncomposed ++ pending, _) ∨ _)
    rw [writes, uncomposed]
    exact paired.ready
  joined := fun joined => by
    refine ⟨?_, (paired.joined joined).left⟩
    change hand.writes ++ pending = []
    rw [writes]
    exact (paired.joined joined).sent

theorem Paired.compose {health : Option HealthStatus} {instanceId : Option InstanceId}
    (hand : s.hand = .identity w health instanceId) :
    Paired { s with hand := .draft w (w.compose health instanceId s.inst) } := by
  have writes : s.writes = w :: s.pending := by simp [Scene.writes, hand, Hand.writes]
  have uncomposed : s.uncomposed = w :: s.pending := by
    simp [Scene.uncomposed, hand, Hand.uncomposed]
  have carried := paired.carried
  rw [uncomposed] at carried
  refine
    { paired with
      drafted := ?_
      shape := ?_
      carried := fun later member => carried later (List.mem_cons_of_mem _ member)
      queued := ?_
      ready := ?_
      joined := ?_ }
  · rintro _ _ ⟨⟩
    exact Write.compose_matches (carried w List.mem_cons_self)
  · have shape := paired.shape
    rw [writes] at shape
    exact shape
  · rintro _ _ ⟨⟩ ⟨later, member, bears⟩
    have running := carried later (List.mem_cons_of_mem _ member) bears
    refine Write.compose_running ?_ (.inr running)
    rcases paired.shape with all | ⟨only, one⟩
    · exact all w (by simp [writes])
    · rw [writes, List.cons.injEq] at one
      rw [one.2] at member
      cases member
  · intro unflagged active serving
    obtain ⟨observes, leads⟩ := paired.ready unflagged active serving
    rw [writes] at observes
    refine ⟨observes, ?_⟩
    have composed : w.isRunning = true ∨ s.inst.status.state.isRunning = true →
        (w.compose health instanceId s.inst).state.isRunning = true :=
      Write.compose_running (observes w List.mem_cons_self)
    rw [uncomposed] at leads
    rcases leads with ⟨later, member, running⟩ | shown
    · rcases List.mem_cons.mp member with rfl | queued
      · exact .inr (composed (.inl running))
      · exact .inl ⟨later, queued, running⟩
    · refine .inr (composed (.inr ?_))
      simpa [Scene.latest, hand] using shown
  · intro joined
    have sent := (paired.joined joined).sent
    rw [writes] at sent
    cases sent

theorem Paired.send (hand : s.hand = .draft w status) :
    Paired { s with inst := s.inst.publishStatus status, hand := .free } := by
  have writes : s.writes = w :: s.pending := by simp [Scene.writes, hand, Hand.writes]
  have uncomposed : s.uncomposed = s.pending := by simp [Scene.uncomposed, hand, Hand.uncomposed]
  refine
    { paired with
      history := ?_
      drafted := fun _ _ none => by cases none
      shape := ?_
      carried := fun later member bears => paired.queued w status hand ⟨later, member, bears⟩
      queued := fun _ _ none => by cases none
      ready := ?_
      joined := ?_ }
  · intro shown member
    rcases List.mem_cons.mp member with rfl | older
    · exact paired.drafted w shown hand
    · exact paired.history shown older
  · rcases paired.shape with all | ⟨only, one⟩
    · exact .inl fun later member => all later (by simpa [writes] using .inr member)
    · rw [writes, List.cons.injEq] at one
      refine .inl fun later member => ?_
      have member : later ∈ s.pending := member
      rw [one.2] at member
      cases member
  · intro unflagged active serving
    obtain ⟨observes, leads⟩ := paired.ready unflagged active serving
    refine ⟨fun later member => observes later (by simpa [writes] using .inr member), ?_⟩
    rw [uncomposed] at leads
    refine leads.imp_right fun shown => ?_
    simp only [Scene.latest, hand] at shown
    exact shown
  · intro joined
    have sent := (paired.joined joined).sent
    rw [writes] at sent
    cases sent

/-- The stop request writes a value without health, under which nothing is to be composed. -/
theorem Paired.publish {stop : StopPhase} {state : InstanceState}
    (cancelled : s.inst.probeCancel = true) (joined : stop ≠ .joined)
    (none : ∀ w ∈ s.uncomposed, w.bearsHealth = false) :
    Paired { s with inst := s.inst.publishStatus ⟨.none, state, .none⟩, stop := stop } where
  __ := paired
  history := by
    intro shown member
    rcases List.mem_cons.mp member with rfl | older
    · exact InstanceStatus.healthMatches_of_starting fun _ none => by cases none
    · exact paired.history shown older
  carried := fun w member bears => by
    rw [none w member] at bears
    cases bears
  queued := fun w status hand ⟨later, member, bears⟩ => by
    rw [none later (List.mem_append_right _ member)] at bears
    cases bears
  ready := fun unflagged => by
    have set : s.inst.probeCancel = false := unflagged
    rw [cancelled] at set
    cases set
  joined := fun now => absurd now joined
  cancelled := fun _ => cancelled

/-- The stop request moves on without touching the channel. -/
theorem Paired.moveStop {stop : StopPhase} (joined : stop = .joined → s.Silent)
    (cancelled : stop = .flagged ∨ stop.published = true → s.inst.probeCancel = true) :
    Paired { s with stop := stop } :=
  { paired with
    joined := fun now => ⟨(joined now).sent, (joined now).left⟩
    cancelled := cancelled }

theorem Paired.flag :
    Paired { s with
      inst := { s.inst with userStop := true, probeCancel := true }, stop := .flagged } :=
  { paired with
    ready := fun unflagged => by cases unflagged
    joined := fun none => by cases none
    cancelled := fun _ => rfl }

theorem Paired.abort (stopping : s.stop = .stopping) :
    Paired { s with hand := .free, pending := [], aborted := true, stop := .joined } where
  __ := paired
  drafted := fun _ _ none => by cases none
  shape := .inl fun _ none => by cases none
  carried := fun _ none => by cases none
  queued := fun _ _ none => by cases none
  ready := fun unflagged => by
    have set : s.inst.probeCancel = false := unflagged
    rw [paired.cancelled (.inr (by rw [stopping]; rfl))] at set
    cases set
  joined := fun _ => ⟨rfl, .inl rfl⟩
  cancelled := fun _ => paired.cancelled (.inr (by rw [stopping]; rfl))

theorem Paired.step {action : Action} (fits : s.paired action = true)
    (acts : s.act action = some s') : s'.Paired := by
  cases acts_of_act acts with
  | take event empty alive active selects supervised =>
      exact paired.take empty alive active selects supervised (by simpa [Scene.paired] using fits)
  | readHealth write rest hand pending =>
      refine paired.move ?_ ?_ ?_ ?_
      · simp [Scene.writes, hand, pending, Hand.writes]
      · simp [Scene.uncomposed, hand, pending, Hand.uncomposed]
      · simp [hand]
      · simp
  | readIdentity write health hand =>
      refine paired.move ?_ ?_ ?_ ?_
      · simp [Scene.writes, hand, Hand.writes]
      · simp [Scene.uncomposed, hand, Hand.uncomposed]
      · simp [hand]
      · simp
  | compose write health instanceId hand => exact paired.compose hand
  | send write status hand => exact paired.send hand
  | found idle terminal => exact paired.moveStop (fun none => by cases none) (by simp [StopPhase.published])
  | check idle serving => exact paired.moveStop (fun none => by cases none) (by simp [StopPhase.published])
  | flag checked => exact paired.flag
  | publishStopping flagged =>
      refine paired.publish (paired.cancelled (.inl flagged)) (by simp) ?_
      simpa [Scene.paired] using fits
  | join stopping empty finished =>
      exact paired.moveStop (fun _ => ⟨empty, .inr finished⟩)
        fun _ => paired.cancelled (.inr (by rw [stopping]; rfl))
  | abort stopping => exact paired.abort stopping
  | confirm joined serving =>
      have silent := paired.joined joined
      have free := hand_free silent.sent
      refine paired.publish (paired.cancelled (.inr (by rw [joined]; rfl))) (by simp) ?_
      intro w member
      have sent := silent.sent
      simp only [Scene.writes, free, Hand.writes, List.nil_append] at sent
      simp [Scene.uncomposed, free, Hand.uncomposed, sent] at member
  | conclude joined =>
      exact paired.moveStop (fun none => by cases none)
        fun _ => paired.cancelled (.inr (by rw [joined]; rfl))

end

/-- An instance right after its launch, with no stop request under way. -/
def Launched (s : Scene) : Prop :=
  ∃ epoch options controller now nowMs, s = launched epoch options controller now nowMs

/-- In every interleaving of the monitor with a stop request whose steps are all paired,
    whatever the supervisor, the probes, the acknowledgements and the clock do: every
    published status has a health that fits its lifecycle. -/
theorem health_matches_lifecycle
    (reaches : Reaches act Launched (fun s action => s.paired action = true) s) :
    ∀ status ∈ s.published, status.HealthMatches := by
  have paired : s.Paired := by
    induction reaches with
    | initial new =>
        obtain ⟨epoch, options, controller, now, nowMs, rfl⟩ := new
        exact paired_launched epoch options controller now nowMs
    | step _ fits acts ih => exact ih.step fits acts
  exact paired.history

/-! ## Runs -/

/-- A core with the default options, its first process started. -/
def coldStart : List Action := .take (.started 2 Nat.two_pos 40 0 0) :: sent
where
  sent : List Action := [.advance, .advance, .advance, .advance]

/-- An observation of the first process, with its value sent. -/
def probe (at_ : Nat) (result : ProbeResult) (acknowledged : Bool) : List Action :=
  .take (.observation ⟨1, 2, .readiness, at_, at_, result⟩ acknowledged) :: coldStart.sent

def ranWith (actions : List Action) : Scene :=
  replayed act
    (launched ⟨1, Nat.one_pos, Epoch.one_bounded⟩ .default ⟨.http "", none⟩ 0 0)
    (coldStart ++ actions)

/-- Lifecycle and health of the last published value. -/
def shown (s : Scene) : Option (InstanceState × Option HealthState) :=
  s.published.head?.map fun status => (status.state, status.health.map (·.state))

theorem reaches_ranWith (actions : List Action) :
    Reaches act Launched (fun _ _ => True) (ranWith actions) :=
  (Reaches.initial ⟨_, _, _, _, _, rfl⟩).replayed (allAllowed_of_forall (fun _ _ => trivial) _)

/-- Acknowledged, then three failures. -/
def ailing : List Action :=
  probe 10 .healthy true ++ probe 20 (.unhealthy none) false ++ probe 30 (.unhealthy none) false ++
    probe 40 (.unhealthy none) false

theorem health_matches_lifecycle_ailing :
    (ranWith ailing).shown = some (.running 2, some .unhealthy) ∧
      ∀ status ∈ (ranWith ailing).published, status.HealthMatches :=
  ⟨by decide +kernel, health_matches_lifecycle
    ((Reaches.initial ⟨_, _, _, _, _, rfl⟩).replayed (by decide +kernel))⟩

/-- Three failures before the core is ready; a probe after a refused acknowledgement; a stop
    request that gets between an observation and its value. -/
theorem health_leaves_lifecycle :
    (∀ actions, Reaches act Launched (fun _ _ => True) (ranWith actions)) ∧
      (ranWith (probe 10 (.unhealthy none) false ++ probe 20 (.unhealthy none) false ++
        probe 30 (.unhealthy none) false)).shown = some (.starting, some .unhealthy) ∧
      (ranWith (probe 10 .healthy false ++ probe 20 .healthy false)).shown =
        some (.starting, some .healthy) ∧
      (ranWith (probe 10 .healthy true ++
        [.take (.observation ⟨1, 2, .liveness, 20, 20, .healthy⟩ false), .check, .flag,
          .publishStopping] ++ coldStart.sent)).shown = some (.stopping, some .healthy) :=
  ⟨reaches_ranWith, by decide +kernel, by decide +kernel, by decide +kernel⟩

end Scene

end Nyanpasu
