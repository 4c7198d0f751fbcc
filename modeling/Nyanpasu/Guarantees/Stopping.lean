import Nyanpasu.Monitor.Interleaving

/-! # What an instance publishes once it is stopping

The lifecycle of an instance ends with `Stopping` and `Stopped`, and neither carries a
health value or an identity.  The stop request publishes `Stopping` between two
accesses of the monitor, and the monitor sends what it has composed without looking
again.  The runs that keep the promise are those in which the monitor has nothing but
its last value to send when `Stopping` is published, takes no start and no
restart from its queue afterwards, and has not ended since the request looked.
-/

namespace Nyanpasu

/-- The value of an instance that is on its way out. -/
structure InstanceStatus.Quiet (status : InstanceStatus) : Prop where
  state : status.state = .stopping ∨ status.state.isTerminal = true
  health : status.health = none
  instanceId : status.instanceId = none

/-- Values with the newest first: nothing follows `Stopped`, and only quiet values
    follow `Stopping`. -/
def StopMonotone (published : List InstanceStatus) : Prop :=
  published.Pairwise fun later earlier =>
    earlier.state.isTerminal = false ∧ (earlier.state = .stopping → later.Quiet)

/-- The event begins a run or announces one. -/
def MonitorEvent.restarts : MonitorEvent → Bool
  | .started .. | .restarting .. => true
  | _ => false

theorem quiet_stopped (reason : StopReason) :
    InstanceStatus.Quiet ⟨none, .stopped reason, none⟩ :=
  ⟨.inr rfl, rfl, rfl⟩

namespace Write

variable {w : Write} {health : Option HealthStatus} {instanceId : Option InstanceId} {i : Instance}

theorem compose_final (final : w.isFinal = true) :
    ∃ reason, w.compose health instanceId i = ⟨none, .stopped reason, none⟩ := by
  cases w with
  | gaveUp diagnostics => exact ⟨_, rfl⟩
  | ended diagnostics => exact ⟨_, rfl⟩
  | started | restarting | observed | running => simp [isFinal] at final

theorem compose_news (news : w.isFinal = false) :
    (w.compose health instanceId i).health.isSome = true := by
  cases w with
  | started | restarting | observed | running => rfl
  | gaveUp | ended => simp [isFinal] at news

/-- News keeps the lifecycle or enters one of the two that only news enters. -/
theorem state_compose_news (news : w.isFinal = false) :
    (w.compose health instanceId i).state = i.status.state ∨
      (w.compose health instanceId i).state.isTerminal = false ∧
        (w.compose health instanceId i).state ≠ .stopping := by
  cases w with
  | started | observed => exact .inl rfl
  | restarting | running => exact .inr ⟨rfl, by simp [compose]⟩
  | gaveUp | ended => simp [isFinal] at news

end Write

namespace Instance

variable {i : Instance} {event : MonitorEvent}

/-- A monitor that has seen the cancellation has only its last value to send, unless a
    run begins. -/
theorem turn_cancelled (cancelled : i.monitor.probesCancelled = true)
    (settled : event.restarts = false) : ∀ w ∈ (i.turn event).writes, w.isFinal = true := by
  cases event with
  | probeCancelled =>
      simp only [turn]
      split_ifs <;> simp [silently]
  | exited => simp [turn, silently]
  | started | restarting => cases settled
  | gaveUp | stopped | closed => simp [turn, leaving, Write.isFinal]
  | initialDeadline drained | respawnDeadline drained =>
      have none := sift_deaf (.inr cancelled) drained
      simp only [turn]
      split_ifs <;> simp [none, silently]
  | observation observation acknowledged =>
      simp [turn, weigh_deaf (.inr cancelled), ignoring]

end Instance

namespace Scene

def published (s : Scene) : List InstanceStatus := s.inst.history.map Prod.snd

/-- The monitor has stopped writing. -/
structure Silent (s : Scene) : Prop where
  sent : s.writes = []
  left : s.aborted = true ∨ s.inst.monitor.finished = true

/-- The action is not one that lets news follow `Stopping` or anything follow
    `Stopped`. -/
def orderly (s : Scene) : Action → Bool
  | .take event => !s.stop.published || !event.restarts
  | .publishStopping => !s.inst.status.state.isTerminal && s.writes.all Write.isFinal
  | _ => true

def OrderlyRuns : Scene → Scene → Prop :=
  Relation.ReflTransGen fun s s' => ∃ action, s.orderly action = true ∧ s.act action = some s'

/-- A composed value is as final as the write it is for. -/
def Drafted (s : Scene) (w : Write) (status : InstanceStatus) : Prop :=
  if w.isFinal then ∃ reason, status = ⟨none, .stopped reason, none⟩
  else status.health.isSome = true ∧ status.state.isTerminal = false ∧
    (s.stop.published = false → status.state ≠ .stopping)

structure Lasting (s : Scene) : Prop where
  monotone : StopMonotone s.published
  shown : ∃ number earlier, s.inst.history = (number, s.inst.status) :: earlier
  unstopped : s.stop.published = false → ∀ status ∈ s.published, status.state ≠ .stopping
  stopping : s.stop.published = true → ∃ status ∈ s.published, status.state = .stopping
  terminal : s.inst.status.state.isTerminal = true → s.Silent
  joined : s.stop = .joined → s.Silent
  writes : (∀ w ∈ s.writes, w.isFinal = false) ∨
    s.inst.monitor.finished = true ∧ ∃ w, s.writes = [w] ∧ w.isFinal = true
  drafted : ∀ w status, s.hand = .draft w status → s.Drafted w status
  stopped : s.stop.published = true → ∀ w ∈ s.writes, w.isFinal = true
  cancelled : s.stop = .flagged ∨ s.stop.published = true → s.inst.probeCancel = true

variable {s s' : Scene} {w : Write} {status : InstanceStatus}

theorem lasting_launched (epoch : Epoch) (options : InstanceOptions)
    (controller : ResolvedController) (now : Nat) (nowMs : Int) :
    (launched epoch options controller now nowMs).Lasting where
  monotone := List.pairwise_singleton _ _
  shown := ⟨0, [], rfl⟩
  unstopped := by simp [launched, published, Instance.launched, InstanceStatus.initial]
  stopping := fun stopped => by cases stopped
  terminal := fun terminal => by cases terminal
  joined := fun joined => by cases joined
  writes := .inl (by simp [launched, writes, Hand.writes])
  drafted := fun w status drafted => by cases drafted
  stopped := fun stopped => by cases stopped
  cancelled := by simp [launched, StopPhase.published]

section

variable (lasting : s.Lasting)

include lasting

theorem Lasting.mem_published : s.inst.status ∈ s.published := by
  obtain ⟨number, earlier, history⟩ := lasting.shown
  simp [published, history]

/-- As long as the newest value is not terminal, none is. -/
theorem Lasting.not_terminal (serving : s.inst.status.state.isTerminal = false) :
    ∀ status ∈ s.published, status.state.isTerminal = false := by
  intro status member
  obtain ⟨number, earlier, history⟩ := lasting.shown
  have monotone := lasting.monotone
  simp only [published, history, List.map_cons, StopMonotone, List.pairwise_cons] at monotone
  simp only [published, history, List.map_cons, List.mem_cons] at member
  rcases member with rfl | older
  · exact serving
  · exact (monotone.1 status older).1

theorem Lasting.serving (writing : s.writes ≠ []) : s.inst.status.state.isTerminal = false := by
  cases terminal : s.inst.status.state.isTerminal with
  | false => rfl
  | true => exact absurd (lasting.terminal terminal).sent writing

theorem Lasting.push (serving : s.inst.status.state.isTerminal = false)
    (quiet : s.stop.published = true → status.Quiet) : StopMonotone (status :: s.published) := by
  apply List.pairwise_cons.mpr
  refine ⟨fun earlier member => ⟨lasting.not_terminal serving earlier member, ?_⟩,
    lasting.monotone⟩
  intro stopping
  cases published : s.stop.published with
  | true => exact quiet published
  | false => exact absurd stopping (lasting.unstopped published earlier member)

/-- A move of the monitor's hand. -/
theorem Lasting.move {hand : Hand} {pending : List Write} (same : hand.writes ++ pending = s.writes)
    (drafted : ∀ w status, hand = .draft w status → s.Drafted w status) :
    Lasting { s with hand := hand, pending := pending } := by
  have same : Scene.writes { s with hand := hand, pending := pending } = s.writes := same
  exact
    { lasting with
      terminal := fun terminal =>
        ⟨same.trans (lasting.terminal terminal).sent, (lasting.terminal terminal).left⟩
      joined := fun joined =>
        ⟨same.trans (lasting.joined joined).sent, (lasting.joined joined).left⟩
      writes := by
        rw [same]
        exact lasting.writes
      drafted := drafted
      stopped := by
        rw [same]
        exact lasting.stopped }

theorem Lasting.take {event : MonitorEvent} (empty : s.writes = []) (alive : s.aborted = false)
    (active : s.inst.monitor.finished = false) (selects : s.selects event = true)
    (supervised : s.inst.supervised event = true) (orderly : s.orderly (.take event) = true) :
    (s.take event).Lasting := by
  have taken := Instance.taken_turn supervised
  have running : ¬ s.Silent := fun silent => by
    rcases silent.left with aborted | finished
    · simp [alive] at aborted
    · simp [active] at finished
  have writes := writes_take empty event
  have published : (s.take event).published = s.published := by
    simp [Scene.published, Scene.take, taken.history]
  exact
    { monotone := published ▸ lasting.monotone
      shown := by simpa [Scene.take, taken.history, taken.status] using lasting.shown
      unstopped := fun before => published ▸ lasting.unstopped before
      stopping := fun stopped => published ▸ lasting.stopping stopped
      terminal := fun terminal => by
        refine absurd (lasting.terminal ?_) running
        simpa [Scene.take, taken.status] using terminal
      joined := fun joined => absurd (lasting.joined joined) running
      writes := by
        rw [writes]
        exact taken.writes
      drafted := fun w status drafted => by simp [Scene.take, hand_free empty] at drafted
      stopped := fun stopping => by
        have cancel := lasting.cancelled (.inr stopping)
        have stopping : s.stop.published = true := stopping
        rw [writes]
        simp only [Scene.selects, cancel, Bool.not_true, Bool.or_false, Bool.or_eq_true] at selects
        simp only [Scene.orderly, stopping, Bool.not_true, Bool.false_or,
          Bool.not_eq_true'] at orderly
        rcases selects with first | seen
        · -- the cancellation itself writes nothing
          cases event <;> simp [MonitorEvent.isProbeCancelled] at first
          simp only [Instance.turn]
          split_ifs <;> simp [Instance.silently]
        · exact Instance.turn_cancelled seen orderly
      cancelled := fun stage => taken.probeCancel (lasting.cancelled stage) }

theorem Lasting.drafts {health : Option HealthStatus} {instanceId : Option InstanceId}
    (member : w ∈ s.writes) : s.Drafted w (w.compose health instanceId s.inst) := by
  unfold Drafted
  split
  case isTrue final => exact Write.compose_final final
  case isFalse news =>
    have news : w.isFinal = false := by simpa using news
    refine ⟨Write.compose_news news, ?_⟩
    rcases @Write.state_compose_news w health instanceId s.inst news with same | ⟨serving, moving⟩
    · rw [same]
      exact ⟨lasting.serving (List.ne_nil_of_mem member),
        fun before => lasting.unstopped before _ lasting.mem_published⟩
    · exact ⟨serving, fun _ => moving⟩

theorem Lasting.send (hand : s.hand = .draft w status) :
    Lasting { s with inst := s.inst.publishStatus status, hand := .free } := by
  have all : s.writes = w :: s.pending := by simp [Scene.writes, hand, Hand.writes]
  have serving := lasting.serving (all ▸ List.cons_ne_nil _ _)
  have drafted := lasting.drafted w status hand
  have quiet : w.isFinal = true → status.Quiet := fun final => by
    simp only [Drafted, final, if_true] at drafted
    obtain ⟨reason, rfl⟩ := drafted
    exact quiet_stopped reason
  have ending : status.state.isTerminal = true → w.isFinal = true := fun terminal => by
    by_contra news
    simp [Drafted, news, terminal] at drafted
  have silent : w.isFinal = true → s.pending = [] ∧ s.inst.monitor.finished = true := fun final => by
    rcases lasting.writes with news | ⟨finished, last, only, _⟩
    · exact absurd (news w (by simp [all])) (by simp [final])
    · rw [all, List.cons.injEq] at only
      exact ⟨only.2, finished⟩
  exact
    { monotone := lasting.push serving fun stopped => quiet (lasting.stopped stopped w (by simp [all]))
      shown := ⟨_, _, rfl⟩
      unstopped := fun before => by
        intro shown member
        rcases List.mem_cons.mp member with rfl | older
        · cases final : w.isFinal with
          | true =>
              simp only [Drafted, final, if_true] at drafted
              obtain ⟨reason, rfl⟩ := drafted
              simp
          | false =>
              simp only [Drafted, final, Bool.false_eq_true, if_false] at drafted
              exact drafted.2.2 before
        · exact lasting.unstopped before shown older
      stopping := fun stopped => by
        obtain ⟨shown, member, state⟩ := lasting.stopping stopped
        exact ⟨shown, List.mem_cons_of_mem _ member, state⟩
      terminal := fun terminal =>
        ⟨(silent (ending terminal)).1, .inr (silent (ending terminal)).2⟩
      joined := fun joined => by
        have sent := (lasting.joined joined).sent
        simp [all] at sent
      writes := by
        left
        rcases lasting.writes with news | ⟨_, last, only, _⟩
        · exact fun later member => news later (all ▸ List.mem_cons_of_mem _ member)
        · rw [all, List.cons.injEq] at only
          simp [Scene.writes, Hand.writes, only.2]
      drafted := fun w status drafted => by cases drafted
      stopped := fun stopped later member =>
        lasting.stopped stopped later (all ▸ List.mem_cons_of_mem _ member)
      cancelled := lasting.cancelled }

theorem Lasting.publishStopping (flagged : s.stop = .flagged)
    (orderly : s.orderly .publishStopping = true) :
    Lasting { s with
      inst := s.inst.publishStatus ⟨none, .stopping, none⟩, stop := .stopping } := by
  simp only [Scene.orderly, Bool.and_eq_true, Bool.not_eq_true', List.all_eq_true] at orderly
  exact
    { monotone := lasting.push orderly.1 fun _ => ⟨.inl rfl, rfl, rfl⟩
      shown := ⟨_, _, rfl⟩
      unstopped := fun before => by cases before
      stopping := fun _ => ⟨_, List.mem_cons_self, rfl⟩
      terminal := fun terminal => by cases terminal
      joined := fun joined => by cases joined
      writes := lasting.writes
      drafted := fun w status drafted => by
        have final := orderly.2 w (by simp [Scene.writes, show s.hand = _ from drafted, Hand.writes])
        have drafted := lasting.drafted w status drafted
        simpa [Drafted, final] using drafted
      stopped := fun _ => orderly.2
      cancelled := fun _ => lasting.cancelled (.inl flagged) }

theorem Lasting.confirm (joined : s.stop = .joined)
    (serving : s.inst.status.state.isTerminal = false) :
    Lasting { s with
      inst := s.inst.publishStatus ⟨none, .stopped .user, none⟩, stop := .done } := by
  have silent := lasting.joined joined
  have published : s.stop.published = true := by simp [joined, StopPhase.published]
  exact
    { monotone := lasting.push serving fun _ => quiet_stopped .user
      shown := ⟨_, _, rfl⟩
      unstopped := fun before => by cases before
      stopping := fun _ => by
        obtain ⟨shown, member, state⟩ := lasting.stopping published
        exact ⟨shown, List.mem_cons_of_mem _ member, state⟩
      terminal := fun _ => ⟨silent.sent, silent.left⟩
      joined := fun joined => by cases joined
      writes := lasting.writes
      drafted := fun w status drafted => by
        have sent := silent.sent
        simp [Scene.writes, show s.hand = _ from drafted, Hand.writes] at sent
      stopped := fun _ => lasting.stopped published
      cancelled := fun _ => lasting.cancelled (.inr published) }

/-- A stop request that moves on without touching the channel. -/
theorem Lasting.phase {stop : StopPhase} (same : stop.published = s.stop.published)
    (joined : stop = .joined → s.Silent) (flagged : stop = .flagged → s.inst.probeCancel = true)
    : Lasting { s with stop := stop } where
  __ := lasting
  unstopped := fun before => lasting.unstopped (same ▸ before)
  stopping := fun stopped => lasting.stopping (same ▸ stopped)
  terminal := fun terminal =>
    ⟨(lasting.terminal terminal).sent, (lasting.terminal terminal).left⟩
  joined := fun stage => ⟨(joined stage).sent, (joined stage).left⟩
  drafted := fun w status hand => by
    have drafted := lasting.drafted w status hand
    simpa only [Drafted, same] using drafted
  stopped := fun stopped => lasting.stopped (same ▸ stopped)
  cancelled := fun stage => by
    rcases stage with stage | stopped
    · exact flagged stage
    · exact lasting.cancelled (.inr (same ▸ stopped))

theorem Lasting.raise :
    Lasting { s with inst := { s.inst with userStop := true, probeCancel := true } } where
  __ := lasting
  terminal := fun terminal =>
    ⟨(lasting.terminal terminal).sent, (lasting.terminal terminal).left⟩
  joined := fun joined => ⟨(lasting.joined joined).sent, (lasting.joined joined).left⟩
  cancelled := fun _ => rfl

theorem Lasting.abort : Lasting { s with hand := .free, pending := [], aborted := true } where
  __ := lasting
  terminal := fun _ => ⟨rfl, .inl rfl⟩
  joined := fun _ => ⟨rfl, .inl rfl⟩
  writes := .inl (by simp [Scene.writes, Hand.writes])
  drafted := fun w status drafted => by cases drafted
  stopped := fun _ => by simp [Scene.writes, Hand.writes]

theorem Lasting.step {action : Action} (orderly : s.orderly action = true)
    (acts : s.act action = some s') : s'.Lasting := by
  cases acts_of_act acts with
  | take event empty alive active selects supervised =>
      exact lasting.take empty alive active selects supervised orderly
  | readHealth write rest hand pending =>
      exact lasting.move (by simp [Scene.writes, hand, pending, Hand.writes])
        fun w status drafted => by cases drafted
  | readIdentity write health hand =>
      exact lasting.move (by simp [Scene.writes, hand, Hand.writes])
        fun w status drafted => by cases drafted
  | compose write health instanceId hand =>
      have member : write ∈ s.writes := by simp [Scene.writes, hand, Hand.writes]
      refine lasting.move (by simp [Scene.writes, hand, Hand.writes]) fun w status drafted => ?_
      cases drafted
      exact lasting.drafts member
  | send write status hand => exact lasting.send hand
  | found idle =>
      exact lasting.phase (by simp [idle, StopPhase.published]) (by simp) (by simp)
  | check idle =>
      exact lasting.phase (by simp [idle, StopPhase.published]) (by simp) (by simp)
  | flag checked =>
      exact lasting.raise.phase (by simp [checked, StopPhase.published]) (by simp) (fun _ => rfl)
  | publishStopping flagged => exact lasting.publishStopping flagged orderly
  | join stopping empty finished =>
      exact lasting.phase (by simp [stopping, StopPhase.published])
        (fun _ => ⟨empty, .inr finished⟩) (by simp)
  | abort stopping =>
      exact lasting.abort.phase (by simp [stopping, StopPhase.published])
        (fun _ => ⟨rfl, .inl rfl⟩) (by simp)
  | confirm joined serving => exact lasting.confirm joined serving
  | conclude joined =>
      exact lasting.phase (by simp [joined, StopPhase.published]) (by simp) (by simp)

end

theorem OrderlyRuns.lasting {epoch : Epoch} {options : InstanceOptions}
    {controller : ResolvedController} {now : Nat} {nowMs : Int}
    (runs : OrderlyRuns (launched epoch options controller now nowMs) s) : s.Lasting := by
  induction runs with
  | refl => exact lasting_launched epoch options controller now nowMs
  | tail _ step ih =>
      obtain ⟨action, orderly, acts⟩ := step
      exact ih.step orderly acts

/-! ## What a disorderly action leads to -/

/-- The monitor's next accesses, with nothing in between. -/
def unattended (s : Scene) (accesses : Nat) : Scene :=
  s.replay (List.replicate accesses .advance)

/-- News that is under way arrives unless somebody aborts the monitor. -/
theorem unattended_news {rest : List Write} (all : s.writes = w :: rest)
    (news : w.isFinal = false)
    (drafted : ∀ status, s.hand = .draft w status → status.health.isSome = true) :
    ∃ accesses status, (s.unattended accesses).published = status :: s.published ∧
      status.health.isSome = true := by
  cases hand : s.hand with
  | free =>
      have pending : s.pending = w :: rest := by simpa [Scene.writes, hand, Hand.writes] using all
      refine ⟨4, w.compose s.inst.status.health s.inst.status.instanceId s.inst, ?_,
        Write.compose_news news⟩
      simp [unattended, replay, act, advance, hand, pending, published, Instance.publishStatus]
  | health write health =>
      obtain ⟨rfl, _⟩ : write = w ∧ s.pending = rest := by
        simpa [Scene.writes, hand, Hand.writes] using all
      refine ⟨3, write.compose health s.inst.status.instanceId s.inst, ?_,
        Write.compose_news news⟩
      simp [unattended, replay, act, advance, hand, published, Instance.publishStatus]
  | identity write health instanceId =>
      obtain ⟨rfl, _⟩ : write = w ∧ s.pending = rest := by
        simpa [Scene.writes, hand, Hand.writes] using all
      refine ⟨2, write.compose health instanceId s.inst, ?_, Write.compose_news news⟩
      simp [unattended, replay, act, advance, hand, published, Instance.publishStatus]
  | draft write status =>
      obtain ⟨rfl, _⟩ : write = w ∧ s.pending = rest := by
        simpa [Scene.writes, hand, Hand.writes] using all
      refine ⟨1, status, ?_, drafted status hand⟩
      simp [unattended, replay, act, advance, hand, published, Instance.publishStatus]

theorem not_stopMonotone {published : List InstanceStatus} {later earlier : InstanceStatus}
    (member : earlier ∈ published) (stopping : earlier.state = .stopping)
    (healthy : later.health.isSome = true) : ¬ StopMonotone (later :: published) := by
  intro monotone
  have quiet := ((List.pairwise_cons.mp monotone).1 earlier member).2 stopping
  simp [quiet.health] at healthy

theorem Lasting.disorder_take (lasting : s.Lasting) {event : MonitorEvent}
    (empty : s.writes = []) (supervised : s.inst.supervised event = true)
    (disorder : s.orderly (.take event) = false) :
    ∃ accesses, ¬ StopMonotone ((s.take event).unattended accesses).published := by
  simp only [orderly, Bool.or_eq_false_iff, Bool.not_eq_false'] at disorder
  obtain ⟨stopped, restarts⟩ := disorder
  have published : (s.take event).published = s.published := by
    simp [Scene.published, Scene.take, (Instance.taken_turn supervised).history]
  obtain ⟨w, all, news⟩ : ∃ w, (s.inst.turn event).writes = [w] ∧ w.isFinal = false := by
    cases event with
    | started | restarting => exact ⟨_, rfl, rfl⟩
    | _ => cases restarts
  have writes : (s.take event).writes = [w] := (writes_take empty event).trans all
  obtain ⟨accesses, status, arrives, healthy⟩ := unattended_news writes news
    fun status drafted => by simp [Scene.take, hand_free empty] at drafted
  obtain ⟨earlier, member, stopping⟩ := lasting.stopping stopped
  refine ⟨accesses, ?_⟩
  rw [arrives, published]
  exact not_stopMonotone member stopping healthy

theorem Lasting.disorder_publishStopping (lasting : s.Lasting)
    (disorder : s.orderly .publishStopping = false) :
    ∃ accesses, ¬ StopMonotone (Scene.unattended { s with
      inst := s.inst.publishStatus ⟨none, .stopping, none⟩, stop := .stopping } accesses).published := by
  simp only [orderly, Bool.and_eq_false_iff, Bool.not_eq_false'] at disorder
  rcases disorder with terminal | unsent
  · -- the instance ended after the request had looked
    refine ⟨0, fun monotone => ?_⟩
    have after := (List.pairwise_cons.mp monotone).1 _ lasting.mem_published
    simp [after.1] at terminal
  · obtain ⟨w, member, news⟩ := List.all_eq_false.mp unsent
    cases all : s.writes with
    | nil => simp [all] at member
    | cons first rest =>
        have fresh : first.isFinal = false := by
          rcases lasting.writes with every | ⟨_, last, only, final⟩
          · exact every first (by simp [all])
          · rw [only, List.mem_singleton] at member
            simp [member, final] at news
        obtain ⟨accesses, status, arrives, healthy⟩ := unattended_news
          (s := { s with inst := s.inst.publishStatus ⟨none, .stopping, none⟩, stop := .stopping })
          all fresh fun status hand => by
            have drafted := lasting.drafted first status hand
            simp only [Drafted, fresh, Bool.false_eq_true, if_false] at drafted
            exact drafted.1
        refine ⟨accesses, ?_⟩
        rw [arrives]
        exact not_stopMonotone List.mem_cons_self rfl healthy

theorem Lasting.disorder {action : Action} (lasting : s.Lasting)
    (disorder : s.orderly action = false) (acts : s.act action = some s') :
    ∃ accesses, ¬ StopMonotone (s'.unattended accesses).published := by
  cases acts_of_act acts with
  | take event empty _ _ _ supervised => exact lasting.disorder_take empty supervised disorder
  | publishStopping => exact lasting.disorder_publishStopping disorder
  | _ => cases disorder

/-- In every orderly run the promise holds in every scene; and whatever disorderly
    action comes next, the monitor alone then breaks it. -/
theorem stopping_lasts {epoch : Epoch} {options : InstanceOptions}
    {controller : ResolvedController} {now : Nat} {nowMs : Int}
    (runs : OrderlyRuns (launched epoch options controller now nowMs) s) :
    StopMonotone s.published ∧
      ∀ action s', s.act action = some s' → s.orderly action = false →
        ∃ accesses, ¬ StopMonotone (s'.unattended accesses).published := by
  have lasting := OrderlyRuns.lasting runs
  constructor
  · exact lasting.monotone
  · intro action s' acts disorder
    exact lasting.disorder disorder acts

/-- Every action is possible and orderly where the list has it. -/
def allOrderly (s : Scene) : List Action → Bool
  | [] => true
  | action :: rest =>
      match s.act action with
      | none => false
      | some next => s.orderly action && next.allOrderly rest

theorem orderlyRuns_replay (s : Scene) (actions : List Action)
    (orderly : s.allOrderly actions = true) : OrderlyRuns s (s.replay actions) := by
  induction actions generalizing s with
  | nil => exact .refl
  | cons action rest ih =>
      cases acts : s.act action with
      | none => simp [allOrderly, acts] at orderly
      | some next =>
          simp only [allOrderly, acts, Bool.and_eq_true] at orderly
          simp only [replay, List.foldl_cons, acts, Option.getD_some]
          exact .head ⟨action, orderly.1, acts⟩ (ih next orderly.2)

/-- An instance with the default options. -/
def plain : Scene :=
  launched ⟨1, Nat.one_pos, Epoch.one_bounded⟩ InstanceOptions.default ⟨.http "", none⟩ 0 0

def firstStart : List Action :=
  [.take (.started 2 Nat.two_pos 40 0 0), .advance, .advance, .advance, .advance]

def stopRequest : List Action := [.check, .flag, .publishStopping]

/-- A run with one start and one stop. -/
def startThenStop : List Action :=
  firstStart ++ stopRequest ++
    [.take .probeCancelled, .take (.stopped ""), .advance, .advance, .advance, .advance, .join,
      .conclude]

theorem stopping_lasts_stopped :
    ((plain.replay startThenStop).published.map (·.state) =
      [.stopped .user, .stopping, .starting, .starting]) ∧
    StopMonotone (plain.replay startThenStop).published := by
  have runs := orderlyRuns_replay plain startThenStop (by decide +kernel)
  exact ⟨by decide +kernel, (stopping_lasts runs).1⟩

/-- An announced restart waits in the queue while the stop request publishes. -/
def queuedRestart : List Action :=
  firstStart ++ [.take (.exited ⟨some 1, none⟩)] ++ stopRequest ++
    [.take .probeCancelled, .take (.restarting 1 0), .advance, .advance, .advance, .advance]

/-- An acknowledgement is under way while the stop request publishes. -/
def lateAcknowledgement : List Action :=
  firstStart ++ [.take (.observation ⟨1, 2, .readiness, 5, 5, .healthy⟩ true)] ++ stopRequest ++
    [.advance, .advance, .advance, .advance]

/-- The process ends by itself between the request's look and its first value. -/
def endedMeanwhile : List Action :=
  firstStart ++ [.check, .take (.stopped ""), .advance, .advance, .advance, .advance, .flag,
    .publishStopping]

theorem stopping_overwritten :
    (∃ s, Reachable s ∧ ¬ StopMonotone s.published ∧
      s.published.map (·.state) = [.restarting 1, .stopping, .starting, .starting]) ∧
    (∃ s, Reachable s ∧ ¬ StopMonotone s.published ∧
      s.published.map (·.state) = [.running 2, .stopping, .starting, .starting]) ∧
    (∃ s, Reachable s ∧ ¬ StopMonotone s.published ∧
      ∃ reason, s.published.map (·.state) =
        [.stopping, .stopped reason, .starting, .starting]) := by
  have reachable : ∀ actions, Reachable (plain.replay actions) := fun actions =>
    ⟨_, _, _, _, _, runs_replay plain actions⟩
  refine ⟨⟨plain.replay queuedRestart, reachable _, ?_, by decide +kernel⟩,
    ⟨plain.replay lateAcknowledgement, reachable _, ?_, by decide +kernel⟩,
    ⟨plain.replay endedMeanwhile, reachable _, ?_, _, rfl⟩⟩
  · intro monotone
    have quiet := ((List.pairwise_cons.mp monotone).1 _ List.mem_cons_self).2 rfl
    cases quiet.health
  · intro monotone
    have quiet := ((List.pairwise_cons.mp monotone).1 _ List.mem_cons_self).2 rfl
    cases quiet.health
  · intro monotone
    have last := ((List.pairwise_cons.mp monotone).1 _ List.mem_cons_self).1
    cases last

end Scene

end Nyanpasu
