import Nyanpasu.Control.Reports

/-! # The control plane in every interleaving

Every admitted operation ends, in its order, at most once, and none runs behind a
shutdown.
-/

namespace Nyanpasu

/-- The number of the operation an accepted submission is about. -/
def Admission.accepts {χ : Type} : Admission χ → Option Nat
  | registered sequence _ | existing sequence => some sequence
  | _ => none

namespace ControlPlane

variable {s s' : ControlPlane}

/-! ## Every operation ends -/

/-- An accepted submission has an entry, and a new one is queued. -/
theorem admitSubmit_accepts (s : ControlPlane) (envelope : CoreCommandEnvelope) {sequence : Nat}
    (accepts : (s.admitSubmit envelope).1.accepts = some sequence) :
    ∃ operation, (s.admitSubmit envelope).2.registry.get envelope.operationId = some operation ∧
      operation.sequence = sequence ∧
      (s.registry.get envelope.operationId = none → operation.state = .queued) := by
  have admitted := s.registry.admitted_admitOperation envelope.operationId
    (envelope.command.resolve s.settings).payloadDigest fun sequence =>
      s.channel.trySend ⟨envelope.operationId, envelope.command.resolve s.settings, sequence⟩
  simp only [admitSubmit] at accepts ⊢
  generalize s.registry.admitOperation _ _ _ = answer at admitted accepts ⊢
  obtain ⟨answer, registry⟩ := answer
  cases admitted with
  | attached present _ =>
      cases accepts
      exact ⟨_, present, rfl, fun absent => by simp [absent] at present⟩
  | entered _ _ =>
      cases accepts
      exact ⟨_, Registry.get_insert_self _ _ _, Registry.nextSequence_makeRoom _, fun _ => rfl⟩
  | clashed | failed | overflowed => cases accepts

theorem Reachable.ended (reachable : Reachable s) {exit : ExecutorExit}
    (exited : s.executor = .exited exit) :
    (∀ id operation, s.registry.get id = some operation → operation.state.isTerminal = true) ∧
      ∀ ticket ∈ s.channel.sent, ∃ state, (ticket.sequence, state) ∈ s.reports := by
  have coherent := reachable.coherent
  have none : s.tickets = [] := by
    rw [tickets, exited, (coherent.exhausted exit exited).1]
    rfl
  refine ⟨?_, ?_⟩
  · intro id operation present
    cases terminal : operation.state.isTerminal with
    | true => rfl
    | false =>
        obtain ⟨ticket, live, _⟩ := coherent.tracked.covered id operation present terminal
        have member : ticket ∈ s.tickets := live
        rw [none] at member
        cases member
  · intro ticket sent
    rcases reachable.reported.resolved ticket sent with live | known
    · rw [none] at live
      cases live
    · exact known

/-- A report is never replaced. -/
theorem Reported.unique (reported : s.Reported) {sequence : Nat} {first second : OperationState}
    (one : (sequence, first) ∈ s.reports) (two : (sequence, second) ∈ s.reports) :
    first = second := by
  have same := List.inj_on_of_nodup_map reported.once one two rfl
  exact (Prod.mk.inj same).2

/-- In every interleaving: an accepted submission has an entry, queued when it is new;
    from any point on, an operation only moves from queued over running to a terminal
    state, which it keeps, also when its entry is evicted; and once the executor has
    exited, no entry is short of a terminal state, and neither is anything that was ever
    put into the queue. -/
theorem admitted_operations_end (reachable : Reachable s) (runs : Runs s s') :
    (∀ envelope sequence, (s.admitSubmit envelope).1.accepts = some sequence →
      ∃ operation, (s.admitSubmit envelope).2.registry.get envelope.operationId = some operation ∧
        operation.sequence = sequence ∧
        (s.registry.get envelope.operationId = none → operation.state = .queued)) ∧
    (∀ id operation, s.registry.get id = some operation →
      (∃ later, s'.registry.get id = some later ∧ later.sequence = operation.sequence ∧
        operation.state.Progress later.state) ∨
      ((∃ final, (operation.sequence, final) ∈ s'.reports ∧ operation.state.Progress final) ∧
        ∀ later, s'.registry.get id = some later → later.sequence ≠ operation.sequence)) ∧
    ((∀ report ∈ s.reports, report ∈ s'.reports) ∧
      (∀ report ∈ s'.reports, report.2.isTerminal = true) ∧
      ∀ sequence first second, (sequence, first) ∈ s'.reports → (sequence, second) ∈ s'.reports →
        first = second) ∧
    (∀ exit, s'.executor = .exited exit →
      (∀ id operation, s'.registry.get id = some operation → operation.state.isTerminal = true) ∧
      ∀ ticket ∈ s'.channel.sent, ∃ state, (ticket.sequence, state) ∈ s'.reports) := by
  have follows := reachable.follows runs
  have reported := (reachable.runs runs).reported
  refine ⟨?_, follows.followed, ⟨follows.kept, reported.terminal, ?_⟩, ?_⟩
  · intro envelope sequence accepts
    exact s.admitSubmit_accepts envelope accepts
  · intro sequence first second one two
    exact reported.unique one two
  · intro exit exited
    exact (reachable.runs runs).ended exited

/-- Two operations are queued and the first one starts; a call of `shutdown` reserves
    a place. -/
def crowded : ControlPlane :=
  let stop : CoreCommandEnvelope := ⟨⟨1, 1, 1⟩, .stop⟩
  let recover : CoreCommandEnvelope := ⟨⟨2, 1, 1⟩, .recover⟩
  (spawn ⟨.prefer, false⟩ 3 2).replay
    [.submit stop, .admitSubmit stop, .submit recover, .admitSubmit recover, .advance, .advance,
      .advance, .shutdown, .reserve]

theorem reachable_crowded : crowded.Reachable := reachable_replay _ _ _ _

/-- The operation panics, and the place is used while the queue is drained. -/
def panic : List Event :=
  [.finish (.panicked "slot"), .advance, .advance, .advance, .advance, .advance,
    .admitShutdown ⟨3, 1, 1⟩, .advance, .advance, .advance]

theorem admitted_operations_end_panicked :
    (crowded.registry.get ⟨2, 1, 1⟩).map (·.state) = some .queued ∧
    (crowded.replay panic).channel.sent.length = 3 ∧
    (∀ id operation, (crowded.replay panic).registry.get id = some operation →
      operation.state.isTerminal = true) ∧
    ∀ ticket ∈ (crowded.replay panic).channel.sent,
      ∃ state, (ticket.sequence, state) ∈ (crowded.replay panic).reports := by
  have exited : (crowded.replay panic).executor = .exited .died := by decide +kernel
  have ends := admitted_operations_end reachable_crowded (runs_replay crowded panic)
  exact ⟨by decide +kernel, by decide +kernel, ends.2.2.2 .died exited⟩

/-! ## One at a time, in order, at most once -/

theorem Coherent.begun_received (coherent : s.Coherent) {ticket : Ticket}
    (began : ticket ∈ s.began) : ticket ∈ s.channel.received :=
  List.mem_of_mem_drop (coherent.begun.subset began)

theorem Coherent.begun_increasing (coherent : s.Coherent) :
    (s.began.map (·.sequence)).Pairwise (· > ·) := by
  have received : s.channel.received.Sublist s.channel.sent := List.sublist_append_right _ _
  have begun := (coherent.begun.trans (List.drop_sublist _ _)).trans received
  exact coherent.increasing.sublist (begun.map _)

/-- After the latch: what is not a shutdown and had not been taken from the queue. -/
structure Refuses (s s' : ControlPlane) : Prop where
  latched : s'.closing = true
  begun : ∀ ticket ∈ s'.began, ticket.command.isShutdown = false → ticket ∈ s.channel.received
  starting : ∀ ticket, s'.executor = .starting ticket → ticket.command.isShutdown = false →
    ticket ∈ s.channel.received

theorem Acts.refuses {s s₁ s₂ : ControlPlane} (acts : s₁.Acts s₂) (refuses : Refuses s s₁) :
    Refuses s s₂ := by
  obtain ⟨latched, begun, starting⟩ := refuses
  cases acts with
  | pass stands allowed =>
      -- with the latch set, only a shutdown gets past the check
      refine ⟨latched, begun, ?_⟩
      intro ticket starts plain
      cases starts
      rcases allowed with shutdown | opened
      · rw [plain] at shutdown
        cases shutdown
      · rw [latched] at opened
        cases opened
  | start stands =>
      refine ⟨latched, ?_, fun _ starts => by cases starts⟩
      intro other member plain
      rcases List.mem_cons.mp member with rfl | earlier
      · exact starting other stands plain
      · exact begun other earlier plain
  | settle stands =>
      refine ⟨latched, begun, ?_⟩
      intro ticket starts
      dsimp only at starts
      split at starts <;> cases starts
  | latch stands => exact ⟨rfl, begun, fun _ starts => by cases starts⟩
  | receive | leave | refuse | refused | returned | panicked | die | close | drain | exit
  | terminalize => exact ⟨latched, begun, fun _ starts => by cases starts⟩

theorem step_refuses {s s₁ s₂ : ControlPlane} {event : Event} (steps : s₁.step event = some s₂)
    (refuses : Refuses s s₁) : Refuses s s₂ := by
  rcases moves_of_step steps with (aside | ⟨ticket, enters⟩) | acts
  · refine ⟨aside.closing refuses.latched, ?_, ?_⟩
    · rw [aside.began]
      exact refuses.begun
    · rw [aside.executor]
      exact refuses.starting
  · refine ⟨enters.closing.trans refuses.latched, ?_, ?_⟩
    · rw [enters.began]
      exact refuses.begun
    · rw [enters.executor]
      exact refuses.starting
  · exact acts.refuses refuses

theorem Reachable.refuses (reachable : Reachable s) (closing : s.closing = true)
    (runs : Runs s s') : Refuses s s' := by
  have coherent := reachable.coherent
  induction runs with
  | refl =>
      refine ⟨closing, fun _ member _ => coherent.begun_received member, ?_⟩
      intro ticket starts _
      obtain ⟨rest, received⟩ := coherent.taken ticket (by rw [starts]; exact List.mem_cons_self)
      rw [received]
      exact List.mem_cons_self
  | tail _ steps ih =>
      obtain ⟨event, steps⟩ := steps
      exact step_refuses steps ih

/-- In every interleaving: at most one operation is in the manager and all that began
    before it are over; operations begin in the order of their numbers, each at most
    once, and only after they were taken from the queue; while an id is registered,
    submitting it again attaches or clashes and changes nothing; from the moment the
    latch is set, nothing but a shutdown begins that had not left the queue before; and
    nothing begins after a shutdown. -/
theorem serial_execution (reachable : Reachable s) (runs : Runs s s') :
    (s.began = s.executor.underway ++ s.ended.map (·.1) ∧ s.executor.underway.length ≤ 1) ∧
    ((s.began.map (·.sequence)).Pairwise (· > ·) ∧
      ∀ ticket ∈ s.began, ticket ∈ s.channel.received) ∧
    (∀ envelope operation, s.registry.get envelope.operationId = some operation →
      s.admitSubmit envelope =
        (if operation.digest = (envelope.command.resolve s.settings).payloadDigest then
          .existing operation.sequence
        else .rejected (Registry.conflict envelope.operationId), s) ∧
      (s.closing = false → s.submit envelope = s.admitSubmit envelope)) ∧
    (s.closing = true → ∀ ticket ∈ s'.began, ticket.command.isShutdown = false →
      ticket ∈ s.channel.received) ∧
    (∀ ticket ∈ s.began.tail, ticket.command.isShutdown = false) := by
  have coherent := reachable.coherent
  refine ⟨⟨coherent.serial, ?_⟩, ⟨coherent.begun_increasing, ?_⟩, ?_, ?_, coherent.final⟩
  · cases s.executor <;> simp [Executor.underway]
  · intro ticket began
    exact coherent.begun_received began
  · intro envelope operation present
    refine ⟨admitSubmit_registered present, ?_⟩
    intro opened
    simp [submit, checkSubmit, opened]
  · intro closing
    exact (reachable.refuses closing runs).begun

/-- The operation that was waiting when the latch was set is refused, and the shutdown
    runs last. -/
def shutDown : List Event :=
  [.finish (.returned (.ok .stopped)), .admitShutdown ⟨3, 1, 1⟩, .advance, .advance, .advance,
    .advance, .advance, .advance, .advance, .finish (.returned (.ok .shutDown)), .advance]

theorem serial_execution_shutDown :
    crowded.closing = true ∧ ((crowded.replay shutDown).began.map (·.sequence)) = [2, 0] ∧
    (∀ ticket ∈ (crowded.replay shutDown).began, ticket.command.isShutdown = false →
      ticket ∈ crowded.channel.received) := by
  have serial := serial_execution reachable_crowded (runs_replay crowded shutDown)
  have closing : crowded.closing = true := by decide +kernel
  exact ⟨closing, by decide +kernel, serial.2.2.2.1 closing⟩

end ControlPlane

end Nyanpasu
