import Nyanpasu.Control.Eviction
import Nyanpasu.Control.Reports

/-! # The registry keeps what is live, and its bound

The entries that eviction must spare are those of the queue and of the one operation
in the executor's hand, so a capacity above the queue's is enough.
-/

namespace Nyanpasu

namespace ControlPlane

variable {s s' : ControlPlane} {queueCapacity registryCapacity : Nat}

/-! ## The bound -/

structure Sized (queueCapacity registryCapacity : Nat) (s : ControlPlane) : Prop where
  ordered : s.registry.Ordered
  capacity : s.registry.capacity = Registry.liveCapacity registryCapacity queueCapacity
  queue : s.channel.capacity = queueCapacity
  bounded : s.registry.order.length ≤ max registryCapacity (queueCapacity + 1)

theorem sized_spawn (settings : LocalIpcSettings) (queueCapacity registryCapacity : Nat) :
    (spawn settings queueCapacity registryCapacity).Sized queueCapacity registryCapacity where
  ordered := Registry.ordered_new _
  capacity := rfl
  queue := rfl
  bounded := Nat.zero_le _

theorem Aside.sized (aside : Aside s s') (sized : s.Sized queueCapacity registryCapacity) :
    s'.Sized queueCapacity registryCapacity := by
  obtain ⟨ordered, capacity, shorter⟩ := aside.shrinks.ordered sized.ordered
  exact ⟨ordered, capacity.trans sized.capacity, aside.capacity.trans sized.queue,
    shorter.trans sized.bounded⟩

/-- Where nothing terminal is left, every id belongs to work that is queued or in hand. -/
theorem Coherent.length_le {room : Registry} (coherent : s.Coherent)
    (thinned : s.registry.Thinned room) (ordered : room.Ordered)
    (live : ∀ id ∈ room.order, room.isTerminal id = false) :
    room.order.length ≤ s.channel.queue.length + 1 := by
  have covered : room.order ⊆ s.tickets.map (·.id) := by
    intro id member
    obtain ⟨operation, present⟩ := Option.isSome_iff_exists.mp ((ordered.listed id).mp member)
    have unfinished : operation.state.isTerminal = false := by
      simpa [Registry.isTerminal, present] using live id member
    obtain ⟨ticket, known, rfl, _⟩ :=
      coherent.tracked.covered id operation (thinned.kept present) unfinished
    exact List.mem_map_of_mem known
  have fits := (List.subperm_of_subset ordered.nodup covered).length_le
  have hand : s.executor.hand.length ≤ 1 := by
    cases s.executor <;> simp [Executor.hand]
  simp only [tickets, List.length_map, List.length_append] at fits
  omega

theorem Enters.sized {ticket : Ticket} (enters : s.Enters ticket s') (coherent : s.Coherent)
    (sized : s.Sized queueCapacity registryCapacity) :
    s'.Sized queueCapacity registryCapacity := by
  obtain ⟨digest, registry⟩ := enters.inserted
  have thinned := Registry.thinned_makeRoom s.registry
  have ordered := sized.ordered.makeRoom
  refine ⟨?_, ?_, enters.capacity.trans sized.queue, ?_⟩
  · rw [registry]
    exact ordered.insert (thinned.absent enters.absent) digest
  · rw [registry]
    exact (Registry.capacity_makeRoom _).trans sized.capacity
  · -- the place of the new ticket in the queue pays for its entry
    have place := s'.channel.bounded
    rw [enters.queue, enters.capacity, sized.queue, List.length_append, List.length_singleton]
      at place
    have longer : s'.registry.order.length = s.registry.makeRoom.order.length + 1 := by
      rw [registry]
      simp [Registry.insert]
    rcases sized.ordered.makeRoom_full with below | live
    · rw [sized.capacity, Registry.liveCapacity] at below
      omega
    · have few := coherent.length_le thinned ordered live
      omega

theorem Acts.sized (acts : s.Acts s') (sized : s.Sized queueCapacity registryCapacity) :
    s'.Sized queueCapacity registryCapacity := by
  have queue : s'.channel.capacity = s.channel.capacity := by
    cases acts with
    | receive _ receives | drain _ receives =>
        obtain ⟨_, _, _, _, capacity⟩ := Channel.recv_eq_some receives
        exact capacity
    | leave | refuse | pass | refused | start | returned | panicked | settle | die | latch | close
    | exit | terminalize => rfl
  rcases acts.writes.registry with same | ⟨id, state, registry⟩
  · refine ⟨?_, ?_, queue.trans sized.queue, ?_⟩ <;> rw [same]
    · exact sized.ordered
    · exact sized.capacity
    · exact sized.bounded
  · refine ⟨?_, ?_, queue.trans sized.queue, ?_⟩ <;> rw [registry]
    · exact sized.ordered.set id state
    · exact (Registry.capacity_set _ _ _).trans sized.capacity
    · rw [Registry.order_set]
      exact sized.bounded

theorem Runs.sized {settings : LocalIpcSettings}
    (runs : Runs (spawn settings queueCapacity registryCapacity) s) :
    s.Sized queueCapacity registryCapacity := by
  induction runs with
  | refl => exact sized_spawn settings queueCapacity registryCapacity
  | tail before steps ih =>
      obtain ⟨event, steps⟩ := steps
      have reachable : Reachable _ := ⟨settings, queueCapacity, registryCapacity, before⟩
      rcases moves_of_step steps with (aside | ⟨ticket, enters⟩) | acts
      · exact aside.sized ih
      · exact enters.sized reachable.coherent ih
      · exact acts.sized ih

variable {operation : RegisteredOperation}

/-! ## What is live stays -/

theorem kept_of_thinned {r r' : Registry} (thinned : r.Thinned r') {id : OperationId}
    (present : r.get id = some operation) (live : operation.state.isTerminal = false)
    : r'.get id = some operation := by
  rcases thinned id with same | ⟨_, terminal⟩
  · exact same.trans present
  · simp [Registry.isTerminal, present, live] at terminal

/-- No step evicts an operation that is queued or running. -/
theorem live_of_step {event : Event} (steps : s.step event = some s') {id : OperationId}
    (present : s.registry.get id = some operation) (live : operation.state.isTerminal = false) :
    ∃ later, s'.registry.get id = some later ∧ later.sequence = operation.sequence := by
  rcases moves_of_step steps with (aside | ⟨ticket, enters⟩) | acts
  · exact ⟨operation, kept_of_thinned aside.thinned present live, rfl⟩
  · obtain ⟨digest, registry⟩ := enters.inserted
    have different : id ≠ ticket.id := by
      rintro rfl
      simp [enters.absent] at present
    refine ⟨operation, ?_, rfl⟩
    rw [registry, Registry.get_insert_ne different]
    exact kept_of_thinned (Registry.thinned_makeRoom _) present live
  · rcases acts.writes.registry with same | ⟨written, state, registry⟩
    · exact ⟨operation, same ▸ present, rfl⟩
    · by_cases mine : id = written
      · subst mine
        refine ⟨{ operation with state := state }, ?_, rfl⟩
        rw [registry]
        exact Registry.get_set_self present state
      · refine ⟨operation, ?_, rfl⟩
        rw [registry, Registry.get_set_ne mine]
        exact present

/-- In every interleaving: the eviction order lists the registered ids, each once; there
    are never more than the capacity or what the queue and the executor hold; no step
    evicts a live operation; so an operation can be queried until its terminal state is
    written. -/
theorem registry_bounded {settings : LocalIpcSettings}
    (runs : Runs (spawn settings queueCapacity registryCapacity) s) (further : Runs s s') :
    (s.registry.order.Nodup ∧
      ∀ id, id ∈ s.registry.order ↔ (s.registry.get id).isSome = true) ∧
    s.registry.size ≤ max registryCapacity (queueCapacity + 1) ∧
    (∀ event next, s.step event = some next → ∀ id operation,
      s.registry.get id = some operation → operation.state.isTerminal = false →
        ∃ later, next.registry.get id = some later ∧ later.sequence = operation.sequence) ∧
    (∀ id operation, s.registry.get id = some operation →
      (∀ final, (operation.sequence, final) ∉ s'.reports) →
        ∃ later, s'.registry.get id = some later ∧ later.sequence = operation.sequence) := by
  have reachable : Reachable s := ⟨settings, queueCapacity, registryCapacity, runs⟩
  have sized := runs.sized
  refine ⟨⟨sized.ordered.nodup, sized.ordered.listed⟩, ?_, ?_, ?_⟩
  · rw [← sized.ordered.length_eq]
    exact sized.bounded
  · intro event next steps id operation present live
    exact live_of_step steps present live
  · intro id operation present unfinished
    rcases (reachable.follows further).followed id operation present with
      ⟨later, kept, same, _⟩ | ⟨⟨final, known, _⟩, _⟩
    · exact ⟨later, kept, same⟩
    · exact absurd known (unfinished final)

/-- One operation is over and the next one fills the queue. -/
def full : ControlPlane :=
  let stop : CoreCommandEnvelope := ⟨⟨1, 1, 1⟩, .stop⟩
  let recover : CoreCommandEnvelope := ⟨⟨2, 1, 1⟩, .recover⟩
  (spawn ⟨.prefer, false⟩ 1 1).replay
    [.submit stop, .admitSubmit stop, .advance, .advance, .advance,
      .finish (.returned (.ok .stopped)), .advance, .submit recover, .admitSubmit recover]

theorem registry_bounded_full :
    full.registry.order = [⟨1, 1, 1⟩, ⟨2, 1, 1⟩] ∧ full.registry.size ≤ max 1 (1 + 1) ∧
    ∃ later, (full.replay [.advance, .advance, .advance]).registry.get ⟨2, 1, 1⟩ = some later ∧
      later.sequence = 1 := by
  have bounded := registry_bounded (runs_replay (spawn ⟨.prefer, false⟩ 1 1) _)
    (runs_replay full [.advance, .advance, .advance])
  have unfinished : ∀ final,
      (1, final) ∉ (full.replay [.advance, .advance, .advance]).reports := by
    have reports : (full.replay [.advance, .advance, .advance]).reports.map (·.1) = [0] := by
      decide +kernel
    intro final known
    have listed := List.mem_map_of_mem (f := Prod.fst) known
    simp [reports] at listed
  refine ⟨by decide +kernel, bounded.2.1, ?_⟩
  exact bounded.2.2.2 ⟨2, 1, 1⟩ ⟨CoreCommand.recover.payloadDigest, 1, .queued⟩
    (by decide +kernel) unfinished

/-! ## A rejected submission -/

/-- A submission that goes past the latch with a new id finds the registry full, with
    something to evict. -/
def evictsFor (s : ControlPlane) (envelope : CoreCommandEnvelope) : Bool :=
  !s.closing && (s.registry.get envelope.operationId).isNone &&
    s.registry.capacity ≤ s.registry.size && s.registry.order.any s.registry.isTerminal

variable {envelope : CoreCommandEnvelope}

theorem submit_latched (closing : s.closing = true) : (s.submit envelope).2 = s := by
  simp [submit, checkSubmit, closing]

theorem submit_open (opened : s.closing = false) : s.submit envelope = s.admitSubmit envelope := by
  simp [submit, checkSubmit, opened]

/-- The registry after a submission that was refused by the queue. -/
theorem registry_rejected {error : CoreError}
    (rejected : (s.admitSubmit envelope).1.failure = some error)
    (absent : s.registry.get envelope.operationId = none) :
    ∃ digest, (s.admitSubmit envelope).2.registry =
      (s.registry.makeRoom.insert envelope.operationId digest).retract envelope.operationId := by
  have admitted := s.registry.admitted_admitOperation envelope.operationId
    (envelope.command.resolve s.settings).payloadDigest fun sequence =>
      s.channel.trySend ⟨envelope.operationId, envelope.command.resolve s.settings, sequence⟩
  simp only [admitSubmit] at rejected ⊢
  generalize s.registry.admitOperation _ _ _ = answer at admitted rejected ⊢
  obtain ⟨answer, registry⟩ := answer
  cases admitted with
  | failed _ _ => exact ⟨_, rfl⟩
  | clashed present _ => simp [absent] at present
  | attached | entered | overflowed => cases rejected

/-- For every state and submission that is rejected: the entries and the eviction order
    are what they were exactly when nothing was evicted to make room for it. -/
theorem rejected_submit_unchanged {envelope : CoreCommandEnvelope} {error : CoreError}
    (rejected : (s.submit envelope).1.failure = some error) :
    ((∀ id, (s.submit envelope).2.registry.get id = s.registry.get id) ∧
      (s.submit envelope).2.registry.order = s.registry.order) ↔ s.evictsFor envelope = false := by
  cases closing : s.closing with
  | true => simp [submit_latched closing, evictsFor, closing]
  | false =>
      rw [submit_open closing] at rejected ⊢
      cases present : s.registry.get envelope.operationId with
      | some operation =>
          simp [admitSubmit_registered present, evictsFor, present]
      | none =>
          obtain ⟨digest, registry⟩ := registry_rejected rejected present
          have absent := (Registry.thinned_makeRoom s.registry).absent present
          rw [registry, Registry.order_retract_insert]
          simp only [Registry.get_retract_insert absent]
          cases evicts : s.evictsFor envelope with
          | false =>
              have stays : s.registry.size < s.registry.capacity ∨
                  ∀ id ∈ s.registry.order, s.registry.isTerminal id = false := by
                by_cases below : s.registry.size < s.registry.capacity
                · exact .inl below
                · right
                  simpa [evictsFor, closing, present, Nat.le_of_not_lt below] using evicts
              simp [Registry.makeRoom_eq_self stays]
          | true =>
              simp only [evictsFor, closing, present, Bool.not_false, Option.isNone_none,
                Bool.true_and, Bool.and_eq_true, decide_eq_true_eq, List.any_eq_true] at evicts
              obtain ⟨full, id, listed, terminal⟩ := evicts
              have shorter := Registry.length_makeRoom_lt full listed terminal
              simp only [Bool.true_eq_false, iff_false, not_and]
              intro _ same
              rw [same] at shorter
              exact lt_irrefl _ shorter

/-- With room in the registry, a submission the full queue rejects changes nothing. -/
theorem rejected_submit_unchanged_spare :
    let s := (spawn ⟨.prefer, false⟩ 1 3).replay
      [.submit ⟨⟨1, 1, 1⟩, .stop⟩, .admitSubmit ⟨⟨1, 1, 1⟩, .stop⟩]
    (∀ id, (s.submit ⟨⟨2, 1, 1⟩, .stop⟩).2.registry.get id = s.registry.get id) ∧
      (s.submit ⟨⟨2, 1, 1⟩, .stop⟩).2.registry.order = s.registry.order := by
  intro s
  have rejected : (s.submit ⟨⟨2, 1, 1⟩, .stop⟩).1.failure =
      some (Registry.sendFailure ⟨2, 1, 1⟩ .full) := by decide +kernel
  exact (rejected_submit_unchanged rejected).mpr (by decide +kernel)

/-- The queue rejects the submission, and the result of the earlier operation is gone. -/
theorem rejected_submit_evicts :
    ∃ s envelope error, Reachable s ∧ (s.submit envelope).1.failure = some error ∧
      (s.registry.get ⟨1, 1, 1⟩).map (·.state) = some (.succeeded .stopped) ∧
      (s.submit envelope).2.registry.get ⟨1, 1, 1⟩ = none :=
  ⟨full, ⟨⟨3, 1, 1⟩, .stop⟩, Registry.sendFailure ⟨3, 1, 1⟩ .full, reachable_replay _ _ _ _,
    by decide +kernel, by decide +kernel, by decide +kernel⟩

end ControlPlane

end Nyanpasu
