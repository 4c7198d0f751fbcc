import Nyanpasu.Control.Plane

/-! # Coherence of the control plane

The registry, the queue and the executor agree: an entry is not terminal exactly
while its ticket is queued or in the executor's hand.  Every step keeps this, so it
holds in every interleaving.
-/

namespace Nyanpasu

/-! ## Where the executor stands -/

namespace Executor

/-- The work taken from the queue and not yet terminal. -/
def hand : Executor → List Ticket
  | checking ticket | refusing ticket | starting ticket | executing ticket | settling ticket _
  | dying ticket _ | terminalizing _ ticket => [ticket]
  | _ => []

/-- What the registry shows of the work in hand. -/
def shown : Executor → OperationState
  | executing _ | settling _ _ | dying _ _ => .running
  | _ => .queued

/-- The work in the manager. -/
def underway : Executor → List Ticket
  | executing ticket => [ticket]
  | _ => []

/-- The work that began last, while it is not terminal. -/
def doing : Executor → List Ticket
  | executing ticket | settling ticket _ | dying ticket _ => [ticket]
  | _ => []

/-- How many of the tickets received last have not begun but still may. -/
def pending : Executor → Nat
  | checking _ | refusing _ | starting _ | terminalizing _ _ => 1
  | _ => 0

/-- Before the executor leaves its loop and outside the manager. -/
def looping : Executor → Bool
  | receiving | checking _ | refusing _ | starting _ => true
  | _ => false

/-- After the executor closed the queue. -/
def drains : Executor → Bool
  | draining _ | terminalizing _ _ | exited _ => true
  | _ => false

theorem shown_live (executor : Executor) : executor.shown.isTerminal = false := by
  cases executor <;> rfl

end Executor

/-! ## Entries and tickets -/

/-- The entry of the ticket's own registration is in the given state. -/
def Registry.Shows (r : Registry) (ticket : Ticket) (state : OperationState) : Prop :=
  ∃ operation, r.get ticket.id = some operation ∧ operation.sequence = ticket.sequence ∧
    operation.state = state

/-- The entries that are not terminal are those of the tickets in hand and in the
    queue. -/
structure Tracked (r : Registry) (hand : List Ticket) (shown : OperationState)
    (queue : List Ticket) : Prop where
  waiting : ∀ ticket ∈ queue, r.Shows ticket .queued
  held : ∀ ticket ∈ hand, r.Shows ticket shown
  covered : ∀ id operation, r.get id = some operation → operation.state.isTerminal = false →
    ∃ ticket ∈ hand ++ queue, ticket.id = id ∧ ticket.sequence = operation.sequence
  numbered : ∀ id operation, r.get id = some operation → operation.sequence < r.nextSequence
  distinct : ((hand ++ queue).map (·.sequence)).Nodup

variable {operation : RegisteredOperation}

section

variable {r r' room : Registry} {hand queue : List Ticket} {shown state : OperationState}
  {ticket other : Ticket}

theorem Registry.Thinned.kept (thinned : r.Thinned r') {id : OperationId}
    (present : r'.get id = some operation) : r.get id = some operation := by
  rcases thinned id with same | ⟨gone, _⟩
  · rw [← same, present]
  · simp [gone] at present

theorem Registry.Shows.thin (thinned : r.Thinned r') (shows_ : r.Shows ticket state)
    (live : state.isTerminal = false) : r'.Shows ticket state := by
  obtain ⟨operation, present, sequence, rfl⟩ := shows_
  refine ⟨operation, ?_, sequence, rfl⟩
  rcases thinned ticket.id with same | ⟨_, terminal⟩
  · rw [same, present]
  · simp [isTerminal, present, live] at terminal

theorem Tracked.thin (tracked : Tracked r hand shown queue) (thinned : r.Thinned r')
    (grown : r.nextSequence ≤ r'.nextSequence) (live : shown.isTerminal = false) :
    Tracked r' hand shown queue where
  waiting := fun ticket member => (tracked.waiting ticket member).thin thinned rfl
  held := fun ticket member => (tracked.held ticket member).thin thinned live
  covered := fun id operation present => tracked.covered id operation (thinned.kept present)
  numbered := fun id operation present =>
    (tracked.numbered id operation (thinned.kept present)).trans_le grown
  distinct := tracked.distinct

theorem Registry.Shows.issued (shows_ : r.Shows ticket state)
    (numbered : ∀ id operation, r.get id = some operation → operation.sequence < r.nextSequence) :
    ticket.sequence < r.nextSequence := by
  obtain ⟨operation, present, sequence, _⟩ := shows_
  rw [← sequence]
  exact numbered ticket.id operation present

theorem Tracked.issued (tracked : Tracked r hand shown queue) (member : ticket ∈ hand ++ queue) :
    ticket.sequence < r.nextSequence := by
  rcases List.mem_append.mp member with inHand | queued
  · exact (tracked.held ticket inHand).issued tracked.numbered
  · exact (tracked.waiting ticket queued).issued tracked.numbered

theorem Registry.Shows.insert (shows_ : r.Shows ticket state) {id : OperationId}
    (absent : r.get id = none) (digest : String) : (r.insert id digest).Shows ticket state := by
  obtain ⟨operation, present, rest⟩ := shows_
  have different : ticket.id ≠ id := by
    intro same
    simp [same, absent] at present
  exact ⟨operation, (Registry.get_insert_ne different digest).trans present, rest⟩

/-- A new operation is entered and queued under the next number. -/
theorem Tracked.enter (tracked : Tracked room hand shown queue)
    (absent : room.get ticket.id = none) (next : ticket.sequence = room.nextSequence)
    (digest : String) :
    Tracked (room.insert ticket.id digest) hand shown (queue ++ [ticket]) := by
  have entered := room.get_insert_self ticket.id digest
  refine ⟨?_, ?_, ?_, ?_, ?_⟩
  · intro other member
    rcases List.mem_append.mp member with queued | last
    · exact (tracked.waiting other queued).insert absent digest
    · obtain rfl := List.mem_singleton.mp last
      exact ⟨_, entered, next.symm, rfl⟩
  · intro other member
    exact (tracked.held other member).insert absent digest
  · intro id operation present live
    by_cases same : id = ticket.id
    · subst same
      rw [entered] at present
      cases present
      exact ⟨ticket, by simp, rfl, next⟩
    · rw [Registry.get_insert_ne same] at present
      obtain ⟨other, member, named⟩ := tracked.covered id operation present live
      refine ⟨other, ?_, named⟩
      rw [← List.append_assoc]
      exact List.mem_append_left _ member
  · intro id operation present
    by_cases same : id = ticket.id
    · subst same
      rw [entered] at present
      cases present
      exact Nat.lt_succ_self _
    · rw [Registry.get_insert_ne same] at present
      exact Nat.lt_succ_of_lt (tracked.numbered id operation present)
  · rw [← List.append_assoc, List.map_append]
    refine List.nodup_append.mpr ⟨tracked.distinct, by simp, ?_⟩
    intro number earlier last isLast same
    obtain ⟨other, member, rfl⟩ := List.mem_map.mp earlier
    have below := tracked.issued member
    simp only [List.map_cons, List.map_nil, List.mem_singleton] at isLast
    omega

theorem Tracked.take (tracked : Tracked r [] shown (ticket :: queue)) :
    Tracked r [ticket] .queued queue where
  __ := tracked
  waiting := fun other member => tracked.waiting other (List.mem_cons_of_mem _ member)
  held := fun other member => by
    obtain rfl := List.mem_singleton.mp member
    exact tracked.waiting other List.mem_cons_self

/-- The ticket in hand shares its id with no queued one: both would stand behind the
    same entry, under the same number. -/
theorem Tracked.apart (tracked : Tracked r [ticket] shown queue) (member : other ∈ queue) :
    other.id ≠ ticket.id := by
  intro same
  obtain ⟨first, present, number, _⟩ := tracked.waiting other member
  obtain ⟨second, present', number', _⟩ := tracked.held ticket List.mem_cons_self
  rw [same, present'] at present
  cases present
  have fresh : ticket.sequence ∉ queue.map (·.sequence) := (List.nodup_cons.mp tracked.distinct).1
  apply fresh
  rw [← number', number]
  exact List.mem_map_of_mem member

theorem Registry.Shows.set (shows_ : r.Shows other state) (different : other.id ≠ ticket.id)
    (next : OperationState) : (r.set ticket.id next).Shows other state := by
  obtain ⟨operation, present, rest⟩ := shows_
  exact ⟨operation, (Registry.get_set_ne different next).trans present, rest⟩

/-- The executor writes the state of the work in its hand. -/
theorem Tracked.write (tracked : Tracked r [ticket] shown queue) (next : OperationState) :
    Tracked (r.set ticket.id next) [ticket] next queue := by
  obtain ⟨operation, present, number, _⟩ := tracked.held ticket List.mem_cons_self
  have written := Registry.get_set_self present next
  refine ⟨?_, ?_, ?_, ?_, tracked.distinct⟩
  · intro other member
    exact (tracked.waiting other member).set (tracked.apart member) next
  · intro other member
    obtain rfl := List.mem_singleton.mp member
    exact ⟨_, written, number, rfl⟩
  · intro id entry found live
    by_cases same : id = ticket.id
    · subst same
      rw [written] at found
      cases found
      exact ⟨ticket, List.mem_cons_self, rfl, number.symm⟩
    · rw [Registry.get_set_ne same] at found
      exact tracked.covered id entry found live
  · intro id entry found
    rw [Registry.nextSequence_set]
    by_cases same : id = ticket.id
    · subst same
      rw [written] at found
      cases found
      exact tracked.numbered ticket.id operation present
    · rw [Registry.get_set_ne same] at found
      exact tracked.numbered id entry found

/-- With a terminal state written, the executor's hand is empty. -/
theorem Tracked.drop (tracked : Tracked r [ticket] state queue)
    (terminal : state.isTerminal = true) (shown : OperationState) :
    Tracked r [] shown queue where
  __ := tracked
  held := fun _ none => by cases none
  covered := by
    intro id operation present live
    obtain ⟨other, member, named, number⟩ := tracked.covered id operation present live
    rcases List.mem_cons.mp member with rfl | queued
    · obtain ⟨entry, present', _, rfl⟩ := tracked.held other List.mem_cons_self
      rw [named, present] at present'
      cases present'
      rw [live] at terminal
      cases terminal
    · exact ⟨other, queued, named, number⟩
  distinct := (List.nodup_cons.mp tracked.distinct).2

end

/-! ## The invariant -/

namespace ControlPlane

structure Coherent (s : ControlPlane) : Prop where
  tracked : Tracked s.registry s.executor.hand s.executor.shown s.channel.queue
  increasing : (s.channel.sent.map (·.sequence)).Pairwise (· > ·)
  issued : ∀ ticket ∈ s.channel.sent, ticket.sequence < s.registry.nextSequence
  taken : ∀ ticket ∈ s.executor.hand, ∃ rest, s.channel.received = ticket :: rest
  begun : s.began.Sublist (s.channel.received.drop s.executor.pending)
  serial : s.began = s.executor.underway ++ s.ended.map (·.1)
  current : ∀ ticket ∈ s.executor.doing, ∃ rest, s.began = ticket :: rest
  final : ∀ ticket ∈ s.began.tail, ticket.command.isShutdown = false
  unfinished : s.executor.looping = true → ∀ ticket ∈ s.began, ticket.command.isShutdown = false
  shut : s.channel.closed = s.executor.drains
  exhausted : ∀ exit, s.executor = .exited exit → s.channel.queue = [] ∧ s.channel.permits = 0

theorem coherent_spawn (settings : LocalIpcSettings) (queueCapacity registryCapacity : Nat) :
    (spawn settings queueCapacity registryCapacity).Coherent where
  tracked :=
    { waiting := fun _ none => by cases none
      held := fun _ none => by cases none
      covered := fun _ _ present => by cases present
      numbered := fun _ _ present => by cases present
      distinct := List.nodup_nil }
  increasing := List.Pairwise.nil
  issued := fun _ none => by cases none
  taken := fun _ none => by cases none
  begun := List.Sublist.refl _
  serial := rfl
  current := fun _ none => by cases none
  final := fun _ none => by cases none
  unfinished := fun _ _ none => by cases none
  shut := rfl
  exhausted := fun _ exited => by cases exited

section

variable {s s' : ControlPlane}

/-- Callers come and go, places are reserved and given back, terminal entries are
    evicted: nothing of this touches a ticket. -/
structure Aside (s s' : ControlPlane) : Prop where
  shrinks : s.registry.Shrinks s'.registry
  capacity : s'.channel.capacity = s.channel.capacity
  queue : s'.channel.queue = s.channel.queue
  received : s'.channel.received = s.channel.received
  closed : s'.channel.closed = s.channel.closed
  permits : s.channel.closed = true → s'.channel.permits ≤ s.channel.permits
  executor : s'.executor = s.executor
  began : s'.began = s.began
  ended : s'.ended = s.ended
  reports : s'.reports = s.reports
  closing : s.closing = true → s'.closing = true

theorem Aside.thinned (aside : Aside s s') : s.registry.Thinned s'.registry :=
  aside.shrinks.thinned

theorem Aside.grown (aside : Aside s s') :
    s.registry.nextSequence ≤ s'.registry.nextSequence :=
  aside.shrinks.grown

theorem Aside.sent (aside : Aside s s') : s'.channel.sent = s.channel.sent := by
  rw [Channel.sent, Channel.sent, aside.queue, aside.received]

theorem Aside.coherent (aside : Aside s s') (coherent : s.Coherent) : s'.Coherent := by
  have sent := aside.sent
  refine ⟨?_, ?_, ?_, ?_, ?_, ?_, ?_, ?_, ?_, ?_, ?_⟩
  · rw [aside.executor, aside.queue]
    exact coherent.tracked.thin aside.thinned aside.grown s.executor.shown_live
  · rw [sent]
    exact coherent.increasing
  · rw [sent]
    exact fun ticket member => (coherent.issued ticket member).trans_le aside.grown
  · rw [aside.executor, aside.received]
    exact coherent.taken
  · rw [aside.began, aside.executor, aside.received]
    exact coherent.begun
  · rw [aside.began, aside.executor, aside.ended]
    exact coherent.serial
  · rw [aside.executor, aside.began]
    exact coherent.current
  · rw [aside.began]
    exact coherent.final
  · rw [aside.executor, aside.began]
    exact coherent.unfinished
  · rw [aside.executor, aside.closed]
    exact coherent.shut
  · intro exit exited
    rw [aside.executor] at exited
    obtain ⟨empty, none⟩ := coherent.exhausted exit exited
    have closed : s.channel.closed = true := by rw [coherent.shut, exited]; rfl
    have fewer := aside.permits closed
    rw [aside.queue]
    exact ⟨empty, by omega⟩

/-- One operation is registered and enqueued. -/
structure Enters (s : ControlPlane) (ticket : Ticket) (s' : ControlPlane) : Prop where
  absent : s.registry.get ticket.id = none
  inserted : ∃ digest, s'.registry = s.registry.makeRoom.insert ticket.id digest
  capacity : s'.channel.capacity = s.channel.capacity
  number : ticket.sequence = s.registry.nextSequence
  queue : s'.channel.queue = s.channel.queue ++ [ticket]
  received : s'.channel.received = s.channel.received
  closed : s'.channel.closed = s.channel.closed
  place : s.channel.closed = false ∨ 0 < s.channel.permits
  executor : s'.executor = s.executor
  began : s'.began = s.began
  ended : s'.ended = s.ended
  reports : s'.reports = s.reports
  closing : s'.closing = s.closing

/-- The registry after room was made, before the entry. -/
theorem Enters.room {ticket : Ticket} (enters : s.Enters ticket s') :
    ∃ (room : Registry) (digest : String), s.registry.Thinned room ∧
      room.get ticket.id = none ∧ room.nextSequence = s.registry.nextSequence ∧
      s'.registry = room.insert ticket.id digest := by
  obtain ⟨digest, registry⟩ := enters.inserted
  have thinned := Registry.thinned_makeRoom s.registry
  exact ⟨_, digest, thinned, thinned.absent enters.absent, Registry.nextSequence_makeRoom _, registry⟩

theorem Enters.sent {ticket : Ticket} (enters : s.Enters ticket s') :
    s'.channel.sent = ticket :: s.channel.sent := by
  simp [Channel.sent, enters.queue, enters.received]

theorem Enters.coherent {ticket : Ticket} (enters : s.Enters ticket s') (coherent : s.Coherent) :
    s'.Coherent := by
  have sent := enters.sent
  obtain ⟨room, digest, thinned, absent, same, registry⟩ := enters.room
  have next : ticket.sequence = room.nextSequence := enters.number.trans same.symm
  have counted : s'.registry.nextSequence = s.registry.nextSequence + 1 := by
    rw [registry, ← same]
    rfl
  refine ⟨?_, ?_, ?_, ?_, ?_, ?_, ?_, ?_, ?_, ?_, ?_⟩
  · rw [enters.executor, enters.queue, registry]
    exact (coherent.tracked.thin thinned same.ge s.executor.shown_live).enter absent next digest
  · rw [sent, List.map_cons, List.pairwise_cons]
    refine ⟨?_, coherent.increasing⟩
    intro number earlier
    obtain ⟨other, member, rfl⟩ := List.mem_map.mp earlier
    have below := coherent.issued other member
    have number := enters.number
    omega
  · rw [sent, counted]
    intro other member
    rcases List.mem_cons.mp member with rfl | earlier
    · rw [enters.number]
      exact Nat.lt_succ_self _
    · exact Nat.lt_succ_of_lt (coherent.issued other earlier)
  · rw [enters.executor, enters.received]
    exact coherent.taken
  · rw [enters.began, enters.executor, enters.received]
    exact coherent.begun
  · rw [enters.began, enters.executor, enters.ended]
    exact coherent.serial
  · rw [enters.executor, enters.began]
    exact coherent.current
  · rw [enters.began]
    exact coherent.final
  · rw [enters.executor, enters.began]
    exact coherent.unfinished
  · rw [enters.executor, enters.closed]
    exact coherent.shut
  · intro exit exited
    rw [enters.executor] at exited
    have closed : s.channel.closed = true := by rw [coherent.shut, exited]; rfl
    have none := (coherent.exhausted exit exited).2
    -- a place would have to be left, and there is none after the exit
    rcases enters.place with opened | reserved
    · rw [closed] at opened
      cases opened
    · omega

/-! ## The callers -/

/-- What a caller can do. -/
def Calls (s s' : ControlPlane) : Prop := Aside s s' ∨ ∃ ticket, s.Enters ticket s'

theorem Aside.of_eq (registry : s'.registry = s.registry) (channel : s'.channel = s.channel)
    (executor : s'.executor = s.executor) (began : s'.began = s.began)
    (ended : s'.ended = s.ended) (reports : s'.reports = s.reports)
    (closing : s.closing = true → s'.closing = true) : Aside s s' where
  shrinks := registry ▸ .same
  capacity := channel ▸ rfl
  queue := channel ▸ rfl
  received := channel ▸ rfl
  closed := channel ▸ rfl
  permits := fun _ => channel ▸ le_rfl
  executor := executor
  began := began
  ended := ended
  reports := reports
  closing := closing

/-- A registered id admits nothing more: the submission attaches or clashes. -/
theorem admitSubmit_registered {envelope : CoreCommandEnvelope}
    (present : s.registry.get envelope.operationId = some operation) :
    s.admitSubmit envelope =
      (if operation.digest = (envelope.command.resolve s.settings).payloadDigest then
        .existing operation.sequence
      else .rejected (Registry.conflict envelope.operationId), s) := by
  by_cases same : operation.digest = (envelope.command.resolve s.settings).payloadDigest
  · simp only [admitSubmit, Registry.admitOperation, present, same, if_true]
  · simp only [admitSubmit, Registry.admitOperation, present, same, if_false]

theorem calls_admitSubmit (s : ControlPlane) (envelope : CoreCommandEnvelope) :
    Calls s (s.admitSubmit envelope).2 := by
  have admitted := s.registry.admitted_admitOperation envelope.operationId
    (envelope.command.resolve s.settings).payloadDigest fun sequence =>
      s.channel.trySend ⟨envelope.operationId, envelope.command.resolve s.settings, sequence⟩
  simp only [admitSubmit]
  generalize s.registry.admitOperation _ _ _ = answer at admitted ⊢
  obtain ⟨answer, registry⟩ := answer
  cases admitted with
  | attached _ _ => exact .inl (.of_eq rfl rfl rfl rfl rfl rfl id)
  | clashed _ _ => exact .inl (.of_eq rfl rfl rfl rfl rfl rfl id)
  | entered absent enqueues =>
      obtain ⟨opened, queue, _, closed, received, capacity⟩ := Channel.trySend_eq_ok enqueues
      exact .inr ⟨_, ⟨absent, ⟨_, rfl⟩, capacity, rfl, queue, received, closed, .inl opened, rfl,
        rfl, rfl, rfl, rfl⟩⟩
  | failed absent _ =>
      exact .inl ⟨.retracted _ absent, rfl, rfl, rfl, rfl, fun _ => le_rfl, rfl, rfl, rfl, rfl, id⟩
  | overflowed _ =>
      exact .inl ⟨.made, rfl, rfl, rfl, rfl, fun _ => le_rfl, rfl, rfl, rfl, rfl, id⟩

theorem calls_admitShutdown (s : ControlPlane) (id : OperationId)
    (reserved : 0 < s.channel.permits) : Calls s (s.admitShutdown id reserved) := by
  have admitted := s.registry.admitted_admitOperation id
    CoreCommand.shutdown.payloadDigest fun sequence =>
      .ok (s.channel.send ⟨id, .shutdown, sequence⟩ reserved)
  simp only [admitShutdown]
  generalize s.registry.admitOperation _ _ _ = answer at admitted ⊢
  obtain ⟨answer, registry⟩ := answer
  have fewer : s.channel.permits - 1 ≤ s.channel.permits := Nat.sub_le _ _
  cases admitted with
  | attached _ _ | clashed _ _ =>
      exact .inl ⟨.same, rfl, rfl, rfl, rfl, fun _ => fewer, rfl, rfl, rfl, rfl, fun set => set⟩
  | entered absent enqueues =>
      cases enqueues
      exact .inr ⟨_, ⟨absent, ⟨_, rfl⟩, rfl, rfl, rfl, rfl, rfl, .inr reserved, rfl, rfl, rfl, rfl,
        rfl⟩⟩
  | failed _ enqueues => cases enqueues
  | overflowed _ =>
      exact .inl ⟨.made, rfl, rfl, rfl, rfl, fun _ => fewer, rfl, rfl, rfl, rfl, fun set => set⟩

theorem Calls.coherent (calls : Calls s s') (coherent : s.Coherent) : s'.Coherent := by
  rcases calls with aside | ⟨ticket, enters⟩
  · exact aside.coherent coherent
  · exact enters.coherent coherent

/-! ## The executor -/

variable {ticket : Ticket} {channel : Channel Ticket} {now next : Executor}

section

variable (coherent : s.Coherent)

include coherent

/-- Work is taken from the queue. -/
theorem Coherent.receive (stands : s.executor = now)
    (receives : s.channel.recv = some (ticket, channel)) (free : now.hand = [])
    (idle : now.underway = []) (started : now.pending = 0) (holds : next.hand = [ticket])
    (shows_ : next.shown = .queued) (outside : next.underway = [] ∧ next.doing = [])
    (pending : next.pending = 1) (looping : next.looping = true → now.looping = true)
    (drains : next.drains = now.drains) (runs : ∀ exit, next ≠ .exited exit) :
    Coherent { s with channel := channel, executor := next } := by
  subst stands
  obtain ⟨queue, received, _, closed, _⟩ := Channel.recv_eq_some receives
  have sent := Channel.sent_recv receives
  refine ⟨?_, ?_, ?_, ?_, ?_, ?_, ?_, coherent.final, ?_, ?_, ?_⟩
  · have tracked := coherent.tracked
    rw [free, queue] at tracked
    rw [holds, shows_]
    exact tracked.take
  · rw [sent]
    exact coherent.increasing
  · rw [sent]
    exact coherent.issued
  · intro other member
    rw [holds] at member
    obtain rfl := List.mem_singleton.mp member
    exact ⟨_, received⟩
  · have begun := coherent.begun
    rw [started] at begun
    rw [received, pending]
    exact begun
  · rw [outside.1]
    have serial := coherent.serial
    rwa [idle] at serial
  · intro other member
    rw [outside.2] at member
    cases member
  · exact fun loops => coherent.unfinished (looping loops)
  · rw [closed, drains]
    exact coherent.shut
  · exact fun exit exited => absurd exited (runs exit)

/-- The executor moves on without touching an entry or the queue. -/
theorem Coherent.move (stands : s.executor = now) (hand : next.hand = now.hand)
    (shows_ : next.shown = now.shown) (underway : next.underway = now.underway)
    (doing : next.doing = now.doing) (pending : next.pending = now.pending)
    (looping : next.looping = true → now.looping = true) (drains : next.drains = now.drains)
    (exhausted : ∀ exit, next = .exited exit → s.channel.queue = [] ∧ s.channel.permits = 0) :
    Coherent { s with executor := next } := by
  subst stands
  refine ⟨?_, coherent.increasing, coherent.issued, ?_, ?_, ?_, ?_, coherent.final, ?_, ?_, exhausted⟩
  · rw [hand, shows_]
    exact coherent.tracked
  · rw [hand]
    exact coherent.taken
  · rw [pending]
    exact coherent.begun
  · rw [underway]
    exact coherent.serial
  · rw [doing]
    exact coherent.current
  · exact fun loops => coherent.unfinished (looping loops)
  · rw [drains]
    exact coherent.shut

/-- The executor writes the terminal state of the work in its hand. -/
theorem Coherent.settle {state : OperationState} (stands : s.executor = now)
    (holds : now.hand = [ticket]) (idle : now.underway = []) (terminal : state.isTerminal = true)
    (free : next.hand = []) (outside : next.underway = [] ∧ next.doing = [])
    (pending : next.pending = 0)
    (unfinished : next.looping = true → ∀ ticket ∈ s.began, ticket.command.isShutdown = false)
    (drains : next.drains = now.drains) (runs : ∀ exit, next ≠ .exited exit) :
    Coherent { s.setState ticket state with executor := next } := by
  subst stands
  refine ⟨?_, coherent.increasing, ?_, ?_, ?_, ?_, ?_, coherent.final, unfinished, ?_, ?_⟩
  · have tracked := coherent.tracked
    rw [holds] at tracked
    rw [free]
    exact (tracked.write state).drop terminal next.shown
  · intro other member
    rw [setState, Registry.nextSequence_set]
    exact coherent.issued other member
  · intro other member
    rw [free] at member
    cases member
  · rw [pending]
    exact coherent.begun.trans (List.drop_sublist _ _)
  · rw [outside.1]
    have serial := coherent.serial
    rwa [idle] at serial
  · intro other member
    rw [outside.2] at member
    cases member
  · rw [drains]
    exact coherent.shut
  · exact fun exit exited => absurd exited (runs exit)

/-- The work in hand reaches the manager. -/
theorem Coherent.start (starts : s.executor = .starting ticket) :
    Coherent { s.setState ticket .running with
      executor := .executing ticket, began := ticket :: s.began } := by
  have holds : s.executor.hand = [ticket] := by rw [starts]; rfl
  have earlier := coherent.unfinished (by rw [starts]; rfl)
  refine ⟨?_, coherent.increasing, ?_, ?_, ?_, ?_, ?_, earlier, ?_, ?_, ?_⟩
  · have tracked := coherent.tracked
    rw [holds] at tracked
    exact tracked.write .running
  · intro other member
    rw [setState, Registry.nextSequence_set]
    exact coherent.issued other member
  · have taken := coherent.taken
    rwa [holds] at taken
  · -- the ticket in hand was received last, and everything begun came before it
    obtain ⟨rest, received⟩ := coherent.taken ticket (by rw [holds]; exact List.mem_cons_self)
    have begun := coherent.begun
    rw [starts, received] at begun
    show List.Sublist (ticket :: s.began) s.channel.received
    rw [received]
    exact begun.cons_cons ticket
  · have serial := coherent.serial
    rw [starts] at serial
    exact congrArg (ticket :: ·) serial
  · intro other member
    obtain rfl := List.mem_singleton.mp member
    exact ⟨_, rfl⟩
  · exact fun loops => by cases loops
  · have shut := coherent.shut
    rwa [starts] at shut
  · exact fun _ exited => by cases exited

/-- The manager is done with the work. -/
theorem Coherent.finish (outcome : Outcome) (executes : s.executor = .executing ticket)
    (holds : next.hand = [ticket]) (shows_ : next.shown = .running) (idle : next.underway = [])
    (doing : next.doing = [ticket]) (pending : next.pending = 0)
    (outside : next.looping = false ∧ next.drains = false) (runs : ∀ exit, next ≠ .exited exit) :
    Coherent { s with executor := next, ended := (ticket, outcome) :: s.ended } := by
  have tracked := coherent.tracked
  have taken := coherent.taken
  have begun := coherent.begun
  have serial := coherent.serial
  have current := coherent.current
  have shut := coherent.shut
  rw [executes] at tracked taken begun serial current shut
  refine ⟨?_, coherent.increasing, coherent.issued, ?_, ?_, ?_, ?_, coherent.final, ?_, ?_, ?_⟩
  · rw [holds, shows_]
    exact tracked
  · rw [holds]
    exact taken
  · rw [pending]
    exact begun
  · rw [idle]
    exact serial
  · rw [doing]
    exact current
  · intro loops
    rw [outside.1] at loops
    cases loops
  · rw [outside.2]
    exact shut
  · exact fun exit exited => absurd exited (runs exit)

/-- The queue is closed on the way out of the loop. -/
theorem Coherent.close {exit : ExecutorExit} (closes : s.executor = .closing exit) :
    Coherent { s with channel := s.channel.close, executor := .draining exit } := by
  have tracked := coherent.tracked
  have begun := coherent.begun
  have serial := coherent.serial
  rw [closes] at tracked begun serial
  exact
    { coherent with
      tracked := tracked
      taken := fun _ none => by cases none
      begun := begun
      serial := serial
      current := fun _ none => by cases none
      unfinished := fun loops => by cases loops
      shut := rfl
      exhausted := fun _ exited => by cases exited }

end

/-- What the executor can do, by where it stands. -/
inductive Acts (s : ControlPlane) : ControlPlane → Prop where
  | receive {ticket : Ticket} {channel : Channel Ticket} : s.executor = .receiving →
      s.channel.recv = some (ticket, channel) →
      Acts s { s with channel := channel, executor := .checking ticket }
  | leave : s.executor = .receiving → s.channel.ended s.senders = true →
      Acts s { s with executor := .closing .clean }
  | refuse {ticket : Ticket} : s.executor = .checking ticket →
      Acts s { s with executor := .refusing ticket }
  | pass {ticket : Ticket} : s.executor = .checking ticket →
      (ticket.command.isShutdown = true ∨ s.closing = false) →
      Acts s { s with executor := .starting ticket }
  | refused {ticket : Ticket} : s.executor = .refusing ticket →
      Acts s { s.setState ticket (shuttingDown ticket.id) with executor := .receiving }
  | start {ticket : Ticket} : s.executor = .starting ticket →
      Acts s { s.setState ticket .running with
        executor := .executing ticket, began := ticket :: s.began }
  | returned {ticket : Ticket} (result : Except CoreError OperationOutput) :
      s.executor = .executing ticket → result.toOption.all ticket.command.yields = true →
      Acts s { s with
        executor := .settling ticket result, ended := (ticket, .returned result) :: s.ended }
  | panicked {ticket : Ticket} (text : String) : s.executor = .executing ticket →
      Acts s { s with
        executor := .dying ticket text, ended := (ticket, .panicked text) :: s.ended }
  | settle {ticket : Ticket} {result : Except CoreError OperationOutput} :
      s.executor = .settling ticket result →
      Acts s { s.setState ticket (settled result) with
        executor := if ticket.command.isShutdown then .closing .clean else .receiving }
  | die {ticket : Ticket} {text : String} : s.executor = .dying ticket text →
      Acts s { s.setState ticket (ControlPlane.panicked ticket.id text) with executor := .latching }
  | latch : s.executor = .latching → Acts s { s with closing := true, executor := .closing .died }
  | close {exit : ExecutorExit} : s.executor = .closing exit →
      Acts s { s with channel := s.channel.close, executor := .draining exit }
  | drain {exit : ExecutorExit} {ticket : Ticket} {channel : Channel Ticket} :
      s.executor = .draining exit → s.channel.recv = some (ticket, channel) →
      Acts s { s with channel := channel, executor := .terminalizing exit ticket }
  | exit {exit : ExecutorExit} : s.executor = .draining exit → s.channel.queue = [] →
      s.channel.permits = 0 → Acts s { s with executor := .exited exit }
  | terminalize {exit : ExecutorExit} {ticket : Ticket} : s.executor = .terminalizing exit ticket →
      Acts s { s.setState ticket (drained ticket exit) with executor := .draining exit }

theorem acts_of_advance (advances : s.advance = some s') : s.Acts s' := by
  unfold advance at advances
  split at advances
  case h_1 stands =>
    split at advances
    case h_1 receives =>
      cases advances
      exact .receive stands receives
    case h_2 =>
      split at advances
      case isTrue ended =>
        cases advances
        exact .leave stands ended
      case isFalse => cases advances
  case h_2 stands =>
    split at advances
    case isTrue refuses =>
      cases advances
      exact .refuse stands
    case isFalse passes =>
      cases advances
      refine .pass stands ?_
      simp only [Bool.and_eq_true, Bool.not_eq_true', not_and_or, Bool.not_eq_false,
        Bool.not_eq_true] at passes
      exact passes
  case h_3 stands =>
    cases advances
    exact .refused stands
  case h_4 stands =>
    cases advances
    exact .start stands
  case h_5 => cases advances
  case h_6 stands =>
    cases advances
    exact .settle stands
  case h_7 stands =>
    cases advances
    exact .die stands
  case h_8 stands =>
    cases advances
    exact .latch stands
  case h_9 stands =>
    cases advances
    exact .close stands
  case h_10 stands =>
    split at advances
    case h_1 receives =>
      cases advances
      exact .drain stands receives
    case h_2 =>
      split at advances
      case isTrue ended =>
        cases advances
        obtain ⟨empty, none, _⟩ := Channel.ended_iff.mp ended
        exact .exit stands empty none
      case isFalse => cases advances
  case h_11 stands =>
    cases advances
    exact .terminalize stands
  case h_12 => cases advances

theorem acts_of_finish {outcome : Outcome} (finishes : s.finish outcome = some s') :
    s.Acts s' := by
  unfold ControlPlane.finish at finishes
  split at finishes
  case h_1 stands =>
    split at finishes
    case isTrue yields =>
      cases finishes
      exact .returned _ stands yields
    case isFalse => cases finishes
  case h_2 stands =>
    cases finishes
    exact .panicked _ stands
  case h_3 => cases finishes

theorem settled_terminal (result : Except CoreError OperationOutput) :
    (settled result).isTerminal = true := by
  cases result <;> rfl

theorem drained_terminal (ticket : Ticket) (exit : ExecutorExit) :
    (drained ticket exit).isTerminal = true := by
  cases exit with
  | clean =>
      unfold drained
      dsimp only
      split <;> rfl
  | died => rfl

/-- After an operation other than a shutdown, no shutdown has begun at all. -/
theorem Coherent.nothingShut (coherent : s.Coherent) {result : Except CoreError OperationOutput}
    (settles : s.executor = .settling ticket result) (plain : ticket.command.isShutdown = false) :
    ∀ ticket ∈ s.began, ticket.command.isShutdown = false := by
  obtain ⟨rest, began⟩ := coherent.current ticket (by rw [settles]; exact List.mem_cons_self)
  have final := coherent.final
  rw [began] at final ⊢
  intro other member
  rcases List.mem_cons.mp member with rfl | earlier
  · exact plain
  · exact final other earlier

theorem Acts.coherent (acts : s.Acts s') (coherent : s.Coherent) : s'.Coherent := by
  cases acts with
  | receive stands receives =>
      exact coherent.receive stands receives rfl rfl rfl rfl rfl ⟨rfl, rfl⟩ rfl (fun _ => rfl)
        rfl nofun
  | leave stands _ => exact coherent.move stands rfl rfl rfl rfl rfl nofun rfl nofun
  | refuse stands => exact coherent.move stands rfl rfl rfl rfl rfl (fun _ => rfl) rfl nofun
  | pass stands _ => exact coherent.move stands rfl rfl rfl rfl rfl (fun _ => rfl) rfl nofun
  | refused stands =>
      have unfinished := coherent.unfinished (by rw [stands]; rfl)
      exact coherent.settle stands rfl rfl rfl rfl ⟨rfl, rfl⟩ rfl (fun _ => unfinished) rfl nofun
  | start stands => exact coherent.start stands
  | returned result stands _ =>
      exact coherent.finish (.returned result) stands rfl rfl rfl rfl rfl ⟨rfl, rfl⟩ nofun
  | panicked text stands =>
      exact coherent.finish (.panicked text) stands rfl rfl rfl rfl rfl ⟨rfl, rfl⟩ nofun
  | settle stands =>
      have terminal := settled_terminal
      split
      case isTrue =>
        exact coherent.settle stands rfl rfl (terminal _) rfl ⟨rfl, rfl⟩ rfl nofun rfl nofun
      case isFalse plain =>
        have unfinished := coherent.nothingShut stands (by simpa using plain)
        exact coherent.settle stands rfl rfl (terminal _) rfl ⟨rfl, rfl⟩ rfl (fun _ => unfinished)
          rfl nofun
  | die stands => exact coherent.settle stands rfl rfl rfl rfl ⟨rfl, rfl⟩ rfl nofun rfl nofun
  | latch stands =>
      have moved : Coherent { s with executor := .closing .died } :=
        coherent.move stands rfl rfl rfl rfl rfl nofun rfl nofun
      exact { moved with }
  | close stands => exact coherent.close stands
  | drain stands receives =>
      exact coherent.receive stands receives rfl rfl rfl rfl rfl ⟨rfl, rfl⟩ rfl nofun rfl nofun
  | exit stands empty none =>
      exact coherent.move stands rfl rfl rfl rfl rfl nofun rfl fun _ _ => ⟨empty, none⟩
  | terminalize stands =>
      exact coherent.settle stands rfl rfl (drained_terminal _ _) rfl ⟨rfl, rfl⟩ rfl nofun rfl nofun

/-! ## Every step -/

section

variable {event : Event} (steps : s.step event = some s')

include steps

theorem calls_of_step : event = .advance ∨ (∃ outcome, event = .finish outcome) ∨ Calls s s' := by
  cases event with
  | submit envelope =>
      simp only [step, checkSubmit] at steps
      split at steps
      case isFalse => cases steps
      case isTrue =>
        split at steps <;> cases steps
        exact .inr (.inr (.inl (.of_eq rfl rfl rfl rfl rfl rfl id)))
  | admitSubmit envelope =>
      simp only [step] at steps
      split at steps <;> cases steps
      rcases calls_admitSubmit s envelope with aside | ⟨ticket, enters⟩
      · exact .inr (.inr (.inl { aside with }))
      · exact .inr (.inr (.inr ⟨ticket, { enters with }⟩))
  | latch | shutdown =>
      simp only [step] at steps
      split at steps <;> cases steps
      exact .inr (.inr (.inl (.of_eq rfl rfl rfl rfl rfl rfl fun _ => rfl)))
  | reserve =>
      simp only [step] at steps
      split at steps
      case isFalse => cases steps
      case isTrue =>
        obtain ⟨channel, reserves, rfl⟩ := Option.map_eq_some_iff.mp steps
        obtain ⟨opened, queue, _, closed, received, capacity⟩ := Channel.reserve_eq_some reserves
        have impossible : s.channel.closed ≠ true := by simp [opened]
        exact .inr (.inr (.inl ⟨.same, capacity, queue, received, closed,
          fun shut => absurd shut impossible, rfl, rfl, rfl, rfl, id⟩))
  | exclude | giveUp | dropSenders =>
      simp only [step] at steps
      split at steps <;> cases steps
      exact .inr (.inr (.inl (.of_eq rfl rfl rfl rfl rfl rfl id)))
  | release =>
      simp only [step] at steps
      split at steps <;> cases steps
      exact .inr (.inr (.inl ⟨.same, rfl, rfl, rfl, rfl, fun _ => Nat.sub_le _ _, rfl, rfl, rfl,
        rfl, id⟩))
  | admitShutdown id =>
      simp only [step] at steps
      split at steps <;> cases steps
      exact .inr (.inr (calls_admitShutdown s id _))
  | answer sequence =>
      simp only [step] at steps
      split at steps
      case isFalse => cases steps
      case isTrue =>
        obtain ⟨state, _, answered⟩ := Option.bind_eq_some_iff.mp steps
        obtain ⟨answer, _, rfl⟩ := Option.map_eq_some_iff.mp answered
        exact .inr (.inr (.inl (.of_eq rfl rfl rfl rfl rfl rfl id)))
  | answerExcluded =>
      simp only [step] at steps
      split at steps
      case h_1 =>
        split at steps <;> cases steps
        exact .inr (.inr (.inl (.of_eq rfl rfl rfl rfl rfl rfl id)))
      case h_2 => cases steps
  | advance => exact .inl rfl
  | finish outcome => exact .inr (.inl ⟨outcome, rfl⟩)

theorem moves_of_step : Calls s s' ∨ s.Acts s' := by
  rcases calls_of_step steps with rfl | ⟨outcome, rfl⟩ | calls
  · exact .inr (acts_of_advance steps)
  · exact .inr (acts_of_finish steps)
  · exact .inl calls

theorem step_coherent (coherent : s.Coherent) : s'.Coherent := by
  rcases moves_of_step steps with calls | acts
  · exact calls.coherent coherent
  · exact acts.coherent coherent

end

theorem Reachable.coherent (reachable : Reachable s) : s.Coherent :=
  reachable.induction coherent_spawn fun _ _ _ _ steps => step_coherent steps

end

end ControlPlane

end Nyanpasu
