import Nyanpasu.Control.Coherence

/-! # What is reported of an operation

A registration is queued, may be running, and ends in one terminal state, which its
handles keep after the registry has evicted it.  This follows an operation by its
number, through every run.
-/

namespace Nyanpasu

/-! ## The order of the states -/

/-- The states an operation may be found in later on. -/
def OperationState.Progress : OperationState → OperationState → Prop
  | .queued, _ => True
  | .running, later => later ≠ .queued
  | now, later => later = now

namespace OperationState

variable {first second third : OperationState}

theorem Progress.refl (state : OperationState) : state.Progress state := by
  cases state <;> simp [Progress]

theorem Progress.trans (before : first.Progress second) (after : second.Progress third) :
    first.Progress third := by
  cases first with
  | queued => trivial
  | running =>
      cases second with
      | queued => exact absurd rfl before
      | running => exact after
      | succeeded | failed =>
          cases after
          exact before
  | succeeded | failed =>
      cases before
      exact after

theorem progress_terminal (live : first.isTerminal = false) (terminal : second.isTerminal = true) :
    first.Progress second := by
  cases first with
  | queued => trivial
  | running =>
      intro queued
      rw [queued] at terminal
      cases terminal
  | succeeded | failed => cases live

end OperationState

namespace ControlPlane

variable {s s' s'' : ControlPlane} {ticket : Ticket}

/-! ## What the executor writes -/

/-- The work that is not terminal yet. -/
def tickets (s : ControlPlane) : List Ticket := s.executor.hand ++ s.channel.queue

/-- The terminal state the executor is about to write. -/
def verdict : Executor → Option OperationState
  | .refusing ticket => some (shuttingDown ticket.id)
  | .settling _ result => some (settled result)
  | .dying ticket panic => some (panicked ticket.id panic)
  | .terminalizing exit ticket => some (drained ticket exit)
  | _ => none

/-- The executor leaves the entries alone, shows its work as running, or ends it. -/
inductive Writes (s s' : ControlPlane) : Prop where
  | keeps : s'.registry = s.registry → s'.reports = s.reports → s'.tickets = s.tickets →
      s'.channel.sent = s.channel.sent → Writes s s'
  | starts {ticket : Ticket} : s.executor.hand = [ticket] → s.executor.shown = .queued →
      s'.registry = s.registry.set ticket.id .running → s'.reports = s.reports →
      s'.tickets = s.tickets → s'.channel.sent = s.channel.sent → Writes s s'
  | ends {ticket : Ticket} {state : OperationState} : s.executor.hand = [ticket] →
      verdict s.executor = some state → state.isTerminal = true → s'.registry = s.registry.set ticket.id state →
      s'.reports = s.report ticket.id state → s.tickets = ticket :: s'.tickets →
      s'.channel.sent = s.channel.sent → Writes s s'

theorem tickets_receive {now next : Executor} {channel : Channel Ticket}
    (stands : s.executor = now) (receives : s.channel.recv = some (ticket, channel))
    (free : now.hand = []) (holds : next.hand = [ticket]) :
    { s with channel := channel, executor := next }.tickets = s.tickets := by
  obtain ⟨queue, _⟩ := Channel.recv_eq_some receives
  simp [tickets, stands, free, holds, queue]

theorem Acts.writes (acts : s.Acts s') : s.Writes s' := by
  cases acts with
  | receive stands receives | drain stands receives =>
      exact .keeps rfl rfl (tickets_receive stands receives rfl rfl) (Channel.sent_recv receives)
  | leave stands _ | refuse stands | pass stands _ | latch stands | close stands
  | exit stands _ _ | returned _ stands _ | panicked _ stands =>
      refine .keeps rfl rfl ?_ rfl
      simp only [tickets, stands]
      rfl
  | start stands =>
      refine .starts (by rw [stands]; rfl) (by rw [stands]; rfl) rfl ?_ ?_ rfl
      · simp only [setState, report]
        split <;> rfl
      · simp only [tickets, stands, setState]
        rfl
  | refused stands | die stands =>
      refine .ends (by rw [stands]; rfl) (by rw [stands]; rfl) rfl rfl rfl ?_ rfl
      rw [tickets, stands]
      rfl
  | settle stands =>
      refine .ends (by rw [stands]; rfl) (by rw [stands]; rfl) (settled_terminal _) rfl rfl ?_ rfl
      simp only [tickets, stands, setState]
      split <;> rfl
  | terminalize stands =>
      refine .ends (by rw [stands]; rfl) (by rw [stands]; rfl) (drained_terminal _ _) rfl rfl ?_ rfl
      rw [tickets, stands]
      rfl

theorem Writes.sent (writes : s.Writes s') : s'.channel.sent = s.channel.sent := by
  cases writes <;> assumption

theorem Writes.registry (writes : s.Writes s') :
    s'.registry = s.registry ∨ ∃ id state, s'.registry = s.registry.set id state := by
  cases writes with
  | keeps registry _ _ _ => exact .inl registry
  | starts _ _ registry _ _ _ => exact .inr ⟨_, _, registry⟩
  | ends _ _ _ registry _ _ _ => exact .inr ⟨_, _, registry⟩

/-! ## One terminal state for each number -/

/-- Every operation that ever entered the queue is on its way or has one report, and a
    terminal entry shows what was reported. -/
structure Reported (s : ControlPlane) : Prop where
  terminal : ∀ report ∈ s.reports, report.2.isTerminal = true
  issued : ∀ report ∈ s.reports, report.1 < s.registry.nextSequence
  settled : ∀ report ∈ s.reports, ∀ ticket ∈ s.tickets, ticket.sequence ≠ report.1
  once : (s.reports.map (·.1)).Nodup
  shown : ∀ id operation, s.registry.get id = some operation →
    operation.state.isTerminal = true → (operation.sequence, operation.state) ∈ s.reports
  resolved : ∀ ticket ∈ s.channel.sent, ticket ∈ s.tickets ∨
    ∃ state, (ticket.sequence, state) ∈ s.reports

theorem reported_spawn (settings : LocalIpcSettings) (queueCapacity registryCapacity : Nat) :
    (spawn settings queueCapacity registryCapacity).Reported where
  terminal := fun _ none => by cases none
  issued := fun _ none => by cases none
  settled := fun _ none => by cases none
  once := List.nodup_nil
  shown := fun _ _ present => by cases present
  resolved := fun _ none => by cases none

theorem Aside.reported (aside : Aside s s') (reported : s.Reported) : s'.Reported := by
  have tickets : s'.tickets = s.tickets := by
    rw [ControlPlane.tickets, ControlPlane.tickets, aside.executor, aside.queue]
  have sent := aside.sent
  refine ⟨?_, ?_, ?_, ?_, ?_, ?_⟩ <;> rw [aside.reports]
  · exact reported.terminal
  · exact fun report member => (reported.issued report member).trans_le aside.grown
  · rw [tickets]
    exact reported.settled
  · exact reported.once
  · intro id operation present
    exact reported.shown id operation (aside.thinned.kept present)
  · rw [sent, tickets]
    exact reported.resolved

theorem Enters.reported (enters : s.Enters ticket s') (reported : s.Reported) : s'.Reported := by
  have tickets : s'.tickets = s.tickets ++ [ticket] := by
    simp [ControlPlane.tickets, enters.executor, enters.queue]
  have sent := enters.sent
  obtain ⟨room, digest, thinned, absent, same, registry⟩ := enters.room
  have counted : s'.registry.nextSequence = s.registry.nextSequence + 1 := by
    rw [registry, ← same]
    rfl
  refine ⟨?_, ?_, ?_, ?_, ?_, ?_⟩ <;> rw [enters.reports]
  · exact reported.terminal
  · intro report member
    have issued := reported.issued report member
    omega
  · intro report member other live
    rw [tickets] at live
    rcases List.mem_append.mp live with before | new
    · exact reported.settled report member other before
    · obtain rfl := List.mem_singleton.mp new
      have issued := reported.issued report member
      have number := enters.number
      omega
  · exact reported.once
  · intro id operation present terminal
    rw [registry] at present
    by_cases same : id = ticket.id
    · subst same
      rw [Registry.get_insert_self] at present
      cases present
      cases terminal
    · rw [Registry.get_insert_ne same] at present
      exact reported.shown id operation (thinned.kept present) terminal
  · intro other member
    rw [sent] at member
    rw [tickets]
    rcases List.mem_cons.mp member with rfl | earlier
    · exact .inl (List.mem_append_right _ List.mem_cons_self)
    · exact (reported.resolved other earlier).imp_left (List.mem_append_left _)

/-- The entry behind the work in hand. -/
theorem Coherent.entry (coherent : s.Coherent) (holds : s.executor.hand = [ticket]) :
    ∃ operation, s.registry.get ticket.id = some operation ∧
      operation.sequence = ticket.sequence ∧ operation.state = s.executor.shown := by
  apply coherent.tracked.held ticket
  rw [holds]
  exact List.mem_cons_self

variable {state : OperationState}

theorem Coherent.report_eq (coherent : s.Coherent) (holds : s.executor.hand = [ticket])
    (terminal : state.isTerminal = true) :
    s.report ticket.id state = (ticket.sequence, state) :: s.reports := by
  obtain ⟨operation, present, number, _⟩ := coherent.entry holds
  simp [report, present, terminal, number]

theorem Writes.reported (writes : s.Writes s') (coherent : s.Coherent) (reported : s.Reported) :
    s'.Reported := by
  cases writes with
  | keeps registry reports tickets sent =>
      refine ⟨?_, ?_, ?_, ?_, ?_, ?_⟩ <;> rw [reports]
      · exact reported.terminal
      · rw [registry]
        exact reported.issued
      · rw [tickets]
        exact reported.settled
      · exact reported.once
      · rw [registry]
        exact reported.shown
      · rw [sent, tickets]
        exact reported.resolved
  | @starts ticket holds shown registry reports tickets sent =>
      obtain ⟨operation, present, _, _⟩ := coherent.entry holds
      refine ⟨?_, ?_, ?_, ?_, ?_, ?_⟩ <;> rw [reports]
      · exact reported.terminal
      · rw [registry, Registry.nextSequence_set]
        exact reported.issued
      · rw [tickets]
        exact reported.settled
      · exact reported.once
      · intro id entry found terminal
        rw [registry] at found
        by_cases same : id = ticket.id
        · subst same
          rw [Registry.get_set_self present] at found
          cases found
          cases terminal
        · rw [Registry.get_set_ne same] at found
          exact reported.shown id entry found terminal
      · rw [sent, tickets]
        exact reported.resolved
  | @ends ticket state holds _ terminal registry reports tickets sent =>
      obtain ⟨operation, present, number, _⟩ := coherent.entry holds
      rw [coherent.report_eq holds terminal] at reports
      have mine : ticket ∈ s.tickets := by
        rw [tickets]
        exact List.mem_cons_self
      -- no other work has the number of the one that ends here
      have apart : ∀ other ∈ s'.tickets, other.sequence ≠ ticket.sequence := by
        intro other live same
        have distinct : (s.tickets.map (·.sequence)).Nodup := coherent.tracked.distinct
        rw [tickets, List.map_cons] at distinct
        apply (List.nodup_cons.mp distinct).1
        rw [← same]
        exact List.mem_map_of_mem live
      refine ⟨?_, ?_, ?_, ?_, ?_, ?_⟩ <;> rw [reports]
      · intro report member
        rcases List.mem_cons.mp member with rfl | earlier
        · exact terminal
        · exact reported.terminal report earlier
      · intro report member
        rw [registry, Registry.nextSequence_set]
        rcases List.mem_cons.mp member with rfl | earlier
        · exact coherent.tracked.issued mine
        · exact reported.issued report earlier
      · intro report member other live
        rcases List.mem_cons.mp member with rfl | earlier
        · exact apart other live
        · apply reported.settled report earlier other
          rw [tickets]
          exact List.mem_cons_of_mem _ live
      · rw [List.map_cons]
        refine List.nodup_cons.mpr ⟨?_, reported.once⟩
        intro again
        obtain ⟨report, earlier, same⟩ := List.mem_map.mp again
        exact reported.settled report earlier ticket mine same.symm
      · intro id entry found shown
        rw [registry] at found
        by_cases same : id = ticket.id
        · subst same
          rw [Registry.get_set_self present] at found
          cases found
          rw [number]
          exact List.mem_cons_self
        · rw [Registry.get_set_ne same] at found
          exact List.mem_cons_of_mem _ (reported.shown id entry found shown)
      · intro other member
        rw [sent] at member
        rcases reported.resolved other member with live | ⟨final, known⟩
        · rw [tickets] at live
          rcases List.mem_cons.mp live with rfl | remains
          · exact .inr ⟨state, List.mem_cons_self⟩
          · exact .inl remains
        · exact .inr ⟨final, List.mem_cons_of_mem _ known⟩

theorem step_reported {event : Event} (steps : s.step event = some s') (coherent : s.Coherent)
    (reported : s.Reported) : s'.Reported := by
  rcases moves_of_step steps with (aside | ⟨ticket, enters⟩) | acts
  · exact aside.reported reported
  · exact enters.reported reported
  · exact acts.writes.reported coherent reported

theorem Reachable.reported (reachable : Reachable s) : s.Reported :=
  reachable.induction reported_spawn fun _ _ _ reachable steps =>
    step_reported steps reachable.coherent

/-! ## Following a registration -/

/-- A later state of the control plane: every registration is further on its way, or it
    ended and was evicted; and what is new was registered under a new number. -/
structure Follows (s s' : ControlPlane) : Prop where
  grown : s.registry.nextSequence ≤ s'.registry.nextSequence
  kept : ∀ report ∈ s.reports, report ∈ s'.reports
  entered : ∀ id later, s'.registry.get id = some later →
    (∃ operation, s.registry.get id = some operation ∧ operation.sequence = later.sequence) ∨
      s.registry.nextSequence ≤ later.sequence
  followed : ∀ id operation, s.registry.get id = some operation →
    (∃ later, s'.registry.get id = some later ∧ later.sequence = operation.sequence ∧
      operation.state.Progress later.state) ∨
    ((∃ final, (operation.sequence, final) ∈ s'.reports ∧ operation.state.Progress final) ∧
      ∀ later, s'.registry.get id = some later → later.sequence ≠ operation.sequence)

theorem Follows.refl (s : ControlPlane) : Follows s s where
  grown := le_rfl
  kept := fun _ member => member
  entered := fun _ later present => .inl ⟨later, present, rfl⟩
  followed := fun _ operation present => .inl ⟨operation, present, rfl, .refl _⟩

theorem Follows.trans (coherent : s.Coherent) (first : Follows s s') (second : Follows s' s'') :
    Follows s s'' := by
  refine ⟨first.grown.trans second.grown,
    fun report member => second.kept report (first.kept report member), ?_, ?_⟩
  · intro id later present
    rcases second.entered id later present with ⟨between, present', same⟩ | new
    · rw [← same]
      exact first.entered id between present'
    · exact .inr (first.grown.trans new)
  · intro id operation present
    rcases first.followed id operation present with
      ⟨between, present', same, progress⟩ | ⟨⟨final, known, progress⟩, gone⟩
    · rw [← same]
      refine (second.followed id between present').imp ?_ ?_
      · rintro ⟨later, present'', same', progress'⟩
        exact ⟨later, present'', same', progress.trans progress'⟩
      · rintro ⟨⟨final, known, progress'⟩, gone⟩
        exact ⟨⟨final, known, progress.trans progress'⟩, gone⟩
    · refine .inr ⟨⟨final, second.kept _ known, progress⟩, ?_⟩
      intro later present'' same
      rcases second.entered id later present'' with ⟨between, present', same'⟩ | new
      · exact gone between present' (same'.trans same)
      · have issued := coherent.tracked.numbered id operation present
        have grown := first.grown
        omega

/-- Eviction takes only what was reported. -/
theorem Reported.thinned (reported : s.Reported) {room : Registry}
    (thinned : s.registry.Thinned room) {id : OperationId} {operation : RegisteredOperation}
    (present : s.registry.get id = some operation) :
    room.get id = some operation ∨
      room.get id = none ∧ (operation.sequence, operation.state) ∈ s.reports := by
  rcases thinned id with same | ⟨gone, terminal⟩
  · exact .inl (same.trans present)
  · refine .inr ⟨gone, reported.shown id operation present ?_⟩
    simpa [Registry.isTerminal, present] using terminal

theorem Aside.follows (aside : Aside s s') (reported : s.Reported) : Follows s s' where
  grown := aside.grown
  kept := by
    rw [aside.reports]
    exact fun _ member => member
  entered := fun id later present => .inl ⟨later, aside.thinned.kept present, rfl⟩
  followed := by
    intro id operation present
    rw [aside.reports]
    rcases reported.thinned aside.thinned present with same | ⟨gone, known⟩
    · exact .inl ⟨operation, same, rfl, .refl _⟩
    · refine .inr ⟨⟨operation.state, known, .refl _⟩, ?_⟩
      intro later found
      rw [gone] at found
      cases found

theorem Enters.follows (enters : s.Enters ticket s') (coherent : s.Coherent)
    (reported : s.Reported) : Follows s s' := by
  obtain ⟨room, digest, thinned, absent, same, registry⟩ := enters.room
  refine ⟨?_, ?_, ?_, ?_⟩
  · rw [registry, ← same]
    exact Nat.le_succ _
  · rw [enters.reports]
    exact fun _ member => member
  · intro id later found
    rw [registry] at found
    by_cases new : id = ticket.id
    · subst new
      rw [Registry.get_insert_self] at found
      cases found
      exact .inr same.ge
    · rw [Registry.get_insert_ne new] at found
      exact .inl ⟨later, thinned.kept found, rfl⟩
  · intro id operation present
    rw [enters.reports, registry]
    rcases reported.thinned thinned present with stays | ⟨gone, known⟩
    · have different : id ≠ ticket.id := by
        rintro rfl
        simp [absent] at stays
      exact .inl ⟨operation, (Registry.get_insert_ne different digest).trans stays, rfl, .refl _⟩
    · refine .inr ⟨⟨operation.state, known, .refl _⟩, ?_⟩
      intro later found
      by_cases new : id = ticket.id
      · subst new
        rw [Registry.get_insert_self] at found
        cases found
        have issued := coherent.tracked.numbered _ operation present
        simp only [same]
        omega
      · rw [Registry.get_insert_ne new, gone] at found
        cases found

/-- The executor writes a further state of the work in its hand. -/
theorem Coherent.follows (coherent : s.Coherent) (holds : s.executor.hand = [ticket])
    (progress : s.executor.shown.Progress state)
    (registry : s'.registry = s.registry.set ticket.id state)
    (kept : ∀ report ∈ s.reports, report ∈ s'.reports) : Follows s s' := by
  obtain ⟨operation, present, number, shown⟩ := coherent.entry holds
  have written := Registry.get_set_self present state
  refine ⟨?_, kept, ?_, ?_⟩ <;> rw [registry]
  · rw [Registry.nextSequence_set]
  · intro id later found
    by_cases mine : id = ticket.id
    · subst mine
      rw [written] at found
      cases found
      exact .inl ⟨operation, present, rfl⟩
    · rw [Registry.get_set_ne mine] at found
      exact .inl ⟨later, found, rfl⟩
  · intro id entry found
    by_cases mine : id = ticket.id
    · subst mine
      rw [present] at found
      cases found
      rw [← shown] at progress
      exact .inl ⟨_, written, rfl, progress⟩
    · exact .inl ⟨entry, (Registry.get_set_ne mine state).trans found, rfl, .refl _⟩

theorem Writes.follows (writes : s.Writes s') (coherent : s.Coherent) : Follows s s' := by
  cases writes with
  | keeps registry reports _ _ =>
      have same := Follows.refl s
      refine ⟨?_, ?_, ?_, ?_⟩ <;> simp only [registry, reports]
      · exact same.grown
      · exact same.kept
      · exact same.entered
      · exact same.followed
  | starts holds shown registry reports _ _ =>
      refine coherent.follows holds ?_ registry ?_
      · rw [shown]
        trivial
      · rw [reports]
        exact fun _ member => member
  | ends holds _ terminal registry reports _ _ =>
      refine coherent.follows holds ?_ registry ?_
      · exact OperationState.progress_terminal s.executor.shown_live terminal
      · rw [reports, coherent.report_eq holds terminal]
        exact fun _ member => List.mem_cons_of_mem _ member

theorem step_follows {event : Event} (steps : s.step event = some s') (coherent : s.Coherent)
    (reported : s.Reported) : Follows s s' := by
  rcases moves_of_step steps with (aside | ⟨ticket, enters⟩) | acts
  · exact aside.follows reported
  · exact enters.follows coherent reported
  · exact acts.writes.follows coherent

theorem Reachable.follows (reachable : Reachable s) (runs : Runs s s') : Follows s s' := by
  induction runs with
  | refl => exact .refl s
  | tail before steps ih =>
      obtain ⟨event, steps⟩ := steps
      have between := reachable.runs before
      exact ih.trans reachable.coherent (step_follows steps between.coherent between.reported)

end ControlPlane

end Nyanpasu
