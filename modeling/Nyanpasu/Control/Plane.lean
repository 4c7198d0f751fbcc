import Nyanpasu.Control.Registry
import Mathlib.Logic.Relation

/-! # The control plane

`control/mod.rs` and `control/executor.rs`: any number of callers submit commands
or ask for a shutdown, and one task executes what was admitted.  A state holds where
each of them stands between two accesses to what they share (the registry, the
queue, the closing latch), and every access is one step, so the runs of the steps
are the interleavings of the callers with the executor.

What a command does in the manager is left open: it may return any result, or panic.
-/

namespace Nyanpasu

/-- The work of one admitted operation, with the number it was admitted under.  The
    executor reads only the first two fields. -/
structure Ticket where
  id : OperationId
  command : CoreCommand
  sequence : Nat
  deriving DecidableEq

inductive ExecutorExit where
  | clean
  | died
  deriving Repr, DecidableEq

/-- Where the executor task stands in `run` and `drain`. -/
inductive Executor where
  /-- Waiting for work. -/
  | receiving
  /-- Work in hand, about to read the closing latch. -/
  | checking (ticket : Ticket)
  /-- The latch was set: about to fail the operation. -/
  | refusing (ticket : Ticket)
  /-- About to show the operation as running and hand it to the manager. -/
  | starting (ticket : Ticket)
  | executing (ticket : Ticket)
  /-- The operation has returned: about to store its result. -/
  | settling (ticket : Ticket) (result : Except CoreError OperationOutput)
  /-- The operation has panicked: about to fail it. -/
  | dying (ticket : Ticket) (panic : String)
  /-- After a panic, about to set the closing latch. -/
  | latching
  /-- Out of the loop, about to close the queue. -/
  | closing (exit : ExecutorExit)
  /-- Waiting for what is still queued. -/
  | draining (exit : ExecutorExit)
  /-- Drained work in hand, about to give it its terminal state. -/
  | terminalizing (exit : ExecutorExit) (ticket : Ticket)
  | exited (exit : ExecutorExit)
  deriving DecidableEq

/-- How a command left the manager. -/
inductive Outcome where
  | returned (result : Except CoreError OperationOutput)
  | panicked (text : String)

/-- `submitting` are the calls of `submit` that passed the check of the latch,
    `latching` counts those that have queued a shutdown and not set the latch yet.
    `reserving` counts the calls of `shutdown` that wait for a place in the queue, and
    the places they hold are the channel's permits; `waiting` are the numbers of the
    operations such calls wait for, and `excluded` counts those that found the queue
    closed.  `reports` are the terminal states given to each registration, which its
    handles keep.  `began`, `ended` and `answers` only record, newest first, what
    reached the manager, how it left, and what the calls of `shutdown` returned. -/
structure ControlPlane where
  settings : LocalIpcSettings
  registry : Registry
  channel : Channel Ticket
  closing : Bool
  senders : Bool
  submitting : List CoreCommandEnvelope
  latching : Nat
  reserving : Nat
  waiting : List Nat
  excluded : Nat
  executor : Executor
  reports : List (Nat × OperationState)
  began : List Ticket
  ended : List (Ticket × Outcome)
  answers : List (Except CoreError Unit)

namespace ControlPlane

/-- `CoreControl::spawn`. -/
def spawn (settings : LocalIpcSettings) (queueCapacity registryCapacity : Nat) : ControlPlane where
  settings := settings
  registry := .new (Registry.liveCapacity registryCapacity queueCapacity)
  channel := .new Ticket queueCapacity
  closing := false
  senders := true
  submitting := []
  latching := 0
  reserving := 0
  waiting := []
  excluded := 0
  executor := .receiving
  reports := []
  began := []
  ended := []
  answers := []

/-! ## The callers -/

/-- The first access of `submit`: a latched control plane takes no more work. -/
def checkSubmit (s : ControlPlane) (envelope : CoreCommandEnvelope) :
    Except CoreError ControlPlane :=
  if s.closing then
    .error ((CoreError.new .shuttingDown "the control plane is shutting down"
      false).withOperation envelope.operationId)
  else .ok { s with submitting := envelope :: s.submitting }

/-- The critical section of `submit`: registration and `try_send` in one. -/
def admitSubmit (s : ControlPlane) (envelope : CoreCommandEnvelope) :
    Admission (Channel Ticket) × ControlPlane :=
  let id := envelope.operationId
  let command := envelope.command.resolve s.settings
  let admitted := s.registry.admitOperation id command.payloadDigest fun sequence =>
    s.channel.trySend ⟨id, command, sequence⟩
  match admitted.1 with
  | .registered _ channel =>
      (admitted.1, { s with
        registry := admitted.2
        channel := channel
        latching := if command.isShutdown then s.latching + 1 else s.latching })
  | _ => (admitted.1, { s with registry := admitted.2 })

/-- `submit` without interruption. -/
def submit (s : ControlPlane) (envelope : CoreCommandEnvelope) :
    Admission (Channel Ticket) × ControlPlane :=
  match s.checkSubmit envelope with
  | .error error => (.rejected error, s)
  | .ok _ => s.admitSubmit envelope

/-- The critical section of `shutdown`: the reserved place is used, or given back.
    The call then waits for the operation, or fails with the admission. -/
def admitShutdown (s : ControlPlane) (id : OperationId) (reserved : 0 < s.channel.permits) :
    ControlPlane :=
  let admitted := s.registry.admitOperation id CoreCommand.shutdown.payloadDigest fun sequence =>
    .ok (s.channel.send ⟨id, .shutdown, sequence⟩ reserved)
  let s := { s with registry := admitted.2 }
  match admitted.1 with
  | .registered sequence channel =>
      { s with channel := channel, waiting := sequence :: s.waiting }
  | .existing sequence =>
      { s with channel := s.channel.release, waiting := sequence :: s.waiting }
  | .rejected error =>
      { s with channel := s.channel.release, answers := .error error :: s.answers }
  | .overflowed => { s with channel := s.channel.release }

/-- `OperationHandle::wait`, once there is a terminal state to see. -/
def waitResult : OperationState → Option (Except CoreError Unit)
  | .succeeded _ => some (.ok ())
  | .failed error => some (.error error)
  | _ => none

/-- The answer of a call of `shutdown` that found the queue closed. -/
def exitResult : ExecutorExit → Except CoreError Unit
  | .clean => .ok ()
  | .died => .error (CoreError.new .internal "the control executor died" false)

/-! ## The executor -/

def shuttingDown (id : OperationId) : OperationState :=
  .failed ((CoreError.new .shuttingDown "the control plane is shutting down" false).withOperation id)

def panicked (id : OperationId) (panic : String) : OperationState :=
  .failed ((CoreError.new .internal ("the control operation panicked: " ++ panic)
    false).withOperation id)

def settled : Except CoreError OperationOutput → OperationState
  | .ok output => .succeeded output
  | .error error => .failed error

/-- What `drain` gives to work nobody executed. -/
def drained (ticket : Ticket) : ExecutorExit → OperationState
  | .clean =>
      if ticket.command.isShutdown then .succeeded .shutDown
      else .failed ((CoreError.new .shuttingDown
        "the control plane shut down before this queued operation ran" false).withOperation
          ticket.id)
  | .died =>
      .failed ((CoreError.new .internal "the control executor died" false).withOperation ticket.id)

/-- A terminal state is kept for the handles of the registration it was written to. -/
def report (s : ControlPlane) (id : OperationId) (state : OperationState) :
    List (Nat × OperationState) :=
  match s.registry.get id with
  | some operation =>
      if state.isTerminal then (operation.sequence, state) :: s.reports else s.reports
  | none => s.reports

def setState (s : ControlPlane) (ticket : Ticket) (state : OperationState) : ControlPlane :=
  { s with registry := s.registry.set ticket.id state, reports := s.report ticket.id state }

/-- The executor's next access to what it shares, except that an operation in the
    manager ends when it ends.  `none` where the executor waits. -/
def advance (s : ControlPlane) : Option ControlPlane :=
  match s.executor with
  | .receiving =>
      match s.channel.recv with
      | some (ticket, channel) => some { s with channel := channel, executor := .checking ticket }
      | none =>
          if s.channel.ended s.senders then some { s with executor := .closing .clean } else none
  | .checking ticket =>
      if !ticket.command.isShutdown && s.closing then
        some { s with executor := .refusing ticket }
      else some { s with executor := .starting ticket }
  | .refusing ticket =>
      some { s.setState ticket (shuttingDown ticket.id) with executor := .receiving }
  | .starting ticket =>
      some { s.setState ticket .running with
        executor := .executing ticket, began := ticket :: s.began }
  | .executing _ => none
  | .settling ticket result =>
      some { s.setState ticket (settled result) with
        executor := if ticket.command.isShutdown then .closing .clean else .receiving }
  | .dying ticket panic =>
      some { s.setState ticket (panicked ticket.id panic) with executor := .latching }
  | .latching => some { s with closing := true, executor := .closing .died }
  | .closing exit => some { s with channel := s.channel.close, executor := .draining exit }
  | .draining exit =>
      match s.channel.recv with
      | some (ticket, channel) =>
          some { s with channel := channel, executor := .terminalizing exit ticket }
      | none =>
          if s.channel.ended s.senders then some { s with executor := .exited exit } else none
  | .terminalizing exit ticket =>
      some { s.setState ticket (drained ticket exit) with executor := .draining exit }
  | .exited _ => none

/-- The operation in the manager is over.  A result is one of the command's own. -/
def finish (s : ControlPlane) (outcome : Outcome) : Option ControlPlane :=
  match s.executor, outcome with
  | .executing ticket, .returned result =>
      if result.toOption.all ticket.command.yields then
        some { s with
          executor := .settling ticket result, ended := (ticket, .returned result) :: s.ended }
      else none
  | .executing ticket, .panicked text =>
      some { s with
        executor := .dying ticket text, ended := (ticket, .panicked text) :: s.ended }
  | _, _ => none

/-! ## Runs -/

inductive Event where
  /-- A call of `submit` finds the latch open. -/
  | submit (envelope : CoreCommandEnvelope)
  /-- A call of `submit` goes through its critical section. -/
  | admitSubmit (envelope : CoreCommandEnvelope)
  /-- A call of `submit` that queued a shutdown sets the latch. -/
  | latch
  /-- A call of `shutdown` sets the latch and asks for a place. -/
  | shutdown
  /-- A call of `shutdown` is given a place in the queue. -/
  | reserve
  /-- A call of `shutdown` gets no place: the queue is closed. -/
  | exclude
  /-- A caller of `shutdown` is gone before it got a place. -/
  | giveUp
  /-- A caller of `shutdown` is gone and its place is given back. -/
  | release
  /-- A call of `shutdown` goes through its critical section, under a generated id. -/
  | admitShutdown (id : OperationId)
  /-- A call of `shutdown` sees the terminal state it waited for. -/
  | answer (sequence : Nat)
  /-- A call of `shutdown` that found the queue closed sees the executor's exit. -/
  | answerExcluded
  /-- The last handle is dropped. -/
  | dropSenders
  /-- The executor moves on. -/
  | advance
  /-- The operation in the manager is over. -/
  | finish (outcome : Outcome)

def step (s : ControlPlane) : Event → Option ControlPlane
  | .submit envelope => if s.senders then (s.checkSubmit envelope).toOption else none
  | .admitSubmit envelope =>
      if envelope ∈ s.submitting then
        some { (s.admitSubmit envelope).2 with submitting := s.submitting.erase envelope }
      else none
  | .latch =>
      if 0 < s.latching then some { s with latching := s.latching - 1, closing := true } else none
  | .shutdown =>
      if s.senders then some { s with closing := true, reserving := s.reserving + 1 } else none
  | .reserve =>
      if 0 < s.reserving then
        s.channel.reserve.map fun channel =>
          { s with channel := channel, reserving := s.reserving - 1 }
      else none
  | .exclude =>
      if 0 < s.reserving ∧ s.channel.closed = true then
        some { s with reserving := s.reserving - 1, excluded := s.excluded + 1 }
      else none
  | .giveUp => if 0 < s.reserving then some { s with reserving := s.reserving - 1 } else none
  | .release =>
      if 0 < s.channel.permits then some { s with channel := s.channel.release } else none
  | .admitShutdown id =>
      if reserved : 0 < s.channel.permits then some (s.admitShutdown id reserved) else none
  | .answer sequence =>
      if sequence ∈ s.waiting then
        (s.reports.lookup sequence).bind fun state =>
          (waitResult state).map fun answer =>
            { s with waiting := s.waiting.erase sequence, answers := answer :: s.answers }
      else none
  | .answerExcluded =>
      match s.executor with
      | .exited exit =>
          if 0 < s.excluded then
            some { s with excluded := s.excluded - 1, answers := exitResult exit :: s.answers }
          else none
      | _ => none
  | .dropSenders =>
      if s.submitting = [] ∧ s.latching = 0 ∧ s.reserving = 0 ∧ s.channel.permits = 0 ∧
          s.waiting = [] ∧ s.excluded = 0 then
        some { s with senders := false }
      else none
  | .advance => s.advance
  | .finish outcome => s.finish outcome

/-- Any number of steps, in any order. -/
def Runs : ControlPlane → ControlPlane → Prop :=
  Relation.ReflTransGen fun s s' => ∃ event, s.step event = some s'

/-- The states of a control plane after its construction. -/
def Reachable (s : ControlPlane) : Prop :=
  ∃ settings queueCapacity registryCapacity, Runs (spawn settings queueCapacity registryCapacity) s

/-- What holds of a new control plane and is kept by every step holds in every
    interleaving. -/
theorem Reachable.induction {P : ControlPlane → Prop} {s : ControlPlane} (reachable : Reachable s)
    (new : ∀ settings queueCapacity registryCapacity,
      P (spawn settings queueCapacity registryCapacity))
    (step : ∀ s s' event, Reachable s → s.step event = some s' → P s → P s') : P s := by
  obtain ⟨settings, queueCapacity, registryCapacity, runs⟩ := reachable
  induction runs with
  | refl => exact new settings queueCapacity registryCapacity
  | tail before steps ih =>
      obtain ⟨event, steps⟩ := steps
      exact step _ _ event ⟨settings, queueCapacity, registryCapacity, before⟩ steps ih

theorem Reachable.runs {s s' : ControlPlane} (reachable : Reachable s) (runs : Runs s s') :
    Reachable s' := by
  obtain ⟨settings, queueCapacity, registryCapacity, before⟩ := reachable
  exact ⟨settings, queueCapacity, registryCapacity, before.trans runs⟩

/-- A whole run as one computation; an event that cannot happen is passed over. -/
def replay (s : ControlPlane) (events : List Event) : ControlPlane :=
  events.foldl (fun s event => (s.step event).getD s) s

theorem runs_replay (s : ControlPlane) (events : List Event) : Runs s (s.replay events) := by
  induction events generalizing s with
  | nil => exact .refl
  | cons event rest ih =>
      cases steps : s.step event with
      | none =>
          simp only [replay, List.foldl_cons, steps, Option.getD_none]
          exact ih s
      | some s' =>
          simp only [replay, List.foldl_cons, steps, Option.getD_some]
          exact .head ⟨event, steps⟩ (ih s')

theorem reachable_replay (settings : LocalIpcSettings) (queueCapacity registryCapacity : Nat)
    (events : List Event) :
    Reachable ((spawn settings queueCapacity registryCapacity).replay events) :=
  ⟨settings, queueCapacity, registryCapacity, runs_replay _ events⟩

end ControlPlane

end Nyanpasu
