import Nyanpasu.Control.Reports

/-! # What is said of a shutdown

A shutdown is reported, or answered with success, by the executor that ran it, by
the drain of what was queued behind it, and by the exit of the executor.  The last
two take the loop's end for the manager's success.
-/

namespace Nyanpasu

def Outcome.isOk : Outcome → Bool
  | returned (.ok _) => true
  | _ => false

def Outcome.isError : Outcome → Bool
  | returned (.error _) => true
  | _ => false

/-- How the executor leaves its loop, once it does. -/
def Executor.leaving : Executor → Option ExecutorExit
  | closing exit | draining exit | terminalizing exit _ | exited exit => some exit
  | _ => none

namespace ControlPlane

/-- Some executed `manager.shutdown()` returned `Ok`. -/
def shutDownDone (s : ControlPlane) : Bool :=
  s.ended.any fun entry => entry.1.command.isShutdown && entry.2.isOk

/-- Some executed `manager.shutdown()` returned an error. -/
def shutDownFailed (s : ControlPlane) : Bool :=
  s.ended.any fun entry => entry.1.command.isShutdown && entry.2.isError

variable {s s' : ControlPlane} {ticket : Ticket} {event : Event}

/-! ## What callers see -/

/-- No caller is left in the middle of a call. -/
structure Silent (s : ControlPlane) : Prop where
  submitting : s.submitting = []
  latching : s.latching = 0
  reserving : s.reserving = 0
  permits : s.channel.permits = 0
  waiting : s.waiting = []
  excluded : s.excluded = 0

theorem Acts.callers (acts : s.Acts s') :
    s'.senders = s.senders ∧ s'.submitting = s.submitting ∧ s'.latching = s.latching ∧
      s'.reserving = s.reserving ∧ s'.channel.permits = s.channel.permits ∧
      s'.waiting = s.waiting ∧ s'.excluded = s.excluded ∧ s'.answers = s.answers := by
  cases acts with
  | receive _ receives | drain _ receives =>
      obtain ⟨_, _, permits, _⟩ := Channel.recv_eq_some receives
      exact ⟨rfl, rfl, rfl, rfl, permits, rfl, rfl, rfl⟩
  | leave | refuse | pass | refused | start | returned | panicked | settle | die | latch | close
  | exit | terminalize => exact ⟨rfl, rfl, rfl, rfl, rfl, rfl, rfl, rfl⟩

/-- Only the executor moves then. -/
theorem Silent.step (silent : s.Silent) (gone : s.senders = false)
    (steps : s.step event = some s') : s' = s ∨ s.Acts s' := by
  obtain ⟨submitting, latching, reserving, permits, waiting, excluded⟩ := silent
  cases event with
  | advance => exact .inr (acts_of_advance steps)
  | finish outcome => exact .inr (acts_of_finish steps)
  | dropSenders =>
      simp only [ControlPlane.step] at steps
      split at steps <;> cases steps
      left
      rw [← gone]
  | answerExcluded =>
      simp only [ControlPlane.step, excluded] at steps
      split at steps <;> simp at steps
  | submit | admitSubmit | latch | shutdown | reserve | exclude | giveUp | release
  | admitShutdown | answer =>
      simp [ControlPlane.step, gone, submitting, latching, reserving, permits, waiting] at steps

theorem senders_admitSubmit (s : ControlPlane) (envelope : CoreCommandEnvelope) :
    (s.admitSubmit envelope).2.senders = s.senders := by
  simp only [admitSubmit]
  split <;> rfl

theorem senders_admitShutdown (s : ControlPlane) (id : OperationId)
    (reserved : 0 < s.channel.permits) : (s.admitShutdown id reserved).senders = s.senders := by
  simp only [admitShutdown]
  split <;> rfl

/-- How a step changes what calls of `shutdown` wait for and were answered. -/
inductive Hears (s : ControlPlane) : Event → ControlPlane → Prop where
  | nothing {event : Event} {s' : ControlPlane} : s'.waiting = s.waiting →
      s'.answers = s.answers → Hears s event s'
  | waitsOwn {id : OperationId} {ticket : Ticket} {s' : ControlPlane} :
      ticket ∈ s'.channel.sent → ticket.command.isShutdown = true →
      s'.waiting = ticket.sequence :: s.waiting → s'.answers = s.answers →
      Hears s (.admitShutdown id) s'
  | waitsOther {id : OperationId} {operation : RegisteredOperation} {s' : ControlPlane} :
      s.registry.get id = some operation →
      operation.digest = CoreCommand.shutdown.payloadDigest →
      s'.waiting = operation.sequence :: s.waiting → s'.answers = s.answers →
      Hears s (.admitShutdown id) s'
  | refused {id : OperationId} {error : CoreError} {s' : ControlPlane} :
      s'.waiting = s.waiting → s'.answers = .error error :: s.answers →
      Hears s (.admitShutdown id) s'
  | answered {sequence : Nat} {state : OperationState} {answer : Except CoreError Unit}
      {s' : ControlPlane} : sequence ∈ s.waiting → s.reports.lookup sequence = some state →
      waitResult state = some answer → s'.waiting = s.waiting.erase sequence →
      s'.answers = answer :: s.answers → Hears s (.answer sequence) s'
  | excluded {exit : ExecutorExit} {s' : ControlPlane} : s.executor = .exited exit →
      0 < s.excluded → s'.waiting = s.waiting → s'.answers = exitResult exit :: s.answers →
      Hears s .answerExcluded s'

theorem hears_admitShutdown (s : ControlPlane) (id : OperationId)
    (reserved : 0 < s.channel.permits) :
    Hears s (.admitShutdown id) (s.admitShutdown id reserved) := by
  have admitted := s.registry.admitted_admitOperation id
    CoreCommand.shutdown.payloadDigest fun sequence =>
      .ok (s.channel.send ⟨id, .shutdown, sequence⟩ reserved)
  simp only [admitShutdown]
  generalize s.registry.admitOperation _ _ _ = answer at admitted ⊢
  obtain ⟨answer, registry⟩ := answer
  cases admitted with
  | attached present same => exact .waitsOther present same rfl rfl
  | clashed _ _ => exact .refused rfl rfl
  | entered _ enqueues =>
      cases enqueues
      have sent := Channel.sent_send (a := ⟨id, .shutdown, s.registry.nextSequence⟩) reserved
      refine .waitsOwn (sent ▸ List.mem_cons_self) rfl rfl rfl
  | failed _ enqueues => cases enqueues
  | overflowed _ => exact .nothing rfl rfl

/-- What a step does to those outside: it keeps the handles or drops the last of them,
    and gives the calls of `shutdown` something to hear. -/
theorem callers_of_step (steps : s.step event = some s') :
    (s'.senders = s.senders ∨ s'.Silent) ∧ s.Hears event s' := by
  cases event with
  | advance =>
      obtain ⟨senders, _, _, _, _, waiting, _, answers⟩ := (acts_of_advance steps).callers
      exact ⟨.inl senders, .nothing waiting answers⟩
  | finish outcome =>
      obtain ⟨senders, _, _, _, _, waiting, _, answers⟩ := (acts_of_finish steps).callers
      exact ⟨.inl senders, .nothing waiting answers⟩
  | admitSubmit envelope =>
      simp only [ControlPlane.step] at steps
      split at steps <;> cases steps
      have same : (s.admitSubmit envelope).2.waiting = s.waiting ∧
          (s.admitSubmit envelope).2.answers = s.answers := by
        simp only [admitSubmit]
        split <;> exact ⟨rfl, rfl⟩
      exact ⟨.inl (senders_admitSubmit s envelope), .nothing same.1 same.2⟩
  | admitShutdown id =>
      simp only [ControlPlane.step] at steps
      split at steps <;> cases steps
      exact ⟨.inl (senders_admitShutdown s id _), hears_admitShutdown s id _⟩
  | submit envelope =>
      simp only [ControlPlane.step, checkSubmit] at steps
      split at steps
      case isTrue =>
        split at steps <;> cases steps
        exact ⟨.inl rfl, .nothing rfl rfl⟩
      case isFalse => cases steps
  | reserve =>
      simp only [ControlPlane.step] at steps
      split at steps
      case isTrue =>
        obtain ⟨channel, _, rfl⟩ := Option.map_eq_some_iff.mp steps
        exact ⟨.inl rfl, .nothing rfl rfl⟩
      case isFalse => cases steps
  | answer sequence =>
      simp only [ControlPlane.step] at steps
      split at steps
      case isTrue member =>
        obtain ⟨state, known, answered⟩ := Option.bind_eq_some_iff.mp steps
        obtain ⟨answer, result, rfl⟩ := Option.map_eq_some_iff.mp answered
        exact ⟨.inl rfl, .answered member known result rfl rfl⟩
      case isFalse => cases steps
  | answerExcluded =>
      simp only [ControlPlane.step] at steps
      split at steps
      case h_1 exited =>
        split at steps
        case isTrue some =>
          cases steps
          exact ⟨.inl rfl, .excluded exited some rfl rfl⟩
        case isFalse => cases steps
      case h_2 => cases steps
  | dropSenders =>
      simp only [ControlPlane.step] at steps
      split at steps
      case isTrue free =>
        cases steps
        obtain ⟨submitting, latching, reserving, permits, waiting, excluded⟩ := free
        exact ⟨.inr ⟨submitting, latching, reserving, permits, waiting, excluded⟩,
          .nothing rfl rfl⟩
      case isFalse => cases steps
  | latch | shutdown | exclude | giveUp | release =>
      simp only [ControlPlane.step] at steps
      split at steps <;> cases steps
      exact ⟨.inl rfl, .nothing rfl rfl⟩

/-- The last handle goes only when no caller is left in the middle of a call. -/
theorem silent_of_step (steps : s.step event = some s') (held : s.senders = true)
    (gone : s'.senders = false) : s'.Silent := by
  rcases (callers_of_step steps).1 with kept | silent
  · rw [held, gone] at kept
    cases kept
  · exact silent

/-! ## Why the executor left its loop -/

/-- Where the executor stands was earned: a result about to be stored was returned by
    the manager, and the loop was left for a shutdown that returned, or because nobody
    can send any more and nothing is left. -/
structure Earned (s : ControlPlane) : Prop where
  silent : s.senders = false → s.Silent
  settling : ∀ ticket result, s.executor = .settling ticket result →
    (ticket, .returned result) ∈ s.ended ∧ result.toOption.all ticket.command.yields = true
  leaving : s.executor.leaving = some .clean →
    (s.shutDownDone = true ∨ s.shutDownFailed = true) ∨ s.senders = false ∧ s.tickets = []

theorem earned_spawn (settings : LocalIpcSettings) (queueCapacity registryCapacity : Nat) :
    (spawn settings queueCapacity registryCapacity).Earned where
  silent := fun gone => by cases gone
  settling := fun _ _ settles => by cases settles
  leaving := fun leaves => by cases leaves

theorem Acts.ended (acts : s.Acts s') :
    s'.ended = s.ended ∨ ∃ ticket outcome, s.executor = .executing ticket ∧
      s'.ended = (ticket, outcome) :: s.ended := by
  cases acts with
  | returned _ stands _ => exact .inr ⟨_, _, stands, rfl⟩
  | panicked _ stands => exact .inr ⟨_, _, stands, rfl⟩
  | receive | leave | refuse | pass | refused | start | settle | die | latch | close | drain | exit
  | terminalize => exact .inl rfl

/-- What the manager returned stays returned. -/
theorem Acts.ended_subset (acts : s.Acts s') : s.ended ⊆ s'.ended := by
  rcases acts.ended with same | ⟨ticket, outcome, _, grown⟩
  · exact same ▸ List.Subset.refl _
  · exact grown ▸ List.subset_cons_self _ _

theorem shutDownDone_mono (grown : s.ended ⊆ s'.ended) (done : s.shutDownDone = true) :
    s'.shutDownDone = true := by
  obtain ⟨entry, member, holds⟩ := List.any_eq_true.mp done
  exact List.any_eq_true.mpr ⟨entry, grown member, holds⟩

theorem shutDownFailed_mono (grown : s.ended ⊆ s'.ended) (failed : s.shutDownFailed = true) :
    s'.shutDownFailed = true := by
  obtain ⟨entry, member, holds⟩ := List.any_eq_true.mp failed
  exact List.any_eq_true.mpr ⟨entry, grown member, holds⟩

theorem shutDown_of_returned {result : Except CoreError OperationOutput}
    (ended : (ticket, .returned result) ∈ s.ended) (shutdown : ticket.command.isShutdown = true) :
    s.shutDownDone = true ∨ s.shutDownFailed = true := by
  cases result with
  | ok output => exact .inl (List.any_eq_true.mpr ⟨_, ended, by simp [shutdown, Outcome.isOk]⟩)
  | error error => exact .inr (List.any_eq_true.mpr ⟨_, ended, by simp [shutdown, Outcome.isError]⟩)

/-- On the way out, the reason for leaving stays. -/
theorem Acts.leaves (acts : s.Acts s') (earned : s.Earned)
    (left : s.executor.leaving = some .clean) (tickets : s'.tickets = s.tickets ∨ s.tickets ≠ []) :
    (s'.shutDownDone = true ∨ s'.shutDownFailed = true) ∨ s'.senders = false ∧ s'.tickets = [] := by
  have grown := acts.ended_subset
  rcases earned.leaving left with ended | ⟨gone, empty⟩
  · exact .inl (ended.imp (shutDownDone_mono grown) (shutDownFailed_mono grown))
  · rcases tickets with same | some
    · exact .inr ⟨acts.callers.1.trans gone, same.trans empty⟩
    · exact absurd empty some

theorem Acts.leaving (acts : s.Acts s') (coherent : s.Coherent) (earned : s.Earned)
    (left : s'.executor.leaving = some .clean) :
    (s'.shutDownDone = true ∨ s'.shutDownFailed = true) ∨ s'.senders = false ∧ s'.tickets = [] := by
  have moves := acts
  cases acts with
  | leave stands ended =>
      obtain ⟨empty, _, closed⟩ := Channel.ended_iff.mp ended
      have opened : s.channel.closed = false := by rw [coherent.shut, stands]; rfl
      have gone : s.senders = false := by simpa [opened] using closed
      exact .inr ⟨gone, empty⟩
  | settle stands =>
      have returned := (earned.settling _ _ stands).1
      dsimp only at left
      split at left
      case isTrue shutdown => exact .inl (shutDown_of_returned returned shutdown)
      case isFalse => cases left
  | close stands | exit stands _ _ =>
      cases left
      refine moves.leaves earned (by rw [stands]; rfl) (.inl ?_)
      simp only [tickets, stands]
      rfl
  | drain stands receives =>
      cases left
      exact moves.leaves earned (by rw [stands]; rfl) (.inl (tickets_receive stands receives rfl rfl))
  | terminalize stands =>
      cases left
      refine moves.leaves earned (by rw [stands]; rfl) (.inr ?_)
      simp [tickets, stands, Executor.hand]
  | receive | refuse | pass | refused | start | returned | panicked | die | latch => cases left

theorem Acts.earned (acts : s.Acts s') (coherent : s.Coherent) (earned : s.Earned) :
    s'.Earned := by
  refine ⟨?_, ?_, fun left => acts.leaving coherent earned left⟩
  · intro gone
    obtain ⟨senders, submitting, latching, reserving, permits, waiting, excluded, _⟩ := acts.callers
    obtain ⟨_, _, _, _, _, _⟩ := earned.silent (senders ▸ gone)
    constructor <;> simp_all only
  · intro ticket result settles
    cases acts with
    | returned _ stands yields =>
        cases settles
        exact ⟨List.mem_cons_self, yields⟩
    | settle =>
        dsimp only at settles
        split at settles <;> cases settles
    | receive | leave | refuse | pass | refused | start | panicked | die | latch | close | drain
    | exit | terminalize => cases settles

theorem step_earned (steps : s.step event = some s') (coherent : s.Coherent) (earned : s.Earned) :
    s'.Earned := by
  cases gone : s.senders with
  | false =>
      rcases (earned.silent gone).step gone steps with rfl | acts
      · exact earned
      · exact acts.earned coherent earned
  | true =>
      have calls : s'.executor = s.executor → s'.ended = s.ended → s'.Earned := by
        intro executor ended
        refine ⟨silent_of_step steps gone, ?_, ?_⟩
        · rw [executor, ended]
          exact earned.settling
        · rw [executor, shutDownDone, shutDownFailed, ended]
          intro left
          rcases earned.leaving left with failed | ⟨dropped, _⟩
          · exact .inl failed
          · rw [gone] at dropped
            cases dropped
      rcases moves_of_step steps with (aside | ⟨ticket, enters⟩) | acts
      · exact calls aside.executor aside.ended
      · exact calls enters.executor enters.ended
      · exact acts.earned coherent earned

theorem Reachable.earned (reachable : Reachable s) : s.Earned :=
  reachable.induction earned_spawn fun _ _ _ reachable steps => step_earned steps reachable.coherent

/-! ## The steps that misreport -/

/-- After `manager.shutdown()` returned an error, the drain succeeds a queued shutdown
    all the same, and so does a call that only sees the executor's clean exit.  And a
    call may attach to another command's operation, where the generated id is taken and
    the digests collide. -/
def misreports (s : ControlPlane) : Event → Bool
  | .advance =>
      match s.executor with
      | .terminalizing .clean ticket => ticket.command.isShutdown && s.shutDownFailed
      | _ => false
  | .answerExcluded => s.executor = .exited .clean && s.shutDownFailed
  | .admitShutdown id =>
      (s.registry.get id).any fun operation =>
        operation.digest = CoreCommand.shutdown.payloadDigest &&
          s.channel.sent.any fun ticket =>
            ticket.sequence = operation.sequence && !ticket.command.isShutdown
  | _ => false

/-- Runs none of whose steps misreports. -/
def CandidRuns : ControlPlane → ControlPlane → Prop :=
  Relation.ReflTransGen fun s s' => ∃ event, s.misreports event = false ∧ s.step event = some s'

theorem CandidRuns.runs (runs : CandidRuns s s') : Runs s s' :=
  Relation.ReflTransGen.mono (fun _ _ ⟨event, _, steps⟩ => ⟨event, steps⟩) _ _ runs

/-! ## Truthfulness -/

/-- Every success that was told has a cause. -/
structure Truthful (s : ControlPlane) : Prop where
  sourced : ∀ id operation, s.registry.get id = some operation →
    ∃ ticket ∈ s.channel.sent, ticket.sequence = operation.sequence
  reported : ∀ report ∈ s.reports, ∃ ticket ∈ s.channel.sent, ticket.sequence = report.1 ∧
    ∀ output, report.2 = .succeeded output →
      ticket.command.yields output = true ∧ (output = .shutDown → s.shutDownDone = true)
  waits : ∀ sequence ∈ s.waiting, ∃ ticket ∈ s.channel.sent,
    ticket.sequence = sequence ∧ ticket.command.isShutdown = true
  answered : .ok () ∈ s.answers → s.shutDownDone = true

theorem truthful_spawn (settings : LocalIpcSettings) (queueCapacity registryCapacity : Nat) :
    (spawn settings queueCapacity registryCapacity).Truthful where
  sourced := fun _ _ present => by cases present
  reported := fun _ none => by cases none
  waits := fun _ none => by cases none
  answered := fun none => by cases none

variable {command : CoreCommand} {output : OperationOutput}

theorem eq_shutDown_of_yields (shutdown : command.isShutdown = true)
    (yields : command.yields output = true) : output = .shutDown := by
  cases command with
  | shutdown => cases output <;> first | rfl | cases yields
  | reconcile | stop | recover => cases shutdown

theorem isShutdown_of_yields (yields : command.yields .shutDown = true) :
    command.isShutdown = true := by
  cases command with
  | shutdown => rfl
  | reconcile | stop | recover => cases yields

theorem ended_of_step (steps : s.step event = some s') : s.ended ⊆ s'.ended := by
  rcases moves_of_step steps with (aside | ⟨ticket, enters⟩) | acts
  · exact aside.ended ▸ List.Subset.refl _
  · exact enters.ended ▸ List.Subset.refl _
  · exact acts.ended_subset

theorem sent_of_step (steps : s.step event = some s') : s.channel.sent ⊆ s'.channel.sent := by
  rcases moves_of_step steps with (aside | ⟨ticket, enters⟩) | acts
  · exact aside.sent ▸ List.Subset.refl _
  · exact enters.sent ▸ List.subset_cons_self _ _
  · exact acts.writes.sent ▸ List.Subset.refl _

/-- An entry was there before, or it is that of the operation just sent. -/
theorem entry_of_step (steps : s.step event = some s') {id : OperationId}
    {later : RegisteredOperation} (present : s'.registry.get id = some later) :
    (∃ operation, s.registry.get id = some operation ∧ operation.sequence = later.sequence) ∨
      ∃ ticket ∈ s'.channel.sent, ticket.sequence = later.sequence := by
  rcases moves_of_step steps with (aside | ⟨ticket, enters⟩) | acts
  · exact .inl ⟨later, aside.thinned.kept present, rfl⟩
  · obtain ⟨room, digest, thinned, _, same, registry⟩ := enters.room
    rw [registry] at present
    by_cases new : id = ticket.id
    · subst new
      rw [Registry.get_insert_self] at present
      cases present
      refine .inr ⟨ticket, enters.sent ▸ List.mem_cons_self, ?_⟩
      rw [enters.number, ← same]
    · rw [Registry.get_insert_ne new] at present
      exact .inl ⟨later, thinned.kept present, rfl⟩
  · rcases acts.writes.registry with same | ⟨written, state, registry⟩
    · rw [same] at present
      exact .inl ⟨later, present, rfl⟩
    · rw [registry] at present
      exact .inl (Registry.present_of_get_set present)

/-- Numbers tell what was sent apart. -/
theorem Coherent.eq_of_sequence (coherent : s.Coherent) {one two : Ticket}
    (first : one ∈ s.channel.sent) (second : two ∈ s.channel.sent)
    (same : one.sequence = two.sequence) : one = two := by
  have distinct : (s.channel.sent.map (·.sequence)).Nodup :=
    coherent.increasing.imp fun greater => Nat.ne_of_gt greater
  exact List.inj_on_of_nodup_map distinct first second same

/-- A success the executor writes was earned, unless it drains a shutdown behind one
    that failed. -/
theorem Earned.verdict (earned : s.Earned) (holds : s.executor.hand = [ticket])
    (writes : ControlPlane.verdict s.executor = some (.succeeded output))
    (candid : s.misreports .advance = false) :
    ticket.command.yields output = true ∧ (output = .shutDown → s.shutDownDone = true) := by
  cases stands : s.executor with
  | settling mine result =>
      obtain ⟨ended, yields⟩ := earned.settling mine result stands
      rw [stands] at writes holds
      cases holds
      cases result with
      | error error => cases writes
      | ok result =>
          cases writes
          have yields : ticket.command.yields output = true := yields
          refine ⟨yields, ?_⟩
          rintro rfl
          refine List.any_eq_true.mpr ⟨_, ended, ?_⟩
          simp [isShutdown_of_yields yields, Outcome.isOk]
  | terminalizing exit mine =>
      have left := earned.leaving
      rw [stands] at left writes holds
      cases holds
      cases exit with
      | died => cases writes
      | clean =>
          simp only [ControlPlane.verdict, drained] at writes
          split at writes
          case isFalse => cases writes
          case isTrue shutdown =>
            cases writes
            simp only [misreports, stands, shutdown, Bool.true_and] at candid
            refine ⟨?_, fun _ => ?_⟩
            · cases command : ticket.command <;> simp_all [CoreCommand.isShutdown, CoreCommand.yields]
            · -- the loop was left for a shutdown that did not fail
              rcases left rfl with (done | failed) | ⟨_, empty⟩
              · exact done
              · rw [candid] at failed
                cases failed
              · simp [tickets, stands, Executor.hand] at empty
  | refusing | dying =>
      rw [stands] at writes
      cases writes
  | receiving | checking | starting | executing | latching | closing | draining | exited =>
      rw [stands] at writes
      cases writes

theorem reports_finish {outcome : Outcome} (finishes : s.finish outcome = some s') :
    s'.reports = s.reports := by
  unfold ControlPlane.finish at finishes
  split at finishes
  case h_1 =>
    split at finishes <;> cases finishes
    rfl
  case h_2 =>
    cases finishes
    rfl
  case h_3 => cases finishes

theorem reported_of_step (steps : s.step event = some s') (candid : s.misreports event = false)
    (reachable : Reachable s) (truthful : s.Truthful) :
    ∀ report ∈ s'.reports, ∃ ticket ∈ s'.channel.sent, ticket.sequence = report.1 ∧
      ∀ output, report.2 = .succeeded output →
        ticket.command.yields output = true ∧ (output = .shutDown → s'.shutDownDone = true) := by
  have done := shutDownDone_mono (ended_of_step steps)
  -- a report that was there before is as true as it was
  have before : ∀ report ∈ s.reports, ∃ ticket ∈ s'.channel.sent, ticket.sequence = report.1 ∧
      ∀ output, report.2 = .succeeded output →
        ticket.command.yields output = true ∧ (output = .shutDown → s'.shutDownDone = true) := by
    intro report known
    obtain ⟨ticket, sent, number, earned⟩ := truthful.reported report known
    refine ⟨ticket, sent_of_step steps sent, number, fun output success => ?_⟩
    obtain ⟨yields, cause⟩ := earned output success
    exact ⟨yields, fun shuts => done (cause shuts)⟩
  rcases calls_of_step steps with rfl | ⟨outcome, rfl⟩ | aside | ⟨entering, enters⟩
  · have writes := (acts_of_advance steps).writes
    cases writes with
    | keeps _ reports _ _ => exact reports ▸ before
    | starts _ _ _ reports _ _ => exact reports ▸ before
    | @ends mine state holds verdict terminal _ reports _ sent =>
        rw [reports, reachable.coherent.report_eq holds terminal]
        intro report known
        rcases List.mem_cons.mp known with rfl | old
        · obtain ⟨rest, received⟩ := reachable.coherent.taken mine (holds ▸ List.mem_cons_self)
          have hand : mine ∈ s.channel.sent := by
            rw [Channel.sent, received]
            exact List.mem_append_right _ List.mem_cons_self
          refine ⟨mine, sent ▸ hand, rfl, ?_⟩
          rintro output rfl
          obtain ⟨yields, cause⟩ := reachable.earned.verdict holds verdict candid
          exact ⟨yields, fun shuts => done (cause shuts)⟩
        · exact before report old
  · exact reports_finish steps ▸ before
  · exact aside.reports ▸ before
  · exact enters.reports ▸ before

/-- A call of `shutdown` is answered with what was reported of the shutdown it waits for,
    or with a clean exit after a shutdown that did not fail. -/
theorem Hears.truthful (hears : s.Hears event s') (candid : s.misreports event = false)
    (reachable : Reachable s) (truthful : s.Truthful) (sent : s.channel.sent ⊆ s'.channel.sent) :
    (∀ sequence ∈ s'.waiting, ∃ ticket ∈ s'.channel.sent,
      ticket.sequence = sequence ∧ ticket.command.isShutdown = true) ∧
    (.ok () ∈ s'.answers → s.shutDownDone = true) := by
  have waits : ∀ sequence ∈ s.waiting, ∃ ticket ∈ s'.channel.sent,
      ticket.sequence = sequence ∧ ticket.command.isShutdown = true := by
    intro sequence member
    obtain ⟨ticket, known, rest⟩ := truthful.waits sequence member
    exact ⟨ticket, sent known, rest⟩
  cases hears with
  | nothing waiting answers =>
      rw [waiting, answers]
      exact ⟨waits, truthful.answered⟩
  | @waitsOwn _ ticket _ known shutdown waiting answers =>
      rw [waiting, answers]
      refine ⟨?_, truthful.answered⟩
      intro sequence member
      rcases List.mem_cons.mp member with rfl | earlier
      · exact ⟨ticket, known, rfl, shutdown⟩
      · exact waits sequence earlier
  | @waitsOther _ operation _ present same waiting answers =>
      rw [waiting, answers]
      refine ⟨?_, truthful.answered⟩
      intro sequence member
      rcases List.mem_cons.mp member with rfl | earlier
      · obtain ⟨ticket, known, number⟩ := truthful.sourced _ operation present
        refine ⟨ticket, sent known, number, ?_⟩
        -- the step attaches to no other command's operation
        simp only [misreports, present, Option.any_some, same, decide_true, Bool.true_and,
          List.any_eq_false] at candid
        simpa [number] using candid ticket known
      · exact waits sequence earlier
  | refused waiting answers =>
      rw [waiting, answers]
      refine ⟨waits, fun member => truthful.answered ?_⟩
      simpa using member
  | @answered sequence state answer _ member known result waiting answers =>
      rw [waiting, answers]
      refine ⟨fun other rest => waits other (List.mem_of_mem_erase rest), ?_⟩
      intro told
      rcases List.mem_cons.mp told with rfl | earlier
      · obtain ⟨ticket, tracked, rfl, shutdown⟩ := truthful.waits sequence member
        cases state with
        | queued | running | failed => cases result
        | succeeded output =>
            obtain ⟨newer, older, split, _⟩ := List.lookup_eq_some_iff.mp known
            have report : (ticket.sequence, .succeeded output) ∈ s.reports := by simp [split]
            obtain ⟨other, sent', number, earned⟩ := truthful.reported _ report
            obtain rfl := reachable.coherent.eq_of_sequence sent' tracked number
            obtain ⟨yields, cause⟩ := earned output rfl
            exact cause (eq_shutDown_of_yields shutdown yields)
      · exact truthful.answered earlier
  | @excluded exit _ exited some waiting answers =>
      rw [waiting, answers]
      refine ⟨waits, ?_⟩
      intro told
      rcases List.mem_cons.mp told with ok | earlier
      · cases exit with
        | died => cases ok
        | clean =>
            simp only [misreports, exited, decide_true, Bool.true_and] at candid
            rcases reachable.earned.leaving (by rw [exited]; rfl) with (done | failed) | ⟨gone, _⟩
            · exact done
            · rw [candid] at failed
              cases failed
            · have none := (reachable.earned.silent gone).excluded
              omega
      · exact truthful.answered earlier

theorem step_truthful (steps : s.step event = some s') (candid : s.misreports event = false)
    (reachable : Reachable s) (truthful : s.Truthful) : s'.Truthful := by
  have sent := sent_of_step steps
  obtain ⟨waits, answered⟩ := (callers_of_step steps).2.truthful candid reachable truthful sent
  refine ⟨?_, reported_of_step steps candid reachable truthful, waits, ?_⟩
  · intro id later present
    rcases entry_of_step steps present with ⟨operation, before, same⟩ | known
    · obtain ⟨ticket, known, number⟩ := truthful.sourced id operation before
      exact ⟨ticket, sent known, number.trans same⟩
    · exact known
  · intro told
    exact shutDownDone_mono (ended_of_step steps) (answered told)

theorem CandidRuns.truthful {settings : LocalIpcSettings} {queueCapacity registryCapacity : Nat}
    (runs : CandidRuns (spawn settings queueCapacity registryCapacity) s) : s.Truthful := by
  induction runs with
  | refl => exact truthful_spawn settings queueCapacity registryCapacity
  | tail before steps ih =>
      obtain ⟨event, candid, steps⟩ := steps
      have reachable : Reachable _ := ⟨settings, queueCapacity, registryCapacity, CandidRuns.runs before⟩
      exact step_truthful steps candid reachable ih

/-- In every run none of whose steps misreports, an operation is shown or was reported as
    a successful shutdown, and a call of `shutdown` returned with success, only if an
    executed `manager.shutdown()` returned `Ok`. -/
theorem shutdown_truthful {settings : LocalIpcSettings} {queueCapacity registryCapacity : Nat}
    (runs : CandidRuns (spawn settings queueCapacity registryCapacity) s) :
    (∀ id operation, s.registry.get id = some operation →
      operation.state = .succeeded .shutDown → s.shutDownDone = true) ∧
    (∀ report ∈ s.reports, report.2 = .succeeded .shutDown → s.shutDownDone = true) ∧
    (.ok () ∈ s.answers → s.shutDownDone = true) := by
  have reachable : Reachable s := ⟨settings, queueCapacity, registryCapacity, runs.runs⟩
  have truthful := runs.truthful
  have reported : ∀ report ∈ s.reports, report.2 = .succeeded .shutDown → s.shutDownDone = true := by
    intro report known shut
    obtain ⟨ticket, _, _, earned⟩ := truthful.reported report known
    exact (earned .shutDown shut).2 rfl
  refine ⟨?_, reported, truthful.answered⟩
  intro id operation present shut
  have terminal : operation.state.isTerminal = true := by rw [shut]; rfl
  exact reported _ (reachable.reported.shown id operation present terminal) shut

def candid : ControlPlane → List Event → Bool
  | _, [] => true
  | s, event :: rest => !s.misreports event && candid ((s.step event).getD s) rest

theorem candidRuns_replay (s : ControlPlane) (events : List Event)
    (candid : s.candid events = true) : CandidRuns s (s.replay events) := by
  induction events generalizing s with
  | nil => exact .refl
  | cons event rest ih =>
      simp only [ControlPlane.candid, Bool.and_eq_true, Bool.not_eq_true'] at candid
      have runs := ih _ candid.2
      cases steps : s.step event with
      | none =>
          simp only [steps, Option.getD_none] at runs
          simpa only [replay, List.foldl_cons, steps, Option.getD_none] using runs
      | some s' =>
          simp only [steps, Option.getD_some] at runs
          simp only [replay, List.foldl_cons, steps, Option.getD_some]
          exact .head ⟨event, candid.1, steps⟩ runs

/-- Two submitted shutdowns: the first is executed, the second is drained, and a call of
    `shutdown` finds the queue closed. -/
def twoShutdowns (result : Except CoreError OperationOutput) : List Event :=
  let first : CoreCommandEnvelope := ⟨⟨1, 1, 1⟩, .shutdown⟩
  let second : CoreCommandEnvelope := ⟨⟨2, 1, 1⟩, .shutdown⟩
  [.submit first, .submit second, .admitSubmit first, .admitSubmit second, .advance, .advance,
    .advance, .finish (.returned result), .advance, .advance, .shutdown, .exclude, .advance,
    .advance, .advance, .answerExcluded]

theorem shutdown_truthful_twice :
    ((spawn ⟨.prefer, false⟩ 2 2).replay (twoShutdowns (.ok .shutDown))).reports =
      [(1, .succeeded .shutDown), (0, .succeeded .shutDown)] ∧
    ((spawn ⟨.prefer, false⟩ 2 2).replay (twoShutdowns (.ok .shutDown))).answers = [.ok ()] ∧
    ((spawn ⟨.prefer, false⟩ 2 2).replay (twoShutdowns (.ok .shutDown))).shutDownDone = true := by
  have runs := candidRuns_replay (spawn ⟨.prefer, false⟩ 2 2) (twoShutdowns (.ok .shutDown))
    (by decide +kernel)
  have answers : ((spawn ⟨.prefer, false⟩ 2 2).replay
      (twoShutdowns (.ok .shutDown))).answers = [.ok ()] := by decide +kernel
  exact ⟨by decide +kernel, answers, (shutdown_truthful runs).2.2 (by simp [answers])⟩

/-- The manager fails to shut down; the queued shutdown and the late call are told that
    it did. -/
theorem shutdown_untruthful :
    ∃ s, Reachable s ∧ s.shutDownDone = false ∧ s.shutDownFailed = true ∧
      (s.registry.get ⟨2, 1, 1⟩).map (·.state) = some (.succeeded .shutDown) ∧
      s.answers = [.ok ()] :=
  ⟨(spawn ⟨.prefer, false⟩ 2 2).replay
      (twoShutdowns (.error (CoreError.new .stopUnconfirmed "the core did not stop" false))),
    reachable_replay _ _ _ _, by decide +kernel, by decide +kernel, by decide +kernel,
    by decide +kernel⟩

end ControlPlane

end Nyanpasu
