import Nyanpasu.Invariant.Cleanup

/-! # What a publication may say

A publication settles the status when it fits the slot at the moment it is
sent.  Publications of an instance combine values read at different moments; the
marks say when they do not fit together.
-/

namespace Nyanpasu

open Naming Store Program

theorem Instance.Vouches.evolve {i j : Instance} {shown : InstanceStatus}
    (vouches : i.Vouches shown) (evolves : i.Evolves j) : j.Vouches shown := by
  have unforwarded : Instance.Vouches { i with forwarder := j.forwarder } shown := vouches
  exact unforwarded.mono evolves

/-- A terminal status is the last one. -/
theorem Instance.Evolves.terminal {i j : Instance} (evolves : i.Evolves j) (sound : i.Sound)
    (terminal : i.status.state.isTerminal = true) : j.status = i.status := by
  rw [evolves.final (sound.terminal terminal)]

variable {env : Setting} {c : Ctx} {w : World}

section

variable (inv : Inv env c w)

include inv

theorem Inv.send {status : CoreStatus} {showing : Showing}
    (coherent : .splitSnapshot ∉ w.marks → Coherent c.count w.procs status)
    (vacant : ∀ epoch, showing = .announced epoch → c.ctrl.current = none)
    (settled : showing = .settled → Settled c.ctrl w.procs status w.marks)
    (announced : ∀ epoch, showing = .announced epoch → status.revision.map (·.epoch) = some epoch ∧ status.state.isStopped = false) :
    Inv env { c with showing := showing } (w.send status) :=
  { inv with
    valid := { inv.valid with vacant := vacant }
    shown :=
      { coherent := fun unsplit sent member => by
          rcases List.mem_cons.mp member with rfl | member
          · exact coherent unsplit
          · exact inv.shown.coherent unsplit sent member
        settled := settled
        announced := announced } }

/-- What the status says may be forgotten. -/
theorem Inv.forget : Inv env { c with showing := .pending } w :=
  { inv with
    valid := { inv.valid with vacant := fun _ none => by cases none }
    shown := { inv.shown with
      settled := fun none => by cases none
      announced := fun _ none => by cases none } }

/-! ## States of the operation itself -/

theorem publish_ends {state : CoreState} (plan : Option EpochPlan)
    (quiet : ∀ epoch pid, state ≠ .running epoch pid) :
    Ends env (publish state plan) w fun _ w' => Inv env { c with showing := .pending } w' :=
  inv.ends_atomic fun _ _ inv' => inv'.send
    (fun _ epoch pid running => absurd running (quiet epoch pid)) (fun _ none => by cases none)
    (fun none => by cases none) (fun _ none => by cases none)

/-- A stop settles the status unless the slot is occupied by a live instance, or
    by any instance while nothing is quarantined. -/
theorem publish_stopped_ends {state : CoreState} (plan : Option EpochPlan)
    (stopped : state.isStopped = true)
    (ended : ∀ active, c.ctrl.current = some active → NoStopBesideLive w.marks → (w.procs active.proc).status.state.isTerminal = true)
    (listed : ∀ active, c.ctrl.current = some active → NoStalePublication w.marks → c.ctrl.quarantine ≠ []) :
    Ends env (publish state plan) w fun _ w' => Inv env { c with showing := .settled } w' := by
  have moved := World.moved_tick env w
  refine ends_atomic (inv.tick.send ?_ (fun _ none => by cases none) ?_
    (fun _ none => by cases none))
  · intro _ epoch pid running
    rw [show state = .running epoch pid from running] at stopped
    cases stopped
  · intro _
    refine ⟨fun _ _ _ => stopped, fun active current free alive => ?_,
      fun active current free empty => ?_⟩
    · rw [moved.marks] at free
      have terminal := ended active current free
      rw [(moved.procs active.proc).terminal (inv.processes.sound _) terminal, terminal] at alive
      cases alive
    · rw [moved.marks] at free
      exact absurd empty (listed active current free)

theorem publishTerminalError_ends (vacant : c.ctrl.current = none) (error : Error) :
    Ends env (publishTerminalError error) w fun _ w' =>
      Inv env { c with showing := .settled } w' :=
  publish_stopped_ends inv none rfl (fun _ current => by simp [vacant] at current)
    fun _ current => by simp [vacant] at current

/-! ## States of an instance -/

theorem snapshot_ends {p : Nat} (serving : (w.procs p).userStop = false) :
    Ends env (snapshot p) w fun shown w' =>
      Inv env c w' ∧ (w.procs p).Evolves (w'.procs p) ∧ shown = (w'.procs p).status ∧
        (w'.procs p).Vouches shown := by
  have evolves := (World.moved_tick env w).procs p
  refine ends_observe ?_
  exact ⟨inv.tick, evolves, rfl,
    (inv.tick.processes.sound p).vouches (evolves.userStop.trans serving)⟩

end

/-! ## The commit feed -/

/-- What a running state published for a plan does to the debt: it settles the one
    of the slot, or announces a plan that is about to enter the empty slot. -/
inductive Pays (c : Ctx) (plan : EpochPlan) : Pledge Configuration → Prop where
  | held {active : Active} : c.ctrl.current = some active → plan = active.plan →
      (∀ early, c.pledge ≠ .sent early) → Pays c plan .kept
  | ahead : c.ctrl.current = none → c.pledge = .kept → Fits c.adopted plan.configuration →
      Pays c plan (.sent plan.configuration)

variable {pledge : Pledge Configuration}

theorem Pays.announced {plan : EpochPlan} {latest latest' : Option Configuration}
    {feed feed' : List Configuration} {missed missed' : Prop} (pays : Pays c plan pledge)
    (announced : Announced (c.ctrl.current.map (·.plan.configuration)) c.adopted c.pledge latest feed missed)
    (announces : Announces plan.configuration latest' feed feed' missed missed') :
    Announced (c.ctrl.current.map (·.plan.configuration)) c.adopted pledge latest' feed' missed' := by
  cases pays with
  | held current own owed =>
      refine announced.announce_held announces ?_ owed
      rw [current, own]
      rfl
  | ahead vacant kept fits =>
      rw [vacant, kept] at announced
      rw [vacant]
      exact announced.announce_ahead announces fits

theorem announces_commit (plan : EpochPlan) (instanceId : InstanceId)
    (feed : List EffectiveConfigSnapshot) (missed : Prop) :
    Announces plan.configuration (some plan.configuration) (feed.map (·.configuration))
      ((⟨instanceId, plan.revision, plan.effectiveDocument⟩ :: feed).map (·.configuration))
      missed missed where
  sends := fun other member => (List.mem_cons.mp member).symm
  newest := fun other same => by
    cases same
    exact List.mem_cons_self
  noticed := id
  key := fun _ => rfl

/-- Nothing is sent, and the mark is set unless the newest commit is of the plan's
    revision already. -/
theorem announces_nothing {plan : EpochPlan}
    (announced : Announced (c.ctrl.current.map (·.plan.configuration)) c.adopted pledge (w.commits.map (·.configuration)) (w.feed.map (·.configuration)) (.uncommitted ∈ w.marks)) :
    Announces plan.configuration (w.commits.map (·.configuration)) (w.feed.map (·.configuration))
      (w.feed.map (·.configuration)) (.uncommitted ∈ w.marks)
      (.uncommitted ∈ (w.markIf .uncommitted
        (w.commits.map (·.revision) ≠ some plan.revision)).marks) where
  sends := fun _ => .inl
  newest := announced.newest
  noticed := World.mem_markIf
  key := fun unmarked => by
    rw [Option.map_map]
    by_contra differs
    exact unmarked (World.mem_markIf_self (decide_eq_true differs))

theorem commitRunning_ends {state : CoreState} {plan : EpochPlan} (inv : Inv env c w)
    (shown : InstanceStatus) (pays : ∀ epoch pid, state = .running epoch pid → Pays c plan pledge)
    (rests : (∀ epoch pid, state ≠ .running epoch pid) → pledge = c.pledge) :
    Ends env (commitRunning state shown plan) w fun _ w' =>
      Inv env { c with pledge := pledge } w' ∧ (∀ place ∈ w.marks, place ∈ w'.marks) ∧
        ∀ p, (w.procs p).Evolves (w'.procs p) := by
  by_cases running : ∃ epoch pid, state = .running epoch pid
  · obtain ⟨epoch, pid, rfl⟩ := running
    have pays := pays epoch pid rfl
    cases identity : shown.instanceId with
    | some instanceId =>
        have moved := World.moved_tick env w
        have announced := pays.announced inv.tick.feeding.announced
          (announces_commit plan instanceId _ _)
        simp only [commitRunning, identity]
        refine ends_update ⟨?_, fun place member => moved.marks ▸ member, moved.procs⟩
        exact { inv.tick with
          valid := { inv.valid with }
          feeding := ⟨inv.feeding.full, announced⟩ }
    | none =>
        have announced := pays.announced inv.feeding.announced
          (announces_nothing inv.feeding.announced)
        have marked := inv.markIf .uncommitted (w.commits.map (·.revision) ≠ some plan.revision)
        simp only [commitRunning, identity]
        refine ensures_act ⟨?_, fun place => World.mem_markIf, fun p => ?_⟩
        · refine { marked with
            valid := { inv.valid with }
            feeding := ⟨inv.feeding.full, ?_⟩ }
          rw [World.markIf_commits, World.markIf_feed]
          exact announced
        · rw [World.markIf_procs]
          exact .refl _
  · have same := rests fun epoch pid isRunning => running ⟨epoch, pid, isRunning⟩
    rw [same]
    cases state with
    | running epoch pid => exact absurd ⟨epoch, pid, rfl⟩ running
    | _ => exact ⟨inv, fun _ => id, fun _ => .refl _⟩

/-- A running state is of one piece with the snapshot unless the mark says otherwise. -/
def Whole (state : CoreState) (shown : InstanceStatus) (marks : List Mark) : Prop :=
  .splitSnapshot ∉ marks → ∀ epoch pid, state = .running epoch pid → shown.state = .running pid

theorem whole_markIf (state : CoreState) (shown : InstanceStatus) :
    Whole state shown (w.markIf .splitSnapshot (splits state shown)).marks := by
  rintro unmarked epoch pid rfl
  by_contra split
  exact unmarked (World.mem_markIf_self (by simp [splits, split]))

section

variable {p : Nat} {state : CoreState} {plan : EpochPlan} {showing : Showing}

section

variable (inv : Inv env c w) (inside : p < c.count) (own : (w.procs p).epoch = plan.revision.epoch)

include inv inside own

/-- What an instance publication may claim: `settled` is what its own state and
    plan make of the slot, once the stale case is marked. -/
theorem sendInstance_ends {shown : InstanceStatus} (vouches : (w.procs p).Vouches shown)
    (whole : Whole state shown w.marks)
    (states : ∀ epoch pid, state = .running epoch pid → epoch = plan.revision.epoch)
    (vacant : ∀ epoch, showing = .announced epoch → c.ctrl.current = none)
    (settled : showing = .settled → ∀ v, Inv env c v → (w.procs p).Evolves (v.procs p) → ∀ status : CoreStatus, status.state = state → status.revision = some plan.revision → Settled c.ctrl v.procs status (v.markIf .staleState (isStale v p state)).marks)
    (announced : ∀ epoch, showing = .announced epoch → plan.revision.epoch = epoch ∧ state.isStopped = false) :
    Ends env (sendInstance p state shown plan) w fun _ w' =>
      Inv env { c with showing := showing } w' := by
  have moved := World.moved_tick env w
  refine ends_atomic ((inv.tick.markIf _ _).send (fun unsplit => ?_) vacant (fun isSettled => ?_)
    fun epoch isAnnounced => ?_)
  · rw [World.markIf_procs]
    refine Coherent.of_vouches shown inside ((moved.procs p).epoch.trans own)
      (vouches.evolve (moved.procs p)) (fun epoch pid running => ?_) rfl rfl
    refine ⟨states epoch pid running, whole (fun member => unsplit ?_) epoch pid running⟩
    exact World.mem_markIf (moved.marks ▸ member)
  · rw [World.markIf_procs]
    exact settled isSettled _ inv.tick (moved.procs p) _ rfl rfl
  · obtain ⟨same, running⟩ := announced epoch isAnnounced
    exact ⟨by rw [← same]; rfl, running⟩

theorem publishInstance_ends (serving : (w.procs p).userStop = false)
    (states : ∀ epoch pid, state = .running epoch pid → epoch = plan.revision.epoch)
    (pays : ∀ epoch pid, state = .running epoch pid → Pays c plan pledge)
    (rests : (∀ epoch pid, state ≠ .running epoch pid) → pledge = c.pledge)
    (vacant : ∀ epoch, showing = .announced epoch → c.ctrl.current = none)
    (settled : showing = .settled → ∀ v, Inv env { c with pledge := pledge } v → (w.procs p).Evolves (v.procs p) → ∀ status : CoreStatus, status.state = state → status.revision = some plan.revision → Settled c.ctrl v.procs status (v.markIf .staleState (isStale v p state)).marks)
    (announced : ∀ epoch, showing = .announced epoch → plan.revision.epoch = epoch ∧ state.isStopped = false) :
    Ends env (publishInstance p state plan) w fun _ w' =>
      Inv env { c with showing := showing, pledge := pledge } w' := by
  refine (snapshot_ends inv serving).bind fun shown w₁ ⟨inv₁, evolves₁, _, vouches₁⟩ => ?_
  refine ensures_bind (ensures_act ?_)
  refine (commitRunning_ends (inv₁.markIf _ _) shown pays rests).bind
    fun _ w₂ ⟨inv₂, marks₂, evolves₂⟩ => ?_
  rw [World.markIf_procs] at evolves₂
  have evolves := evolves₁.trans (evolves₂ p)
  exact sendInstance_ends inv₂ inside (evolves.epoch.trans own) (vouches₁.evolve (evolves₂ p))
    (fun unsplit => whole_markIf state shown fun member => unsplit (marks₂ _ member)) states vacant
    (fun isSettled v inv' evolves' => settled isSettled v inv' (evolves.trans evolves')) announced

/-- A running status for an epoch that is about to enter the empty slot. -/
theorem publishInstance_announces (serving : (w.procs p).userStop = false)
    (vacant : c.ctrl.current = none) (kept : c.pledge = .kept)
    (fits : Fits c.adopted plan.configuration) (pid : Nat) :
    Ends env (publishInstance p (.running plan.revision.epoch pid) plan) w fun _ w' =>
      Inv env { c with
        showing := .announced plan.revision.epoch, pledge := .sent plan.configuration } w' :=
  publishInstance_ends inv inside own serving (fun _ _ same => by cases same; rfl)
    (fun _ _ _ => .ahead vacant kept fits) (fun silent => absurd rfl (silent _ _))
    (fun _ _ => vacant) (fun none => by cases none) fun _ same => by cases same; exact ⟨rfl, rfl⟩

end

theorem caughtUp_iff : w.caughtUp p = true ↔ CaughtUp (w.procs p) := by
  unfold World.caughtUp CaughtUp
  cases forwards : (w.procs p).forwarder with
  | none => simp
  | some f => simp

section

variable {active : Active} (inv : Inv env c w) (current : c.ctrl.current = some active)

include inv current

/-- The state of the slot's instance settles the status, or is marked as stale. -/
theorem settled_of_state {status : CoreStatus}
    (ended : state.isStopped = true → (w.procs active.proc).status.state.isTerminal = true)
    (states : status.state = state) (revision : status.revision = some active.plan.revision) :
    Settled c.ctrl w.procs status
      (w.markIf .staleState (isStale w active.proc state)).marks where
  vacant := fun vacant => by simp [current] at vacant
  live := fun other slot _ alive => by
    rw [current] at slot
    cases slot
    refine ⟨by rw [revision]; rfl, ?_⟩
    by_contra stopped
    rw [Bool.not_eq_false, states] at stopped
    simp [ended stopped] at alive
  converged := fun other slot free _ => by
    rw [current] at slot
    cases slot
    refine ⟨by rw [revision]; rfl, fun caught => ?_⟩
    by_contra differs
    rw [states, ← (inv.processes.slot active current).2.1] at differs
    refine free.1 (World.mem_markIf_self ?_)
    simp [isStale, inv.ctrl, current, caughtUp_iff.mpr caught, Ne.symm differs]

theorem publishActive_ends
    (states : ∀ epoch pid, state = .running epoch pid → epoch = active.plan.revision.epoch)
    (owed : ∀ early, c.pledge ≠ .sent early)
    (rests : (∀ epoch pid, state ≠ .running epoch pid) → .kept = c.pledge)
    (ended : state.isStopped = true → (w.procs active.proc).status.state.isTerminal = true) :
    Ends env (publishActive active state) w fun _ w' =>
      Inv env { c with showing := .settled, pledge := .kept } w' := by
  obtain ⟨inside, own, serving⟩ := inv.processes.slot active current
  refine publishInstance_ends inv inside own serving states
    (fun _ _ _ => .held current rfl owed) rests (fun _ none => by cases none)
    (fun _ v inv' evolves status isState revision => ?_) (fun _ none => by cases none)
  refine settled_of_state inv' current (fun stopped => ?_) isState revision
  have terminal := ended stopped
  rwa [evolves.terminal (inv.processes.sound _) terminal]

theorem republishRetained_ends (kept : c.pledge = .kept) :
    Ends env republishRetained w fun _ w' =>
      Inv env { c with showing := .settled, pledge := .kept } w' := by
  refine ensures_bind (ensures_act ?_)
  simp only [inv.ctrl, current]
  refine (inv.ends_observe _).bind fun state w₁ ⟨inv₁, shown⟩ => ?_
  have own := (inv₁.processes.slot active current).2.1
  refine publishActive_ends inv₁ current (fun epoch pid running => ?_)
    (fun _ early => by cases kept.symm.trans early) (fun _ => kept.symm) fun stopped => ?_
  · rw [shown] at running
    exact (instanceCoreState_running running).1.trans own
  · rw [shown, instanceCoreState_isStopped] at stopped
    exact stopped

end

end

end Nyanpasu
