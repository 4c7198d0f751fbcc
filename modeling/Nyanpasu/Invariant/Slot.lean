import Nyanpasu.Invariant.Lifecycle

/-! # The slot

Installation hands the process and the epoch of an operation to the slot, and
retirement takes them back.  Host DNS is converged beside the slot and touches
nothing the invariant speaks about.
-/

namespace Nyanpasu

open Naming Store Program

variable {env : Setting} {c : Ctx} {w : World}

/-! ## Installing and vacating -/

def Ctrl.installing (ctrl : Ctrl) (p : Nat) (plan : EpochPlan) : Ctrl :=
  { ctrl with lastSpec := some plan.sourceSpec, current := some ⟨p, plan⟩ }

def Ctrl.vacated (ctrl : Ctrl) : Ctrl := { ctrl with current := none }

theorem World.updateForwarder_procs (w : World) (p q : Nat) (f : Option Forwarder) :
    ((w.updateProc p fun i => { i with forwarder := f }).procs q) =
      { w.procs q with forwarder := if q = p then f else (w.procs q).forwarder } := by
  rw [World.updateProc_procs]
  split <;> rfl

theorem Instance.Sound.setForwarder {i : Instance} (sound : i.Sound) (f : Option Forwarder) :
    Instance.Sound { i with forwarder := f } :=
  { sound with }

theorem Forwarding.fresh (i : Instance) : Forwarding i ⟨0, none, false⟩ where
  seen := Nat.zero_le _
  shown := fun _ none => by cases none
  newest := fun _ none => by cases none
  ending := fun _ none => by cases none
  finished := fun none => by cases none

/-- The plan's configuration may be adopted: it is a full one, and nothing else was
    adopted under its revision. -/
structure Admits (env : Env) (adopted : List Configuration) (plan : EpochPlan) : Prop where
  full : env.Full plan.configuration
  fits : Fits adopted plan.configuration

theorem Feeding.adopt {current : Option Active} {adopted : List Configuration}
    {pledge pledge' : Pledge Configuration} {commits : Option EffectiveConfigSnapshot}
    {feed : List EffectiveConfigSnapshot} {marks : List Mark} {plan : EpochPlan}
    (feeding : Feeding env current adopted pledge commits feed marks)
    (admits : Admits env adopted plan)
    (owed : pledge' = .due ∧ pledge = .kept ∨
      pledge' = .kept ∧ pledge = .sent plan.configuration) (p : Nat) :
    Feeding env (some ⟨p, plan⟩) (plan.configuration :: adopted) pledge' commits feed marks where
  full := fun configuration member => by
    rcases List.mem_cons.mp member with rfl | earlier
    · exact admits.full
    · exact feeding.full configuration earlier
  announced := feeding.announced.adopt admits.fits owed

/-- What the slot holds may be adopted again. -/
theorem Inv.admits_current {active : Active} (inv : Inv env c w)
    (current : c.ctrl.current = some active) : Admits env c.adopted active.plan := by
  have held := inv.feeding.announced.held active.plan.configuration (by rw [current]; rfl)
  exact ⟨inv.feeding.full _ held, inv.feeding.announced.unique _ held⟩

section

variable {h : Held} {rest : List Epoch} {plan : EpochPlan} {showing : Showing}
  {pledge : Pledge Configuration} (inv : Inv env c w) (holds : c.held = [h])
  (vacant : c.ctrl.current = none) (serving : h.serving = true) (ready : h.ready = true)
  (own : h.epoch = plan.revision.epoch) (unlisted : ¬ c.ctrl.Quarantined plan.revision.epoch)
  (newest : ∀ revision ∈ c.installs, revision.rank ≤ plan.revision.rank)
  (owned : c.owned.Perm (plan.revision.epoch :: rest)) (admits : Admits env c.adopted plan)
  (shows : showing = .pending ∨ showing = .settled ∧ c.showing = .announced plan.revision.epoch)
  (owed : pledge = .due ∧ c.pledge = .kept ∨ pledge = .kept ∧ c.pledge = .sent plan.configuration)

include inv holds vacant serving ready own unlisted newest owned admits shows owed

/-- The one process in hand, seen running, enters the empty slot.  The forwarder
    has seen nothing yet, so what was announced is what the slot calls for. -/
theorem Inv.install :
    Inv env { c with
      ctrl := c.ctrl.installing h.proc plan, installs := plan.revision :: c.installs,
      adopted := plan.configuration :: c.adopted, held := [], owned := rest, showing := showing,
      pledge := pledge }
      { w.updateProc h.proc fun i => { i with forwarder := some ⟨0, none, false⟩ } with
        ctrl := c.ctrl.installing h.proc plan, installs := plan.revision :: c.installs,
        adopted := plan.configuration :: c.adopted } := by
  obtain ⟨inside, epoch, isServing, isReady⟩ := inv.processes.held h (holds ▸ List.mem_cons_self)
  have keeps {other : Epoch} : Keeps (c.ctrl.installing h.proc plan) rest other ↔
      Keeps c.ctrl c.owned other := by
    unfold Keeps Ctrl.SlotEpoch Ctrl.Quarantined
    simp only [owned.mem_iff, List.mem_cons, Ctrl.installing, vacant, Option.some.injEq,
      exists_eq_left', reduceCtorEq, false_and, exists_false, false_or]
    constructor
    · rintro (member | rfl | listed)
      · exact .inl (.inr member)
      · exact .inl (.inl rfl)
      · exact .inr listed
    · rintro ((rfl | member) | listed)
      · exact .inr (.inl rfl)
      · exact .inl member
      · exact .inr (.inr listed)
  have kept : Keeps c.ctrl c.owned plan.revision.epoch := .inl (owned.mem_iff.mpr (by simp))
  have slotted {active : Active} (current : (c.ctrl.installing h.proc plan).current = some active) :
      active = ⟨h.proc, plan⟩ := by
    cases current
    rfl
  refine
    { inv with
      ctrl := rfl
      installs := rfl
      adopted := rfl
      valid :=
        { inv.valid with
          slotFree := fun other slot listed => ?_
          issued := fun other isKept => inv.valid.issued other (keeps.mp isKept)
          installed := fun revision member => ?_
          newest := fun active current revision member => ?_
          covered := by simp
          recorded := fun active current => ?_
          matched := congrArg (plan.revision :: ·) inv.valid.matched
          apart := by simp
          nodup := by simp
          vacant := fun _ announced => by rcases shows with rfl | ⟨rfl, _⟩ <;> cases announced }
      processes :=
        { tracked := fun q inside alive => ?_
          buried := fun entry member proven q inside => ?_
          held := by simp
          slot := fun active current => ?_
          silent := fun q forwards => ?_
          issued := fun q inside => ?_
          sound := fun q => ?_
          forwarding := fun q f forwards => ?_
          forwarded := fun active current => ?_ }
      files :=
        { inv.files with
          owned := fun removals free x bounded present => ?_ }
      tidy := inv.tidy.mono (fun e covered => .inl (owned.mem_iff.mpr ?_)) fun _ => id
      shown :=
        { coherent := fun unsplit sent member => (inv.shown.coherent unsplit sent member).follow
            le_rfl fun q _ => ?_
          settled := fun isSettled => ?_
          announced := fun _ announced => by rcases shows with rfl | ⟨rfl, _⟩ <;> cases announced }
      feeding := inv.feeding.adopt admits owed h.proc }
  · obtain ⟨active, current, rfl⟩ := slot
    rw [slotted current] at listed
    exact unlisted listed
  · rcases List.mem_cons.mp member with rfl | member
    · exact inv.valid.issued _ kept
    · exact inv.valid.installed revision member
  · rw [slotted current]
    rcases List.mem_cons.mp member with rfl | member
    · exact le_rfl
    · exact newest revision member
  · rw [slotted current]
    exact List.mem_cons_self
  · rw [World.updateForwarder_procs] at alive ⊢
    rcases inv.processes.tracked q inside alive with ⟨k, member, rfl⟩ | ⟨active, current, _⟩ | listed
    · rw [holds] at member
      rw [List.mem_singleton.mp member]
      exact .inr (.inl ⟨⟨h.proc, plan⟩, rfl, rfl⟩)
    · rw [vacant] at current
      cases current
    · exact .inr (.inr listed)
  · rw [World.updateForwarder_procs]
    exact inv.processes.buried entry member proven q inside
  · rw [slotted current, World.updateForwarder_procs]
    exact ⟨inside, epoch.trans own, isServing serving⟩
  · by_cases here : q = h.proc
    · exact ⟨⟨h.proc, plan⟩, rfl, here.symm⟩
    · rw [World.updateForwarder_procs, if_neg here] at forwards
      obtain ⟨active, current, _⟩ := inv.processes.silent q forwards
      rw [vacant] at current
      cases current
  · rw [World.updateForwarder_procs]
    exact inv.processes.issued q inside
  · rw [World.updateForwarder_procs]
    exact (inv.processes.sound q).setForwarder _
  · rw [World.updateForwarder_procs] at forwards ⊢
    by_cases here : q = h.proc
    · rw [if_pos here] at forwards
      cases forwards
      exact .fresh _
    · rw [if_neg here] at forwards
      obtain ⟨active, current, _⟩ := inv.processes.silent q
        (Option.ne_none_iff_exists'.mpr ⟨f, forwards⟩)
      rw [vacant] at current
      cases current
  · rw [slotted current, World.updateForwarder_procs, if_pos rfl]
    simp
  · obtain ⟨other, same, isKept⟩ := inv.files.owned removals free x bounded present
    exact ⟨other, same, keeps.mpr isKept⟩
  · rcases covered with member | ⟨active, current, rfl⟩
    · exact List.mem_cons_of_mem _ member
    · rw [slotted current]
      exact List.mem_cons_self
  · rw [World.updateForwarder_procs]
    exact ⟨rfl, fun _ => id, fun _ => id⟩
  · rcases shows with rfl | ⟨_, announced⟩
    · cases isSettled
    · obtain ⟨revision, running⟩ := inv.shown.announced _ announced
      refine ⟨(fun none => by cases none), fun active current _ _ => ?_,
        fun active current _ _ => ?_⟩
      · rw [slotted current]
        exact ⟨revision, running⟩
      · rw [slotted current]
        refine ⟨revision, fun ⟨f, forwards, _, seen⟩ => ?_⟩
        rw [World.updateForwarder_procs, if_pos rfl] at forwards seen
        cases forwards
        have positive := isReady ready
        exact absurd seen (Nat.ne_of_lt positive)

theorem install_ends :
    Ends env (install h.proc plan) w fun active w' => active = ⟨h.proc, plan⟩ ∧
      Inv env { c with
        ctrl := c.ctrl.installing h.proc plan, installs := plan.revision :: c.installs,
        adopted := plan.configuration :: c.adopted, held := [], owned := rest,
        showing := showing, pledge := pledge } w' := by
  refine inv.ends_atomic fun k v inv' => ⟨rfl, ?_⟩
  have installed := inv'.install holds vacant serving ready own unlisted newest owned admits shows
    owed
  rw [← inv'.ctrl, ← inv'.installs, ← inv'.adopted] at installed ⊢
  exact installed

end

section

variable {active : Active} (inv : Inv env c w) (current : c.ctrl.current = some active)

include inv current

/-- The slot's process comes back into the operation's hand, without a forwarder. -/
theorem Inv.vacate :
    Inv env { c with
      ctrl := c.ctrl.vacated,
      held := ⟨active.proc, active.plan.revision.epoch, true, false⟩ :: c.held,
      owned := active.plan.revision.epoch :: c.owned, showing := .pending }
      { w.updateProc active.proc fun i => { i with forwarder := none } with
        ctrl := c.ctrl.vacated } := by
  obtain ⟨inside, epoch, serving⟩ := inv.processes.slot active current
  have only {other : Active} (slot : c.ctrl.current = some other) : other = active := by
    rw [current] at slot
    cases slot
    rfl
  have keeps {other : Epoch} : Keeps c.ctrl.vacated (active.plan.revision.epoch :: c.owned) other ↔
      Keeps c.ctrl c.owned other := by
    unfold Keeps Ctrl.SlotEpoch Ctrl.Quarantined
    simp only [List.mem_cons, Ctrl.vacated, current, Option.some.injEq, exists_eq_left',
      reduceCtorEq, false_and, exists_false, false_or]
    constructor
    · rintro ((rfl | member) | listed)
      · exact .inr (.inl rfl)
      · exact .inl member
      · exact .inr (.inr listed)
    · rintro (member | rfl | listed)
      · exact .inl (.inr member)
      · exact .inl (.inl rfl)
      · exact .inr listed
  refine
    { inv with
      ctrl := rfl
      valid :=
        { inv.valid with
          slotFree := fun other slot => by obtain ⟨_, none, _⟩ := slot; cases none
          issued := fun other kept => inv.valid.issued other (keeps.mp kept)
          newest := fun _ none => by cases none
          covered := fun h member => keeps.mpr ?_
          recorded := fun _ none => by cases none
          apart := fun _ _ _ none => by cases none
          nodup := List.nodup_cons.mpr ⟨fun again => ?_, inv.valid.nodup⟩
          vacant := fun _ none => by cases none }
      processes :=
        { tracked := fun q inside alive => ?_
          buried := fun entry member proven q inside => ?_
          held := fun h member => ?_
          slot := fun _ none => by cases none
          silent := fun q forwards => ?_
          issued := fun q inside => ?_
          sound := fun q => ?_
          forwarding := fun q f forwards => ?_
          forwarded := fun _ none => by cases none }
      files :=
        { inv.files with
          owned := fun removals free x bounded present => ?_ }
      tidy := inv.tidy.mono (fun e covered => ?_) fun _ => id
      shown :=
        { coherent := fun unsplit sent member => (inv.shown.coherent unsplit sent member).follow
            le_rfl fun q _ => ?_
          settled := fun none => by cases none
          announced := fun _ none => by cases none }
      feeding := ⟨inv.feeding.full, inv.feeding.announced.vacate⟩ }
  · rcases List.mem_cons.mp member with rfl | member
    · exact .inr (.inl ⟨active, current, rfl⟩)
    · exact inv.valid.covered h member
  · obtain ⟨h, member, same⟩ := List.mem_map.mp again
    exact inv.valid.apart h member active current same.symm
  · rw [World.updateForwarder_procs] at alive ⊢
    rcases inv.processes.tracked q inside alive with ⟨h, member, rfl⟩ | ⟨other, slot, rfl⟩ | listed
    · exact .inl ⟨h, List.mem_cons_of_mem _ member, rfl⟩
    · rw [only slot]
      exact .inl ⟨_, List.mem_cons_self, rfl⟩
    · exact .inr (.inr listed)
  · rw [World.updateForwarder_procs]
    exact inv.processes.buried entry member proven q inside
  · rw [World.updateForwarder_procs]
    rcases List.mem_cons.mp member with rfl | member
    · exact ⟨inside, epoch, fun _ => serving, fun none => by cases none⟩
    · exact inv.processes.held h member
  · rw [World.updateForwarder_procs] at forwards
    by_cases here : q = active.proc
    · simp [here] at forwards
    · rw [if_neg here] at forwards
      obtain ⟨other, slot, same⟩ := inv.processes.silent q forwards
      rw [only slot] at same
      exact absurd same.symm here
  · rw [World.updateForwarder_procs]
    exact inv.processes.issued q inside
  · rw [World.updateForwarder_procs]
    exact (inv.processes.sound q).setForwarder _
  · rw [World.updateForwarder_procs] at forwards
    by_cases here : q = active.proc
    · simp [here] at forwards
    · rw [if_neg here] at forwards
      obtain ⟨other, slot, same⟩ := inv.processes.silent q
        (Option.ne_none_iff_exists'.mpr ⟨f, forwards⟩)
      rw [only slot] at same
      exact absurd same.symm here
  · obtain ⟨other, same, kept⟩ := inv.files.owned removals free x bounded present
    exact ⟨other, same, keeps.mpr kept⟩
  · rcases covered with member | slot
    · rcases List.mem_cons.mp member with rfl | member
      · exact .inr ⟨active, current, rfl⟩
      · exact .inl member
    · exact absurd slot (Ctrl.not_slotEpoch rfl e)
  · rw [World.updateForwarder_procs]
    exact ⟨rfl, fun _ => id, fun _ => id⟩

theorem takeSlot_ends :
    Ends env (takeSlot active.proc) w fun _ w' => Inv env { c with
      ctrl := c.ctrl.vacated,
      held := ⟨active.proc, active.plan.revision.epoch, true, false⟩ :: c.held,
      owned := active.plan.revision.epoch :: c.owned, showing := .pending } w' := by
  refine inv.ends_atomic fun k v inv' => ?_
  have taken := (inv'.deliver active.proc (env.now k)).vacate current
  rw [← inv'.ctrl] at taken ⊢
  exact taken

/-! ## Retiring -/

/-- The context of an operation whose slot process was taken out: the epoch is its
    own to clean up, and `held` says whether the process is still in hand. -/
def Ctx.retiring (c : Ctx) (active : Active) (held : List Held) : Ctx :=
  { c with
    ctrl := c.ctrl.vacated
    held := held
    owned := active.plan.revision.epoch :: c.owned
    showing := .pending }

theorem retireCurrent_ends :
    Ends env retireCurrent w (Either
      (fun failure w' => failure.epoch = active.plan.revision.epoch ∧
        failure.error.isStopUnconfirmed = true ∧
        Inv env (c.retiring active
          (⟨active.proc, active.plan.revision.epoch, false, false⟩ :: c.held)) w')
      fun old w' => old = some active.plan ∧ Inv env (c.retiring active c.held) w') := by
  refine inv.bind_getCtrl ?_
  simp only [current]
  refine (takeSlot_ends inv current).bind fun _ w₁ inv₁ => ?_
  refine (stopAndConfirmDead_ends inv₁ rfl).bind_either (fun error w₂ ⟨unconfirmed, inv₂⟩ => ?_)
    fun _ w₂ inv₂ => ?_
  · exact ⟨rfl, unconfirmed, inv₂⟩
  · exact ⟨rfl, inv₂⟩

end

theorem retireCurrent_vacant (inv : Inv env c w) (vacant : c.ctrl.current = none) :
    Ends env retireCurrent w (Either (fun _ _ => False) fun old w' => old = none ∧ Inv env c w') := by
  refine inv.bind_getCtrl ?_
  simp only [vacant]
  exact ⟨rfl, inv⟩

theorem isRunning_ends (inv : Inv env c w) :
    Ends env isRunning w fun running w' => Inv env c w' ∧
      (running = true → ∃ active, c.ctrl.current = some active) := by
  refine (inv.ends_observe _).mono fun running w' ⟨inv', live⟩ => ⟨inv', fun isRunning => ?_⟩
  rw [live, World.slotLive, World.slot, inv'.ctrl] at isRunning
  cases slot : c.ctrl.current with
  | none => simp [slot] at isRunning
  | some active => exact ⟨active, rfl⟩

/-! ## What an operation leaves behind -/

/-- The plan's process is started on the runtime file of its epoch. -/
def EpochPlan.Placed (plan : EpochPlan) : Prop :=
  plan.revision.runtimePath = runtimePath plan.revision.epoch ∧
    plan.effectiveSpec.configPath = runtimePath plan.revision.epoch

/-- The bytes a plan stands for: its serialised document, under the hash of its
    revision. -/
def EpochPlan.Bytes (env : Env) (plan : EpochPlan) (contents : Bytes) : Prop :=
  env.pipeline.serialize plan.effectiveDocument = .ok contents ∧
    semanticHash contents = plan.revision.effectiveHash ∧ plan.Placed

/-- The runtime file of the plan holds its bytes. -/
def Ctx.HasFile (env : Setting) (c : Ctx) (plan : EpochPlan) : Prop :=
  ∃ contents, plan.Bytes env contents ∧ (.config plan.revision.epoch.get, contents) ∈ c.files

/-- A context with nothing in hand: the slot's file is in place, no backup waits for
    its removal, the status is settled, and the commit feed is owed nothing. -/
structure Ctx.Idle (env : Setting) (c : Ctx) : Prop where
  held : c.held = []
  owned : c.owned = []
  saved : c.saved = []
  showing : c.showing = .settled
  pledge : c.pledge = .kept
  file : ∀ active, c.ctrl.current = some active → c.HasFile env active.plan

/-- The current revision. -/
def Ctx.revision (c : Ctx) : Option ConfigRevision := c.ctrl.current.map (·.plan.revision)

/-- What was installed so far, and the spec that is retained for a restart. -/
def Ctx.trail (c : Ctx) : List ConfigRevision × Option InstanceSpec := (c.installs, c.ctrl.lastSpec)

/-- Nothing was installed or retained; what was current still is, or nothing is. -/
def Kept (c c' : Ctx) : Prop :=
  c'.trail = c.trail ∧ (c'.revision = none ∨ c'.revision = c.revision)

theorem Kept.installs {c c' : Ctx} (kept : Kept c c') : c'.installs = c.installs :=
  congrArg Prod.fst kept.1

theorem Kept.lastSpec {c c' : Ctx} (kept : Kept c c') : c'.ctrl.lastSpec = c.ctrl.lastSpec :=
  congrArg Prod.snd kept.1

/-- One revision was installed, newer than every earlier one, and it is current. -/
def Advanced (c c' : Ctx) : Prop :=
  ∃ revision, c'.installs = revision :: c.installs ∧ c'.revision = some revision ∧
    ∀ earlier ∈ c.installs, earlier.rank < revision.rank

/-- The spec and the document a plan was made of. -/
def EpochPlan.source (plan : EpochPlan) : InstanceSpec × Mapping :=
  (plan.sourceSpec, plan.sourceDocument)

/-- One newer revision was installed, and it was made of `source`. -/
def Launched (source : InstanceSpec × Mapping) (c c' : Ctx) : Prop :=
  Advanced c c' ∧ c'.ctrl.current.map (·.plan.source) = some source

/-- The revision that was current before was installed again. -/
def Restored (c c' : Ctx) : Prop :=
  ∃ revision, c'.installs = revision :: c.installs ∧ c'.revision = some revision ∧
    c.revision = some revision

/-- Nothing was launched or installed. -/
def Calm (c c' : Ctx) : Prop := Kept c c' ∧ c'.count = c.count

/-- The world after an operation that started in the context `c`. -/
def Leaves (env : Setting) (effect : Ctx → Ctx → Prop) (c : Ctx) (w : World) : Prop :=
  ∃ c', Inv env c' w ∧ c'.Idle env ∧ effect c c'

theorem Ctx.Idle.vacant {c : Ctx} (vacant : c.ctrl.current = none) (held : c.held = [])
    (owned : c.owned = []) (saved : c.saved = []) (showing : c.showing = .settled)
    (pledge : c.pledge = .kept) : c.Idle env :=
  ⟨held, owned, saved, showing, pledge, fun _ current => by simp [vacant] at current⟩

/-- With an empty slot and nothing in hand no backup is anybody's business. -/
theorem Inv.unsave (inv : Inv env c w) (vacant : c.ctrl.current = none) (owned : c.owned = []) :
    Inv env { c with saved := [] } w :=
  { inv with
    valid := { inv.valid with }
    tidy := fun _ _ epoch keeps => by
      rcases keeps with member | slot
      · simp [owned] at member
      · exact absurd slot (Ctrl.not_slotEpoch vacant epoch) }

theorem Kept.vacant {c c' : Ctx} (trail : c'.trail = c.trail)
    (vacant : c'.ctrl.current = none) : Kept c c' :=
  ⟨trail, .inl (by simp [Ctx.revision, vacant])⟩

/-- An operation that fails with nothing in hand and an empty slot publishes the
    error as its last step. -/
theorem publishTerminalError_leaves (c₀ : Ctx) (inv : Inv env c w) (error : Error)
    (vacant : c.ctrl.current = none) (held : c.held = []) (owned : c.owned = [])
    (pledge : c.pledge = .kept) (trail : c.trail = c₀.trail) :
    Ends env (publishTerminalError error) w fun _ w' => Leaves env Kept c₀ w' :=
  (publishTerminalError_ends inv vacant error).mono fun _ _ inv' =>
    ⟨_, inv'.unsave vacant owned, .vacant vacant held owned rfl rfl pledge,
      .vacant trail vacant⟩

/-- An operation that fails with an uncertain epoch and an empty slot. -/
theorem latchQuarantine_leaves (c₀ : Ctx) (inv : Inv env c w) {epoch : Epoch} {error : Error}
    (own : epoch ∈ c.owned) (vacant : c.ctrl.current = none)
    (unlisted : ¬ c.ctrl.Quarantined epoch) (mine : ∀ h ∈ c.held, h.epoch = epoch)
    (shared : ¬ Abandoned w.marks → ∀ e ∈ c.owned, e = epoch) (pledge : c.pledge = .kept)
    (trail : c.trail = c₀.trail) :
    Ends env (latchQuarantine epoch error) w fun _ w' => Leaves env Kept c₀ w' := by
  refine (latchQuarantine_ends inv own (Ctrl.not_slotEpoch vacant epoch) unlisted mine shared ?_).mono
    fun _ _ ⟨_, inv'⟩ => ⟨_, inv'.unsave vacant rfl, .vacant vacant rfl rfl rfl rfl pledge,
      .vacant trail vacant⟩
  exact fun _ current => by simp [vacant] at current

/-! ## Discarding a stale epoch -/

/-- With an empty slot the status is settled once it says so, or was marked. -/
theorem Inv.settleVacant (inv : Inv env c w) (vacant : c.ctrl.current = none)
    (stopped : NoStalePublication w.marks → w.status.state.isStopped = true) :
    Inv env { c with showing := .settled } w :=
  { inv with
    valid := { inv.valid with vacant := fun _ none => by cases none }
    shown := { inv.shown with
      settled := fun _ => ⟨fun _ free _ => stopped free, fun _ current => by simp [vacant] at current,
        fun _ current => by simp [vacant] at current⟩
      announced := fun _ none => by cases none } }

theorem Ctrl.vacated_eq {ctrl : Ctrl} (vacant : ctrl.current = none) : ctrl.vacated = ctrl := by
  cases ctrl
  cases vacant
  rfl

theorem discardStale_ends (inv : Inv env c w) (idle : c.Idle env)
    (clear : c.ctrl.quarantine = []) :
    Ends env discardStale w (Either (fun _ w' => Leaves env Kept c w')
      fun _ w' => Inv env { c with
        ctrl := c.ctrl.vacated, files := [], showing := .pending } w') := by
  have unlisted := Ctrl.not_quarantined clear
  have inv := inv.unpin [] (by simp)
  cases slot : c.ctrl.current with
  | none =>
      refine (retireCurrent_vacant inv slot).bind_either (fun _ _ none => none.elim)
        fun old w₁ ⟨isNone, inv₁⟩ => ?_
      subst isNone
      have forgotten := inv₁.forget
      rw [Ctrl.vacated_eq slot]
      exact forgotten
  | some active =>
      refine (retireCurrent_ends inv slot).bind_either
        (fun failure w₁ ⟨epochs, unconfirmed, inv₁⟩ => ?_) fun old w₁ ⟨isPlan, inv₁⟩ => ?_
      · simp only [unconfirmed, if_true]
        rw [epochs]
        refine (latchQuarantine_leaves c inv₁ List.mem_cons_self rfl (unlisted _) ?_ ?_ idle.pledge
          rfl).bind fun _ _ leaves => leaves
        · simp [Ctx.retiring, idle.held]
        · simp [Ctx.retiring, idle.owned]
      · subst isPlan
        refine (cleanupEpoch_ends inv₁ [] (by simp [Ctx.retiring, idle.owned])
          (by simp [Ctx.retiring, idle.held]) (Ctrl.not_slotEpoch rfl _) (unlisted _)
          (by simp [Ctx.retiring])).bind fun cleaned w₂ inv₂ => ?_
        cases cleaned with
        | ok _ =>
            rw [idle.owned]
            exact inv₂
        | error error =>
            refine bind_mark ?_
            refine ⟨_, (inv₂.markIf .stopUnpublished _).settleVacant rfl (fun free => ?_),
              .vacant rfl idle.held rfl idle.saved rfl idle.pledge, .vacant rfl rfl⟩
            -- the mark is absent only if the stop is what the status says
            rw [World.markIf_status]
            by_contra running
            exact free.2.1 (World.mem_markIf_self (by simpa using running))

/-! ## The rest of the control block -/

/-- The retained spec does not matter, and host DNS only to its life. -/
theorem Inv.withCtrl (inv : Inv env c w) (ctrl : Ctrl) (epochs : ctrl.epochs = c.ctrl.epochs)
    (current : ctrl.current = c.ctrl.current) (quarantine : ctrl.quarantine = c.ctrl.quarantine)
    {file : RecordFile} {calls : List DnsCall}
    (dns : Dns.Lived env file ctrl.dnsRecord calls) :
    Inv env { c with ctrl := ctrl }
      { w with ctrl := ctrl, dnsFile := file, dnsCalls := calls } := by
  obtain ⟨_, _, _, _, _⟩ := ctrl
  cases epochs
  cases current
  cases quarantine
  exact { inv with
    ctrl := rfl
    dns := dns
    valid := { inv.valid with }
    processes := { inv.processes with }
    files := { inv.files with }
    shown := { inv.shown with settled := fun showing => { inv.shown.settled showing with } } }

end Nyanpasu
