import Nyanpasu.Invariant.Slot

/-! # Preparing, starting and the hard switch

Every way a start or a hard switch ends, in terms of what it leaves behind: a
failure leaves the old revision current or nothing, a success leaves a newer one.
-/

namespace Nyanpasu

open Naming Store Program

variable {env : Setting} {c : Ctx} {w : World}

/-! ## Preparation -/

/-- The bytes are the serialised document and the hash is theirs. -/
def PreparedConfig.Serialised (env : Env) (prepared : PreparedConfig) : Prop :=
  env.pipeline.serialize prepared.document = .ok prepared.bytes ∧
    semanticHash prepared.bytes = prepared.effectiveHash

section

variable {snapshot : ConfigSnapshot} {epoch : Epoch} {runtime : List RuntimeFeature}
  {settings : LocalIpcSettings} {zeroInbounds : Bool} {prepared : PreparedConfig}
  (done : prepareConfig env snapshot epoch runtime settings zeroInbounds = .ok prepared)

include done

theorem prepareConfig_serialised : prepared.Serialised env := by
  unfold prepareConfig at done
  split at done
  · cases done
  · rename_i document controller _
    cases bytes : env.pipeline.serialize document with
    | error failure => simp [bytes] at done
    | ok contents =>
        simp only [bytes] at done
        cases done
        exact ⟨bytes, rfl⟩

/-- The document is what the pipeline makes of a source for the epoch. -/
def PreparedConfig.Built (env : Env) (prepared : PreparedConfig) (epoch : Epoch)
    (zeroInbounds : Bool) : Prop :=
  ∃ source runtime settings,
    env.pipeline.effective source epoch runtime settings zeroInbounds =
      .ok (prepared.document, prepared.controller)

theorem prepareConfig_built : prepared.Built env epoch zeroInbounds := by
  unfold prepareConfig at done
  split at done
  · cases done
  · rename_i built
    split at done
    · cases done
    · cases done
      exact ⟨_, _, _, built⟩

end

/-- The first document of a plan, and every later one, is a full one. -/
theorem PreparedConfig.full {epoch : Epoch} {prepared : PreparedConfig}
    (serialised : prepared.Serialised env) (built : prepared.Built env epoch false)
    (spec : InstanceSpec) (snapshot : ConfigSnapshot) (resolved : ResolvedFeatures)
    (generation : Nat) (path : FileName) :
    env.Full (makePlan spec snapshot resolved prepared epoch generation path).configuration := by
  obtain ⟨source, runtime, settings, effective⟩ := built
  exact ⟨⟨source, runtime, settings, prepared.controller, effective⟩, prepared.bytes, serialised⟩

theorem prepare_ends (inv : Inv env c w) (snapshot : ConfigSnapshot) (spec : InstanceSpec)
    (epoch : Epoch) (resolved : ResolvedFeatures) (zeroInbounds : Bool) :
    Ends env (prepare snapshot spec epoch resolved zeroInbounds) w (Either
      (fun _ w' => Inv env c w')
      fun prepared w' => prepared.Serialised env ∧ prepared.Built env epoch zeroInbounds ∧
        Inv env c w') := by
  refine (inv.ends_ask _).mono ?_
  rintro (error | prepared) w' ⟨inv', _, answer⟩
  · exact inv'
  · exact ⟨prepareConfig_serialised answer.symm, prepareConfig_built answer.symm, inv'⟩

/-- An answer from outside changes nothing. -/
theorem Inv.ends_answer {α : Type} (inv : Inv env c w) (answer : Env → Nat → Except Error α) :
    Ends env (ask answer) w (Either (fun _ w' => Inv env c w') fun _ w' => Inv env c w') := by
  refine (inv.ends_ask answer).mono ?_
  rintro (error | a) w' ⟨inv', _⟩ <;> exact inv'

section

variable (inv : Inv env c w) {epoch : Epoch} (keeps : Keeps c.ctrl c.owned epoch)
  (spec : InstanceSpec)

include inv keeps spec

theorem stageChecked_ends (contents : Bytes) :
    Ends env (stageChecked spec epoch contents) w (Either (fun _ w' => Inv env c w')
      fun staged w' => ∃ artifact, StagedAs staged epoch artifact ∧
        (∀ file ∈ c.files, file.1 ≠ artifact) ∧
        Inv env { c with files := (artifact, contents) :: c.files } w') := by
  refine (stage_ends inv keeps contents).bind_either (fun _ _ inv₁ => inv₁)
    fun staged w₁ ⟨artifact, named, unpinned, inv₁⟩ => ?_
  refine (inv₁.ends_answer _).bind_either (fun error w₂ inv₂ => ?_) fun _ w₂ inv₂ => ?_
  · exact (dropStaged_unpins inv₂ rfl named unpinned).bind fun _ _ inv₃ => inv₃
  · exact ⟨artifact, named, unpinned, inv₂⟩

/-- A plan for the first generation of an epoch, with its file in place. -/
def Planned (env : Setting) (c : Ctx) (epoch : Epoch) (source : InstanceSpec × Mapping)
    (plan : EpochPlan) (w : World) : Prop :=
  plan.revision.epoch = epoch ∧ plan.source = source ∧ env.Full plan.configuration ∧
    ∃ contents, plan.Bytes env contents ∧
      Inv env { c with files := (.config epoch.get, contents) :: c.files } w

theorem prepareLaunchWithFeatures_ends (snapshot : ConfigSnapshot) (resolved : ResolvedFeatures) :
    Ends env (prepareLaunchWithFeatures spec epoch snapshot resolved) w
      (Either (fun _ w' => Inv env c w')
        fun plan w' => Planned env c epoch (spec, snapshot.document) plan w') := by
  refine (prepare_ends inv _ _ _ _ _).bind_either (fun _ _ inv₁ => inv₁)
    fun prepared w₁ ⟨serialised, built, inv₁⟩ => ?_
  refine (stageChecked_ends inv₁ keeps spec prepared.bytes).bind_either (fun _ _ inv₂ => inv₂)
    fun staged w₂ ⟨artifact, named, unpinned, inv₂⟩ => ?_
  refine (commitNew_ends inv₂ rfl named keeps unpinned).bind_either (fun _ _ inv₃ => inv₃)
    fun path w₃ ⟨isPath, _, inv₃⟩ => ?_
  exact ⟨rfl, rfl, PreparedConfig.full serialised built _ _ _ _ _, prepared.bytes,
    ⟨serialised.1, serialised.2, isPath, isPath⟩, inv₃⟩

theorem prepareLaunch_ends (snapshot : ConfigSnapshot) :
    Ends env (prepareLaunch spec epoch snapshot) w
      (Either (fun _ w' => Inv env c w')
        fun plan w' => Planned env c epoch (spec, snapshot.document) plan w') := by
  refine (inv.ends_answer _).bind_either (fun _ _ inv₁ => inv₁) fun _ w₁ inv₁ => ?_
  refine (inv₁.ends_answer _).bind_either (fun _ _ inv₂ => inv₂) fun resolved w₂ inv₂ => ?_
  exact prepareLaunchWithFeatures_ends inv₂ keeps spec snapshot resolved

end

variable {effect : Ctx → Ctx → Prop}

/-! ## Starting -/

/-- What an operation leaves is judged from where it started, even if it emptied
    the slot on the way. -/
theorem Leaves.rebase (leaves : Leaves env effect c w) (c₀ : Ctx)
    (carries : ∀ c', effect c c' → effect c₀ c') : Leaves env effect c₀ w := by
  obtain ⟨c', inv, idle, holds⟩ := leaves
  exact ⟨c', inv, idle, carries c' holds⟩

theorem Leaves.mono {effect' : Ctx → Ctx → Prop} (leaves : Leaves env effect c w)
    (weaken : ∀ c', effect c c' → effect' c c') : Leaves env effect' c w := by
  obtain ⟨c', inv, idle, holds⟩ := leaves
  exact ⟨c', inv, idle, weaken c' holds⟩

variable {c' : Ctx}

theorem Kept.rebase {c₀ : Ctx} (kept : Kept c c') (trail : c.trail = c₀.trail)
    (revision : c.revision = none ∨ c.revision = c₀.revision) : Kept c₀ c' := by
  refine ⟨kept.1.trans trail, ?_⟩
  rcases kept.2 with none | same
  · exact .inl none
  · rw [same]
    exact revision

theorem Advanced.rebase {c₀ : Ctx} (advanced : Advanced c c') (installs : c.installs = c₀.installs)
    : Advanced c₀ c' := by
  unfold Advanced at advanced ⊢
  rwa [installs] at advanced

theorem Launched.rebase {c₀ : Ctx} {source : InstanceSpec × Mapping}
    (launched : Launched source c c') (installs : c.installs = c₀.installs) :
    Launched source c₀ c' :=
  launched.imp (·.rebase installs) id

/-- Cleanup of the one epoch an operation still answers for, with an empty slot. -/
theorem cleanupLast_ends (inv : Inv env c w) {epoch : Epoch} (held : c.held = [])
    (owned : c.owned = [epoch]) (vacant : c.ctrl.current = none)
    (clear : c.ctrl.quarantine = []) :
    Ends env (cleanupEpoch epoch) w fun _ w' =>
      Inv env { c with owned := [], files := [] } w' :=
  cleanupEpoch_ends (inv.unpin [] (by simp)) [] (by simp [owned]) (by simp [held])
    (Ctrl.not_slotEpoch vacant _) (Ctrl.not_quarantined clear _) (by simp)

theorem pidOrDefault_ends (inv : Inv env c w) (p : Nat) :
    Ends env (pidOrDefault p) w fun _ w' => Inv env c w' :=
  (inv.ends_observe _).mono fun _ _ observed => observed.1

/-- The slot is empty, nothing is quarantined, and the epoch of `plan` is all the
    operation has: its file is written and its revision is the newest. -/
structure Launching (env : Setting) (c : Ctx) (plan : EpochPlan) : Prop where
  held : c.held = []
  owned : c.owned = [plan.revision.epoch]
  saved : c.saved = []
  vacant : c.ctrl.current = none
  clear : c.ctrl.quarantine = []
  file : c.HasFile env plan
  full : env.Full plan.configuration
  pledge : c.pledge = .kept
  newer : ∀ earlier ∈ c.installs, earlier.rank < plan.revision.rank

variable {plan : EpochPlan}

/-- The ready process is announced and enters the slot. -/
theorem announceInstall_ends (h : Held) (rest : List Epoch) {β : Type} {next : Manager β}
    {post : β → World → Prop} (inv : Inv env c w) (holds : c.held = [h])
    (vacant : c.ctrl.current = none) (serving : h.serving = true) (ready : h.ready = true)
    (own : h.epoch = plan.revision.epoch) (unlisted : ¬ c.ctrl.Quarantined plan.revision.epoch)
    (newer : ∀ revision ∈ c.installs, revision.rank < plan.revision.rank)
    (owned : c.owned.Perm (plan.revision.epoch :: rest)) (full : env.Full plan.configuration)
    (kept : c.pledge = .kept)
    (then_ : ∀ w', Inv env { c with ctrl := c.ctrl.installing h.proc plan, installs := plan.revision :: c.installs, adopted := plan.configuration :: c.adopted, held := [], owned := rest, showing := .settled, pledge := .kept } w' → Ends env next w' post) :
    Ends env (do
      let pid ← pidOrDefault h.proc
      publishInstance h.proc (.running plan.revision.epoch pid) plan
      let _ ← install h.proc plan
      next) w post := by
  have fits := inv.valid.fits_newer newer
  refine (pidOrDefault_ends inv h.proc).bind fun pid w₁ inv₁ => ?_
  obtain ⟨inside, epoch, isServing, _⟩ := inv₁.processes.held h (holds ▸ List.mem_cons_self)
  refine (publishInstance_announces inv₁ inside (epoch.trans own) (isServing serving) vacant kept
    fits pid).bind fun _ w₂ inv₂ => ?_
  refine (install_ends inv₂ holds vacant serving ready own unlisted
    (fun revision member => (newer revision member).le) owned ⟨full, fits⟩ (.inr ⟨rfl, rfl⟩)
    (.inr ⟨rfl, rfl⟩)).bind fun _ w₃ ⟨_, inv₃⟩ => then_ w₃ inv₃

theorem startPrepared_ends (inv : Inv env c w) (ready : Launching env c plan) :
    Ends env (startPrepared plan) w (Either (fun _ w' => Leaves env Kept c w')
      fun _ w' => Leaves env (Launched plan.source) c w') := by
  obtain ⟨held, owned, saved, vacant, clear, file, full, pledge, newer⟩ := ready
  have keeps : Keeps c.ctrl c.owned plan.revision.epoch := .inl (by simp [owned])
  have unlisted := Ctrl.not_quarantined clear plan.revision.epoch
  refine (publish_ends inv _ (by simp)).bind fun _ w₁ inv₁ => ?_
  refine (spawnInstance_ends inv₁ keeps unlisted).bind_either (fun error w₂ ⟨_, inv₂⟩ => ?_)
    fun p w₂ ⟨isCount, inv₂⟩ => ?_
  · refine (cleanupLast_ends inv₂ held owned vacant clear).bind fun _ w₃ inv₃ => ?_
    exact (publishTerminalError_leaves c inv₃ error vacant held rfl pledge rfl).bind
      fun _ _ leaves => leaves
  subst isCount
  refine (waitReady_ends inv₂ rfl).bind_either (fun readinessError w₃ ⟨_, inv₃⟩ => ?_)
    fun _ w₃ inv₃ => ?_
  · refine (stopAndConfirmDead_ends inv₃ rfl).bind_either
      (fun stopError w₄ ⟨_, inv₄⟩ => ?_) fun _ w₄ inv₄ => ?_
    · refine (latchQuarantine_leaves c inv₄ ?_ vacant unlisted ?_ ?_ pledge rfl).bind
        fun _ _ leaves => leaves
      · simp [owned]
      · simp [held]
      · simp [owned]
    · refine (cleanupLast_ends inv₄ held owned vacant clear).bind fun _ w₅ inv₅ => ?_
      exact (publishTerminalError_leaves c inv₅ readinessError vacant held rfl pledge rfl).bind
        fun _ _ leaves => leaves
  · refine announceInstall_ends ⟨c.count, plan.revision.epoch, true, true⟩ [] inv₃ (by simp [held])
      vacant rfl rfl rfl unlisted newer (by simp [owned]) full pledge fun w₄ inv₄ => ?_
    refine ⟨_, inv₄, ⟨rfl, rfl, saved, rfl, rfl, fun active current => ?_⟩,
      ⟨plan.revision, rfl, rfl, newer⟩, rfl⟩
    cases current
    exact file

theorem ConfigRevision.rank_lt_of_epoch {earlier later : ConfigRevision}
    (older : earlier.epoch.get < later.epoch.get) : earlier.rank < later.rank :=
  Prod.Lex.toLex_lt_toLex.mpr (.inl older)

/-- The first generation of a fresh epoch is newer than everything installed. -/
theorem Fresh.newer {epoch : Epoch} (fresh : Fresh c epoch) (inv : Inv env c w)
    (own : plan.revision.epoch = epoch) :
    ∀ earlier ∈ c.installs, earlier.rank < plan.revision.rank := by
  intro earlier member
  refine ConfigRevision.rank_lt_of_epoch ?_
  rw [own]
  have issued := inv.valid.installed earlier member
  have next := fresh.next
  omega

/-- The document is what is read at the path at some time. -/
def Env.Reads (env : Env) (path : FileName) (document : Mapping) : Prop :=
  ∃ k, env.document path k = .ok document

theorem loadSnapshot_ends (env : Setting) (w : World) (path : FileName) :
    Ends env (loadSnapshot path) w (Either (fun _ w' => w' = w.tick env)
      fun snapshot w' => w' = w.tick env ∧ env.Reads path snapshot.document) := by
  unfold loadSnapshot ask
  refine ends_atomic ?_
  dsimp only
  cases read : env.document path w.clock with
  | error failure => exact rfl
  | ok document =>
      dsimp only
      cases env.pipeline.serialize document with
      | error failure => exact rfl
      | ok canonical => exact ⟨rfl, w.clock, read⟩

/-- One newer revision was installed, made of what is read at the path of the spec. -/
def LaunchedFrom (env : Env) (spec : InstanceSpec) (c c' : Ctx) : Prop :=
  ∃ document, env.Reads spec.configPath document ∧ Launched (spec, document) c c'

theorem LaunchedFrom.advanced {spec : InstanceSpec} (launched : LaunchedFrom env spec c c')
    : Advanced c c' := by
  obtain ⟨_, _, advanced, _⟩ := launched
  exact advanced

theorem LaunchedFrom.rebase {spec : InstanceSpec} {c₀ : Ctx} (launched : LaunchedFrom env spec c c')
    (installs : c.installs = c₀.installs) : LaunchedFrom env spec c₀ c' :=
  launched.imp fun _ read => read.imp id (·.rebase installs)

theorem startLocked_ends (inv : Inv env c w) (held : c.held = []) (owned : c.owned = [])
    (saved : c.saved = []) (vacant : c.ctrl.current = none) (clear : c.ctrl.quarantine = [])
    (pledge : c.pledge = .kept) (spec : InstanceSpec) :
    Ends env (startLocked spec) w (Either (fun _ w' => Leaves env Kept c w')
      fun _ w' => Leaves env (LaunchedFrom env spec) c w') := by
  refine (allocateEpoch_ends inv).bind fun epoch w₁ ⟨fresh, unnamed, inv₁⟩ => ?_
  refine (loadSnapshot_ends env w₁ spec.configPath).bind_either (fun error w₂ isNext => ?_)
    fun snapshot w₂ ⟨isNext, reads⟩ => ?_
  · subst isNext
    exact (publishTerminalError_leaves c inv₁.tick error vacant held owned pledge rfl).bind
      fun _ _ leaves => leaves
  subst isNext
  have inv₂ := inv₁.tick.own epoch le_rfl fun _ generation =>
    (World.tick_get env w₁ (.backup epoch.get generation) rfl).trans (unnamed _ rfl)
  refine (prepareLaunch_ends inv₂ (.inl List.mem_cons_self) spec snapshot).bind_either
    (fun error w₃ inv₃ => ?_) fun plan w₃ ⟨own, made, full, contents, bytes, inv₃⟩ => ?_
  · refine (cleanupLast_ends inv₃ held (by simp [owned]) vacant clear).bind fun _ w₄ inv₄ => ?_
    exact (publishTerminalError_leaves c inv₄ error vacant held rfl pledge rfl).bind
      fun _ _ leaves => leaves
  · refine (startPrepared_ends inv₃ ⟨held, by simp [owned, own], saved, vacant, clear,
      ⟨contents, bytes, by simp [own]⟩, full, pledge, fresh.newer inv own⟩).mono_either
      (fun _ _ leaves => leaves.rebase c fun c' kept => kept.rebase rfl (.inr rfl))
      fun _ _ leaves => ?_
    rw [made] at leaves
    exact (leaves.rebase c fun c' launched => launched.rebase rfl).mono
      fun c' launched => ⟨_, reads, launched⟩

/-! ## Retreating to the retained slot -/

/-- Nothing but newer revisions was installed. -/
def Forward (c c' : Ctx) : Prop := Kept c c' ∨ Advanced c c'

theorem Leaves.forward (leaves : Leaves env Kept c w) : Leaves env Forward c w :=
  leaves.mono fun _ => .inl

/-- The context of an operation beside the slot it started with: it has allocated
    `epoch`, and keeps everything the start relied on. -/
structure Beside (c₀ c : Ctx) (epoch : Epoch) : Prop where
  fresh : Fresh c₀ epoch
  ctrl : c.ctrl = c₀.ctrl.allocating epoch
  installs : c.installs = c₀.installs
  owned : c.owned = [epoch]
  saved : c.saved = []
  pledge : c.pledge = .kept
  files : ∀ file ∈ c₀.files, file ∈ c.files

section

variable {c₀ : Ctx} {epoch : Epoch} {active : Active}

theorem Fresh.not_slotEpoch (fresh : Fresh c₀ epoch) : ¬ c₀.ctrl.SlotEpoch epoch :=
  fun slot => fresh.unkept (.inr (.inl slot))

theorem Fresh.not_quarantined (fresh : Fresh c₀ epoch) : ¬ c₀.ctrl.Quarantined epoch :=
  fun listed => fresh.unkept (.inr (.inr listed))

theorem Fresh.slot_ne (fresh : Fresh c₀ epoch) (current : c₀.ctrl.current = some active) :
    active.plan.revision.epoch ≠ epoch :=
  fun same => fresh.not_slotEpoch ⟨active, current, same⟩

theorem Beside.trail (beside : Beside c₀ c epoch) : c.trail = c₀.trail := by
  rw [Ctx.trail, beside.installs, beside.ctrl]
  rfl

theorem Beside.cleanup_ends (beside : Beside c₀ c epoch) (inv : Inv env c w)
    (held : c.held = []) :
    Ends env (cleanupEpoch epoch) w fun _ w' =>
      Inv env { c with owned := [], files := c₀.files } w' := by
  refine cleanupEpoch_ends (inv.unpin c₀.files beside.files) [] (by simp [beside.owned])
    (by simp [held]) ?_ ?_ beside.fresh.unpinned
  · show ¬ c.ctrl.SlotEpoch epoch
    rw [beside.ctrl]
    exact beside.fresh.not_slotEpoch
  · show ¬ c.ctrl.Quarantined epoch
    rw [beside.ctrl]
    exact beside.fresh.not_quarantined

/-- A switch that fails before it touches the slot cleans up its own epoch and
    shows the retained instance again. -/
theorem retreat_ends {α : Type} {done : α → World → Prop} (inv : Inv env c w)
    (beside : Beside c₀ c epoch) (held : c.held = []) (idle : c₀.Idle env)
    (current : c₀.ctrl.current = some active) (error : Error) :
    Ends env (do
      let _ ← cleanupEpoch epoch
      republishRetained
      return .error error) w (Either (fun _ w' => Leaves env Kept c₀ w') done) := by
  refine (beside.cleanup_ends inv held).bind fun _ w₁ inv₁ => ?_
  have slot : c.ctrl.current = some active := by rw [beside.ctrl]; exact current
  refine (republishRetained_ends inv₁ slot beside.pledge).bind fun _ w₂ inv₂ => ?_
  refine ⟨_, inv₂, ⟨held, rfl, beside.saved, rfl, rfl, fun other isSlot => ?_⟩,
    beside.trail, .inr ?_⟩
  · exact idle.file other (current.trans (slot.symm.trans isSlot))
  · rw [Ctx.revision, Ctx.revision, slot, current]

/-! ## The hard switch -/

theorem hardSwitch_ends (inv : Inv env c w) (idle : c.Idle env)
    (current : c.ctrl.current = some active) (clear : c.ctrl.quarantine = [])
    (spec : InstanceSpec) (snapshot : ConfigSnapshot) (resolved : ResolvedFeatures) :
    Ends env (hardSwitch spec snapshot resolved) w (Either (fun _ w' => Leaves env Kept c w')
      fun _ w' => Leaves env (Launched (spec, snapshot.document)) c w') := by
  refine (allocateEpoch_ends inv).bind fun epoch w₁ ⟨fresh, unnamed, inv₁⟩ => ?_
  have inv₁ := inv₁.own epoch le_rfl fun _ _ => unnamed _ rfl
  have unlisted := Ctrl.not_quarantined clear
  have differs := fresh.slot_ne current
  refine (prepareLaunchWithFeatures_ends inv₁ (.inl List.mem_cons_self) spec snapshot
    resolved).bind_either (fun error w₂ inv₂ => ?_)
    fun plan w₂ ⟨own, made, full, contents, bytes, inv₂⟩ => ?_
  · exact retreat_ends inv₂ ⟨fresh, rfl, rfl, by simp [idle.owned], idle.saved, idle.pledge, fun _ => id⟩
      idle.held idle current error
  refine inv₂.bind_getCtrl ((publish_ends inv₂ _ (by simp)).bind fun _ w₃ inv₃ => ?_)
  refine (retireCurrent_ends inv₃ current).bind_either
    (fun failure w₄ ⟨epochs, unconfirmed, inv₄⟩ => ?_) fun old w₄ ⟨isPlan, inv₄⟩ => ?_
  · have fewer := inv₄.unpin c.files fun _ => List.mem_cons_of_mem _
    refine (cleanupEpoch_ends fewer [active.plan.revision.epoch] ?_ ?_ (Ctrl.not_slotEpoch rfl _)
      (unlisted _) fresh.unpinned).bind fun _ w₅ inv₅ => ?_
    · simpa [Ctx.retiring, idle.owned] using List.Perm.swap _ _ _
    · simpa [Ctx.retiring, idle.held] using differs
    simp only [unconfirmed, if_true]
    rw [epochs]
    refine (latchQuarantine_leaves c inv₅ (by simp) rfl (unlisted _) ?_ (by simp) idle.pledge
      rfl).bind fun _ _ leaves => leaves
    simp [Ctx.retiring, idle.held]
  subst isPlan
  have fewer := inv₄.unpin [(.config epoch.get, contents)] (by simp [Ctx.retiring])
  refine (cleanupEpoch_ends fewer [epoch] ?_ ?_ (Ctrl.not_slotEpoch rfl _) (unlisted _) ?_).bind
    fun cleaned w₅ inv₅ => ?_
  · simp [Ctx.retiring, idle.owned]
  · simp [Ctx.retiring, idle.held]
  · simpa [Artifact.epoch] using fun same => differs (Epoch.get_inj.mp same).symm
  cases cleaned with
  | error error =>
      refine bind_mark ?_
      have abandoned := (inv₅.mark (.abandoned .hardSwitchCleanup)).abandon [] ⟨_, List.mem_cons_self⟩
        (by simp) (by simp [Ctx.retiring, idle.held])
      exact (publishTerminalError_leaves c abandoned error rfl idle.held rfl idle.pledge rfl).bind
        fun _ _ leaves => leaves
  | ok _ =>
      rw [← made]
      refine (startPrepared_ends inv₅ ⟨idle.held, by rw [own], idle.saved, rfl, clear,
        ⟨contents, bytes, by simp [own]⟩, full, idle.pledge, fresh.newer inv own⟩).mono_either
        (fun _ _ leaves => leaves.rebase c fun c' kept => kept.rebase rfl (.inl rfl))
        fun _ _ leaves => leaves.rebase c fun c' launched => launched.rebase rfl

end

end Nyanpasu
