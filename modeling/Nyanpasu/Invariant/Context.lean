import Nyanpasu.Invariant.Monitor
import Nyanpasu.Announcement
import Nyanpasu.Dns.Sync
import Mathlib.Data.Prod.Lex

/-! # The invariant of the orchestrator

At every point of an operation a context says what the operation has in hand:
the control block it works on, the processes it launched and must account for,
the epochs whose files it must give to somebody, the file contents it relies on,
the backups it has to remove, what the published status may say, and what it owes
the commit feed.  `Inv` ties a context to a world.  Its parts speak about one
component of the world each, so that a step which leaves a component alone keeps
that part by definition.

The environment's moves keep the invariant with the same context; this is what
makes it usable between the atomic steps of an operation.
-/

namespace Nyanpasu

open Naming

/-- Revisions are ordered by epoch, then by generation. -/
def ConfigRevision.rank (revision : ConfigRevision) : ℕ ×ₗ ℕ :=
  toLex (revision.epoch.get, revision.generation)

/-- A process an operation holds.  It is `serving` until its stop begins, and
    `ready` once it was seen running. -/
structure Held where
  proc : Nat
  epoch : Epoch
  serving : Bool
  ready : Bool

/-- What the published status is known to say: nothing, what the slot calls for,
    or the running epoch that is about to enter the empty slot. -/
inductive Showing where
  | pending
  | settled
  | announced (epoch : Epoch)
  deriving DecidableEq

structure Ctx where
  ctrl : Ctrl
  count : Nat
  installs : List ConfigRevision
  adopted : List Configuration
  held : List Held
  owned : List Epoch
  files : List (Artifact × Bytes)
  saved : List Artifact
  showing : Showing
  pledge : Pledge Configuration

/-- The epoch whose revision is current. -/
def Ctrl.SlotEpoch (ctrl : Ctrl) (epoch : Epoch) : Prop :=
  ∃ active, ctrl.current = some active ∧ active.plan.revision.epoch = epoch

def Ctrl.Quarantined (ctrl : Ctrl) (epoch : Epoch) : Prop :=
  ∃ entry ∈ ctrl.quarantine, entry.epoch = epoch

theorem Ctrl.not_slotEpoch {ctrl : Ctrl} (vacant : ctrl.current = none) (epoch : Epoch) :
    ¬ ctrl.SlotEpoch epoch := by
  rintro ⟨active, current, _⟩
  simp [vacant] at current

theorem Ctrl.not_quarantined {ctrl : Ctrl} (clear : ctrl.quarantine = []) (epoch : Epoch) :
    ¬ ctrl.Quarantined epoch := by
  rintro ⟨entry, member, _⟩
  simp [clear] at member

/-- Somebody answers for the files of the epoch. -/
def Keeps (ctrl : Ctrl) (owned : List Epoch) (epoch : Epoch) : Prop :=
  epoch ∈ owned ∨ ctrl.SlotEpoch epoch ∨ ctrl.Quarantined epoch

/-- The part of the invariant that speaks about the context alone. -/
structure Ctx.Valid (c : Ctx) : Prop where
  slotFree : ∀ epoch, c.ctrl.SlotEpoch epoch → ¬ c.ctrl.Quarantined epoch
  distinct : (c.ctrl.quarantine.map (·.epoch)).Nodup
  issued : ∀ epoch, Keeps c.ctrl c.owned epoch → epoch.get ≤ c.ctrl.epochs.last
  installed : ∀ revision ∈ c.installs, revision.epoch.get ≤ c.ctrl.epochs.last
  newest : ∀ active, c.ctrl.current = some active →
    ∀ revision ∈ c.installs, revision.rank ≤ active.plan.revision.rank
  covered : ∀ held ∈ c.held, Keeps c.ctrl c.owned held.epoch
  recorded : ∀ active, c.ctrl.current = some active → active.plan.revision ∈ c.installs
  matched : c.adopted.map Prod.fst = c.installs
  apart : ∀ held ∈ c.held, ∀ active, c.ctrl.current = some active → active.proc ≠ held.proc
  nodup : (c.held.map (·.proc)).Nodup
  managed : ∀ file ∈ c.files, file.1.managed = true
  vacant : ∀ epoch, c.showing = .announced epoch → c.ctrl.current = none

/-! ## Processes -/

/-- The forwarder lags behind its instance by what it still has to take; the
    value in its hand is one the instance showed. -/
structure Forwarding (i : Instance) (f : Forwarder) : Prop where
  seen : f.seen ≤ i.version
  shown : ∀ held, f.holding = some held → i.Vouches held
  newest : ∀ held, f.holding = some held → f.seen = i.version → held = i.status
  ending : ∀ held, f.holding = some held → held.state.isTerminal = true →
    i.status.state.isTerminal = true ∧ f.seen = i.version
  finished : f.finished = true →
    i.status.state.isTerminal = true ∧ f.seen = i.version ∧ f.holding = none

/-- Every process that is not proven dead is held by the operation, sits in the
    slot, or belongs to a quarantined epoch; and the slot alone has a forwarder. -/
structure Processes (ctrl : Ctrl) (count : Nat) (holds : List Held) (procs : Nat → Instance) :
    Prop where
  tracked : ∀ p < count, (procs p).provenDead = false →
    (∃ held ∈ holds, held.proc = p) ∨ (∃ active, ctrl.current = some active ∧ active.proc = p) ∨
      ctrl.Quarantined (procs p).epoch
  buried : ∀ entry ∈ ctrl.quarantine, entry.deathProven = true →
    ∀ p < count, (procs p).epoch = entry.epoch → (procs p).provenDead = true
  held : ∀ held ∈ holds, held.proc < count ∧ (procs held.proc).epoch = held.epoch ∧
    (held.serving = true → (procs held.proc).userStop = false) ∧
    (held.ready = true → 0 < (procs held.proc).version)
  slot : ∀ active, ctrl.current = some active → active.proc < count ∧
    (procs active.proc).epoch = active.plan.revision.epoch ∧
    (procs active.proc).userStop = false
  silent : ∀ p, (procs p).forwarder ≠ none →
    ∃ active, ctrl.current = some active ∧ active.proc = p
  issued : ∀ p < count, (procs p).epoch.get ≤ ctrl.epochs.last
  sound : ∀ p, (procs p).Sound
  forwarding : ∀ p f, (procs p).forwarder = some f → Forwarding (procs p) f
  forwarded : ∀ active, ctrl.current = some active → (procs active.proc).forwarder ≠ none

/-! ## Files -/

def Abandoned (marks : List Mark) : Prop := ∃ place, .abandoned place ∈ marks

structure Files (env : Env) (ctrl : Ctrl) (owned : List Epoch) (files : List (Artifact × Bytes))
    (dir : Dir) (marks : List Mark) : Prop where
  pinned : ∀ file ∈ files, dir.get file.1.name = some file.2
  issued : ∀ artifact : Artifact, artifact.epoch < 2 ^ 64 → (dir.get artifact.name).isSome →
    artifact.epoch ≤ ctrl.epochs.last
  owned : env.RemovalsSucceed → ¬ Abandoned marks →
    ∀ artifact : Artifact, artifact.epoch < 2 ^ 64 → (dir.get artifact.name).isSome →
      ∃ epoch, artifact.epoch = epoch.get ∧ Keeps ctrl owned epoch

/-- What has to be removed again once the artifact is written. -/
def Naming.Artifact.saves : Artifact → List Artifact
  | .backup n generation => [.backup n generation]
  | _ => []

/-- The backups of an epoch that is current or in hand are those the operation will
    remove. -/
def Tidy (env : Env) (ctrl : Ctrl) (owned : List Epoch) (saved : List Artifact) (dir : Dir)
    (marks : List Mark) : Prop :=
  env.RemovalsSucceed → .unsyncedBackup ∉ marks →
    ∀ epoch, epoch ∈ owned ∨ ctrl.SlotEpoch epoch → ¬ ctrl.Quarantined epoch →
      ∀ generation, (dir.get (Artifact.backup epoch.get generation).name).isSome →
        .backup epoch.get generation ∈ saved

/-- Epochs were handed out in increasing order above the seed, each to a directory
    without a file of it. -/
structure Issued (seed last : Nat) (allocated : List (Epoch × Dir)) : Prop where
  increasing : (allocated.map (·.1.get)).Pairwise (· > ·)
  seeded : seed ≤ last ∧ ∀ entry ∈ allocated, seed < entry.1.get
  issued : ∀ entry ∈ allocated, entry.1.get ≤ last
  fresh : ∀ entry ∈ allocated, ∀ artifact : Artifact, artifact.epoch = entry.1.get →
    entry.2.get artifact.name = none

/-! ## The published status -/

/-- The forwarder has taken and published everything its instance showed. -/
def CaughtUp (i : Instance) : Prop :=
  ∃ f, i.forwarder = some f ∧ f.holding = none ∧ f.seen = i.version

/-- No operation published the stop beside a live slot. -/
def NoStopBesideLive (marks : List Mark) : Prop :=
  .quarantinedBesideLive ∉ marks ∧ .recoveredBesideSlot true ∉ marks

/-- No operation published over a forwarder that had nothing left to say. -/
def NoStalePublication (marks : List Mark) : Prop :=
  .staleState ∉ marks ∧ .stopUnpublished ∉ marks ∧ .recoveredBesideSlot false ∉ marks

/-- The status says what the slot calls for. -/
structure Settled (ctrl : Ctrl) (procs : Nat → Instance) (status : CoreStatus)
    (marks : List Mark) : Prop where
  vacant : ctrl.current = none → NoStalePublication marks → ctrl.quarantine = [] →
    status.state.isStopped = true
  live : ∀ active, ctrl.current = some active → NoStopBesideLive marks →
    (procs active.proc).status.state.isTerminal = false →
    status.revision.map (·.epoch) = some active.plan.revision.epoch ∧
      status.state.isStopped = false
  converged : ∀ active, ctrl.current = some active → NoStalePublication marks →
    ctrl.quarantine = [] →
    status.revision.map (·.epoch) = some active.plan.revision.epoch ∧
      (CaughtUp (procs active.proc) → status.state =
        instanceCoreState active.plan.revision.epoch (procs active.proc).status.state)

/-- A status that says `running` speaks of one run: the process of that epoch
    with that pid, under its own identity and with a health it showed. -/
def Coherent (count : Nat) (procs : Nat → Instance) (status : CoreStatus) : Prop :=
  ∀ epoch pid, status.state = .running epoch pid →
    0 < pid ∧ ∃ p < count, (procs p).epoch = epoch ∧ ∃ run ∈ (procs p).runs,
      run.pid = pid ∧ status.instanceId = some run.instanceId ∧
        ∃ shown, (run.number, shown) ∈ (procs p).history ∧ shown.health = status.health

structure Shown (ctrl : Ctrl) (count : Nat) (showing : Showing) (procs : Nat → Instance)
    (status : CoreStatus) (published : List CoreStatus) (marks : List Mark) : Prop where
  coherent : .splitSnapshot ∉ marks → ∀ sent ∈ published, Coherent count procs sent
  settled : showing = .settled → Settled ctrl procs status marks
  announced : ∀ epoch, showing = .announced epoch →
    status.revision.map (·.epoch) = some epoch ∧ status.state.isStopped = false

/-! ## The commit feed -/

/-- What the pipeline makes of some source for the revision's epoch, with the
    inbounds left in place, under the hash of its own bytes. -/
def Env.Full (env : Env) (configuration : Configuration) : Prop :=
  (∃ source runtime settings controller,
    env.pipeline.effective source configuration.1.epoch runtime settings false =
      .ok (configuration.2, controller)) ∧
  ∃ bytes, env.pipeline.serialize configuration.2 = .ok bytes ∧
    semanticHash bytes = configuration.1.effectiveHash

structure Feeding (env : Env) (current : Option Active) (adopted : List Configuration)
    (pledge : Pledge Configuration) (commits : Option EffectiveConfigSnapshot)
    (feed : List EffectiveConfigSnapshot) (marks : List Mark) : Prop where
  full : ∀ configuration ∈ adopted, env.Full configuration
  announced : Announced (current.map (·.plan.configuration)) adopted pledge
    (commits.map (·.configuration)) (feed.map (·.configuration)) (.uncommitted ∈ marks)

/-- An environment, and the number a manager was seeded with in it. -/
structure Setting extends Env where
  seed : Nat

instance : Coe Setting Env := ⟨Setting.toEnv⟩

structure Inv (env : Setting) (c : Ctx) (w : World) : Prop where
  ctrl : w.ctrl = c.ctrl
  count : w.procCount = c.count
  installs : w.installs = c.installs
  adopted : w.adopted = c.adopted
  valid : c.Valid
  processes : Processes c.ctrl c.count c.held w.procs
  files : Files env c.ctrl c.owned c.files w.dir w.marks
  tidy : Tidy env c.ctrl c.owned c.saved w.dir w.marks
  issued : Issued env.seed c.ctrl.epochs.last w.allocated
  shown : Shown c.ctrl c.count c.showing w.procs w.status w.published w.marks
  feeding : Feeding env c.ctrl.current c.adopted c.pledge w.commits w.feed w.marks
  dns : Dns.Lived env w.dnsFile c.ctrl.dnsRecord w.dnsCalls

section

variable {env : Env} {ctrl ctrl' : Ctrl} {owned owned' : List Epoch} {saved : List Artifact}
  {dir dir' : Dir} {marks : List Mark}

section

variable (tidy : Tidy env ctrl owned saved dir marks)

include tidy

/-- Fewer epochs to answer for. -/
theorem Tidy.mono
    (covered : ∀ epoch, epoch ∈ owned' ∨ ctrl'.SlotEpoch epoch → epoch ∈ owned ∨ ctrl.SlotEpoch epoch)
    (listed : ∀ epoch, ctrl.Quarantined epoch → ctrl'.Quarantined epoch) :
    Tidy env ctrl' owned' saved dir marks :=
  fun removals synced epoch keeps unlisted =>
    tidy removals synced epoch (covered epoch keeps) fun was => unlisted (listed epoch was)

/-- Fewer files. -/
theorem Tidy.remove (fewer : ∀ name, (dir'.get name).isSome → (dir.get name).isSome) :
    Tidy env ctrl owned saved dir' marks :=
  fun removals synced epoch keeps unlisted generation present =>
    tidy removals synced epoch keeps unlisted generation (fewer _ present)

theorem Tidy.write (artifact : Artifact) (contents : Bytes) :
    Tidy env ctrl owned (artifact.saves ++ saved) (dir.write artifact.name contents) marks := by
  intro removals synced epoch keeps unlisted generation present
  rw [Dir.get_write] at present
  split at present
  case isTrue same =>
    rw [← Artifact.name_inj.mp same]
    exact List.mem_append_left _ (List.mem_singleton_self _)
  case isFalse =>
    exact List.mem_append_right _ (tidy removals synced epoch keeps unlisted generation present)

end

end

/-- A revision newer than everything installed was never adopted. -/
theorem Ctx.Valid.fits_newer {c : Ctx} (valid : c.Valid) {plan : EpochPlan}
    (newer : ∀ earlier ∈ c.installs, earlier.rank < plan.revision.rank) :
    Fits c.adopted plan.configuration := by
  intro configuration member same
  have installed : configuration.1 ∈ c.installs := by
    rw [← valid.matched]
    exact List.mem_map_of_mem member
  have older := newer configuration.1 installed
  rw [same] at older
  exact absurd older (lt_irrefl _)

/-! ## Marks -/

/-- A mark only weakens what the invariant promises. -/
theorem Inv.mark {env : Setting} {c : Ctx} {w : World} (inv : Inv env c w) (place : Mark) :
    Inv env c { w with marks := place :: w.marks } := by
  have fewer {other : Mark} (absent : other ∉ place :: w.marks) : other ∉ w.marks :=
    fun member => absent (List.mem_cons_of_mem _ member)
  have live (free : NoStopBesideLive (place :: w.marks)) : NoStopBesideLive w.marks :=
    ⟨fewer free.1, fewer free.2⟩
  have stale (free : NoStalePublication (place :: w.marks)) : NoStalePublication w.marks :=
    ⟨fewer free.1, fewer free.2.1, fewer free.2.2⟩
  refine { inv with
    files := { inv.files with owned := fun removals free => inv.files.owned removals ?_ }
    shown := ⟨fun unsplit => inv.shown.coherent (fewer unsplit), fun showing => ?_,
      inv.shown.announced⟩
    tidy := fun removals synced => inv.tidy removals (fewer synced)
    feeding := { inv.feeding with
      announced := inv.feeding.announced.miss (List.mem_cons_of_mem place) } }
  · rintro ⟨exit, member⟩
    exact free ⟨exit, List.mem_cons_of_mem _ member⟩
  · have settled := inv.shown.settled showing
    exact ⟨fun vacant free => settled.vacant vacant (stale free),
      fun active current free => settled.live active current (live free),
      fun active current free => settled.converged active current (stale free)⟩

section

variable (w : World) (place : Mark) (holds : Bool)

include w place holds

@[simp] theorem World.markIf_procs : (w.markIf place holds).procs = w.procs := by
  unfold World.markIf
  split <;> rfl

@[simp] theorem World.markIf_status : (w.markIf place holds).status = w.status := by
  unfold World.markIf
  split <;> rfl

@[simp] theorem World.markIf_commits : (w.markIf place holds).commits = w.commits := by
  unfold World.markIf
  split <;> rfl

@[simp] theorem World.markIf_feed : (w.markIf place holds).feed = w.feed := by
  unfold World.markIf
  split <;> rfl

end

theorem World.mem_markIf_self {w : World} {place : Mark} {holds : Bool} (visited : holds = true) :
    place ∈ (w.markIf place holds).marks := by
  rw [visited]
  exact List.mem_cons_self

theorem World.mem_markIf {w : World} {place other : Mark} {holds : Bool}
    (member : other ∈ w.marks) : other ∈ (w.markIf place holds).marks := by
  unfold World.markIf
  split
  · exact List.mem_cons_of_mem _ member
  · exact member

theorem Inv.markIf {env : Setting} {c : Ctx} {w : World} (inv : Inv env c w) (place : Mark)
    (holds : Bool) : Inv env c (w.markIf place holds) := by
  unfold World.markIf
  split
  · exact inv.mark place
  · exact inv

variable {p : Nat}

/-! ## The environment's moves -/

namespace World

@[simp] theorem updateProc_procs (w : World) (p q : Nat) (f : Instance → Instance) :
    (w.updateProc p f).procs q = if q = p then f (w.procs q) else w.procs q := rfl

theorem updateProc_id (w : World) (p : Nat) : w.updateProc p id = w := by
  simp [updateProc]

/-- A property every move of the environment keeps survives a tick. -/
theorem tick_induction {P : World → Prop} (env : Env)
    (moves : ∀ w move, P w → P (w.interfere move))
    (clock : ∀ w k, P w → P { w with clock := k }) {w : World} (holds : P w) : P (w.tick env) := by
  refine clock _ _ ?_
  induction env.interference w.clock generalizing w with
  | nil => exact holds
  | cons move rest ih => exact ih (moves w move holds)

/-- What the environment leaves alone, and how it moves the processes. -/
structure Moved (w w' : World) : Prop where
  ctrl : w'.ctrl = w.ctrl
  procCount : w'.procCount = w.procCount
  allocated : w'.allocated = w.allocated
  installs : w'.installs = w.installs
  marks : w'.marks = w.marks
  dnsFile : w'.dnsFile = w.dnsFile
  dnsCalls : w'.dnsCalls = w.dnsCalls
  procs : ∀ p, (w.procs p).Evolves (w'.procs p)

theorem Moved.refl (w : World) : Moved w w :=
  ⟨rfl, rfl, rfl, rfl, rfl, rfl, rfl, fun _ => .refl _⟩

theorem Moved.trans {w w' w'' : World} (first : Moved w w') (second : Moved w' w'') :
    Moved w w'' :=
  ⟨second.ctrl.trans first.ctrl, second.procCount.trans first.procCount,
    second.allocated.trans first.allocated, second.installs.trans first.installs,
    second.marks.trans first.marks, second.dnsFile.trans first.dnsFile,
    second.dnsCalls.trans first.dnsCalls, fun p => (first.procs p).trans (second.procs p)⟩

theorem moved_updateProc (w : World) (p : Nat) (f : Instance → Instance)
    (evolves : (w.procs p).Evolves (f (w.procs p))) : Moved w (w.updateProc p f) := by
  refine ⟨rfl, rfl, rfl, rfl, rfl, rfl, rfl, fun q => ?_⟩
  rw [updateProc_procs]
  split
  case isTrue same =>
    subst same
    exact evolves
  case isFalse => exact .refl _

theorem moved_writeOwn (w : World) (p : Nat) (name : FileName) (contents : Option Bytes) :
    Moved w (w.writeOwn p name contents) := by
  unfold writeOwn
  split
  · cases contents <;> exact ⟨rfl, rfl, rfl, rfl, rfl, rfl, rfl, fun _ => .refl _⟩
  · exact .refl w

theorem moved_deliver (w : World) (p : Nat) (now : Int) : Moved w (w.deliver p now) := by
  unfold deliver
  split
  · have moved (f : Forwarder) := moved_updateProc w p (fun i => { i with forwarder := some f })
      (Instance.evolves_setForwarder _ _)
    dsimp only
    split
    · exact { moved _ with }
    · exact moved _
  · exact .refl w

theorem moved_interfere (w : World) (move : Interference) : Moved w (w.interfere move) := by
  cases move with
  | monitor p event =>
      exact moved_updateProc w p (·.receive event) (Instance.receive_follows _ event).evolves
  | observe p =>
      simp only [interfere, observeProc]
      split
      · split
        · exact .refl w
        · exact moved_updateProc w p _ (Instance.evolves_setForwarder _ _)
      · exact .refl w
  | deliver p now => exact moved_deliver w p now
  | pidFile p contents => exact moved_writeOwn w p _ contents
  | socket p contents => exact moved_writeOwn w p _ contents

/-- No process that may be alive has the artifact for its own. -/
def Foreign (w : World) (artifact : Artifact) : Prop :=
  ∀ p < w.procCount, (w.procs p).provenDead = false →
    artifact ≠ .pid (w.procs p).epoch.get ∧ artifact ≠ .socket (w.procs p).epoch.get

variable {artifact : Artifact}

theorem writeOwn_get {w : World} {own : Artifact}
    (foreign : p < w.procCount → (w.procs p).provenDead = false → artifact ≠ own)
    (contents : Option Bytes) :
    (w.writeOwn p own.name contents).dir.get artifact.name = w.dir.get artifact.name := by
  unfold writeOwn
  split
  case isFalse => rfl
  case isTrue alive =>
    have other : artifact.name ≠ own.name := fun same =>
      foreign alive.1 alive.2 (Artifact.name_inj.mp same)
    cases contents with
    | some contents =>
        show (w.dir.write own.name contents).get _ = _
        rw [Dir.get_write, if_neg other]
    | none =>
        show (w.dir.erase own.name).get _ = _
        rw [Dir.get_erase, if_neg other]

/-- The environment leaves a foreign file alone. -/
theorem interfere_get {w : World} (foreign : w.Foreign artifact) (move : Interference) :
    (w.interfere move).dir.get artifact.name = w.dir.get artifact.name := by
  cases move with
  | monitor p event => rfl
  | observe p =>
      simp only [interfere, observeProc]
      split
      · split <;> rfl
      · rfl
  | deliver p now =>
      simp only [interfere, deliver]
      split
      · split <;> rfl
      · rfl
  | pidFile p contents => exact writeOwn_get (fun inside alive => (foreign p inside alive).1) contents
  | socket p contents => exact writeOwn_get (fun inside alive => (foreign p inside alive).2) contents

theorem foreign_of_managed (w : World) (managed : artifact.managed = true) :
    w.Foreign artifact := by
  refine fun p _ _ => ⟨?_, ?_⟩ <;> rintro rfl <;> cases managed

theorem tick_get (env : Env) (w : World) (artifact : Artifact) (managed : artifact.managed = true) :
    (w.tick env).dir.get artifact.name = w.dir.get artifact.name :=
  tick_induction (P := fun v => v.dir.get artifact.name = w.dir.get artifact.name) env
    (fun v move same => (interfere_get (v.foreign_of_managed managed) move).trans same)
    (fun _ _ same => same) rfl

theorem moved_tick (env : Env) (w : World) : Moved w (w.tick env) :=
  tick_induction (P := Moved w) env (fun v move moved => moved.trans (moved_interfere v move))
    (fun _ _ moved => { moved with }) (.refl w)

end World

theorem Forwarding.follow {i j : Instance} {f : Forwarder} (forwarding : Forwarding i f)
    (sound : i.Sound) (follows : i.Follows j) : Forwarding j f := by
  have final : i.status.state.isTerminal = true → j = i := fun terminal =>
    follows.final (sound.terminal terminal)
  refine ⟨?_, fun held holding => (forwarding.shown held holding).mono follows, ?_, ?_, ?_⟩
  · have := forwarding.seen
    rcases follows.newer with ⟨version, _⟩ | newer <;> omega
  · intro held holding caught
    have lag := forwarding.seen
    rcases follows.newer with ⟨version, status⟩ | newer
    · rw [status]
      exact forwarding.newest held holding (caught.trans version)
    · omega
  · intro held holding terminal
    have ending := forwarding.ending held holding terminal
    rw [final ending.1]
    exact ending
  · intro finished
    have ended := forwarding.finished finished
    rw [final ended.1]
    exact ended

variable {status : CoreStatus}

section

variable {ctrl : Ctrl} {count : Nat} {holds : List Held} {procs procs' : Nat → Instance}

theorem Processes.follow (inv : Processes ctrl count holds procs)
    (follows : ∀ p, (procs p).Follows (procs' p)) (sound : ∀ p, (procs' p).Sound) :
    Processes ctrl count holds procs' where
  tracked := fun p inside dead => by
    rw [(follows p).provenDead] at dead
    rw [(follows p).epoch]
    exact inv.tracked p inside dead
  buried := fun entry member proven p inside same => by
    rw [(follows p).epoch] at same
    rw [(follows p).provenDead]
    exact inv.buried entry member proven p inside same
  held := fun held member => by
    obtain ⟨inside, same, serving, ready⟩ := inv.held held member
    refine ⟨inside, (follows _).epoch.trans same,
      fun isServing => (follows _).userStop.trans (serving isServing), fun isReady => ?_⟩
    have positive := ready isReady
    rcases (follows held.proc).newer with ⟨version, _⟩ | newer <;> omega
  slot := fun active current => by
    obtain ⟨inside, same, serving⟩ := inv.slot active current
    exact ⟨inside, (follows _).epoch.trans same, (follows _).userStop.trans serving⟩
  silent := fun p forwards => inv.silent p ((follows p).forwarder ▸ forwards)
  forwarded := fun active current => (follows active.proc).forwarder ▸ inv.forwarded active current
  issued := fun p inside => by
    rw [(follows p).epoch]
    exact inv.issued p inside
  sound := sound
  forwarding := fun p f forwards => by
    rw [(follows p).forwarder] at forwards
    exact (inv.forwarding p f forwards).follow (inv.sound p) (follows p)

/-- What a status says stays true as processes are added and their runs and
    histories grow. -/
theorem Coherent.follow {count' : Nat} (coherent : Coherent count procs status)
    (more : count ≤ count')
    (grows : ∀ p < count, (procs' p).epoch = (procs p).epoch ∧ (∀ run ∈ (procs p).runs, run ∈ (procs' p).runs) ∧ ∀ entry ∈ (procs p).history, entry ∈ (procs' p).history) :
    Coherent count' procs' status := by
  intro epoch pid running
  obtain ⟨real, p, inside, same, run, member, pids, identity, shown, entry, health⟩ :=
    coherent epoch pid running
  obtain ⟨epochs, runs, history⟩ := grows p inside
  exact ⟨real, p, by omega, epochs.trans same, run, runs run member, pids, identity, shown,
    history _ entry, health⟩

variable {published : List CoreStatus}

/-- The part about the slot depends on the slot's own process only. -/
theorem Shown.others {count' : Nat} {showing : Showing} {marks : List Mark}
    (shown : Shown ctrl count showing procs status published marks) (more : count ≤ count')
    (grows : ∀ p < count, (procs' p).epoch = (procs p).epoch ∧ (∀ run ∈ (procs p).runs, run ∈ (procs' p).runs) ∧ ∀ entry ∈ (procs p).history, entry ∈ (procs' p).history)
    (slot : ∀ active, ctrl.current = some active → procs' active.proc = procs active.proc) :
    Shown ctrl count' showing procs' status published marks where
  coherent := fun unsplit sent member => (shown.coherent unsplit sent member).follow more grows
  settled := fun showing => by
    have settled := shown.settled showing
    refine ⟨settled.vacant, fun active current => ?_, fun active current => ?_⟩
    · rw [slot active current]
      exact settled.live active current
    · rw [slot active current]
      exact settled.converged active current
  announced := shown.announced

/-- A caught-up forwarder stays caught up only if nothing new was shown. -/
theorem CaughtUp.before {i j : Instance} (follows : i.Follows j)
    (forwarding : ∀ f, i.forwarder = some f → Forwarding i f) (caught : CaughtUp j) :
    CaughtUp i ∧ j.status = i.status := by
  obtain ⟨f, forwards, empty, seen⟩ := caught
  rw [follows.forwarder] at forwards
  have lag := (forwarding f forwards).seen
  rcases follows.newer with ⟨version, status⟩ | newer
  · exact ⟨⟨f, forwards, empty, seen.trans version⟩, status⟩
  · omega

theorem Shown.follow {showing : Showing} {marks : List Mark}
    (inv : Processes ctrl count holds procs)
    (shown : Shown ctrl count showing procs status published marks)
    (follows : ∀ p, (procs p).Follows (procs' p)) :
    Shown ctrl count showing procs' status published marks where
  coherent := fun unsplit sent member => (shown.coherent unsplit sent member).follow le_rfl
    fun p _ => ⟨(follows p).epoch, (follows p).runs, (follows p).history⟩
  settled := fun showing => by
    have settled := shown.settled showing
    refine ⟨settled.vacant, fun active current free alive => ?_, fun active current free empty => ?_⟩
    · refine settled.live active current free ?_
      by_contra terminal
      rw [Bool.not_eq_false] at terminal
      have same := (follows active.proc).final ((inv.sound _).terminal terminal)
      rw [same, terminal] at alive
      exact absurd alive (by decide)
    · obtain ⟨revision, converged⟩ := settled.converged active current free empty
      refine ⟨revision, fun caught => ?_⟩
      obtain ⟨before, same⟩ := caught.before (follows active.proc) (inv.forwarding active.proc)
      rw [same]
      exact converged before
  announced := shown.announced

/-- Replacing one forwarder keeps the processes, if the new one is in order. -/
theorem Processes.setForwarder (inv : Processes ctrl count holds procs) {old new : Forwarder}
    (forwards : (procs p).forwarder = some old)
    (same : ∀ q, procs' q = if q = p then { procs q with forwarder := some new } else procs q)
    (forwarding : Forwarding (procs p) new) : Processes ctrl count holds procs' := by
  have field {α : Type} (f : Instance → α) (ignores : ∀ i g, f { i with forwarder := g } = f i)
      (q : Nat) : f (procs' q) = f (procs q) := by
    rw [same q]
    split
    · exact ignores _ _
    · rfl
  have epoch := field (·.epoch) (fun _ _ => rfl)
  have provenDead := field (·.provenDead) (fun _ _ => rfl)
  have userStop := field (·.userStop) (fun _ _ => rfl)
  have version := field (·.version) (fun _ _ => rfl)
  refine ⟨?_, ?_, ?_, ?_, ?_, ?_, ?_, ?_, ?_⟩
  · intro q inside dead
    rw [provenDead q] at dead
    rw [epoch q]
    exact inv.tracked q inside dead
  · intro entry member proven q inside epochs
    rw [epoch q] at epochs
    rw [provenDead q]
    exact inv.buried entry member proven q inside epochs
  · intro held member
    rw [epoch, userStop, version]
    exact inv.held held member
  · intro active current
    rw [epoch, userStop]
    exact inv.slot active current
  · intro q some
    by_cases here : q = p
    · exact here ▸ inv.silent p (by simp [forwards])
    · rw [same q, if_neg here] at some
      exact inv.silent q some
  · intro q inside
    rw [epoch q]
    exact inv.issued q inside
  · intro q
    rw [same q]
    split
    · have sound := inv.sound q
      exact { sound with }
    · exact inv.sound q
  · intro q f some
    rw [same q] at some ⊢
    split at some
    case isTrue here =>
      subst here
      rw [if_pos rfl]
      cases some
      exact { forwarding with }
    case isFalse elsewhere =>
      rw [if_neg elsewhere]
      exact inv.forwarding q f some
  · intro active current
    rw [same]
    split
    · simp
    · exact inv.forwarded active current

end

variable {env : Setting} {c : Ctx} {w : World}

theorem Inv.monitor (inv : Inv env c w) (p : Nat) (event : MonitorEvent) :
    Inv env c (w.updateProc p (·.receive event)) := by
  have follows : ∀ q, (w.procs q).Follows ((w.updateProc p (·.receive event)).procs q) := by
    intro q
    rw [World.updateProc_procs]
    split
    · exact Instance.receive_follows _ _
    · exact .refl _
  have sound : ∀ q, ((w.updateProc p (·.receive event)).procs q).Sound := by
    intro q
    rw [World.updateProc_procs]
    split
    · exact Instance.receive_sound (inv.processes.sound q) _
    · exact inv.processes.sound q
  exact { inv with
    processes := inv.processes.follow follows sound
    shown := inv.shown.follow inv.processes follows }

/-- The forwarder of the slot belongs to the slot's plan. -/
theorem Inv.forwarder_slot (inv : Inv env c w) {f : Forwarder}
    (forwards : (w.procs p).forwarder = some f) :
    ∃ active, c.ctrl.current = some active ∧ active.proc = p ∧
      (w.procs p).epoch = active.plan.revision.epoch ∧ (w.procs p).userStop = false := by
  obtain ⟨active, current, rfl⟩ := inv.processes.silent p (by simp [forwards])
  obtain ⟨_, same, serving⟩ := inv.processes.slot active current
  exact ⟨active, current, rfl, same, serving⟩

theorem Inv.observeProc (inv : Inv env c w) (p : Nat) : Inv env c (w.observeProc p) := by
  unfold World.observeProc
  split
  case h_2 => exact inv
  case h_1 seen forwards =>
    split
    case isTrue => exact inv
    case isFalse pending =>
      obtain ⟨active, current, here, _, serving⟩ := inv.forwarder_slot forwards
      have sound := inv.processes.sound p
      have taken : Forwarding (w.procs p) ⟨(w.procs p).version, some (w.procs p).status, false⟩ :=
        { seen := le_refl _
          shown := fun held same => by cases same; exact sound.vouches serving
          newest := fun held same _ => by cases same; rfl
          ending := fun held same terminal => by cases same; exact ⟨terminal, rfl⟩
          finished := fun finished => by cases finished }
      have procs' : ∀ q, (w.updateProc p fun i =>
          { i with forwarder := some ⟨i.version, some i.status, false⟩ }).procs q =
          if q = p then { w.procs q with
            forwarder := some ⟨(w.procs p).version, some (w.procs p).status, false⟩ }
          else w.procs q := by
        intro q
        rw [World.updateProc_procs]
        split
        case isTrue same => subst same; rfl
        case isFalse => rfl
      refine { inv with
        processes := inv.processes.setForwarder forwards procs' taken
        shown := ⟨?_, ?_, inv.shown.announced⟩ }
      · intro unsplit sent member
        refine (inv.shown.coherent unsplit sent member).follow le_rfl fun q _ => ?_
        rw [procs' q]
        split <;> simp
      · intro showing
        have settled := inv.shown.settled showing
        refine ⟨settled.vacant, fun a slot free alive => settled.live a slot free ?_,
          fun a slot free empty => ⟨(settled.converged a slot free empty).1, fun caught => ?_⟩⟩
        · rw [procs' a.proc] at alive
          split at alive <;> exact alive
        · -- the value just taken is still in the forwarder's hand
          obtain ⟨f, some, none, _⟩ := caught
          rw [current] at slot
          cases slot
          rw [procs' active.proc, if_pos here] at some
          cases some
          cases none

variable {epoch : Epoch}

theorem applyEpochStatus_eq_some {status' : CoreStatus} {shown : InstanceStatus} {now : Int}
    (applied : applyEpochStatus status epoch shown now = some status') :
    status.revision.map (·.epoch) = some epoch ∧ status'.revision = status.revision ∧
      status'.state = instanceCoreState epoch shown.state ∧
      status'.instanceId = shown.instanceId ∧ status'.health = shown.health := by
  unfold applyEpochStatus at applied
  split at applied
  case isTrue => cases applied
  case isFalse same =>
    dsimp only at applied
    split at applied
    · cases applied
    · cases applied
      exact ⟨not_not.mp same, rfl, rfl, rfl, rfl⟩

theorem applyEpochStatus_eq_none {shown : InstanceStatus} {now : Int}
    (dropped : applyEpochStatus status epoch shown now = none)
    (same : status.revision.map (·.epoch) = some epoch) :
    status.state = instanceCoreState epoch shown.state := by
  unfold applyEpochStatus at dropped
  rw [if_neg (by simpa using same)] at dropped
  dsimp only at dropped
  split at dropped
  · exact (‹_ ∧ _ ∧ _›).1
  · cases dropped

theorem Coherent.of_vouches {count : Nat} {procs : Nat → Instance} (shown : InstanceStatus)
    (inside : p < count) (same : (procs p).epoch = epoch) (vouches : (procs p).Vouches shown)
    (states : ∀ e pid, status.state = .running e pid → e = epoch ∧ shown.state = .running pid)
    (identity : status.instanceId = shown.instanceId) (health : status.health = shown.health) :
    Coherent count procs status := by
  intro e pid running
  obtain ⟨rfl, shownRunning⟩ := states e pid running
  obtain ⟨real, run, member, pids, own, entry⟩ := vouches pid shownRunning
  exact ⟨real, p, inside, same, run, member, pids, identity.trans own, shown, entry, health.symm⟩

theorem instanceCoreState_running {e : Epoch} {state : InstanceState} {pid : Nat}
    (running : instanceCoreState epoch state = .running e pid) :
    e = epoch ∧ state = .running pid := by
  cases state <;> simp_all [instanceCoreState]

section

variable (inv : Inv env c w)

include inv

/-- The forwarder's publication, when it changes the status. -/
private theorem Inv.delivered {seen : Nat} {held : InstanceStatus} {finished : Bool}
    (forwards : (w.procs p).forwarder = some ⟨seen, some held, finished⟩) (now : Int)
    : Inv env c (w.deliver p now) := by
  obtain ⟨active, current, here, epochs, _⟩ := inv.forwarder_slot forwards
  obtain ⟨inside, _, _⟩ := inv.processes.slot active current
  have forwarding := inv.processes.forwarding p _ forwards
  have next : Forwarding (w.procs p) ⟨seen, none, finished || held.state.isTerminal⟩ :=
    { seen := forwarding.seen
      shown := fun _ none => by cases none
      newest := fun _ none => by cases none
      ending := fun _ none => by cases none
      finished := fun done => by
        rcases Bool.or_eq_true_iff.mp done with already | terminal
        · exact absurd (forwarding.finished already).2.2 (by simp)
        · have ending := forwarding.ending held rfl terminal
          exact ⟨ending.1, ending.2, rfl⟩ }
  let w₁ := w.updateProc p fun i =>
    { i with forwarder := some ⟨seen, none, finished || held.state.isTerminal⟩ }
  have procs₁ : ∀ q, w₁.procs q = if q = p then { w.procs q with
      forwarder := some ⟨seen, none, finished || held.state.isTerminal⟩ } else w.procs q :=
    fun q => World.updateProc_procs w p q _
  have processes : Processes c.ctrl c.count c.held w₁.procs := inv.processes.setForwarder forwards procs₁ next
  have epoch₁ : (w₁.procs p).epoch = active.plan.revision.epoch := by
    rw [procs₁ p, if_pos rfl]
    exact epochs
  have status₁ : ∀ q, (w₁.procs q).status = (w.procs q).status := by
    intro q
    rw [procs₁ q]
    split <;> rfl
  have older : ∀ sent, Coherent c.count w.procs sent → Coherent c.count w₁.procs sent := by
    intro sent coherent
    refine coherent.follow le_rfl fun q _ => ?_
    rw [procs₁ q]
    split <;> simp
  -- once everything shown is taken, the value in hand is the newest one
  have newest : CaughtUp (w₁.procs p) → held = (w.procs p).status := by
    rintro ⟨f, some, -, caught⟩
    rw [procs₁ p, if_pos rfl] at some caught
    cases some
    exact forwarding.newest held rfl caught
  have deliverEq : w.deliver p now =
      ((applyEpochStatus w.status (w₁.procs p).epoch held now).map w₁.send).getD w₁ := by
    simp only [World.deliver, forwards]
    cases found : applyEpochStatus w.status (w₁.procs p).epoch held now with
    | none =>
        split
        case h_1 other => exact absurd (found.symm.trans other) (by simp)
        case h_2 => rfl
    | some status =>
        split
        case h_1 other =>
          cases found.symm.trans other
          rfl
        case h_2 other => exact absurd (found.symm.trans other) (by simp)
  rw [deliverEq, epoch₁]
  cases applied : applyEpochStatus w.status active.plan.revision.epoch held now with
  | none =>
      show Inv env c w₁
      refine { inv with
        processes := processes
        shown := ⟨fun unsplit sent member => older sent (inv.shown.coherent unsplit sent member),
          fun showing => ?_, inv.shown.announced⟩ }
      have settled := inv.shown.settled showing
      refine ⟨settled.vacant, fun a slot free alive => settled.live a slot free
        (by rw [← status₁]; exact alive), fun a slot free empty => ?_⟩
      rw [current] at slot
      cases slot
      have revision := (settled.converged active current free empty).1
      refine ⟨revision, fun caught => ?_⟩
      rw [status₁, here, ← newest (here ▸ caught)]
      exact applyEpochStatus_eq_none applied revision
  | some status =>
      obtain ⟨matching, revision, state, identity, health⟩ := applyEpochStatus_eq_some applied
      show Inv env c (w₁.send status)
      refine { inv with
        processes := processes
        shown := ⟨fun unsplit sent member => ?_, fun showing => ?_, fun epoch showing => ?_⟩ }
      · rcases List.mem_cons.mp member with rfl | member
        · refine Coherent.of_vouches held (here ▸ inside) epoch₁ ?_ ?_ identity health
          · intro pid running
            obtain ⟨real, run, known, rest⟩ := forwarding.shown held rfl pid running
            show 0 < pid ∧ ∃ run ∈ (w₁.procs p).runs, run.pid = pid ∧
              held.instanceId = some run.instanceId ∧ (run.number, held) ∈ (w₁.procs p).history
            rw [procs₁ p, if_pos rfl]
            exact ⟨real, run, known, rest⟩
          · intro e pid running
            exact instanceCoreState_running (state.symm.trans running)
        · exact older sent (inv.shown.coherent unsplit sent member)
      · have settled := inv.shown.settled showing
        refine ⟨fun vacant => by simp [current] at vacant, fun a slot free alive => ?_,
          fun a slot free empty => ?_⟩
        · rw [current] at slot
          cases slot
          change (w₁.procs active.proc).status.state.isTerminal = false at alive
          rw [status₁, here] at alive
          refine ⟨revision ▸ matching, ?_⟩
          show status.state.isStopped = false
          rw [state, instanceCoreState_isStopped]
          by_contra terminal
          rw [Bool.not_eq_false] at terminal
          simp [(forwarding.ending held rfl terminal).1] at alive
        · rw [current] at slot
          cases slot
          refine ⟨revision ▸ matching, fun caught => ?_⟩
          have same := newest (here ▸ caught)
          show status.state = instanceCoreState active.plan.revision.epoch
            (w₁.procs active.proc).status.state
          rw [state, status₁, here, ← same]
      · have vacant := inv.valid.vacant epoch showing
        simp [current] at vacant

theorem Inv.deliver (p : Nat) (now : Int) : Inv env c (w.deliver p now) := by
  cases forwards : (w.procs p).forwarder with
  | none =>
      rw [World.deliver, forwards]
      exact inv
  | some f =>
      obtain ⟨seen, holding, finished⟩ := f
      cases holding with
      | none =>
          rw [World.deliver, forwards]
          exact inv
      | some held => exact inv.delivered forwards now

/-- The epoch of a process that is not proven dead is kept by somebody. -/
theorem Inv.keeps_of_alive (inside : p < c.count) (alive : (w.procs p).provenDead = false)
    : Keeps c.ctrl c.owned (w.procs p).epoch := by
  rcases inv.processes.tracked p inside alive with ⟨held, member, rfl⟩ | ⟨active, current, rfl⟩ |
    quarantined
  · have covered := inv.valid.covered held member
    rwa [(inv.processes.held held member).2.1]
  · exact .inr (.inl ⟨active, current, (inv.processes.slot active current).2.1.symm⟩)
  · exact .inr (.inr quarantined)

theorem Inv.writeOwn (p : Nat) (artifact : Artifact) (own : artifact.epoch = (w.procs p).epoch.get)
    (unmanaged : artifact.managed = false) (contents : Option Bytes)
    : Inv env c (w.writeOwn p artifact.name contents) := by
  unfold World.writeOwn
  split
  case isFalse => exact inv
  case isTrue alive =>
    obtain ⟨inside, dead⟩ := alive
    rw [inv.count] at inside
    have keeps := inv.keeps_of_alive inside dead
    have other : ∀ file ∈ c.files, file.1.name ≠ artifact.name := by
      intro file member same
      have managed := inv.valid.managed file member
      rw [Artifact.name_inj.mp same, unmanaged] at managed
      exact absurd managed (by decide)
    cases contents with
    | some contents =>
        have nothing : artifact.saves = [] := by
          cases artifact with
          | backup => cases unmanaged
          | config | pid | socket | staged => rfl
        have tidy := inv.tidy.write artifact contents
        rw [nothing] at tidy
        refine { inv with files := ⟨?_, ?_, ?_⟩, tidy := tidy }
        · intro file member
          rw [Dir.get_write, if_neg (other file member)]
          exact inv.files.pinned file member
        · intro x bounded present
          rw [Dir.get_write] at present
          split at present
          case isTrue same =>
            rw [Artifact.name_inj.mp same, own]
            exact inv.processes.issued p inside
          case isFalse => exact inv.files.issued x bounded present
        · intro removals kept x bounded present
          rw [Dir.get_write] at present
          split at present
          case isTrue same => exact ⟨_, by rw [Artifact.name_inj.mp same, own], keeps⟩
          case isFalse => exact inv.files.owned removals kept x bounded present
    | none =>
        have fewer (name : FileName) (present : ((w.dir.erase artifact.name).get name).isSome) :
            (w.dir.get name).isSome := by
          rw [Dir.get_erase] at present
          split at present
          case isTrue => cases present
          case isFalse => exact present
        refine { inv with
          files := ⟨?_, fun x bounded present => inv.files.issued x bounded (fewer _ present),
            fun removals kept x bounded present =>
              inv.files.owned removals kept x bounded (fewer _ present)⟩
          tidy := inv.tidy.remove fewer }
        · intro file member
          rw [Dir.get_erase, if_neg (other file member)]
          exact inv.files.pinned file member

theorem Inv.interfere (move : Interference) : Inv env c (w.interfere move) := by
  cases move with
  | monitor p event => exact inv.monitor p event
  | observe p => exact inv.observeProc p
  | deliver p now => exact inv.deliver p now
  | pidFile p contents => exact inv.writeOwn p (.pid _) rfl rfl contents
  | socket p contents => exact inv.writeOwn p (.socket _) rfl rfl contents

/-- The environment keeps the invariant. -/
theorem Inv.tick : Inv env c (w.tick env) :=
  World.tick_induction env (fun _ move inv => inv.interfere move) (fun _ _ inv => { inv with }) inv

end

end Nyanpasu
