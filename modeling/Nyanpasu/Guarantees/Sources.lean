import Nyanpasu.Control.Executor
import Nyanpasu.Guarantees.Processes

/-! # What a restart launches

A restart launches what it finds at the path of the retained spec.  Every reconcile
request is written to one and the same path before the manager looks at it, so a
request that is refused afterwards may already have changed what the next restart
launches.
-/

namespace Nyanpasu

open Naming Program

section

variable {env : Setting} {w : World}

theorem Stable.tick (stable : Stable env w) : Stable env (w.tick env) := by
  obtain ⟨c, inv, idle⟩ := stable
  exact ⟨c, inv.tick, idle⟩

theorem Leaves.stable {effect : Ctx → Ctx → Prop} {c : Ctx} (leaves : Leaves env effect c w) :
    Stable env w := by
  obtain ⟨c', inv, idle, _⟩ := leaves
  exact ⟨c', inv, idle⟩

end

namespace Control

variable {around : Surroundings} {context : ExecutorContext} {dir files : Dir} {site site' : Site}
  {w : World} {c : Ctx}

/-! ## The manager over its source files -/

/-- The invariant of the manager does not speak of the source files. -/
theorem inv_reading :
    Inv ((around.reading files).over dir) c w ↔ Inv (around.env.over dir) c w :=
  ⟨fun inv => { inv with
      files := { inv.files with }, tidy := inv.tidy, feeding := { inv.feeding with } },
    fun inv => { inv with
      files := { inv.files with }, tidy := inv.tidy, feeding := { inv.feeding with } }⟩

theorem idle_reading : c.Idle ((around.reading files).over dir) ↔ c.Idle (around.env.over dir) :=
  ⟨fun idle => { idle with }, fun idle => { idle with }⟩

theorem stable_reading (files : Dir) :
    Stable ((around.reading files).over dir) w ↔ Stable (around.env.over dir) w :=
  exists_congr fun _ => and_congr inv_reading idle_reading

variable {α : Type} {program : Manager α}

theorem manage_run {a : α} (run : manage program around site = .ok (a, site')) :
    ∃ w', program (around.reading site.files) site.world = .ok (a, w') ∧
      site' = { site with world := w' } := by
  unfold manage at run
  split at run
  · cases run
  case h_2 b w' ran =>
    cases run
    exact ⟨w', ran, rfl⟩

/-- A program of the manager that keeps it in order does so beside its files. -/
theorem stable_manage {a : α}
    (keeps : ∀ {env : Setting} {c : Ctx} {w : World}, Inv env c w → c.Idle env → Ends env program w fun _ w' => Stable env w')
    (stable : Stable (around.env.over dir) site.world)
    (run : manage program around site = .ok (a, site')) :
    Stable (around.env.over dir) site'.world := by
  obtain ⟨w', ran, rfl⟩ := manage_run run
  obtain ⟨c, inv, idle⟩ := (stable_reading site.files).mpr stable
  exact (stable_reading _).mp ((keeps inv idle).of_run ran)

theorem reconcile_stable (spec : InstanceSpec) (expected : Option RevisionId) {env : Setting}
    {c : Ctx} {w : World} (inv : Inv env c w) (idle : c.Idle env) :
    Ends env (Nyanpasu.reconcile spec expected) w fun _ w' => Stable env w' :=
  (reconcile_ends inv idle spec expected).mono fun
    | .error _, _, leaves => Leaves.stable leaves
    | .ok _, _, leaves => Leaves.stable leaves

/-! ## Writing a request -/

theorem fileCall_run {call : Disk → Nat → Dir → α × Dir} {a : α}
    (run : fileCall call around site = .ok (a, site')) :
    a = (call around.disk site.world.clock site.files).1 ∧
      site' = ⟨(call around.disk site.world.clock site.files).2, site.world.tick around.env⟩ := by
  unfold fileCall Program.act at run
  cases run
  exact ⟨rfl, rfl⟩

/-- What a request leaves in its file, if it gets to write it at all.  The directory is
    created at time `k` and the file written right after. -/
def filed (disk : Disk) (config : ConfigInput) (k : Nat) : Option Bytes :=
  if config.mismatch.isSome ∨ (disk.createDir k).isSome then none
  else
    match disk.write (k + 1) with
    | .done => some config.bytes
    | .refused _ => none
    | .torn length _ => some (config.bytes.take length)

/-- The files once the bytes, if any, are at the path. -/
def filing (files : Dir) (path : FileName) : Option Bytes → Dir
  | none => files
  | some bytes => files.write path bytes

variable {id : OperationId}

variable {P : World → Prop}

/-- Writing a request lets the rest of the world move, and touches one file. -/
theorem materialize_run {sourceDir name : FileName} {config : ConfigInput}
    {result : Except CoreError FileName} (moves : ∀ w, P w → P (w.tick around.env))
    (holds : P site.world)
    (run : materialize sourceDir name config id around site = .ok (result, site')) :
    P site'.world ∧ (∀ path, result = .ok path → path = joinPath sourceDir name) ∧
      site'.files = filing site.files (joinPath sourceDir name)
        (filed around.disk config site.world.clock) := by
  unfold materialize at run
  cases agrees : config.mismatch with
  | some declared =>
      simp only [agrees] at run
      cases run
      refine ⟨holds, (fun _ failed => by cases failed), ?_⟩
      simp [filed, agrees, filing]
  | none =>
  simp only [agrees] at run
  obtain ⟨created, site₁, ran, run⟩ := run_bind run
  obtain ⟨isCreated, rfl⟩ := fileCall_run ran
  have holds₁ := moves _ holds
  cases refusal : around.disk.createDir site.world.clock with
  | some text =>
      simp only [refusal] at isCreated
      subst isCreated
      cases run
      refine ⟨holds₁, (fun _ failed => by cases failed), ?_⟩
      simp [filed, refusal, filing]
  | none =>
  simp only [refusal] at isCreated
  subst isCreated
  obtain ⟨written, site₂, ran, run⟩ := run_bind run
  obtain ⟨isWritten, rfl⟩ := fileCall_run ran
  have holds₂ := moves _ holds₁
  have clock : (site.world.tick around.env).clock = site.world.clock + 1 := rfl
  cases ends : around.disk.write (site.world.clock + 1) with
  | done =>
      simp only [clock, ends] at isWritten
      subst isWritten
      cases run
      refine ⟨holds₂, (fun path same => by cases same; rfl), ?_⟩
      simp [filed, agrees, refusal, clock, ends, filing]
  | refused text =>
      simp only [clock, ends] at isWritten
      subst isWritten
      cases run
      refine ⟨holds₂, (fun _ failed => by cases failed), ?_⟩
      simp [filed, refusal, clock, ends, filing]
  | torn length text =>
      simp only [clock, ends] at isWritten
      subst isWritten
      cases run
      refine ⟨holds₂, (fun _ failed => by cases failed), ?_⟩
      simp [filed, agrees, refusal, clock, ends, filing]

/-! ## Between the operations -/

/-- The sites between operations: a manager is built, its surroundings move, others
    write source files, commands are executed and operations of the manager run. -/
inductive Reached (around : Surroundings) (context : ExecutorContext) (dir : Dir) : Site → Prop where
  | built {files : Dir} {dnsFile : RecordFile} {w : World} :
      build (around.reading files) (World.boot dir dnsFile) = .ok (.ok (), w) →
      Reached around context dir ⟨files, w⟩
  | moved {site : Site} : Reached around context dir site →
      Reached around context dir ⟨site.files, site.world.tick around.env⟩
  | edited {site : Site} (files : Dir) : Reached around context dir site →
      Reached around context dir ⟨files, site.world⟩
  | executed {site site' : Site} {id : OperationId} {command : CoreCommand}
      {result : Except CoreError OperationOutput} : Reached around context dir site →
      execute context id command around site = .ok (result, site') →
      Reached around context dir site'
  | operated {site site' : Site} {operation : Operation} {reply : Except Error Reply} :
      Reached around context dir site → manage operation.run around site = .ok (reply, site') →
      Reached around context dir site'

variable {request : ReconcileRequest} {result : Except CoreError ApplyOutcome}

/-- A reconcile is a write and then, if the write was done, an operation of the
    manager over the file. -/
theorem reconcile_run (moves : ∀ w, P w → P (w.tick around.env)) (holds : P site.world)
    (run : reconcile context id request around site = .ok (result, site')) :
    ∃ v, P v ∧ site'.files = filing site.files (joinPath context.sourceDir reconcileSource)
        (filed around.disk request.config site.world.clock) ∧
      ((∃ error, result = .error error) ∧ site'.world = v ∨
        ∃ answer, result = answer.mapError (.fromDomain · (some id)) ∧
          Nyanpasu.reconcile (request.spec context (joinPath context.sourceDir reconcileSource))
            request.expectedApplied (around.reading site'.files) v = .ok (answer, site'.world)) := by
  obtain ⟨materialized, site₁, ran, run⟩ := run_bind run
  obtain ⟨holds₁, isPath, isFiles⟩ := materialize_run moves holds ran
  cases materialized with
  | error error =>
      cases run
      exact ⟨_, holds₁, isFiles, .inl ⟨⟨error, rfl⟩, rfl⟩⟩
  | ok path =>
      cases isPath path rfl
      obtain ⟨answer, site₂, managed, run⟩ := run_bind run
      obtain ⟨w', below, rfl⟩ := manage_run managed
      cases run
      exact ⟨_, holds₁, isFiles, .inr ⟨answer, rfl, below⟩⟩

theorem reconcile_keeps_stable (stable : Stable (around.env.over dir) site.world)
    (run : reconcile context id request around site = .ok (result, site')) :
    Stable (around.env.over dir) site'.world := by
  obtain ⟨v, stable, _, ⟨_, rfl⟩ | ⟨answer, _, ran⟩⟩ := reconcile_run
    (P := Stable (around.env.over dir)) (fun _ stable => stable.tick) stable run
  · exact stable
  · obtain ⟨c, inv, idle⟩ := (stable_reading site'.files).mpr stable
    exact (stable_reading _).mp ((reconcile_stable _ _ inv idle).of_run ran)

theorem Reached.stable (reached : Reached around context dir site) :
    Stable (around.env.over dir) site.world := by
  induction reached with
  | built run =>
      have inv := (build_ends _ dir _).of_run run
      exact (stable_reading _).mp ⟨_, inv, .vacant rfl rfl rfl rfl rfl rfl⟩
  | moved _ ih => exact ih.tick
  | edited _ _ ih => exact ih
  | @executed _ _ id command _ _ run ih =>
      cases command with
      | reconcile request =>
          obtain ⟨answer, site₁, ran, ⟨⟩⟩ := run_bind run
          exact reconcile_keeps_stable ih ran
      | stop =>
          obtain ⟨answer, site₁, ran, ⟨⟩⟩ := run_bind run
          exact stable_manage (fun inv idle => (stop_ends inv idle).mono fun _ _ => Leaves.stable) ih
            ran
      | recover =>
          obtain ⟨answer, site₁, ran, ⟨⟩⟩ := run_bind run
          exact stable_manage (fun inv idle => (recoverQuarantine_ends inv idle).mono fun _ _ =>
            Leaves.stable) ih ran
      | shutdown =>
          obtain ⟨answer, site₁, ran, ⟨⟩⟩ := run_bind run
          exact stable_manage (fun inv idle => (shutdown_ends inv idle).mono fun _ _ =>
            Leaves.stable) ih ran
  | @operated _ _ operation _ _ run ih =>
      refine stable_manage (fun inv idle => (operation.run_ends inv idle).mono fun reply _ does => ?_)
        ih run
      cases reply with
      | error error => exact Leaves.stable does
      | ok answer => exact Leaves.stable does

/-! ## What a restart launches -/

/-- The retained spec, with what is read at its path. -/
def Site.source (disk : Disk) (site : Site) :
    Option (InstanceSpec × Except ExternalError Mapping) :=
  site.world.ctrl.lastSpec.map fun spec => (spec, disk.contents site.files spec.configPath)

/-- What the core in the slot was made of. -/
def Site.launched (site : Site) : Option (InstanceSpec × Except ExternalError Mapping) :=
  site.world.ctrl.current.map fun active => (active.plan.sourceSpec, .ok active.plan.sourceDocument)

theorem contents_of_reads {path : FileName} {document : Mapping}
    (reads : (around.reading files).Reads path document) :
    around.disk.contents files path = .ok document := by
  obtain ⟨k, read⟩ := reads
  change around.disk.load files path k = .ok document at read
  unfold Disk.load at read
  split at read
  · cases read
  · exact read

theorem source_of_relaunched {c' : Ctx} {w' : World} (inv : Inv (around.env.over dir) c site.world)
    (inv' : Inv (around.env.over dir) c' w')
    (relaunched : Relaunched (around.reading site.files) c c') :
    site.source around.disk ≠ none ∧
      Site.launched ⟨site.files, w'⟩ = site.source around.disk := by
  obtain ⟨spec, retained, document, reads, _, launched⟩ := relaunched
  have source : site.source around.disk = some (spec, .ok document) := by
    rw [Site.source, inv.ctrl, retained, Option.map_some, contents_of_reads reads]
  rw [source]
  refine ⟨Option.some_ne_none _, ?_⟩
  rw [Site.launched, inv'.ctrl]
  obtain ⟨active, current, made⟩ := Option.map_eq_some_iff.mp launched
  obtain ⟨rfl, rfl⟩ := Prod.mk.inj made
  rw [current, Option.map_some]

/-- A restart launches the source, or it fails with nothing installed. -/
theorem restart_launches {reply : Except Error SwitchOutcome}
    (reached : Reached around context dir site)
    (run : manage restart around site = .ok (reply, site')) :
    (∃ error, reply = .error error) ∧ site'.world.installs = site.world.installs ∨
      site.source around.disk ≠ none ∧ site'.launched = site.source around.disk := by
  obtain ⟨w', ran, rfl⟩ := manage_run run
  obtain ⟨c, inv, idle⟩ := (stable_reading site.files).mpr reached.stable
  have leaves := (restart_ends inv idle).of_run ran
  cases reply with
  | error error =>
      obtain ⟨c', inv', _, kept | relaunched, _⟩ := leaves
      · exact .inl ⟨⟨error, rfl⟩, by rw [inv.installs, inv'.installs, kept.installs]⟩
      · exact .inr (source_of_relaunched (inv_reading.mp inv) (inv_reading.mp inv') relaunched)
  | ok outcome =>
      obtain ⟨c', inv', _, relaunched, _⟩ := leaves
      exact .inr (source_of_relaunched (inv_reading.mp inv) (inv_reading.mp inv') relaunched)

theorem launched_of_success {outcome : SwitchOutcome} (reached : Reached around context dir site)
    (run : manage restart around site = .ok (.ok outcome, site')) :
    site'.launched = site.source around.disk := by
  rcases restart_launches reached run with ⟨⟨_, failed⟩, _⟩ | ⟨_, launched⟩
  · cases failed
  · exact launched

/-! ## Refused requests -/

/-- A reconcile that fails leaves the retained spec, whatever became of its file. -/
theorem failed_reconcile_retains {error : CoreError} (reached : Reached around context dir site)
    (failed : reconcile context id request around site = .ok (.error error, site')) :
    site'.world.ctrl.lastSpec = site.world.ctrl.lastSpec ∧
      site'.files = filing site.files (joinPath context.sourceDir reconcileSource)
        (filed around.disk request.config site.world.clock) := by
  have moves (w : World) (holds : Stable (around.env.over dir) w ∧
      w.ctrl.lastSpec = site.world.ctrl.lastSpec) : Stable (around.env.over dir) (w.tick around.env) ∧
      (w.tick around.env).ctrl.lastSpec = site.world.ctrl.lastSpec :=
    ⟨holds.1.tick, by rw [(World.moved_tick _ _).ctrl, holds.2]⟩
  obtain ⟨v, ⟨stable, retained⟩, isFiles, ⟨_, rfl⟩ | ⟨answer, isAnswer, ran⟩⟩ :=
    reconcile_run moves ⟨reached.stable, rfl⟩ failed
  · exact ⟨retained, isFiles⟩
  cases answer with
  | ok outcome => cases isAnswer
  | error refusal =>
      obtain ⟨c, inv, idle⟩ := (stable_reading site'.files).mpr stable
      obtain ⟨c', inv', _, kept, _⟩ := (reconcile_ends inv idle _ _).of_run ran
      exact ⟨by rw [inv'.ctrl, kept.lastSpec, ← inv.ctrl, retained], isFiles⟩

/-- The request writes nothing, or not to where the retained spec reads, or nothing that
    reads differently from what is there. -/
def Harmless (around : Surroundings) (context : ExecutorContext) (request : ReconcileRequest)
    (site : Site) : Prop :=
  ∀ spec bytes, site.world.ctrl.lastSpec = some spec →
    spec.configPath = joinPath context.sourceDir reconcileSource →
    filed around.disk request.config site.world.clock = some bytes →
    around.disk.parse bytes = around.disk.contents site.files spec.configPath

theorem contents_filing (disk : Disk) (path other : FileName) (written : Option Bytes) :
    disk.contents (filing files path written) other =
      if other = path then (written.map disk.parse).getD (disk.contents files other)
      else disk.contents files other := by
  cases written with
  | none => simp [filing]
  | some bytes =>
      unfold filing Disk.contents
      rw [Dir.get_write]
      by_cases same : other = path <;> simp [same]

theorem source_kept_iff (retained : site'.world.ctrl.lastSpec = site.world.ctrl.lastSpec)
    (isFiles : site'.files = filing site.files (joinPath context.sourceDir reconcileSource) (filed around.disk request.config site.world.clock)) :
    site'.source around.disk = site.source around.disk ↔ Harmless around context request site := by
  unfold Site.source Harmless
  rw [retained, isFiles]
  cases site.world.ctrl.lastSpec with
  | none => simp
  | some spec =>
      simp only [Option.map_some, Option.some.injEq, Prod.mk.injEq, true_and, contents_filing]
      by_cases own : spec.configPath = joinPath context.sourceDir reconcileSource
      · cases filed around.disk request.config site.world.clock <;> simp [own]
      · simp only [if_neg own, true_iff]
        rintro _ bytes rfl same
        exact absurd same own

/-- Requests that fail and that are harmless, one after another. -/
inductive Refused (around : Surroundings) (context : ExecutorContext) (site : Site) : Site → Prop where
  | none : Refused around context site site
  | moved {before : Site} : Refused around context site before →
      Refused around context site ⟨before.files, before.world.tick around.env⟩
  | failed {before after : Site} {id : OperationId} {request : ReconcileRequest} {error : CoreError} :
      Refused around context site before → Harmless around context request before →
      reconcile context id request around before = .ok (.error error, after) →
      Refused around context site after

theorem Reached.reconciled (reached : Reached around context dir site)
    (run : reconcile context id request around site = .ok (result, site')) :
    Reached around context dir site' := by
  have executed : execute context id (.reconcile request) around site =
      .ok (result.map .reconciled, site') := by
    unfold execute
    simp only [bind, ReaderT.bind, StateT.bind, run]
    rfl
  exact reached.executed executed

theorem Refused.keeps (refused : Refused around context site site')
    (reached : Reached around context dir site) :
    Reached around context dir site' ∧ site'.source around.disk = site.source around.disk := by
  induction refused with
  | none => exact ⟨reached, rfl⟩
  | moved _ ih =>
      refine ⟨ih.1.moved, Eq.trans ?_ ih.2⟩
      rw [Site.source, Site.source, (World.moved_tick _ _).ctrl]
  | failed _ harmless run ih =>
      obtain ⟨retained, isFiles⟩ := failed_reconcile_retains ih.1 run
      exact ⟨ih.1.reconciled run, ((source_kept_iff retained isFiles).mpr harmless).trans ih.2⟩

/-- A restart launches the source of the site, or fails with nothing installed.  A failed
    reconcile keeps the source if and only if it is harmless; and after any number of
    harmless failures a restart that succeeds launches what it would have launched
    without them. -/
theorem failed_reconcile_keeps_source (reached : Reached around context dir site) :
    (∀ reply restarted, manage restart around site = .ok (reply, restarted) →
      (∃ error, reply = .error error) ∧ restarted.world.installs = site.world.installs ∨
        site.source around.disk ≠ none ∧ restarted.launched = site.source around.disk) ∧
    (∀ id request error site', reconcile context id request around site = .ok (.error error, site') →
      (site'.source around.disk = site.source around.disk ↔ Harmless around context request site)) ∧
    ∀ site' outcome outcome' restarted restarted', Refused around context site site' →
      manage restart around site = .ok (.ok outcome, restarted) →
      manage restart around site' = .ok (.ok outcome', restarted') →
      restarted'.launched = restarted.launched := by
  refine ⟨fun reply restarted run => ?_, fun id request error site' run => ?_, ?_⟩
  · exact restart_launches reached run
  · obtain ⟨retained, isFiles⟩ := failed_reconcile_retains reached run
    exact source_kept_iff retained isFiles
  · intro site' outcome outcome' restarted restarted' refused direct later
    obtain ⟨reached', same⟩ := refused.keeps reached
    rw [launched_of_success reached' later, launched_of_success reached direct, same]

/-! ## A run -/

/-- A document has as many entries as its file has bytes. -/
def lengthDisk : Disk where
  createDir := fun _ => none
  write := fun _ => .done
  readFault := fun _ _ => none
  notFound := "No such file or directory (os error 2)"
  parse := fun bytes => .ok (bytes.map fun _ => (.null, .null))

/-- The core comes up while a first reconcile waits for it, and its successor while the
    restart does, with or without a refused reconcile in between. -/
def calmSurroundings : Surroundings where
  env := { calmEnv with interference := fun k =>
    if k = 23 then comesUp 0 else if k = 58 ∨ k = 63 then comesUp 1 else [] }
  disk := lengthDisk

def sampleContext : ExecutorContext := ⟨['s'], ['w']⟩

def sampleRequest (bytes : Bytes) (expected : Option RevisionId) : ReconcileRequest where
  core := sampleSpec.core
  config := ⟨bytes, none⟩
  options := .default
  expectedApplied := expected

/-- A revision that is never applied. -/
def strangeRevision : RevisionId := ⟨⟨7, by decide, by decide⟩, 1, ""⟩

/-- A reconcile to one byte that succeeds, and one with a stale token that does not; the
    sites before and after the second satisfy a test. -/
def refusedAfter (bytes : Bytes) (test : Site → CoreError → Site → Bool) : Bool :=
  match build (calmSurroundings.reading []) (World.boot [] none) with
  | .ok (.ok (), w) =>
      match reconcile sampleContext ⟨1, 1, 1⟩ (sampleRequest [1] none) calmSurroundings ⟨[], w⟩ with
      | .ok (.ok _, site) =>
          match reconcile sampleContext ⟨2, 2, 2⟩ (sampleRequest bytes (some strangeRevision))
              calmSurroundings site with
          | .ok (.error error, site') => test site error site'
          | _ => false
      | _ => false
  | _ => false

theorem exists_of_refusedAfter (bytes : Bytes) (test : Site → CoreError → Site → Bool)
    (computed : refusedAfter bytes test = true) :
    ∃ site error site', Reached calmSurroundings sampleContext [] site ∧
      reconcile sampleContext ⟨2, 2, 2⟩ (sampleRequest bytes (some strangeRevision)) calmSurroundings
        site = .ok (.error error, site') ∧ test site error site' = true := by
  unfold refusedAfter at computed
  split at computed
  case h_2 => cases computed
  case h_1 w built =>
    split at computed
    case h_2 => cases computed
    case h_1 outcome site first =>
      split at computed
      case h_2 => cases computed
      case h_1 error site' second =>
        exact ⟨site, error, site', (Reached.built built).reconciled first, second, computed⟩

/-- A restart that launches a document of the length. -/
def relaunches (length : Nat) (site : Site) : Bool :=
  match manage restart calmSurroundings site with
  | .ok (.ok _, restarted) =>
      restarted.world.ctrl.current.map (·.plan.sourceDocument.length) = some length
  | _ => false

theorem exists_of_relaunches {length : Nat} (computed : relaunches length site = true) :
    ∃ outcome restarted, manage restart calmSurroundings site = .ok (.ok outcome, restarted) ∧
      restarted.world.ctrl.current.map (·.plan.sourceDocument.length) = some length := by
  unfold relaunches at computed
  split at computed
  case h_1 outcome restarted run => exact ⟨outcome, restarted, run, of_decide_eq_true computed⟩
  case h_2 => cases computed

/-- A stale request for what runs already is refused and changes nothing. -/
theorem failed_reconcile_keeps_source_stale : ∃ site error site',
    Reached calmSurroundings sampleContext [] site ∧
    reconcile sampleContext ⟨2, 2, 2⟩ (sampleRequest [1] (some strangeRevision)) calmSurroundings
      site = .ok (.error error, site') ∧
    site'.source lengthDisk = site.source lengthDisk := by
  obtain ⟨site, error, site', reached, failed, holds⟩ := exists_of_refusedAfter [1]
    (fun site _ _ => site.files.get (joinPath sampleContext.sourceDir reconcileSource) = some [1])
    (by decide +kernel)
  refine ⟨site, error, site', reached, failed,
    ((failed_reconcile_keeps_source reached).2.1 _ _ _ _ failed).mpr ?_⟩
  intro spec bytes retained own written
  rw [own, Disk.contents, of_decide_eq_true holds]
  cases written
  rfl

/-- A request that is refused for its stale token is what the next restart launches. -/
theorem refused_request_relaunched : ∃ site error site' outcome outcome' restarted restarted',
    Reached calmSurroundings sampleContext [] site ∧
    reconcile sampleContext ⟨2, 2, 2⟩ (sampleRequest [1, 1] (some strangeRevision)) calmSurroundings
      site = .ok (.error error, site') ∧ error.kind = some .revisionConflict ∧
    manage restart calmSurroundings site = .ok (.ok outcome, restarted) ∧
    manage restart calmSurroundings site' = .ok (.ok outcome', restarted') ∧
    restarted'.launched ≠ restarted.launched := by
  obtain ⟨site, error, site', reached, failed, holds⟩ := exists_of_refusedAfter [1, 1]
    (fun site error site' => error.kind = some .revisionConflict && relaunches 1 site &&
      relaunches 2 site') (by decide +kernel)
  simp only [Bool.and_eq_true, decide_eq_true_eq] at holds
  obtain ⟨⟨conflict, direct⟩, later⟩ := holds
  obtain ⟨outcome, restarted, run, one⟩ := exists_of_relaunches direct
  obtain ⟨outcome', restarted', run', two⟩ := exists_of_relaunches later
  refine ⟨site, error, site', outcome, outcome', restarted, restarted', reached, failed, conflict,
    run, run', fun same => ?_⟩
  unfold Site.launched at same
  obtain ⟨active, current, isOne⟩ := Option.map_eq_some_iff.mp one
  obtain ⟨active', current', isTwo⟩ := Option.map_eq_some_iff.mp two
  rw [current, current'] at same
  simp only [Option.map_some, Option.some.injEq, Prod.mk.injEq, Except.ok.injEq] at same
  rw [same.2, isOne] at isTwo
  cases isTwo

end Control

end Nyanpasu
