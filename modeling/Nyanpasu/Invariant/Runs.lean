import Nyanpasu.Invariant.Operations

/-! # Whole runs

The construction over a directory establishes the invariant with nothing in hand,
the environment and the operations keep it, so it holds between the operations of
every run.
-/

namespace Nyanpasu

open Naming Store Program

variable {env : Setting} {w : World}

/-! ## Under construction -/

/-- A manager over an empty directory that has done nothing. -/
def Ctx.blank (seed : Nat) (showing : Showing) : Ctx :=
  ⟨Ctrl.new seed, 0, [], [], [], [], [], [], showing, .kept⟩

/-- While no process was launched, the moves of the environment neither read nor
    change the directory and the control block. -/
theorem World.interfere_blank (ctrl : Ctrl) (dir : Dir) (move : Interference)
    (none : w.procCount = 0) :
    ({ w with ctrl := ctrl, dir := dir }.interfere move =
      { w.interfere move with ctrl := ctrl, dir := dir }) ∧
      (w.interfere move).dir = w.dir ∧ (w.interfere move).procCount = 0 := by
  cases move with
  | monitor p event => exact ⟨rfl, rfl, none⟩
  | observe p =>
      simp only [interfere, observeProc]
      split
      · split <;> exact ⟨rfl, rfl, none⟩
      · exact ⟨rfl, rfl, none⟩
  | deliver p now =>
      simp only [interfere, deliver]
      split
      · simp only [updateProc]
        split <;> exact ⟨rfl, rfl, none⟩
      · exact ⟨rfl, rfl, none⟩
  | pidFile p contents => simp [interfere, writeOwn, none]
  | socket p contents => simp [interfere, writeOwn, none]

/-- The directory has lost the files of the epochs in `gone` and gained none; but
    for it, the world is that of a new manager. -/
structure Building (env : Setting) (before : Dir) (gone : Nat → Prop) (w : World) : Prop where
  blank : Inv env (.blank env.seed .pending) { w with ctrl := Ctrl.new env.seed, dir := [] }
  fewer : ∀ name, (w.dir.get name).isSome → (before.get name).isSome
  gone : ∀ n, gone n → Absent n w.dir

theorem building_boot (env : Setting) (dir : Dir) (dnsFile : RecordFile) :
    Building env dir (fun _ => False) (World.boot dir dnsFile) where
  blank :=
    { ctrl := rfl
      count := rfl
      installs := rfl
      adopted := rfl
      valid :=
        { slotFree := fun _ slot => absurd slot (Ctrl.not_slotEpoch rfl _)
          distinct := List.nodup_nil
          issued := fun e kept => by
            rcases kept with member | slot | listed
            · cases member
            · exact absurd slot (Ctrl.not_slotEpoch rfl e)
            · exact absurd listed (Ctrl.not_quarantined rfl e)
          installed := fun _ member => by cases member
          newest := fun _ current => by cases current
          covered := fun _ member => by cases member
          recorded := fun _ current => by cases current
          matched := rfl
          apart := fun _ member => by cases member
          nodup := List.nodup_nil
          managed := fun _ member => by cases member
          vacant := fun _ none => by cases none }
      processes :=
        { tracked := fun p inside => absurd inside (Nat.not_lt_zero p)
          buried := fun _ member => by cases member
          held := fun _ member => by cases member
          slot := fun _ current => by cases current
          silent := fun _ forwards => absurd rfl forwards
          issued := fun p inside => absurd inside (Nat.not_lt_zero p)
          sound := fun _ => (Instance.launched_sound _ _ _ _ _).proven true
          forwarding := fun _ _ forwards => by cases forwards
          forwarded := fun _ current => by cases current }
      files :=
        { pinned := fun _ member => by cases member
          issued := fun _ _ present => by cases present
          owned := fun _ _ _ _ present => by cases present }
      tidy := fun _ _ _ _ _ _ present => by cases present
      issued :=
        { increasing := List.Pairwise.nil
          seeded := ⟨le_rfl, fun _ member => by cases member⟩
          issued := fun _ member => by cases member
          fresh := fun _ member => by cases member }
      shown :=
        { coherent := fun _ _ member => by cases member
          settled := fun none => by cases none
          announced := fun _ none => by cases none }
      feeding := ⟨fun _ member => (by cases member), Announced.empty.miss False.elim⟩
      dns := Dns.lived_start env dnsFile }
  fewer := fun _ => id
  gone := fun _ none => none.elim

variable {dir : Dir}

section

variable {before : Dir} {gone : Nat → Prop}

theorem Building.interfere (building : Building env before gone w) (move : Interference) :
    Building env before gone (w.interfere move) := by
  obtain ⟨same, kept, _⟩ := w.interfere_blank (Ctrl.new env.seed) [] move building.blank.count
  exact
    { blank := same ▸ building.blank.interfere move
      fewer := kept ▸ building.fewer
      gone := kept ▸ building.gone }

theorem Building.tick (building : Building env before gone w) :
    Building env before gone (w.tick env) :=
  World.tick_induction env (P := Building env before gone)
    (fun _ move building => building.interfere move)
    (fun _ _ building => ⟨{ building.blank with }, building.fewer, building.gone⟩) building

theorem keptByCleanup_building (n : Nat) :
    KeptByCleanup env n (Building env before gone) where
  tick := fun _ building => building.tick
  shrink := fun w dir building fewer _ =>
    { blank := building.blank
      fewer := fun name present => building.fewer name (fewer name present)
      gone := fun n was artifact own => by
        have absent := building.gone n was artifact own
        by_contra present
        have present := fewer artifact.name (Option.isSome_iff_ne_none.mpr present)
        simp [absent] at present }
  mark := fun w holds building => by
    have marked := building.blank.markIf (.abandoned .cleanupCutShort) holds
    unfold World.markIf at marked ⊢
    cases holds with
    | false => exact building
    | true => exact ⟨marked, building.fewer, building.gone⟩

section

variable (building : Building env before gone w)

include building

theorem Building.cleaning (n : Nat) : Cleaning (Building env before gone) n (fun _ => False) w where
  holds := building
  dead := fun p inside => by
    rw [show w.procCount = 0 from building.blank.count] at inside
    exact absurd inside (Nat.not_lt_zero p)
  gone := fun _ _ none => none.elim

theorem cleanupOwnController_ends (n : Nat) :
    Ends env (sweepArtifact.cleanupOwnController n) w (Either (fun _ _ => True) fun _ w' =>
      Building env before gone w') := by
  unfold sweepArtifact.cleanupOwnController
  cases isNew : Epoch.new n with
  | none => exact building
  | some epoch =>
      exact (cleanupController_ends (keptByCleanup_building epoch.get) building
        (building.cleaning epoch.get).dead).mono_either (fun _ _ _ => trivial)
        fun _ _ ⟨building', _⟩ => building'

theorem sweepArtifact_ends (n : Nat) :
    Ends env (sweepArtifact n) w (Either (fun _ _ => True) fun _ w' =>
      Building env before (fun x => x = n ∨ gone x) w') := by
  have kept : KeptByCleanup env n (Building env before gone) := keptByCleanup_building n
  refine ((building.cleaning n).fileOp_ends kept fun dir => ⟨_, rfl⟩).bind_either
    (fun _ _ _ => trivial) fun present w₁ ⟨cleaning₁, _⟩ => ?_
  refine (cleaning₁.ask_ends kept _).bind fun reaped w₂ cleaning₂ => ?_
  cases reaped with
  | error error => trivial
  | ok _ =>
  refine (cleanupOwnController_ends cleaning₂.holds n).bind_either (fun _ _ _ => trivial)
    fun _ w₃ building₃ => ?_
  refine (cleanupArtifacts_ends kept building₃ (building₃.cleaning n).dead).mono_either
    (fun _ _ _ => trivial) fun _ _ ⟨building₄, absent⟩ => { building₄ with gone := ?_ }
  rintro x (rfl | was)
  · exact absent
  · exact building₄.gone x was

end

theorem sweepArtifacts_ends (numbers : List Nat)
    (building : Building env before gone w) :
    Ends env (sweepArtifacts numbers) w (Either (fun _ _ => True) fun _ w' =>
      Building env before (fun x => x ∈ numbers ∨ gone x) w') := by
  induction numbers generalizing gone w with
  | nil => exact { building with gone := fun n was => building.gone n (by simpa using was) }
  | cons n rest ih =>
      refine (sweepArtifact_ends building n).bind_either (fun _ _ _ => trivial)
        fun _ w₁ building₁ => ?_
      refine (ih building₁).mono_either (fun _ _ _ => trivial) fun _ _ building₂ =>
        { building₂ with gone := fun x was => building₂.gone x ?_ }
      simpa [or_assoc, or_left_comm] using was

/-- The numbers the sweep finds in a directory. -/
def foundIn (dir : Dir) : List Nat :=
  ((dir.filterMap fun file => artifactEpoch file.1).insertionSort (· ≤ ·)).dedup

theorem mem_foundIn {artifact : Artifact} (bounded : artifact.epoch < 2 ^ 64)
    (present : (dir.get artifact.name).isSome) : artifact.epoch ∈ foundIn dir := by
  obtain ⟨contents, found⟩ := Option.isSome_iff_exists.mp present
  rw [foundIn, List.mem_dedup, List.mem_insertionSort, List.mem_filterMap]
  exact ⟨_, Dir.mem_of_get found, artifactEpoch_name bounded⟩

theorem le_foldl_max (numbers : List Nat) (start : Nat) :
    start ≤ numbers.foldl max start ∧ ∀ n ∈ numbers, n ≤ numbers.foldl max start := by
  induction numbers generalizing start with
  | nil => simp
  | cons n rest ih =>
      obtain ⟨least, all⟩ := ih (max start n)
      refine ⟨(le_max_left start n).trans least, ?_⟩
      rw [List.forall_mem_cons]
      exact ⟨(le_max_right start n).trans least, all⟩

theorem World.tick_dir (none : w.procCount = 0) : (w.tick env).dir = w.dir := by
  have kept : (w.tick env).procCount = 0 ∧ (w.tick env).dir = w.dir :=
    World.tick_induction env (P := fun v => v.procCount = 0 ∧ v.dir = w.dir)
      (fun v move ⟨still, same⟩ => by
        obtain ⟨_, dir, count⟩ := v.interfere_blank v.ctrl v.dir move still
        exact ⟨count, dir.trans same⟩)
      (fun _ _ same => same) ⟨none, rfl⟩
  exact kept.2

/-- The setting of the runs over a directory. -/
def Env.over (env : Env) (dir : Dir) : Setting := ⟨env, (foundIn dir).foldl max 0⟩

theorem sweepOrphans_ends (env : Env) (dir : Dir) (dnsFile : RecordFile) :
    Ends (env.over dir) sweepOrphans (World.boot dir dnsFile) (Either (fun _ _ => True)
      fun maxEpoch w' => maxEpoch = (env.over dir).seed ∧
        Building (env.over dir) dir (· ∈ foundIn dir) w') := by
  have listed : Ends (env.over dir) artifactEpochs (World.boot dir dnsFile)
      (Either (fun _ _ => True) fun numbers w' => numbers = foundIn dir ∧
        Building (env.over dir) dir (fun _ => False) w') := by
    have building := (building_boot (env.over dir) dir dnsFile).tick
    have same : ((World.boot dir dnsFile).tick (env.over dir)).dir = dir := World.tick_dir rfl
    unfold artifactEpochs fileOp
    refine ends_atomic ?_
    cases (env.over dir).fault (World.boot dir dnsFile).clock with
    | some failure => trivial
    | none =>
        refine ⟨?_, building⟩
        simp only [same]
        rfl
  refine listed.bind_either (fun _ _ _ => trivial) fun numbers w₁ ⟨isFound, building₁⟩ => ?_
  subst isFound
  refine (sweepArtifacts_ends _ building₁).bind_either (fun _ _ _ => trivial)
    fun _ w₂ building₂ => ?_
  exact ⟨rfl, { building₂ with gone := fun n member => building₂.gone n (.inl member) }⟩

theorem reconcileOrphanRecord_ends (building : Building env before gone w) :
    Ends env reconcileOrphanRecord w fun _ w' => Building env before gone w' := by
  refine (Dns.drifts_reconcileOrphanRecord w).also fun _ w' run drifted => ?_
  have building' := drifted.keeps (P := Building env before gone) (fun _ => Building.tick) building
  refine { building' with blank := ?_ }
  refine Inv.resync (w := { w' with ctrl := Ctrl.new env.seed, dir := [] }) building'.blank ?_
  intro dns injected
  -- whoever had the directory before is gone
  obtain ⟨origin, s, lives, views⟩ := building.blank.dns dns injected
  obtain ⟨_, _, s', _, views', completes⟩ := (Dns.simulates_reconcileOrphanRecord
    (fun _ => none) injected w { s with record := none } { views with record := rfl }).of_run run
  have builds := Dns.lives_of_completes .build completes
  exact ⟨origin, s', (((lives.tail .crash).tail .construct).trans builds).tail .built, views'⟩

/-- The new control block and the new status make it a manager with nothing in
    hand: no file of an epoch is left. -/
theorem Building.finished (building : Building env before gone w)
    (ctrl : w.ctrl = Ctrl.new env.seed)
    (absent : ∀ artifact : Artifact, artifact.epoch < 2 ^ 64 →
      (before.get artifact.name).isSome → gone artifact.epoch) (now : Int) :
    Inv env (.blank env.seed .settled) { w with status := CoreStatus.initial now } := by
  have empty (artifact : Artifact) (bounded : artifact.epoch < 2 ^ 64) :
      w.dir.get artifact.name = none := by
    by_contra present
    have present := Option.isSome_iff_ne_none.mpr present
    have was := absent artifact bounded (building.fewer _ present)
    simp [building.gone _ was artifact rfl] at present
  exact
    { building.blank with
      ctrl := ctrl
      valid := { building.blank.valid with vacant := fun _ none => by cases none }
      files :=
        { pinned := fun _ member => by cases member
          issued := fun x bounded present => by simp [empty x bounded] at present
          owned := fun _ _ x bounded present => by simp [empty x bounded] at present }
      tidy := fun _ _ epoch _ _ generation present => by
        simp [empty (.backup epoch.get generation) epoch.bounded] at present
      shown :=
        { coherent := building.blank.shown.coherent
          settled := fun _ =>
            { vacant := fun _ _ _ => rfl
              live := fun _ current => by cases current
              converged := fun _ current => by cases current }
          announced := fun _ none => by cases none } }

end

theorem build_ends (env : Env) (dir : Dir) (dnsFile : RecordFile) :
    Ends (env.over dir) build (World.boot dir dnsFile) (Either (fun _ _ => True) fun _ w' =>
      Inv (env.over dir) (.blank (env.over dir).seed .settled) w') := by
  refine (sweepOrphans_ends env dir dnsFile).bind_either (fun _ _ _ => trivial)
    fun maxEpoch w₁ ⟨isSeed, building₁⟩ => ?_
  subst isSeed
  refine (reconcileOrphanRecord_ends building₁).bind fun _ w₂ building₂ => bind_setCtrl ?_
  have building₃ : Building (env.over dir) dir (· ∈ foundIn dir)
      { w₂ with ctrl := Ctrl.new (env.over dir).seed } :=
    { building₂ with }
  exact building₃.tick.finished (World.moved_tick _ _).ctrl
    (fun _ bounded present => mem_foundIn bounded present) _

/-! ## Runs -/

/-- A world between two operations. -/
def Stable (env : Setting) (w : World) : Prop := ∃ c, Inv env c w ∧ c.Idle env

theorem Reachable.stable {env : Env} (reachable : Reachable env dir w) :
    Stable (env.over dir) w := by
  induction reachable with
  | built run =>
      exact ⟨_, (build_ends env dir _).of_run run, .vacant rfl rfl rfl rfl rfl rfl⟩
  | moved _ ih =>
      obtain ⟨c, inv, idle⟩ := ih
      exact ⟨c, inv.tick, idle⟩
  | operated _ run ih =>
      obtain ⟨c, inv, idle⟩ := ih
      obtain ⟨c', inv', idle', _⟩ := Operation.leaves inv idle run
      exact ⟨c', inv', idle'⟩

theorem Reachable.run {env : Env} {w' : World} {replies : List (Except Error Reply)}
    (reachable : Reachable env dir w) (operations : List Operation)
    (run : operations.mapM Operation.run env w = .ok (replies, w')) : Reachable env dir w' := by
  induction operations generalizing w replies with
  | nil =>
      cases run
      exact reachable
  | cons operation rest ih =>
      rw [List.mapM_cons] at run
      obtain ⟨reply, w₁, first, run⟩ := run_bind run
      obtain ⟨others, w₂, later, run⟩ := run_bind run
      cases run
      exact ih (reachable.operated first) later

/-- The last world of a computed run satisfies a test. -/
def endsWith (env : Env) (dir : Dir) (operations : List Operation) (test : World → Bool) : Bool :=
  match execute env dir operations with
  | .ok (.ok (), _, w) => test w
  | _ => false

theorem reachable_of_endsWith (env : Env) (dir : Dir) (operations : List Operation)
    (test : World → Bool) (computed : endsWith env dir operations test = true) :
    ∃ w, Reachable env dir w ∧ test w = true := by
  unfold endsWith at computed
  split at computed
  case h_2 => cases computed
  case h_1 replies w run =>
    refine ⟨w, ?_, computed⟩
    simp only [execute, bind, Except.bind] at run
    split at run
    · cases run
    case h_2 ended built =>
      obtain ⟨result, w₁⟩ := ended
      split at run
      · cases run
      case h_2 finished ran =>
        obtain ⟨replies', w₂⟩ := finished
        cases run
        exact (Reachable.built built).run operations ran

end Nyanpasu
