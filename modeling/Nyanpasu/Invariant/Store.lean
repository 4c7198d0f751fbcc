import Nyanpasu.Invariant.Context

/-! # The store under the invariant

Each store function in one specification: the context it may be called in, and
what it leaves pinned or absent.  `Ends` is the reading of programs used for
every operation: the only ways to abort are running out of epochs or of
generations, so in particular no `expect` fails.
-/

namespace Nyanpasu

open Naming Store Program

def Tolerated (panic : Panic) : Prop :=
  panic = .epochSpaceExhausted ∨ panic = .generationOverflow

abbrev Ends {α : Type} (env : Setting) (program : Manager α) (w : World)
    (post : α → World → Prop) : Prop :=
  Ensures Tolerated env.toEnv program w post

variable {α β : Type} {env : Setting} {c : Ctx} {w : World}

variable {f : Env → Nat → World → α × World} {post : α → World → Prop}

/-! ## Atomic steps -/

theorem ends_atomic (holds : post (f env w.clock (w.tick env)).1 (f env w.clock (w.tick env)).2) :
    Ends env (atomic f) w post :=
  holds

theorem ends_observe {f : World → α} (holds : post (f (w.tick env)) (w.tick env))
    : Ends env (observe f) w post :=
  holds

theorem ends_update {f : World → World} {post : Unit → World → Prop}
    (holds : post () (f (w.tick env))) : Ends env (update f) w post :=
  holds

theorem Inv.ends_atomic (inv : Inv env c w)
    (holds : ∀ k v, Inv env c v → post (f env k v).1 (f env k v).2) : Ends env (atomic f) w post :=
  holds w.clock _ inv.tick

theorem Inv.ends_ask (inv : Inv env c w) (answer : Env → Nat → α) :
    Ends env (ask answer) w fun a w' => Inv env c w' ∧ ∃ k, a = answer env k :=
  inv.ends_atomic fun k _ inv' => ⟨inv', k, rfl⟩

theorem Inv.ends_observe (inv : Inv env c w) (f : World → α) :
    Ends env (observe f) w fun a w' => Inv env c w' ∧ a = f w' :=
  inv.ends_atomic fun _ _ inv' => ⟨inv', rfl⟩

/-- Reading the control block gives the one of the context. -/
theorem Inv.bind_getCtrl {rest : Ctrl → Manager β} {post : β → World → Prop} (inv : Inv env c w)
    (next : Ends env (rest c.ctrl) w post) : Ends env (getCtrl >>= rest) w post := by
  refine ensures_bind (ensures_act ?_)
  rw [inv.ctrl]
  exact next

variable {rest : Unit → Manager β}

theorem bind_setCtrl {ctrl : Ctrl} {post : β → World → Prop}
    (next : Ends env (rest ()) { w with ctrl := ctrl } post) :
    Ends env (setCtrl ctrl >>= rest) w post :=
  ensures_bind (ensures_act next)

theorem bind_mark {place : Mark} {holds : World → Bool} {post : β → World → Prop}
    (next : Ends env (rest ()) (w.markIf place (holds w)) post) :
    Ends env (mark place holds >>= rest) w post :=
  ensures_bind (ensures_act next)

variable {saved : List Artifact}

section

variable (inv : Inv env c w)

include inv

theorem Inv.ends_fileOp {f : Dir → Except Error (α × Dir)} {post : Except Error α → World → Prop}
    (failed : ∀ error v, Inv env c v → post (.error error) v)
    (done : ∀ a dir v, Inv env c v → f v.dir = .ok (a, dir) → post (.ok a) { v with dir := dir }) :
    Ends env (fileOp f) w post := by
  refine inv.ends_atomic fun k v inv' => ?_
  cases env.fault k with
  | some failure => exact failed _ _ inv'
  | none =>
      cases result : f v.dir with
      | error error => exact failed _ _ inv'
      | ok outcome =>
          obtain ⟨a, dir⟩ := outcome
          exact done a dir v inv' result

/-- A file operation that only looks. -/
theorem Inv.ends_look {f : Dir → Except Error (α × Dir)}
    (looks : ∀ dir a dir', f dir = .ok (a, dir') → dir' = dir) :
    Ends env (fileOp f) w fun result w' =>
      Inv env c w' ∧ ∀ a, result = .ok a → f w'.dir = .ok (a, w'.dir) := by
  refine inv.ends_fileOp (fun _ _ inv' => ⟨inv', by simp⟩) fun a dir v inv' result => ?_
  have same := looks _ _ _ result
  subst same
  exact ⟨inv', fun _ ok => by cases ok; exact result⟩

/-! ## Changing the directory -/

/-- The directory changes together with what is pinned in it and what has to be
    removed from it. -/
theorem Inv.withDir {files : List (Artifact × Bytes)} {dir : Dir}
    (valid : ∀ file ∈ files, file.1.managed = true)
    (changed : Files env c.ctrl c.owned files dir w.marks)
    (tidy : Tidy env c.ctrl c.owned saved dir w.marks) :
    Inv env { c with files := files, saved := saved } { w with dir := dir } :=
  { inv with valid := { inv.valid with managed := valid }, files := changed, tidy := tidy }

theorem Inv.unpin (files : List (Artifact × Bytes)) (fewer : ∀ file ∈ files, file ∈ c.files)
    : Inv env { c with files := files } w :=
  inv.withDir (fun file member => inv.valid.managed file (fewer file member))
    { inv.files with pinned := fun file member => inv.files.pinned file (fewer file member) }
    inv.tidy

/-- Write a file of a kept epoch that is not pinned, and pin it. -/
theorem Inv.write {artifact : Artifact} {contents : Bytes} {epoch : Epoch}
    (managed : artifact.managed = true) (own : artifact.epoch = epoch.get)
    (keeps : Keeps c.ctrl c.owned epoch) (unpinned : ∀ file ∈ c.files, file.1 ≠ artifact) :
    Inv env { c with files := (artifact, contents) :: c.files, saved := artifact.saves ++ c.saved }
      { w with dir := w.dir.write artifact.name contents } := by
  refine inv.withDir (fun file member => ?_) ⟨fun file member => ?_, fun x bounded present => ?_,
    fun removals kept x bounded present => ?_⟩ (inv.tidy.write artifact contents)
  · rcases List.mem_cons.mp member with rfl | member
    · exact managed
    · exact inv.valid.managed file member
  · rcases List.mem_cons.mp member with rfl | member
    · rw [Dir.get_write, if_pos rfl]
    · rw [Dir.get_write, if_neg (fun same => unpinned file member (Artifact.name_inj.mp same))]
      exact inv.files.pinned file member
  · rw [Dir.get_write] at present
    split at present
    case isTrue same =>
      rw [Artifact.name_inj.mp same, own]
      exact inv.valid.issued epoch keeps
    case isFalse => exact inv.files.issued x bounded present
  · rw [Dir.get_write] at present
    split at present
    case isTrue same => exact ⟨epoch, by rw [Artifact.name_inj.mp same, own], keeps⟩
    case isFalse => exact inv.files.owned removals kept x bounded present

/-- Removing files that are not pinned is always allowed. -/
theorem Inv.remove {dir : Dir}
    (kept : ∀ file ∈ c.files, dir.get file.1.name = w.dir.get file.1.name)
    (fewer : ∀ name, (dir.get name).isSome → (w.dir.get name).isSome) :
    Inv env c { w with dir := dir } :=
  inv.withDir inv.valid.managed
    { pinned := fun file member => (kept file member).trans (inv.files.pinned file member)
      issued := fun x bounded present => inv.files.issued x bounded (fewer _ present)
      owned := fun removals free x bounded present =>
        inv.files.owned removals free x bounded (fewer _ present) }
    (inv.tidy.remove fewer)

/-- Once a backup was left unsynced, nothing is said about backups any more. -/
theorem Inv.forsake (saved : List Artifact) (marked : .unsyncedBackup ∈ w.marks)
    : Inv env { c with saved := saved } w :=
  { inv with valid := { inv.valid with }, tidy := fun _ synced => absurd marked synced }

theorem Inv.erase {artifact : Artifact} (unpinned : ∀ file ∈ c.files, file.1 ≠ artifact) :
    Inv env c { w with dir := w.dir.erase artifact.name } := by
  refine inv.remove (fun file member => ?_) fun name present => ?_
  · rw [Dir.get_erase, if_neg (fun same => unpinned file member (Artifact.name_inj.mp same))]
  · rw [Dir.get_erase] at present
    split at present
    · cases present
    · exact present

/-- A file that was to be removed is removed. -/
theorem Inv.eraseSaved {artifact : Artifact} (inHand : c.saved = artifact :: saved)
    (unpinned : ∀ file ∈ c.files, file.1 ≠ artifact) :
    Inv env { c with saved := saved } { w with dir := w.dir.erase artifact.name } := by
  have erased := inv.erase unpinned
  refine { erased with
    valid := { erased.valid with }
    tidy := fun removals synced epoch keeps unlisted generation present => ?_ }
  have listed := erased.tidy removals synced epoch keeps unlisted generation present
  rw [inHand] at listed
  refine (List.mem_cons.mp listed).resolve_left fun same => ?_
  rw [Dir.get_erase, same, if_pos rfl] at present
  cases present

/-! ## File operations -/

theorem setPermissions_ends (path : FileName) :
    Ends env (setPermissions path) w fun _ w' => Inv env c w' :=
  (inv.ends_look fun _ _ _ done => by cases done; rfl).mono fun _ _ kept => kept.1

theorem syncDir_ends : Ends env syncDir w fun _ w' => Inv env c w' :=
  (inv.ends_look fun _ _ _ done => by cases done; rfl).mono fun _ _ kept => kept.1

theorem validateAbsentRegularTarget_ends (path : FileName) :
    Ends env (validateAbsentRegularTarget path) w fun _ w' => Inv env c w' := by
  refine (inv.ends_look fun dir a dir' done => ?_).mono fun _ _ kept => kept.1
  split at done <;> cases done
  rfl

theorem validateExistingRegularTarget_ends (path : FileName) :
    Ends env (validateExistingRegularTarget path) w fun _ w' => Inv env c w' := by
  refine (inv.ends_look fun dir a dir' done => ?_).mono fun _ _ kept => kept.1
  split at done <;> cases done
  rfl

theorem readFile_ends {artifact : Artifact} {contents : Bytes}
    (pinned : (artifact, contents) ∈ c.files) :
    Ends env (readFile artifact.name) w
      (Either (fun _ w' => Inv env c w') fun read w' => read = contents ∧ Inv env c w') := by
  refine (inv.ends_look fun dir a dir' done => ?_).mono ?_
  · split at done <;> cases done
    rfl
  · rintro (error | read) w' ⟨inv', done⟩
    · exact inv'
    · have done := done read rfl
      rw [inv'.files.pinned _ pinned] at done
      cases done
      exact ⟨rfl, inv'⟩

theorem createNew_ends {artifact : Artifact} {epoch : Epoch} (managed : artifact.managed = true)
    (own : artifact.epoch = epoch.get) (keeps : Keeps c.ctrl c.owned epoch) :
    Ends env (createNew artifact.name) w (Either (fun _ w' => Inv env c w')
      fun _ w' => (∀ file ∈ c.files, file.1 ≠ artifact) ∧ Inv env { c with
        files := (artifact, []) :: c.files, saved := artifact.saves ++ c.saved } w') := by
  refine inv.ends_fileOp (fun _ _ inv' => inv') fun a dir v inv' done => ?_
  split at done
  · cases done
  · rename_i absent
    cases done
    have unpinned : ∀ file ∈ c.files, file.1 ≠ artifact := by
      rintro file member rfl
      exact absent (by simp [inv'.files.pinned file member])
    exact ⟨unpinned, inv'.write managed own keeps unpinned⟩

theorem writeAll_ends {files : List (Artifact × Bytes)} {artifact : Artifact} {old : Bytes}
    (pinned : c.files = (artifact, old) :: files) {epoch : Epoch} (own : artifact.epoch = epoch.get)
    (keeps : Keeps c.ctrl c.owned epoch) (unpinned : ∀ file ∈ files, file.1 ≠ artifact)
    (contents : Bytes) :
    Ends env (writeAll artifact.name contents) w (Either
      (fun _ w' => Inv env { c with files := files } w')
      fun _ w' => Inv env { c with
        files := (artifact, contents) :: files, saved := artifact.saves ++ c.saved } w') := by
  have managed := inv.valid.managed (artifact, old) (by simp [pinned])
  refine (inv.unpin files (by simp +contextual [pinned])).ends_fileOp
    (fun _ _ inv' => inv') fun a dir v inv' done => ?_
  cases done
  exact inv'.write managed own keeps unpinned

theorem removeRegularFile_ends {artifact : Artifact}
    (unpinned : ∀ file ∈ c.files, file.1 ≠ artifact) :
    Ends env (removeRegularFile artifact.name) w fun _ w' => Inv env c w' := by
  refine inv.ends_atomic fun k v inv' => ?_
  cases env.removeFault k with
  | some failure => exact inv'
  | none => exact inv'.erase unpinned

/-- A rename within the epoch: what was pinned at the source is now at the target. -/
theorem Inv.move {files kept : List (Artifact × Bytes)} {source target : Artifact}
    {contents : Bytes} (pinned : c.files = (source, contents) :: files) {epoch : Epoch}
    (managed : target.managed = true) (own : target.epoch = epoch.get)
    (keeps : Keeps c.ctrl c.owned epoch) (fewer : ∀ file ∈ kept, file ∈ files)
    (unpinned : ∀ file ∈ kept, file.1 ≠ source ∧ file.1 ≠ target) :
    Inv env { c with files := (target, contents) :: kept, saved := target.saves ++ c.saved }
      { w with dir := (w.dir.erase source.name).write target.name contents } :=
  ((inv.unpin _ fun file member =>
    pinned ▸ List.mem_cons_of_mem _ (fewer file member)).erase
    fun file member => (unpinned file member).1).write managed own keeps
    fun file member => (unpinned file member).2

section

variable {files : List (Artifact × Bytes)} {source : Artifact} {contents : Bytes}
  (pinned : c.files = (source, contents) :: files) (target : Artifact) {epoch : Epoch}
  (managed : target.managed = true) (own : target.epoch = epoch.get)
  (keeps : Keeps c.ctrl c.owned epoch) (unpinned : ∀ file ∈ files, file.1 ≠ source)

include pinned target managed own keeps unpinned

theorem atomicMoveNew_ends :
    Ends env (atomicMoveNew source.name target.name) w (Either
      (fun _ w' => Inv env { c with files := files } w')
      fun _ w' => (∀ file ∈ files, file.1 ≠ target) ∧ Inv env { c with
        files := (target, contents) :: files, saved := target.saves ++ c.saved } w') := by
  refine inv.ends_fileOp (fun _ _ inv' => inv'.unpin _ (by simp +contextual [pinned]))
    fun a dir v inv' done => ?_
  have present := inv'.files.pinned (source, contents) (by simp [pinned])
  simp only [present] at done
  split at done
  · cases done
  · rename_i absent
    cases done
    have free : ∀ file ∈ files, file.1 ≠ target := by
      rintro file member rfl
      exact absent (by simp [inv'.files.pinned file (pinned ▸ List.mem_cons_of_mem _ member)])
    exact ⟨free, inv'.move pinned managed own keeps (fun _ => id)
      fun file member => ⟨unpinned file member, free file member⟩⟩

theorem atomicReplace_ends :
    Ends env (atomicReplace source.name target.name) w (Either
      (fun _ w' => Inv env { c with files := files } w')
      fun _ w' => Inv env { c with
        files := (target, contents) :: files.filter (·.1 ≠ target)
        saved := target.saves ++ c.saved } w') := by
  refine inv.ends_fileOp (fun _ _ inv' => inv'.unpin _ (by simp +contextual [pinned]))
    fun a dir v inv' done => ?_
  have present := inv'.files.pinned (source, contents) (by simp [pinned])
  simp only [present] at done
  cases done
  refine inv'.move pinned managed own keeps (fun file member => (List.mem_filter.mp member).1)
    fun file member => ⟨unpinned file (List.mem_filter.mp member).1, ?_⟩
  simpa using (List.mem_filter.mp member).2

end

end

/-! ## Staging and committing -/

/-- What a staging is called on disk. -/
def StagedAs (staged : StagedRuntimeConfig) (epoch : Epoch) (artifact : Artifact) : Prop :=
  staged.path = artifact.name ∧ ∃ process counter, artifact = .staged epoch.get process counter

theorem StagedAs.not_config {staged : StagedRuntimeConfig} {epoch : Epoch} {artifact : Artifact}
    (named : StagedAs staged epoch artifact) (n : Nat) : Artifact.config n ≠ artifact := by
  obtain ⟨_, process, counter, rfl⟩ := named
  exact Artifact.noConfusion

theorem stage_ends (inv : Inv env c w) {epoch : Epoch} (keeps : Keeps c.ctrl c.owned epoch)
    (contents : Bytes) :
    Ends env (stage epoch contents) w (Either (fun _ w' => Inv env c w')
      fun staged w' => ∃ artifact, StagedAs staged epoch artifact ∧
        (∀ file ∈ c.files, file.1 ≠ artifact) ∧
        Inv env { c with files := (artifact, contents) :: c.files } w') := by
  refine (inv.ends_ask _).bind fun ids w₁ ⟨inv₁, _⟩ => ?_
  obtain ⟨process, counter⟩ := ids
  have named : StagedAs ⟨(Artifact.staged epoch.get process counter).name⟩ epoch
    (.staged epoch.get process counter) := ⟨rfl, process, counter, rfl⟩
  refine (validateAbsentRegularTarget_ends inv₁ _).bind fun absent w₂ inv₂ => ?_
  cases absent with
  | error error => exact inv₂
  | ok _ =>
  refine (createNew_ends inv₂ rfl rfl keeps).bind_either (fun error w₃ inv₃ => inv₃)
    fun _ w₃ ⟨unpinned, inv₃⟩ => ?_
  refine (setPermissions_ends inv₃ _).bind fun permitted w₄ inv₄ => ?_
  cases permitted with
  | error error => exact inv₄.unpin _ (by simp +contextual)
  | ok _ =>
  refine (writeAll_ends inv₄ rfl rfl keeps unpinned contents).bind_either (fun error w₅ inv₅ => ?_)
    fun _ w₅ inv₅ => ⟨_, named, unpinned, inv₅⟩
  exact (removeRegularFile_ends inv₅ unpinned).bind fun _ _ inv₆ => inv₆

section

variable {staged : StagedRuntimeConfig} {epoch : Epoch} {artifact : Artifact} {contents : Bytes}
  {files : List (Artifact × Bytes)}

theorem dropStaged_ends (inv : Inv env c w) (named : StagedAs staged epoch artifact)
    (unpinned : ∀ file ∈ c.files, file.1 ≠ artifact) :
    Ends env (dropStaged staged) w fun _ w' => Inv env c w' := by
  rw [dropStaged, named.1]
  exact (removeRegularFile_ends inv unpinned).bind fun _ _ inv' => inv'

/-- Giving a staging up: it is no longer relied on, and then it is removed. -/
theorem dropStaged_unpins (inv : Inv env c w) (pinned : c.files = (artifact, contents) :: files)
    (named : StagedAs staged epoch artifact) (unpinned : ∀ file ∈ files, file.1 ≠ artifact) :
    Ends env (dropStaged staged) w fun _ w' => Inv env { c with files := files } w' :=
  dropStaged_ends (inv.unpin files (by simp +contextual [pinned])) named unpinned

theorem validateStaged_ends (inv : Inv env c w) (staged : StagedRuntimeConfig) (epoch : Epoch) :
    Ends env (validateStaged staged epoch) w fun _ w' => Inv env c w' := by
  unfold validateStaged
  split
  · exact validateExistingRegularTarget_ends inv _
  · exact inv

variable (inv : Inv env c w) (pinned : c.files = (artifact, contents) :: files)
  (named : StagedAs staged epoch artifact) (keeps : Keeps c.ctrl c.owned epoch)
  (unpinned : ∀ file ∈ files, file.1 ≠ artifact)

include inv pinned named keeps unpinned

theorem commitNew_ends :
    Ends env (commitNew staged epoch) w (Either
      (fun _ w' => Inv env { c with files := files } w')
      fun path w' => path = runtimePath epoch ∧ (∀ file ∈ files, file.1 ≠ .config epoch.get) ∧
        Inv env { c with files := (.config epoch.get, contents) :: files } w') := by
  refine (validateStaged_ends inv staged epoch).bind fun valid w₁ inv₁ => ?_
  cases valid with
  | error error => exact (dropStaged_unpins inv₁ pinned named unpinned).bind fun _ _ inv' => inv'
  | ok _ =>
  refine (validateAbsentRegularTarget_ends inv₁ _).bind fun absent w₂ inv₂ => ?_
  cases absent with
  | error error => exact (dropStaged_unpins inv₂ pinned named unpinned).bind fun _ _ inv' => inv'
  | ok _ =>
  rw [named.1]
  refine (atomicMoveNew_ends inv₂ pinned (.config epoch.get) rfl rfl keeps unpinned).bind_either
    (fun error w₃ inv₃ => ?_) fun _ w₃ ⟨free, inv₃⟩ => ?_
  · exact (dropStaged_ends inv₃ named unpinned).bind fun _ _ inv₄ => inv₄
  refine (syncDir_ends inv₃).bind fun synced w₄ inv₄ => ?_
  cases synced with
  | error error => exact inv₄.unpin _ (by simp +contextual)
  | ok _ => exact ⟨rfl, free, inv₄⟩

theorem commitReplace_ends :
    Ends env (commitReplace staged epoch) w (Either
      (fun _ w' => Inv env { c with files := files } w')
      fun _ w' => Inv env
        { c with files := (.config epoch.get, contents) :: files.filter (·.1 ≠ .config epoch.get) }
        w') := by
  refine (validateStaged_ends inv staged epoch).bind fun valid w₁ inv₁ => ?_
  cases valid with
  | error error => exact (dropStaged_unpins inv₁ pinned named unpinned).bind fun _ _ inv' => inv'
  | ok _ =>
  refine (validateExistingRegularTarget_ends inv₁ _).bind fun present w₂ inv₂ => ?_
  cases present with
  | error error => exact (dropStaged_unpins inv₂ pinned named unpinned).bind fun _ _ inv' => inv'
  | ok _ =>
  rw [named.1]
  refine (atomicReplace_ends inv₂ pinned (.config epoch.get) rfl rfl keeps unpinned).bind_either
    (fun error w₃ inv₃ => ?_) fun _ w₃ inv₃ => ?_
  · exact (dropStaged_ends inv₃ named unpinned).bind fun _ _ inv₄ => inv₄
  · exact (syncDir_ends inv₃).bind fun _ _ inv₄ => inv₄

end

/-! ## Backups -/

section

variable {epoch : Epoch} {generation : Nat} {contents : Bytes}

theorem backup_ends (inv : Inv env c w) (keeps : Keeps c.ctrl c.owned epoch)
    (pinned : (.config epoch.get, contents) ∈ c.files) :
    Ends env (backup epoch generation) w (Either (fun _ w' => Inv env c w')
      fun backup w' => backup = ⟨backupPath epoch generation, epoch⟩ ∧
        (∀ file ∈ c.files, file.1 ≠ .backup epoch.get generation) ∧ Inv env { c with
          files := (.backup epoch.get generation, contents) :: c.files
          saved := .backup epoch.get generation :: c.saved } w') := by
  refine (validateExistingRegularTarget_ends inv _).bind fun present w₁ inv₁ => ?_
  cases present with
  | error error => exact inv₁
  | ok _ =>
  refine (readFile_ends inv₁ pinned).bind_either (fun _ _ inv₂ => inv₂) fun read w₂ ⟨same, inv₂⟩ => ?_
  subst same
  refine (stage_ends inv₂ keeps read).bind_either (fun _ _ inv₃ => inv₃)
    fun staged w₃ ⟨artifact, named, unpinned, inv₃⟩ => ?_
  refine (validateAbsentRegularTarget_ends inv₃ _).bind fun absent w₄ inv₄ => ?_
  cases absent with
  | error error => exact (dropStaged_unpins inv₄ rfl named unpinned).bind fun _ _ inv₅ => inv₅
  | ok _ =>
  rw [named.1]
  refine (atomicMoveNew_ends inv₄ rfl (.backup epoch.get generation) rfl rfl keeps
    unpinned).bind_either (fun error w₅ inv₅ => ?_) fun _ w₅ ⟨free, inv₅⟩ => ?_
  · exact (dropStaged_ends inv₅ named unpinned).bind fun _ _ inv₆ => inv₆
  refine (syncDir_ends inv₅).bind fun synced w₆ inv₆ => ?_
  cases synced with
  | error error =>
      refine bind_mark ?_
      have marked := (inv₆.mark .unsyncedBackup).forsake c.saved List.mem_cons_self
      exact marked.unpin _ (by simp +contextual)
  | ok _ => exact ⟨rfl, free, inv₆⟩

theorem restore_ends (inv : Inv env c w) (keeps : Keeps c.ctrl c.owned epoch)
    (pinned : (.backup epoch.get generation, contents) ∈ c.files) :
    Ends env (restore ⟨backupPath epoch generation, epoch⟩) w (Either (fun _ w' => Inv env c w')
      fun _ w' => Inv env { c with
        files := (.config epoch.get, contents) :: c.files.filter (·.1 ≠ .config epoch.get) }
        w') := by
  refine (validateExistingRegularTarget_ends inv _).bind fun present w₁ inv₁ => ?_
  cases present with
  | error error => exact inv₁
  | ok _ =>
  refine (readFile_ends inv₁ pinned).bind_either (fun _ _ inv₂ => inv₂) fun read w₂ ⟨same, inv₂⟩ => ?_
  subst same
  refine (stage_ends inv₂ keeps read).bind_either (fun _ _ inv₃ => inv₃)
    fun staged w₃ ⟨artifact, named, unpinned, inv₃⟩ => ?_
  have replaced := commitReplace_ends inv₃ rfl named keeps unpinned
  exact replaced

/-- The backup is gone, or a removal failed. -/
theorem removeBackup_ends (inv : Inv env c w)
    (inHand : c.saved = .backup epoch.get generation :: saved)
    (unpinned : ∀ file ∈ c.files, file.1 ≠ .backup epoch.get generation) :
    Ends env (removeBackup ⟨backupPath epoch generation, epoch⟩) w fun _ w' =>
      Inv env { c with saved := saved } w' := by
  unfold removeBackup removeRegularFile
  refine inv.ends_atomic fun k v inv' => ?_
  cases fault : env.removeFault k with
  | some failure =>
      exact { inv' with
        valid := { inv'.valid with }
        tidy := fun removals => by simp [removals.1 k] at fault }
  | none => exact inv'.eraseSaved inHand unpinned

end

end Nyanpasu
