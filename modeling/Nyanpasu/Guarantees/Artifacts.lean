import Nyanpasu.Guarantees.Processes

/-! # Epochs and their files

Epochs are fresh: each is larger than everything found or handed out before, and
nothing of it exists when it is handed out.  Files that nobody owns are left at the
marked exits only, and the current epoch has a backup only if the sync after its
rename failed.
-/

namespace Nyanpasu

open Naming Store

variable {env : Env} {dir : Dir} {w : World}

/-! ## Fresh epochs -/

theorem le_seed {file : FileName × Bytes} {n : Nat} (member : file ∈ dir)
    (parsed : artifactEpoch file.1 = some n) : n ≤ (env.over dir).seed := by
  have found : n ∈ foundIn dir := by
    rw [foundIn, List.mem_dedup, List.mem_insertionSort, List.mem_filterMap]
    exact ⟨file, member, parsed⟩
  exact (le_foldl_max (foundIn dir) 0).2 n found

/-- Newest first, every epoch is larger than the earlier ones and than every number
    found at construction; and no artifact of it was there when it was handed out. -/
theorem allocated_epochs_fresh (reachable : Reachable env dir w) :
    (w.allocated.map (·.1.get)).Pairwise (· > ·) ∧
      ∀ entry ∈ w.allocated,
        (∀ file ∈ dir, ∀ n, artifactEpoch file.1 = some n → n < entry.1.get) ∧
          ∀ artifact : Artifact, artifact.epoch = entry.1.get → entry.2.get artifact.name = none := by
  obtain ⟨c, inv, _⟩ := reachable.stable
  refine ⟨inv.issued.increasing, fun entry member => ⟨?_, inv.issued.fresh entry member⟩⟩
  intro file present n parsed
  have seeded := inv.issued.seeded.2 entry member
  have found : n ≤ (env.over dir).seed := le_seed present parsed
  omega

/-- Over the remains of epochs 3 and 8, a start and a switch take epochs 9 and 10. -/
theorem allocated_epochs_fresh_after_orphans : ∃ w,
    Reachable calmEnv [((Artifact.config 3).name, []), ((Artifact.pid 8).name, [])] w ∧
    w.allocated.map (·.1.get) = [10, 9] ∧
    (w.allocated.map (·.1.get)).Pairwise (· > ·) ∧
      ∀ entry ∈ w.allocated,
        (∀ file ∈ ([((Artifact.config 3).name, []), ((Artifact.pid 8).name, [])] : Dir),
          ∀ n, artifactEpoch file.1 = some n → n < entry.1.get) ∧
          ∀ artifact : Artifact, artifact.epoch = entry.1.get →
            entry.2.get artifact.name = none := by
  obtain ⟨w, reachable, holds⟩ := reachable_of_endsWith calmEnv
    [((Artifact.config 3).name, []), ((Artifact.pid 8).name, [])]
    [.start sampleSpec, .switch sampleSpec] (fun w => w.allocated.map (·.1.get) = [10, 9])
    (by decide +kernel)
  exact ⟨w, reachable, of_decide_eq_true holds, allocated_epochs_fresh reachable⟩

/-! ## Owned files -/

/-- While removals succeed and no exit is taken that abandons an epoch, every
    artifact belongs to the current epoch or to a quarantined one. -/
theorem artifacts_owned (removals : env.RemovalsSucceed) (reachable : Reachable env dir w)
    (kept : ∀ exit, .abandoned exit ∉ w.marks) {artifact : Artifact}
    (bounded : artifact.epoch < 2 ^ 64) (present : (w.dir.get artifact.name).isSome) :
    (∃ active, w.ctrl.current = some active ∧ active.plan.revision.epoch.get = artifact.epoch) ∨
      ∃ entry ∈ w.ctrl.quarantine, entry.epoch.get = artifact.epoch := by
  obtain ⟨c, inv, idle⟩ := reachable.stable
  have free : ¬ Abandoned w.marks := fun ⟨exit, marked⟩ => kept exit marked
  obtain ⟨epoch, same, keeps⟩ := inv.files.owned removals free artifact bounded present
  rw [inv.ctrl, same]
  rcases keeps with member | ⟨active, current, rfl⟩ | ⟨entry, member, rfl⟩
  · simp [idle.owned] at member
  · exact .inl ⟨active, current, rfl⟩
  · exact .inr ⟨entry, member, rfl⟩

/-- A candidate that stays under quarantine keeps its file beside the current one. -/
theorem artifacts_owned_beside : ∃ w, Reachable stubbornEnv [] w ∧
    (w.dir.get (Artifact.config 2).name).isSome ∧
    ((∃ active, w.ctrl.current = some active ∧ active.plan.revision.epoch.get = 2) ∨
      ∃ entry ∈ w.ctrl.quarantine, entry.epoch.get = 2) := by
  obtain ⟨w, reachable, holds⟩ := reachable_of_endsWith stubbornEnv []
    [.start sampleSpec, .switch sampleSpec]
    (fun w => (w.dir.get (Artifact.config 2).name).isSome && w.marks = [.quarantinedBesideLive])
    (by decide +kernel)
  simp only [Bool.and_eq_true, decide_eq_true_eq] at holds
  obtain ⟨present, marks⟩ := holds
  refine ⟨w, reachable, present, ?_⟩
  exact artifacts_owned ⟨fun _ => rfl, fun _ => rfl⟩ reachable (by simp [marks])
    (show (Artifact.config 2).epoch < 2 ^ 64 by decide) present

/-- Applying a configuration takes a switch, and the directory cannot be synced once
    the new runtime file has been renamed into place. -/
def unsyncedEnv : Env :=
  { calmEnv with
    pipeline := { lengthPipeline with classify := fun _ _ => .ok .switch }
    fault := fun k => if k = 52 then some ⟨.io "sync failed", rfl⟩ else none }

/-- The new epoch's file is left behind: its epoch is neither current nor
    quarantined. -/
theorem artifact_abandoned : ∃ w, Reachable unsyncedEnv [] w ∧ unsyncedEnv.RemovalsSucceed ∧
    (w.dir.get (Artifact.config 2).name).isSome ∧
    ¬ ((∃ active, w.ctrl.current = some active ∧ active.plan.revision.epoch.get = 2) ∨
      ∃ entry ∈ w.ctrl.quarantine, entry.epoch.get = 2) := by
  obtain ⟨w, reachable, holds⟩ := reachable_of_endsWith unsyncedEnv []
    [.start sampleSpec, .applyConfig sampleSpec none]
    (fun w => (w.dir.get (Artifact.config 2).name).isSome &&
      (w.ctrl.current.map (·.plan.revision.epoch.get) = some 1 && w.ctrl.quarantine.isEmpty))
    (by decide +kernel)
  simp only [Bool.and_eq_true, decide_eq_true_eq, List.isEmpty_iff] at holds
  obtain ⟨present, current, clear⟩ := holds
  refine ⟨w, reachable, ⟨fun _ => rfl, fun _ => rfl⟩, present, ?_⟩
  rintro (⟨active, slot, second⟩ | ⟨entry, member, _⟩)
  · simp [slot, second] at current
  · simp [clear] at member

/-! ## Backups -/

theorem backup_absent (removals : env.RemovalsSucceed) (reachable : Reachable env dir w)
    (synced : .unsyncedBackup ∉ w.marks) {active : Active}
    (current : w.ctrl.current = some active) (generation : Nat) :
    w.dir.get (backupPath active.plan.revision.epoch generation) = none := by
  obtain ⟨c, inv, idle⟩ := reachable.stable
  rw [inv.ctrl] at current
  have slot : c.ctrl.SlotEpoch active.plan.revision.epoch := ⟨active, current, rfl⟩
  by_contra present
  have inHand := inv.tidy removals synced _ (.inr slot) (inv.valid.slotFree _ slot) generation
    (Option.isSome_iff_ne_none.mpr present)
  simp [idle.saved] at inHand

/-- While removals succeed and the sync after the rename of a backup does not fail, no
    backup stands where the next generation of the current epoch will put its own; the
    check for that place passes unless the file operation itself fails. -/
theorem next_backup_free (removals : env.RemovalsSucceed) (reachable : Reachable env dir w)
    (synced : .unsyncedBackup ∉ w.marks) {active : Active}
    (current : w.ctrl.current = some active) :
    w.dir.get (backupPath active.plan.revision.epoch (active.plan.revision.generation + 1)) = none ∧
      (env.fault w.clock = none → validateAbsentRegularTarget (backupPath active.plan.revision.epoch
        (active.plan.revision.generation + 1)) env w = .ok (.ok (), w.tick env)) := by
  have absent := backup_absent removals reachable synced current (active.plan.revision.generation + 1)
  refine ⟨absent, fun sound => ?_⟩
  have still : (w.tick env).dir.get (backupPath active.plan.revision.epoch
      (active.plan.revision.generation + 1)) = none :=
    (World.tick_get env w (.backup _ _) rfl).trans absent
  unfold validateAbsentRegularTarget fileOp atomic Program.act
  simp [sound, still]

/-- A second apply finds the directory as the first one found it. -/
theorem next_backup_free_applied : ∃ w active, Reachable calmEnv [] w ∧
    w.ctrl.current = some active ∧ active.plan.revision.generation = 2 ∧
    w.dir.get (backupPath active.plan.revision.epoch (active.plan.revision.generation + 1)) = none ∧
      (calmEnv.fault w.clock = none → validateAbsentRegularTarget
        (backupPath active.plan.revision.epoch (active.plan.revision.generation + 1)) calmEnv w =
          .ok (.ok (), w.tick calmEnv)) := by
  obtain ⟨w, reachable, holds⟩ := reachable_of_endsWith calmEnv []
    [.start sampleSpec, .applyConfig sampleSpec none]
    (fun w => (w.ctrl.current.any fun active => active.plan.revision.generation = 2) && w.marks = [])
    (by decide +kernel)
  rw [Bool.and_eq_true, Option.any_eq_true] at holds
  obtain ⟨⟨active, current, second⟩, unmarked⟩ := holds
  have synced : .unsyncedBackup ∉ w.marks := by simp [of_decide_eq_true unmarked]
  exact ⟨w, active, reachable, current, of_decide_eq_true second,
    next_backup_free ⟨fun _ => rfl, fun _ => rfl⟩ reachable synced current⟩

/-- The directory cannot be synced once the backup has been renamed into place. -/
def unsyncedBackupEnv : Env :=
  { calmEnv with fault := fun k => if k = 48 then some ⟨.io "sync failed", rfl⟩ else none }

/-- The operation is refused with the error. -/
def refuses (env : Env) (operation : Operation) (error : Error) (w : World) : Bool :=
  match operation.run env w with
  | .ok (.error answer, _) => answer = error
  | _ => false

theorem exists_of_refuses {env : Env} {operation : Operation} {error : Error} {w : World}
    (refused : refuses env operation error w = true) :
    ∃ w', operation.run env w = .ok (.error error, w') := by
  unfold refuses at refused
  split at refused
  case h_1 answer w' run => exact ⟨w', run.trans (by rw [of_decide_eq_true refused])⟩
  case h_2 => cases refused

/-- The backup of generation 2 stays while generation 1 is current, and the next apply
    is refused for it although nothing fails any more. -/
theorem stale_backup_blocks : ∃ w active, Reachable unsyncedBackupEnv [] w ∧
    unsyncedBackupEnv.RemovalsSucceed ∧ w.ctrl.current = some active ∧
    w.dir.get (backupPath active.plan.revision.epoch (active.plan.revision.generation + 1)) ≠ none ∧
    (∀ k, w.clock ≤ k → unsyncedBackupEnv.fault k = none) ∧
    ∃ w', (Operation.applyConfig sampleSpec none).run unsyncedBackupEnv w =
      .ok (.error (unsafeArtifact (Artifact.backup 1 2).name), w') := by
  obtain ⟨w, reachable, holds⟩ := reachable_of_endsWith unsyncedBackupEnv []
    [.start sampleSpec, .applyConfig sampleSpec none]
    (fun w => (w.ctrl.current.any fun active => active.plan.revision.generation = 1 &&
        active.plan.revision.epoch.get = 1) && (w.dir.get (Artifact.backup 1 2).name).isSome &&
      48 < w.clock && refuses unsyncedBackupEnv (.applyConfig sampleSpec none)
        (unsafeArtifact (Artifact.backup 1 2).name) w)
    (by decide +kernel)
  simp only [Bool.and_eq_true, Option.any_eq_true, decide_eq_true_eq] at holds
  obtain ⟨⟨⟨⟨active, current, first, epoch⟩, present⟩, later⟩, refused⟩ := holds
  refine ⟨w, active, reachable, ⟨fun _ => rfl, fun _ => rfl⟩, current, ?_, fun k after => ?_,
    exists_of_refuses refused⟩
  · rw [backupPath, epoch, first]
    exact Option.isSome_iff_ne_none.mp present
  · exact if_neg (by omega)

end Nyanpasu
