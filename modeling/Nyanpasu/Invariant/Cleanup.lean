import Nyanpasu.Invariant.Store

/-! # What cleanup removes

Once the processes of an epoch are dead nothing writes its files any more, so
what a step of the cleanup removes stays removed.  The loop's specification is
generic in the predicate it keeps: the invariant during operations, and the
state of a directory under construction.
-/

namespace Nyanpasu

open Naming Store Program

/-- No process of the epoch can be alive. -/
def Buried (n : Nat) (w : World) : Prop :=
  ∀ p < w.procCount, (w.procs p).epoch.get = n → (w.procs p).provenDead = true

/-- No file of the epoch is left. -/
def Absent (n : Nat) (dir : Dir) : Prop :=
  ∀ artifact : Artifact, artifact.epoch = n → dir.get artifact.name = none

namespace World

theorem buried_interfere {n : Nat} {w : World} (dead : Buried n w) (move : Interference) :
    Buried n (w.interfere move) := by
  have moved := moved_interfere w move
  intro p inside epoch
  rw [moved.procCount] at inside
  rw [(moved.procs p).epoch] at epoch
  rw [(moved.procs p).provenDead]
  exact dead p inside epoch

/-- The files of a buried epoch are left alone. -/
theorem foreign_of_buried {w : World} {artifact : Artifact} (dead : Buried artifact.epoch w) :
    w.Foreign artifact := by
  intro p inside alive
  constructor
  all_goals
    rintro rfl
    rw [dead p inside rfl] at alive
    cases alive

end World

/-! ## The cleanup loop -/

/-- What a predicate must stand to be kept by the cleanup of epoch `n`: only files
    of `n` go, and at most the mark of a cut-short cleanup is added. -/
structure KeptByCleanup (env : Setting) (n : Nat) (P : World → Prop) : Prop where
  tick : ∀ w, P w → P (w.tick env)
  shrink : ∀ w dir, P w → (∀ name, (dir.get name).isSome → (w.dir.get name).isSome) →
    (∀ artifact : Artifact, artifact.epoch ≠ n →
      dir.get artifact.name = w.dir.get artifact.name) → P { w with dir := dir }
  mark : ∀ w holds, P w → P (w.markIf (.abandoned .cleanupCutShort) holds)

/-- A cleanup under way: the predicate still holds, and the artifacts that were
    dealt with are gone for good. -/
structure Cleaning (P : World → Prop) (n : Nat) (gone : Artifact → Prop) (w : World) : Prop where
  holds : P w
  dead : Buried n w
  gone : ∀ artifact : Artifact, artifact.epoch = n → gone artifact →
    w.dir.get artifact.name = none

/-- What a cleanup achieved, whether or not it was reported as a success. -/
structure Cleaned (env : Setting) (P : World → Prop) (n : Nat) (w : World) : Prop where
  holds : P w
  cleared : env.RemovalsSucceed → ¬ Abandoned w.marks →
    (∀ entry ∈ w.ctrl.quarantine, entry.epoch.get ≠ n) → Absent n w.dir

section

variable {env : Setting} {P : World → Prop} {n : Nat} {gone : Artifact → Prop} {w : World}

theorem buried_tick (dead : Buried n w) : Buried n (w.tick env) :=
  World.tick_induction (P := Buried n) env (fun _ move dead => World.buried_interfere dead move)
    (fun _ _ dead => dead) dead

theorem Cleaned.of_fault (holds : P w) (fault : ¬ env.RemovalsSucceed) : Cleaned env P n w :=
  ⟨holds, fun succeed => absurd succeed fault⟩

/-- A cleanup that stops early leaves files of an unquarantined epoch marked. -/
theorem markCutShort_ends (kept : KeptByCleanup env n P) (holds : P w) :
    Ends env (markCutShort n) w fun _ w' => Cleaned env P n w' := by
  refine ensures_act ⟨kept.mark _ _ holds, fun _ free unlisted => ?_⟩
  have all : (w.ctrl.quarantine.all fun entry => decide (entry.epoch.get ≠ n)) = true := by
    rw [List.all_eq_true]
    intro entry member
    refine decide_eq_true (unlisted entry ?_)
    unfold World.markIf
    split <;> exact member
  exact absurd ⟨.cleanupCutShort, World.mem_markIf_self all⟩ free

theorem cleanupSelects_name {artifact : Artifact} :
    cleanupSelects n artifact.name = true ↔
      (∃ g, artifact = .backup n g) ∨ ∃ p k, artifact = .staged n p k := by
  simp only [cleanupSelects, Bool.or_eq_true, List.isPrefixOf_iff_prefix, backupPrefix_isPrefix,
    stagedPrefix_isPrefix, pidTempPrefix_not_isPrefix, or_false]

section

variable (kept : KeptByCleanup env n P) (cleaning : Cleaning P n gone w)

include kept cleaning

theorem Cleaning.tick : Cleaning P n gone (w.tick env) where
  holds := kept.tick w cleaning.holds
  dead := buried_tick cleaning.dead
  gone := by
    have still : Buried n (w.tick env) ∧ ∀ artifact : Artifact, artifact.epoch = n →
        gone artifact → (w.tick env).dir.get artifact.name = none :=
      World.tick_induction env (P := fun w => Buried n w ∧ ∀ artifact : Artifact,
          artifact.epoch = n → gone artifact → w.dir.get artifact.name = none)
        (fun v move ⟨dead, absent⟩ => ⟨World.buried_interfere dead move,
          fun artifact own was => by
            subst own
            rw [World.interfere_get (World.foreign_of_buried dead)]
            exact absent artifact rfl was⟩)
        (fun _ _ same => same) ⟨cleaning.dead, cleaning.gone⟩
    exact still.2

theorem Cleaning.shrink {dir : Dir} {gone' : Artifact → Prop}
    (fewer : ∀ name, (dir.get name).isSome → (w.dir.get name).isSome)
    (others : ∀ artifact : Artifact, artifact.epoch ≠ n → dir.get artifact.name = w.dir.get artifact.name)
    (removed : ∀ artifact : Artifact, artifact.epoch = n → gone' artifact → gone artifact ∨ dir.get artifact.name = none) :
    Cleaning P n gone' { w with dir := dir } where
  holds := kept.shrink w dir cleaning.holds fewer others
  dead := cleaning.dead
  gone := fun artifact own was => by
    rcases removed artifact own was with before | now
    · have absent := cleaning.gone artifact own before
      by_contra present
      have present := fewer artifact.name (Option.isSome_iff_ne_none.mpr present)
      simp [absent] at present
    · exact now

theorem Cleaning.remove_ends (artifact : Artifact) (own : artifact.epoch = n) :
    Ends env (removeRegularFile artifact.name) w (Either
      (fun _ w' => ¬ env.RemovalsSucceed ∧ P w')
      fun _ w' => Cleaning P n (fun x => gone x ∨ x = artifact) w') := by
  have moved := cleaning.tick kept
  refine ends_atomic ?_
  cases fault : env.removeFault w.clock with
  | some failure => exact ⟨fun succeed => by simp [succeed.1] at fault, moved.holds⟩
  | none =>
      refine moved.shrink kept (fun name present => ?_) (fun x other => ?_) fun x _ was => ?_
      · rw [Dir.get_erase] at present
        split at present
        · cases present
        · exact present
      · rw [Dir.get_erase, if_neg]
        intro same
        rw [Artifact.name_inj.mp same] at other
        exact other own
      · rcases was with before | rfl
        · exact .inl before
        · exact .inr (by rw [Dir.get_erase, if_pos rfl])

theorem Cleaning.fileOp_ends {α : Type} {f : Dir → Except Error (α × Dir)}
    (looks : ∀ dir, ∃ a, f dir = .ok (a, dir)) :
    Ends env (fileOp f) w (Either (fun _ w' => Cleaning P n gone w')
      fun a w' => Cleaning P n gone w' ∧ f w'.dir = .ok (a, w'.dir)) := by
  have moved := cleaning.tick kept
  refine ends_atomic ?_
  cases env.fault w.clock with
  | some failure => exact moved
  | none =>
      obtain ⟨a, done⟩ := looks (w.tick env).dir
      simp only [done]
      exact ⟨moved, done⟩

theorem Cleaning.ask_ends {α : Type} (answer : Env → Nat → α) :
    Ends env (ask answer) w fun _ w' => Cleaning P n gone w' :=
  ends_atomic (cleaning.tick kept)

theorem removeSocketArtifact_ends :
    Ends env (removeSocketArtifact n) w (Either (fun _ w' => Cleaned env P n w')
      fun _ w' => Cleaning P n (fun x => gone x ∨ x = .socket n) w') := by
  refine (cleaning.fileOp_ends kept fun dir => ⟨_, rfl⟩).bind_either (fun error w₁ cleaning₁ => ?_)
    fun present w₁ ⟨cleaning₁, exists_⟩ => ?_
  · exact (markCutShort_ends kept cleaning₁.holds).bind fun _ _ cleaned => cleaned
  cases present with
  | false =>
      refine ⟨cleaning₁.holds, cleaning₁.dead, fun artifact own was => ?_⟩
      rcases was with before | rfl
      · exact cleaning₁.gone artifact own before
      · simpa using exists_
  | true =>
      exact (cleaning₁.remove_ends kept (.socket n) rfl).mono_either
        (fun _ _ failed => .of_fault failed.2 failed.1) fun _ _ cleaning₂ => cleaning₂

theorem removeEntries_ends :
    Ends env (removeEntries n) w (Either (fun _ w' => P w') fun _ w' =>
      Cleaning P n
        (fun x => gone x ∨ (∃ g, x = .backup n g) ∨ ∃ p k, x = .staged n p k) w') := by
  have moved := cleaning.tick kept
  have partly (missed : FileName → Bool) : P { w.tick env with
      dir := (w.tick env).dir.sweep fun name => cleanupSelects n name && !missed name } := by
    refine kept.shrink _ _ moved.holds (fun name present => ?_) fun x other => ?_
    · rw [Dir.get_sweep] at present
      split at present
      · cases present
      · exact present
    · rw [Dir.get_sweep, if_neg]
      simp only [Bool.and_eq_true, cleanupSelects_name]
      rintro ⟨⟨g, rfl⟩ | ⟨p, k, rfl⟩, -⟩ <;> exact other rfl
  refine ends_atomic ?_
  cases env.listFault w.clock with
  | some failure => exact partly _
  | none =>
      cases env.entryFault w.clock with
      | some failure => exact partly _
      | none =>
          refine moved.shrink kept (fun name present => ?_) (fun x other => ?_) fun x _ was => ?_
          · rw [Dir.get_sweep] at present
            split at present
            · cases present
            · exact present
          · rw [Dir.get_sweep, if_neg]
            rw [cleanupSelects_name]
            rintro (⟨g, rfl⟩ | ⟨p, k, rfl⟩) <;> exact other rfl
          · rcases was with before | swept
            · exact .inl before
            · exact .inr (by rw [Dir.get_sweep, if_pos (cleanupSelects_name.mpr swept)])

end

/-- Nothing is left once each kind of artifact was dealt with. -/
theorem Cleaning.absent (cleaning : Cleaning P n gone w)
    (all : ∀ artifact : Artifact, artifact.epoch = n → gone artifact) : Absent n w.dir :=
  fun artifact own => cleaning.gone artifact own (all artifact own)

theorem cleanupArtifacts_ends (kept : KeptByCleanup env n P) (holds : P w) (dead : Buried n w) :
    Ends env (cleanupArtifacts n) w (Either (fun _ w' => Cleaned env P n w')
      fun _ w' => P w' ∧ Absent n w'.dir) := by
  have cleaning : Cleaning P n (fun _ => False) w := ⟨holds, dead, fun _ _ none => none.elim⟩
  refine (cleaning.remove_ends kept (.config n) rfl).bind_either
    (fun _ _ failed => .of_fault failed.2 failed.1) fun _ w₁ cleaning₁ => ?_
  refine (cleaning₁.remove_ends kept (.pid n) rfl).bind_either
    (fun _ _ failed => .of_fault failed.2 failed.1) fun _ w₂ cleaning₂ => ?_
  refine (removeSocketArtifact_ends kept cleaning₂).bind_either
    (fun _ _ cleaned => cleaned) fun _ w₃ cleaning₃ => ?_
  refine (removeEntries_ends kept cleaning₃).bind_either
    (fun _ w₄ still => ?_) fun _ w₄ cleaning₄ => ?_
  · exact (markCutShort_ends kept still).bind fun _ _ cleaned => cleaned
  have all : ∀ artifact : Artifact, artifact.epoch = n →
      ((((False ∨ artifact = .config n) ∨ artifact = .pid n) ∨ artifact = .socket n) ∨
        (∃ g, artifact = .backup n g) ∨ ∃ p k, artifact = .staged n p k) := by
    rintro artifact rfl
    cases artifact <;> simp [Artifact.epoch]
  exact (cleaning₄.fileOp_ends kept fun dir => ⟨_, rfl⟩).mono_either
    (fun _ _ cleaning₅ => ⟨cleaning₅.holds, fun _ _ _ => cleaning₅.absent all⟩)
    fun _ _ cleaned => ⟨cleaned.1.holds, cleaned.1.absent all⟩

theorem cleanupController_ends (kept : KeptByCleanup env n P) (holds : P w) (dead : Buried n w) :
    Ends env (cleanupController n) w (Either (fun _ w' => Cleaned env P n w')
      fun _ w' => P w' ∧ Buried n w') := by
  have cleaning : Cleaning P n (fun _ => False) w := ⟨holds, dead, fun _ _ none => none.elim⟩
  refine (cleaning.ask_ends kept _).bind fun separate w₀ cleaning₀ => ?_
  cases separate with
  | false => exact ⟨cleaning₀.holds, cleaning₀.dead⟩
  | true =>
      refine (cleaning₀.fileOp_ends kept fun dir => ⟨_, rfl⟩).bind_either (fun _ w₁ cleaning₁ => ?_)
        fun _ w₁ ⟨cleaning₁, _⟩ => ⟨cleaning₁.holds, cleaning₁.dead⟩
      exact (markCutShort_ends kept cleaning₁.holds).bind fun _ _ cleaned => cleaned

end

/-! ## Cleanup under the invariant -/

section

variable {env : Setting} {c : Ctx} {w : World} {epoch : Epoch} {rest : List Epoch}

theorem keptByCleanup_inv {n : Nat} (unpinned : ∀ file ∈ c.files, file.1.epoch ≠ n) :
    KeptByCleanup env n (Inv env c) where
  tick := fun _ inv => inv.tick
  shrink := fun _ _ inv fewer others =>
    inv.remove (fun file member => others file.1 (unpinned file member)) fewer
  mark := fun _ holds inv => inv.markIf _ holds

/-- An epoch that is kept otherwise, or has no file left, need not be owned. -/
theorem Inv.disown (inv : Inv env c w) (owned : c.owned.Perm (epoch :: rest))
    (covered : ∀ held ∈ c.held, Keeps c.ctrl rest held.epoch)
    (cleared : env.RemovalsSucceed → ¬ Abandoned w.marks → ¬ c.ctrl.Quarantined epoch →
      Absent epoch.get w.dir) :
    Inv env { c with owned := rest } w := by
  have fewer {other : Epoch} (keeps : Keeps c.ctrl rest other) : Keeps c.ctrl c.owned other :=
    keeps.imp (fun member => owned.mem_iff.mpr (List.mem_cons_of_mem _ member)) id
  refine { inv with
    valid := { inv.valid with issued := fun e keeps => inv.valid.issued e (fewer keeps), covered }
    files := { inv.files with owned := fun removals free x bounded present => ?_ }
    tidy := inv.tidy.mono (fun e keeps => keeps.imp (fun member =>
      owned.mem_iff.mpr (List.mem_cons_of_mem _ member)) id) fun _ => id }
  obtain ⟨other, same, keeps⟩ := inv.files.owned removals free x bounded present
  refine ⟨other, same, ?_⟩
  rcases keeps with member | kept
  · rcases List.mem_cons.mp (owned.mem_iff.mp member) with rfl | member
    · by_cases listed : c.ctrl.Quarantined other
      · exact .inr (.inr listed)
      · simp [cleared removals free listed x same] at present
    · exact .inl member
  · exact .inr kept

/-- The processes of an epoch nobody has in hand are dead. -/
theorem Inv.buried (inv : Inv env c w) (unheld : ∀ held ∈ c.held, held.epoch ≠ epoch)
    (vacated : ¬ c.ctrl.SlotEpoch epoch) (unlisted : ¬ c.ctrl.Quarantined epoch) :
    Buried epoch.get w := by
  intro p inside same
  have same := Epoch.get_inj.mp same
  by_contra alive
  rw [Bool.not_eq_true] at alive
  rcases inv.processes.tracked p (inv.count ▸ inside) alive with ⟨held, member, rfl⟩ |
    ⟨active, current, rfl⟩ | listed
  · exact unheld held member ((inv.processes.held held member).2.1.symm.trans same)
  · exact vacated ⟨active, current, (inv.processes.slot active current).2.1.symm.trans same⟩
  · exact unlisted (same ▸ listed)

/-- After a cleanup nobody answers for the epoch any more: its files are gone, or
    the cleanup was marked or fell under the assumption on removals. -/
theorem cleanupEpoch_buried_ends (inv : Inv env c w) (dead : Buried epoch.get w)
    (owned : c.owned.Perm (epoch :: rest))
    (covered : ∀ held ∈ c.held, Keeps c.ctrl rest held.epoch)
    (unpinned : ∀ file ∈ c.files, file.1.epoch ≠ epoch.get) :
    Ends env (cleanupEpoch epoch) w (Either (fun _ w' => Inv env { c with owned := rest } w')
      fun _ w' => Inv env { c with owned := rest } w' ∧ Absent epoch.get w'.dir) := by
  have kept : KeptByCleanup env epoch.get (Inv env c) := keptByCleanup_inv unpinned
  have disowned {v : World} (cleaned : Cleaned env (Inv env c) epoch.get v) :
      Inv env { c with owned := rest } v := by
    refine cleaned.holds.disown owned covered fun removals free unlisted =>
      cleaned.cleared removals free fun entry member same => unlisted ?_
    rw [cleaned.holds.ctrl] at member
    exact ⟨entry, member, Epoch.get_inj.mp same⟩
  refine (cleanupController_ends kept inv dead).bind_either (fun _ _ cleaned => disowned cleaned)
    fun _ w₁ ⟨inv₁, dead₁⟩ => ?_
  exact (cleanupArtifacts_ends kept inv₁ dead₁).mono_either (fun _ _ cleaned => disowned cleaned)
    fun _ _ ⟨inv₂, absent⟩ => ⟨disowned ⟨inv₂, fun _ _ _ => absent⟩, absent⟩

theorem cleanupEpoch_ends (inv : Inv env c w) (rest : List Epoch)
    (owned : c.owned.Perm (epoch :: rest))
    (unheld : ∀ held ∈ c.held, held.epoch ≠ epoch) (vacated : ¬ c.ctrl.SlotEpoch epoch)
    (unlisted : ¬ c.ctrl.Quarantined epoch)
    (unpinned : ∀ file ∈ c.files, file.1.epoch ≠ epoch.get) :
    Ends env (cleanupEpoch epoch) w fun _ w' => Inv env { c with owned := rest } w' := by
  refine (cleanupEpoch_buried_ends inv (inv.buried unheld vacated unlisted) owned ?_
    unpinned).mono ?_
  · intro held member
    refine (inv.valid.covered held member).imp (fun among => ?_) id
    exact (List.mem_cons.mp (owned.mem_iff.mp among)).resolve_left (unheld held member)
  · rintro (error | done) w' cleaned
    · exact cleaned
    · exact cleaned.1

end

end Nyanpasu
