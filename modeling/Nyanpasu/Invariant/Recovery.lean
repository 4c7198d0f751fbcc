import Nyanpasu.Invariant.Apply
import Nyanpasu.Invariant.Dns

/-! # Recovery under the invariant

The recovery loop works through the entries it found quarantined.  The control
block differs from the one it started with in the quarantine list alone, and a
list that is not empty asks nothing of the published status beyond the live slot.
-/

namespace Nyanpasu

open Naming Store Program

variable {env : Setting} {c : Ctx} {w : World}

/-! ## Quarantine lists -/

/-- The lists agree about every other epoch. -/
def SameBeside (epoch : Epoch) (before after : List QuarantinedEpoch) : Prop :=
  ∀ entry : QuarantinedEpoch, entry.epoch ≠ epoch → (entry ∈ after ↔ entry ∈ before)

def QuarantinedEpoch.proven (entry : QuarantinedEpoch) : QuarantinedEpoch :=
  { entry with deathProven := true }

section

variable {epoch : Epoch} {q : List QuarantinedEpoch}

theorem proven_epochs : (updateEntry epoch .proven q).map (·.epoch) = q.map (·.epoch) := by
  induction q with
  | nil => rfl
  | cons entry rest ih =>
      unfold updateEntry
      split
      · rfl
      · simp [ih]

theorem sameBeside_proven : SameBeside epoch q (updateEntry epoch .proven q) := by
  intro x other
  induction q with
  | nil => exact Iff.rfl
  | cons entry rest ih =>
      unfold updateEntry
      split
      case isTrue here =>
        have changed : x ≠ entry.proven := fun isChanged => other (by rw [isChanged]; exact here)
        have kept : x ≠ entry := fun isEntry => other (isEntry ▸ here)
        simp [changed, kept]
      case isFalse => simp [ih]

/-- Epochs are distinct, so the first entry of an epoch is the only one. -/
theorem deathProven_of_mem (distinct : (q.map (·.epoch)).Nodup) {x : QuarantinedEpoch}
    (member : x ∈ updateEntry epoch .proven q) (own : x.epoch = epoch) : x.deathProven = true := by
  induction q with
  | nil => cases member
  | cons entry rest ih =>
      rw [List.map_cons, List.nodup_cons] at distinct
      unfold updateEntry at member
      split at member
      case isTrue here =>
        rcases List.mem_cons.mp member with rfl | later
        · rfl
        · exact absurd (List.mem_map.mpr ⟨x, later, own.trans here.symm⟩) distinct.1
      case isFalse elsewhere =>
        rcases List.mem_cons.mp member with rfl | later
        · exact absurd own elsewhere
        · exact ih distinct.2 later

end

/-! ## Proving a death -/

theorem World.buryEpoch_procs (w : World) (epoch : Epoch) (p : Nat) :
    (w.buryEpoch epoch).procs p = { w.procs p with
      provenDead := decide ((w.procs p).epoch = epoch) || (w.procs p).provenDead } := by
  unfold World.buryEpoch
  by_cases own : (w.procs p).epoch = epoch <;> simp [own]

/-- More deaths are known; nothing else about the processes changes. -/
theorem Inv.bury (inv : Inv env c w) (epoch : Epoch) : Inv env c (w.buryEpoch epoch) := by
  have procs := w.buryEpoch_procs epoch
  refine { inv with
    processes :=
      { tracked := fun p inside alive => ?_
        buried := fun entry member proven p inside same => ?_
        held := fun h member => ?_
        slot := fun active current => ?_
        silent := fun p forwards => ?_
        issued := fun p inside => ?_
        sound := fun p => ?_
        forwarding := fun p f forwards => ?_
        forwarded := fun active current => ?_ }
    shown := ?_ }
  · rw [procs, Bool.or_eq_false_iff] at alive
    rw [procs]
    exact inv.processes.tracked p inside alive.2
  · rw [procs] at same ⊢
    simp [inv.processes.buried entry member proven p inside same]
  · rw [procs]
    exact inv.processes.held h member
  · rw [procs]
    exact inv.processes.slot active current
  · rw [procs] at forwards
    exact inv.processes.silent p forwards
  · rw [procs]
    exact inv.processes.issued p inside
  · rw [procs]
    exact (inv.processes.sound p).proven _
  · rw [procs] at forwards ⊢
    have forwarding := inv.processes.forwarding p f forwards
    exact { forwarding with }
  · rw [procs]
    exact inv.processes.forwarded active current
  · refine ⟨fun unsplit sent member => ?_, fun showing => ?_, inv.shown.announced⟩
    · refine (inv.shown.coherent unsplit sent member).follow le_rfl fun p _ => ?_
      rw [procs]
      exact ⟨rfl, fun _ => id, fun _ => id⟩
    · have settled := inv.shown.settled showing
      refine ⟨settled.vacant, fun active current => ?_, fun active current => ?_⟩
      · rw [procs]
        exact settled.live active current
      · rw [procs]
        exact settled.converged active current

theorem buried_buryEpoch (w : World) (epoch : Epoch) : Buried epoch.get (w.buryEpoch epoch) := by
  intro p _ same
  rw [w.buryEpoch_procs epoch] at same ⊢
  have own : (w.procs p).epoch = epoch := Epoch.get_inj.mp same
  simp [own]

/-! ## Relisting -/

def Ctrl.relist (ctrl : Ctrl) (quarantine : List QuarantinedEpoch) : Ctrl :=
  { ctrl with quarantine := quarantine }

theorem Ctrl.quarantined_relist {ctrl : Ctrl} {q : List QuarantinedEpoch} {epoch : Epoch} :
    (ctrl.relist q).Quarantined epoch ↔ epoch ∈ q.map (·.epoch) := by
  simp [Ctrl.Quarantined, Ctrl.relist]

/-- What the status is still known to say once the list has changed. -/
def Showing.relisted (q : List QuarantinedEpoch) : Showing :=
  if q = [] then .pending else .settled

def Ctx.relisting (c : Ctx) (q : List QuarantinedEpoch) : Ctx :=
  { c with ctrl := c.ctrl.relist q, showing := .relisted q }

/-- The list may change its entries, prove deaths that are known, and drop epochs
    that have neither a process nor a file left. -/
theorem Inv.relist {q : List QuarantinedEpoch} (inv : Inv env c w)
    (showing : c.showing = .settled) (held : c.held = []) (distinct : (q.map (·.epoch)).Nodup)
    (fewer : ∀ epoch ∈ q.map (·.epoch), c.ctrl.Quarantined epoch)
    (buried : ∀ entry ∈ q, entry.deathProven = true → Buried entry.epoch.get w)
    (dropped : ∀ epoch, c.ctrl.Quarantined epoch →
      epoch ∈ q.map (·.epoch) ∨ Buried epoch.get w ∧ Absent epoch.get w.dir) :
    Inv env (c.relisting q) { w with ctrl := c.ctrl.relist q } := by
  have keeps {e : Epoch} (kept : Keeps (c.ctrl.relist q) c.owned e) : Keeps c.ctrl c.owned e :=
    kept.imp id (Or.imp id fun listed => fewer e (Ctrl.quarantined_relist.mp listed))
  refine
    { inv with
      ctrl := rfl
      valid := { inv.valid with
        slotFree := fun e slot listed =>
          inv.valid.slotFree e slot (fewer e (Ctrl.quarantined_relist.mp listed))
        distinct := distinct
        issued := fun e kept => inv.valid.issued e (keeps kept)
        covered := fun h member => by simp [Ctx.relisting, held] at member
        vacant := fun e announced => ?_ }
      processes := { inv.processes with
        tracked := fun p inside alive => ?_
        buried := fun entry member proven p inside same => ?_ }
      files := { inv.files with owned := fun removals free x bounded present => ?_ }
      tidy := fun removals synced e keeps unlisted generation present => ?_
      shown :=
        { coherent := inv.shown.coherent
          settled := fun isSettled => ?_
          announced := fun e announced => ?_ } }
  · simp only [Ctx.relisting, Showing.relisted] at announced
    split at announced <;> cases announced
  · refine (inv.processes.tracked p inside alive).imp id (Or.imp id fun listed => ?_)
    rcases dropped _ listed with still | ⟨dead, _⟩
    · exact Ctrl.quarantined_relist.mpr still
    · simp [dead p (inv.count ▸ inside) rfl] at alive
  · exact buried entry member proven p (inv.count ▸ inside) (congrArg Epoch.get same)
  · obtain ⟨e, same, kept⟩ := inv.files.owned removals free x bounded present
    refine ⟨e, same, kept.imp id (Or.imp id fun listed => ?_)⟩
    rcases dropped e listed with still | ⟨_, absent⟩
    · exact Ctrl.quarantined_relist.mpr still
    · simp [absent x same] at present
  · refine inv.tidy removals synced e keeps (fun listed => ?_) generation present
    rcases dropped e listed with still | ⟨_, absent⟩
    · exact unlisted (Ctrl.quarantined_relist.mpr still)
    · simp [absent (.backup e.get generation) rfl] at present
  · have nonempty : q ≠ [] := by
      rintro rfl
      cases isSettled
    have settled := inv.shown.settled showing
    exact ⟨fun _ _ empty => absurd empty nonempty, settled.live,
      fun _ _ _ empty => absurd empty nonempty⟩
  · simp only [Ctx.relisting, Showing.relisted] at announced
    split at announced <;> cases announced

/-! ## The loop -/

/-- Nothing in hand, and no file relied on but those of the slot. -/
structure Ctx.Trimmed (c : Ctx) : Prop where
  held : c.held = []
  owned : c.owned = []
  files : ∀ file ∈ c.files, ∃ epoch, c.ctrl.SlotEpoch epoch ∧ file.1.epoch = epoch.get

theorem SameBeside.epochs {epoch other : Epoch} {q q' : List QuarantinedEpoch}
    (same : SameBeside epoch q q') (differs : other ≠ epoch) :
    other ∈ q'.map (·.epoch) ↔ other ∈ q.map (·.epoch) := by
  simp only [List.mem_map]
  refine exists_congr fun entry => and_congr_left fun own => same entry ?_
  rwa [own]

section

variable {q : List QuarantinedEpoch} {entry : QuarantinedEpoch}

theorem Ctx.relisting_settled (c : Ctx) (member : entry ∈ q) :
    (c.relisting q).showing = .settled :=
  if_neg (List.ne_nil_of_mem member)

/-- The death of an entry's process is recorded and known. -/
theorem Inv.proveDead (inv : Inv env (c.relisting q) w) (held : c.held = [])
    (member : entry ∈ q) :
    Inv env (c.relisting (updateEntry entry.epoch .proven q))
      { w.buryEpoch entry.epoch with
        ctrl := c.ctrl.relist (updateEntry entry.epoch .proven q) } := by
  have buried := inv.bury entry.epoch
  refine buried.relist (c.relisting_settled member) held ?_ (fun e listed => ?_)
    (fun x among dead => ?_) fun e listed => .inl ?_
  · rw [proven_epochs]
    exact inv.valid.distinct
  · rw [proven_epochs] at listed
    exact Ctrl.quarantined_relist.mpr listed
  · by_cases own : x.epoch = entry.epoch
    · rw [own]
      exact buried_buryEpoch w entry.epoch
    · have before : x ∈ q := (sameBeside_proven x own).mp among
      intro p inside same
      exact buried.processes.buried x before dead p (inv.count ▸ inside) (Epoch.get_inj.mp same)
  · rw [proven_epochs]
    exact Ctrl.quarantined_relist.mp listed

theorem exists_proven (distinct : (q.map (·.epoch)).Nodup) (member : entry ∈ q) :
    ∃ proven ∈ updateEntry entry.epoch .proven q,
      proven.epoch = entry.epoch ∧ proven.deathProven = true := by
  have listed : entry.epoch ∈ (updateEntry entry.epoch .proven q).map (·.epoch) := by
    rw [proven_epochs]
    exact List.mem_map.mpr ⟨entry, member, rfl⟩
  obtain ⟨proven, among, own⟩ := List.mem_map.mp listed
  exact ⟨proven, among, own, deathProven_of_mem distinct among own⟩

theorem reapEntry_ends (inv : Inv env (c.relisting q) w) (held : c.held = [])
    (member : entry ∈ q) :
    Ends env (recoverEntry.reapEntry entry) w (Either (fun _ w' => Inv env (c.relisting q) w')
      fun _ w' => ∃ q', Inv env (c.relisting q') w' ∧ SameBeside entry.epoch q q' ∧
        ∃ proven ∈ q', proven.epoch = entry.epoch ∧ proven.deathProven = true) := by
  unfold recoverEntry.reapEntry
  split
  case isTrue proven => exact ⟨q, inv, fun _ _ => Iff.rfl, entry, member, rfl, proven⟩
  case isFalse =>
  refine (inv.ends_ask _).bind fun answer w₁ ⟨inv₁, _⟩ => ?_
  have reaped := exists_proven inv₁.valid.distinct member
  split
  case h_3 | h_4 => exact inv₁
  all_goals
    refine (inv₁.ends_modifyQuarantine _).bind fun _ w₂ isNext => ensures_act ?_
    subst isNext
    exact ⟨_, inv₁.proveDead held member, sameBeside_proven, reaped⟩

/-- An epoch that is proven dead and has no file left leaves the list. -/
theorem Inv.release {epoch : Epoch} (inv : Inv env (c.relisting q) w) (held : c.held = [])
    (member : entry ∈ q) (own : entry.epoch = epoch) (proven : entry.deathProven = true)
    (absent : Absent epoch.get w.dir) :
    Inv env (c.relisting (q.filter fun other => other.epoch ≠ epoch))
      { w with ctrl := c.ctrl.relist (q.filter fun other => other.epoch ≠ epoch) } := by
  refine inv.relist (c.relisting_settled member) held
    (inv.valid.distinct.sublist (List.filter_sublist.map _)) (fun e listed => ?_)
    (fun x among dead p inside same => ?_) fun e listed => ?_
  · obtain ⟨x, among, rfl⟩ := List.mem_map.mp listed
    exact ⟨x, (List.mem_filter.mp among).1, rfl⟩
  · exact inv.processes.buried x (List.mem_filter.mp among).1 dead p (inv.count ▸ inside)
      (Epoch.get_inj.mp same)
  · obtain ⟨x, among, rfl⟩ := listed
    by_cases this : x.epoch = epoch
    · refine .inr ⟨fun p inside same => ?_, this ▸ absent⟩
      exact inv.processes.buried entry member proven p (inv.count ▸ inside)
        ((Epoch.get_inj.mp same).trans (this.trans own.symm))
    · exact .inl (List.mem_map.mpr ⟨x, List.mem_filter.mpr ⟨among, decide_eq_true this⟩, rfl⟩)

theorem recoverEntry_ends (inv : Inv env (c.relisting q) w) (trimmed : c.Trimmed)
    (member : entry ∈ q) :
    Ends env (recoverEntry entry) w fun failure w' => ∃ q', Inv env (c.relisting q') w' ∧
      SameBeside entry.epoch q q' ∧ (failure = none ↔ entry.epoch ∉ q'.map (·.epoch)) := by
  have listed : entry.epoch ∈ q.map (·.epoch) := List.mem_map.mpr ⟨entry, member, rfl⟩
  refine (reapEntry_ends inv trimmed.held member).bind_either (fun text w₁ inv₁ => ?_)
    fun _ w₁ ⟨q₁, inv₁, same₁, proven, among, own, dead⟩ => ?_
  · exact ⟨q, inv₁, fun _ _ => Iff.rfl, by simpa using listed⟩
  have listed₁ : (c.relisting q₁).ctrl.Quarantined entry.epoch := ⟨proven, among, own⟩
  have owning := inv₁.own entry.epoch (inv₁.valid.issued _ (.inr (.inr listed₁)))
    fun unlisted => absurd listed₁ unlisted
  have buried : Buried entry.epoch.get w₁ := fun p inside same =>
    inv₁.processes.buried proven among dead p (inv₁.count ▸ inside)
      ((Epoch.get_inj.mp same).trans own.symm)
  have unpinned : ∀ file ∈ c.files, file.1.epoch ≠ entry.epoch.get := by
    intro file pinned same
    obtain ⟨e, slot, ofSlot⟩ := trimmed.files file pinned
    have sameEpoch : e = entry.epoch := Epoch.get_inj.mp (ofSlot.symm.trans same)
    exact inv₁.valid.slotFree e slot (sameEpoch ▸ listed₁)
  refine (cleanupEpoch_buried_ends owning buried (List.Perm.refl _)
    (by simp [Ctx.relisting, trimmed.held]) unpinned).bind fun cleaned w₂ held₂ => ?_
  cases cleaned with
  | error error =>
      refine ⟨q₁, held₂, same₁, ?_⟩
      have still : entry.epoch ∈ q₁.map (·.epoch) := List.mem_map.mpr ⟨proven, among, own⟩
      simpa using still
  | ok _ =>
      obtain ⟨inv₂, absent⟩ := held₂
      have inv₂ : Inv env (c.relisting q₁) w₂ := inv₂
      refine (inv₂.ends_modifyQuarantine _).bind fun _ w₃ isNext => ?_
      subst isNext
      refine ⟨_, inv₂.release trimmed.held among own dead absent, fun x other => ?_, by simp⟩
      simpa [other] using same₁ x other

/-- By induction on the entries that are left: each is in the list when its turn
    comes, since the turns of the others changed other epochs only. -/
theorem recoverEntries_ends (trimmed : c.Trimmed) (entries : List QuarantinedEpoch)
    (inv : Inv env (c.relisting q) w) (members : ∀ entry ∈ entries, entry ∈ q)
    (distinct : (entries.map (·.epoch)).Nodup) :
    Ends env (recoverEntries entries) w fun failures w' => ∃ q', Inv env (c.relisting q') w' ∧
      (∀ epoch, epoch ∉ entries.map (·.epoch) →
        (epoch ∈ q'.map (·.epoch) ↔ epoch ∈ q.map (·.epoch))) ∧
      (failures = [] ↔ ∀ epoch ∈ entries.map (·.epoch), epoch ∉ q'.map (·.epoch)) := by
  induction entries generalizing q w with
  | nil => exact ⟨q, inv, fun _ _ => Iff.rfl, by simp⟩
  | cons entry rest ih =>
      rw [List.map_cons, List.nodup_cons] at distinct
      refine (recoverEntry_ends inv trimmed (members entry List.mem_cons_self)).bind
        fun failure w₁ ⟨q₁, inv₁, same₁, cleared₁⟩ => ?_
      have members₁ : ∀ other ∈ rest, other ∈ q₁ := fun other later =>
        (same₁ other fun same => distinct.1 (List.mem_map.mpr ⟨other, later, same⟩)).mpr
          (members other (List.mem_cons_of_mem _ later))
      refine (ih inv₁ members₁ distinct.2).bind fun failures w₂ ⟨q₂, inv₂, same₂, cleared₂⟩ => ?_
      refine ⟨q₂, inv₂, fun epoch outside => ?_, ?_⟩
      · rw [List.map_cons, List.mem_cons, not_or] at outside
        exact (same₂ epoch outside.2).trans (same₁.epochs outside.1)
      · rw [List.append_eq_nil_iff, Option.toList_eq_nil_iff, cleared₁, cleared₂,
          ← same₂ entry.epoch distinct.1, List.map_cons, List.forall_mem_cons]

end

/-- Of the files an idle manager relies on, the slot's own is enough. -/
theorem Inv.trim (inv : Inv env c w) (idle : c.Idle env) :
    ∃ files, Inv env { c with files := files } w ∧ ({ c with files := files } : Ctx).Idle env ∧
      ({ c with files := files } : Ctx).Trimmed := by
  cases slot : c.ctrl.current with
  | none =>
      exact ⟨[], inv.unpin [] (by simp),
        .vacant slot idle.held idle.owned idle.saved idle.showing idle.pledge,
        ⟨idle.held, idle.owned, by simp⟩⟩
  | some active =>
      obtain ⟨contents, bytes, pinned⟩ := idle.file active slot
      refine ⟨[(.config active.plan.revision.epoch.get, contents)], inv.unpin _ (by simpa using pinned),
        { idle with file := fun other current => ?_ },
        ⟨idle.held, idle.owned, ?_⟩⟩
      · cases slot.symm.trans current
        exact ⟨contents, bytes, List.mem_singleton_self _⟩
      · intro file member
        obtain rfl := List.mem_singleton.mp member
        exact ⟨_, ⟨active, slot, rfl⟩, rfl⟩

theorem Leaves.unchanged (inv : Inv env c w) (idle : c.Idle env) : Leaves env Calm c w :=
  ⟨c, inv, idle, ⟨rfl, .inr rfl⟩, rfl⟩

theorem Leaves.upToDns {c₀ : Ctx} (held : UpToDns env c w) (idle : c.Idle env)
    (calm : Calm c₀ c) : Leaves env Calm c₀ w := by
  obtain ⟨entry, inv⟩ := held
  exact ⟨_, inv, { idle with }, calm⟩

/-- Every death is proven and every file is gone: the stop is published, whatever
    the slot holds. -/
theorem publishRecovered_ends (inv : Inv env (c.relisting []) w) (idle : c.Idle env) :
    Ends env (do
      mark (.recoveredBesideSlot true) World.slotLive
      mark (.recoveredBesideSlot false) fun w => w.slot.isSome
      publish (.stopped none) none
      dnsRestore
      return (.ok () : Except Error Unit)) w fun _ w' => Leaves env Calm c w' := by
  refine bind_mark (bind_mark ?_)
  have marked := (inv.markIf (.recoveredBesideSlot true) w.slotLive).markIf
    (.recoveredBesideSlot false) (w.markIf (.recoveredBesideSlot true) w.slotLive).slot.isSome
  refine (publish_stopped_ends marked none rfl (fun active current free => ?_)
    fun active current free => ?_).bind fun _ w₁ inv₁ => ?_
  · rw [World.markIf_procs, World.markIf_procs]
    by_contra live
    have isLive : w.slotLive = true := by
      rw [World.slotLive, World.slot, inv.ctrl, current]
      simpa using live
    exact free.2 (World.mem_markIf (World.mem_markIf_self isLive))
  · have occupied : (w.markIf (.recoveredBesideSlot true) w.slotLive).slot.isSome = true := by
      rw [World.slot, (inv.markIf _ _).ctrl, current]
      rfl
    exact absurd (World.mem_markIf_self occupied) free.2.2
  · refine (dnsRestore_ends inv₁.upToDns).bind fun _ w₂ held₂ => ?_
    exact .upToDns held₂ { idle with showing := rfl }
      ⟨⟨rfl, .inr rfl⟩, rfl⟩

theorem recoverTrimmed_ends (inv : Inv env c w) (idle : c.Idle env) (trimmed : c.Trimmed) :
    Ends env recoverQuarantine w fun _ w' => Leaves env Calm c w' := by
  refine inv.bind_getCtrl ?_
  cases found : c.ctrl.quarantine with
  | nil => exact .unchanged inv idle
  | cons first others =>
  have listed : Inv env (c.relisting (first :: others)) w := by
    have same : c.relisting (first :: others) = c := by
      rw [Ctx.relisting, Ctrl.relist, ← found, Showing.relisted, if_neg (by simp [found]),
        ← idle.showing]
    rwa [same]
  refine (recoverEntries_ends trimmed (first :: others) listed (fun _ => id)
    listed.valid.distinct).bind fun failures w₁ ⟨q, inv₁, same, cleared⟩ => ?_
  cases failures with
  | nil =>
      have empty : q.map (·.epoch) = [] := List.eq_nil_iff_forall_not_mem.mpr fun epoch => by
        by_cases before : epoch ∈ (first :: others).map (·.epoch)
        · exact cleared.mp rfl epoch before
        · rwa [same epoch before]
      obtain rfl := List.map_eq_nil_iff.mp empty
      exact publishRecovered_ends inv₁ idle
  | cons failure failures =>
      refine inv₁.bind_getCtrl ?_
      cases q with
      | nil => simp at cleared
      | cons entry left =>
          exact ⟨_, inv₁, { idle with showing := rfl },
            ⟨rfl, .inr rfl⟩, rfl⟩

theorem recoverQuarantine_ends (inv : Inv env c w) (idle : c.Idle env) :
    Ends env recoverQuarantine w fun _ w' => Leaves env Calm c w' := by
  obtain ⟨files, inv, idle, trimmed⟩ := inv.trim idle
  exact (recoverTrimmed_ends inv idle trimmed).mono fun _ _ leaves => leaves

end Nyanpasu
