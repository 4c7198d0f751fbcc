import Nyanpasu.Invariant.Publish

/-! # Epochs and processes an operation has in hand

Allocation gives the operation a fresh epoch, a launch gives it a process of
that epoch, a stop either proves the death or leaves the process in hand, and
quarantine takes what the operation cannot settle.
-/

namespace Nyanpasu

open Naming Store Program

variable {env : Setting} {c : Ctx} {w : World}

/-! ## Quarantine -/

theorem quarantineError_eq_none {quarantine : List QuarantinedEpoch} :
    quarantineError quarantine = none ↔ quarantine = [] := by
  match quarantine with
  | [] => simp [quarantineError]
  | [first] => simp [quarantineError]
  | first :: second :: rest => simp [quarantineError]

theorem rejectQuarantine_ends (inv : Inv env c w) :
    Ends env rejectQuarantine w (Either (fun _ w' => Inv env c w' ∧ c.ctrl.quarantine ≠ [])
      fun _ w' => Inv env c w' ∧ c.ctrl.quarantine = []) := by
  refine inv.bind_getCtrl ?_
  cases refused : quarantineError c.ctrl.quarantine with
  | some error =>
      refine ⟨inv, fun empty => ?_⟩
      simp [quarantineError_eq_none.mpr empty] at refused
  | none => exact ⟨inv, quarantineError_eq_none.mp refused⟩

variable {ctrl : Ctrl} {epoch : Epoch}

theorem recordQuarantine_fresh {reason : String} (unlisted : ¬ ctrl.Quarantined epoch) :
    recordQuarantine ctrl.quarantine epoch reason = ctrl.quarantine ++ [⟨epoch, reason, false⟩] := by
  rw [recordQuarantine, if_neg]
  simpa [Ctrl.Quarantined] using unlisted

/-- The control block with one more uncertain epoch. -/
def Ctrl.withEntry (ctrl : Ctrl) (epoch : Epoch) (reason : String) : Ctrl :=
  { ctrl with quarantine := ctrl.quarantine ++ [⟨epoch, reason, false⟩] }

theorem Ctrl.quarantined_withEntry {other : Epoch} {reason : String} :
    (ctrl.withEntry epoch reason).Quarantined other ↔ ctrl.Quarantined other ∨ other = epoch := by
  constructor
  · rintro ⟨entry, member, rfl⟩
    rcases List.mem_append.mp member with member | member
    · exact .inl ⟨entry, member, rfl⟩
    · rw [List.mem_singleton.mp member]
      exact .inr rfl
  · rintro (⟨entry, member, rfl⟩ | rfl)
    · exact ⟨entry, List.mem_append_left _ member, rfl⟩
    · exact ⟨_, List.mem_append_right _ List.mem_cons_self, rfl⟩

/-- An epoch that is neither current nor quarantined is recorded; the processes
    and the files the operation had of it are no longer its business. -/
theorem Inv.quarantine (inv : Inv env c w) (held : List Held) (owned : List Epoch) (reason : String)
    (issued : epoch.get ≤ c.ctrl.epochs.last) (vacated : ¬ c.ctrl.SlotEpoch epoch)
    (unlisted : ¬ c.ctrl.Quarantined epoch) (fewerHeld : held.Sublist c.held)
    (given : ∀ h ∈ c.held, h ∈ held ∨ h.epoch = epoch)
    (covered : ∀ h ∈ held, Keeps c.ctrl owned h.epoch) (fewerOwned : ∀ e ∈ owned, e ∈ c.owned)
    (shared : ¬ Abandoned w.marks → ∀ e ∈ c.owned, e ∈ owned ∨ e = epoch) :
    Inv env { c with
      ctrl := c.ctrl.withEntry epoch reason, held := held, owned := owned, showing := .pending }
      { w with ctrl := c.ctrl.withEntry epoch reason } := by
  have keeps {owned : List Epoch} {other : Epoch} (kept : Keeps c.ctrl owned other) :
      Keeps (c.ctrl.withEntry epoch reason) owned other :=
    kept.imp id (Or.imp id fun listed => Ctrl.quarantined_withEntry.mpr (.inl listed))
  refine
    { inv with
      ctrl := rfl
      valid :=
        { inv.valid with
          slotFree := fun other slot listed => ?_
          distinct := ?_
          issued := fun other kept => ?_
          covered := fun h member => keeps (covered h member)
          apart := fun h member => inv.valid.apart h (fewerHeld.subset member)
          nodup := inv.valid.nodup.sublist (fewerHeld.map _)
          vacant := fun _ none => by cases none }
      processes :=
        { inv.processes with
          tracked := fun p inside alive => ?_
          buried := fun entry member proven => ?_
          held := fun h member => inv.processes.held h (fewerHeld.subset member) }
      files :=
        { inv.files with
          owned := fun removals free x bounded present => ?_ }
      tidy := inv.tidy.mono (fun e kept => kept.imp (fewerOwned e) id)
        fun _ listed => Ctrl.quarantined_withEntry.mpr (.inl listed)
      shown :=
        { coherent := inv.shown.coherent
          settled := fun none => by cases none
          announced := fun _ none => by cases none } }
  · rcases Ctrl.quarantined_withEntry.mp listed with listed | rfl
    · exact inv.valid.slotFree other slot listed
    · exact vacated slot
  · have fresh : epoch ∉ c.ctrl.quarantine.map (·.epoch) := by
      rw [List.mem_map]
      exact unlisted
    simpa [Ctrl.withEntry, List.nodup_append, inv.valid.distinct] using
      fun entry member same => fresh (List.mem_map.mpr ⟨entry, member, same⟩)
  · rcases kept with member | slot | listed
    · exact inv.valid.issued other (.inl (fewerOwned other member))
    · exact inv.valid.issued other (.inr (.inl slot))
    · rcases Ctrl.quarantined_withEntry.mp listed with listed | rfl
      · exact inv.valid.issued other (.inr (.inr listed))
      · exact issued
  · rcases inv.processes.tracked p inside alive with ⟨h, member, rfl⟩ | slot | listed
    · rcases given h member with kept | same
      · exact .inl ⟨h, kept, rfl⟩
      · refine .inr (.inr (Ctrl.quarantined_withEntry.mpr (.inr ?_)))
        rw [(inv.processes.held h member).2.1, same]
    · exact .inr (.inl slot)
    · exact .inr (.inr (Ctrl.quarantined_withEntry.mpr (.inl listed)))
  · rcases List.mem_append.mp member with member | member
    · exact inv.processes.buried entry member proven
    · rw [List.mem_singleton.mp member] at proven
      cases proven
  · obtain ⟨other, same, kept⟩ := inv.files.owned removals free x bounded present
    refine ⟨other, same, ?_⟩
    rcases kept with member | kept
    · rcases shared free other member with member | rfl
      · exact .inl member
      · exact .inr (.inr (Ctrl.quarantined_withEntry.mpr (.inr rfl)))
    · exact .inr (kept.imp id fun listed => Ctrl.quarantined_withEntry.mpr (.inl listed))

theorem Inv.ends_modifyQuarantine (inv : Inv env c w)
    (f : List QuarantinedEpoch → List QuarantinedEpoch) :
    Ends env (modifyQuarantine f) w fun _ w' =>
      w' = { w with ctrl := { c.ctrl with quarantine := f c.ctrl.quarantine } } :=
  inv.bind_getCtrl (ensures_act rfl)

/-- The last thing an operation does about an epoch it cannot settle: everything
    it still has in hand belongs to that epoch. -/
theorem latchQuarantine_ends (inv : Inv env c w) {error : Error} (own : epoch ∈ c.owned)
    (vacated : ¬ c.ctrl.SlotEpoch epoch) (unlisted : ¬ c.ctrl.Quarantined epoch)
    (mine : ∀ h ∈ c.held, h.epoch = epoch) (shared : ¬ Abandoned w.marks → ∀ e ∈ c.owned, e = epoch)
    (ended : ∀ active, c.ctrl.current = some active → NoStopBesideLive w.marks → (w.procs active.proc).status.state.isTerminal = true) :
    Ends env (latchQuarantine epoch error) w fun returned w' =>
      returned = error ∧ Inv env { c with
        ctrl := c.ctrl.withEntry epoch error.display, held := [], owned := [],
        showing := .settled } w' := by
  have recorded := inv.quarantine [] [] error.display (inv.valid.issued epoch (.inl own)) vacated unlisted
    (List.nil_sublist _) (fun h member => .inr (mine h member)) (by simp) (by simp)
    (fun free e member => .inr (shared free e member))
  refine (inv.ends_modifyQuarantine _).bind fun _ w₁ entered => ?_
  rw [recordQuarantine_fresh unlisted] at entered
  subst entered
  refine recorded.bind_getCtrl ?_
  cases refused : quarantineError (c.ctrl.withEntry epoch error.display).quarantine with
  | none => simp [quarantineError_eq_none, Ctrl.withEntry] at refused
  | some quarantine =>
      refine (publish_stopped_ends recorded none rfl ended ?_).bind fun _ _ inv' => ⟨rfl, inv'⟩
      intro _ _ _
      simp [Ctrl.withEntry]

/-! ## Allocation -/

theorem EpochAllocator.next_eq {allocator next : EpochAllocator}
    (allocated : allocator.next = some (epoch, next)) :
    epoch.get = allocator.last + 1 ∧ next = ⟨epoch.get⟩ := by
  unfold EpochAllocator.next at allocated
  split at allocated
  · cases allocated
    exact ⟨rfl, rfl⟩
  · cases allocated

/-- The control block after `epoch` was handed out. -/
def Ctrl.allocating (ctrl : Ctrl) (epoch : Epoch) : Ctrl := { ctrl with epochs := ⟨epoch.get⟩ }

/-- A new epoch: nobody keeps it, no process runs under it, no file is named after it. -/
structure Fresh (c : Ctx) (epoch : Epoch) : Prop where
  next : epoch.get = c.ctrl.epochs.last + 1
  unkept : ¬ Keeps c.ctrl c.owned epoch
  unpinned : ∀ file ∈ c.files, file.1.epoch ≠ epoch.get

theorem allocateEpoch_ends (inv : Inv env c w) :
    Ends env allocateEpoch w fun epoch w' => Fresh c epoch ∧ Absent epoch.get w'.dir ∧
      Inv env { c with ctrl := c.ctrl.allocating epoch } w' := by
  refine inv.bind_getCtrl ?_
  cases allocated : c.ctrl.epochs.next with
  | none => exact ensures_abort (.inl rfl)
  | some result =>
      obtain ⟨epoch, epochs⟩ := result
      obtain ⟨next, rfl⟩ := EpochAllocator.next_eq allocated
      have later {n : Nat} (issued : n ≤ c.ctrl.epochs.last) : n ≤ epoch.get := by omega
      have unnamed : Absent epoch.get w.dir := by
        intro artifact own
        by_contra present
        have issued := inv.files.issued artifact (own ▸ epoch.bounded)
          (Option.isSome_iff_ne_none.mpr present)
        omega
      have fresh : Fresh c epoch :=
        { next := next
          unkept := fun keeps => by
            have issued := inv.valid.issued epoch keeps
            omega
          unpinned := fun file member own => by
            have pinned := inv.files.pinned file member
            rw [unnamed file.1 own] at pinned
            cases pinned }
      refine ensures_act ⟨fresh, unnamed, ?_⟩
      exact
        { inv with
          ctrl := by rw [inv.ctrl]; rfl
          valid :=
            { inv.valid with
              issued := fun other kept => later (inv.valid.issued other kept)
              installed := fun revision member => later (inv.valid.installed revision member) }
          processes := { inv.processes with
            issued := fun p inside => later (inv.processes.issued p inside) }
          files := { inv.files with
            issued := fun x bounded present => later (inv.files.issued x bounded present) }
          tidy := inv.tidy.mono (fun _ => id) fun _ => id
          issued :=
            { increasing := List.pairwise_cons.mpr ⟨fun n member => by
                obtain ⟨entry, among, rfl⟩ := List.mem_map.mp member
                have issued := inv.issued.issued entry among
                show epoch.get > _
                omega, inv.issued.increasing⟩
              seeded := ⟨later inv.issued.seeded.1, fun entry member => by
                rcases List.mem_cons.mp member with rfl | member
                · have seeded := inv.issued.seeded.1
                  show env.seed < epoch.get
                  omega
                · exact inv.issued.seeded.2 entry member⟩
              issued := fun entry member => by
                rcases List.mem_cons.mp member with rfl | member
                · exact Nat.le_refl _
                · exact later (inv.issued.issued entry member)
              fresh := fun entry member => by
                rcases List.mem_cons.mp member with rfl | member
                · exact unnamed
                · exact inv.issued.fresh entry member }
          shown := { inv.shown with
            settled := fun showing => { inv.shown.settled showing with } } }

/-- The operation takes responsibility for an epoch that was handed out, and that has
    no backup or is quarantined. -/
theorem Inv.own (inv : Inv env c w) (epoch : Epoch) (issued : epoch.get ≤ c.ctrl.epochs.last)
    (bare : ¬ c.ctrl.Quarantined epoch → ∀ generation,
      w.dir.get (Artifact.backup epoch.get generation).name = none) :
    Inv env { c with owned := epoch :: c.owned } w :=
  { inv with
    valid := { inv.valid with
      issued := fun other kept => by
        rcases kept with member | kept
        · rcases List.mem_cons.mp member with rfl | member
          · exact issued
          · exact inv.valid.issued other (.inl member)
        · exact inv.valid.issued other (.inr kept)
      covered := fun h member => (inv.valid.covered h member).imp (List.mem_cons_of_mem _) id }
    files := { inv.files with
      owned := fun removals free x bounded present => by
        obtain ⟨other, same, kept⟩ := inv.files.owned removals free x bounded present
        exact ⟨other, same, kept.imp (List.mem_cons_of_mem _) id⟩ }
    tidy := fun removals synced e keeps unlisted generation present => by
      by_cases own : e = epoch
      · simp [own, bare (own ▸ unlisted)] at present
      · refine inv.tidy removals synced e ?_ unlisted generation present
        exact keeps.imp (fun member => (List.mem_cons.mp member).resolve_left own) id }

/-- An abandoned epoch is nobody's business any more: the mark accounts for its files. -/
theorem Inv.abandon (inv : Inv env c w) (owned : List Epoch) (marked : Abandoned w.marks)
    (fewer : ∀ e ∈ owned, e ∈ c.owned) (covered : ∀ h ∈ c.held, Keeps c.ctrl owned h.epoch) :
    Inv env { c with owned := owned } w :=
  { inv with
    valid := { inv.valid with
      issued := fun other kept => inv.valid.issued other (kept.imp (fewer other) id)
      covered := covered }
    files := { inv.files with owned := fun _ free => absurd marked free }
    tidy := inv.tidy.mono (fun e kept => kept.imp (fewer e) id) fun _ => id }

/-- What is held does not depend on the order it was taken in. -/
theorem Inv.reorder (inv : Inv env c w) {held : List Held} (same : c.held.Perm held) :
    Inv env { c with held := held } w :=
  { inv with
    valid := { inv.valid with
      covered := fun h member => inv.valid.covered h (same.mem_iff.mpr member)
      apart := fun h member => inv.valid.apart h (same.mem_iff.mpr member)
      nodup := (same.map _).nodup_iff.mp inv.valid.nodup }
    processes := { inv.processes with
      tracked := fun p inside alive => (inv.processes.tracked p inside alive).imp
        (fun ⟨h, member, here⟩ => ⟨h, same.mem_iff.mp member, here⟩) id
      held := fun h member => inv.processes.held h (same.mem_iff.mpr member) } }

/-! ## Launching -/

private theorem Processes.spawn {count : Nat} {holds : List Held} {procs procs' : Nat → Instance}
    {launched : Instance} (inv : Processes ctrl count holds procs)
    (changed : ∀ q, procs' q = if q = count then launched else procs q) (sound : launched.Sound)
    (silent : launched.forwarder = none) (serving : launched.userStop = false)
    (issued : launched.epoch.get ≤ ctrl.epochs.last) (unlisted : ¬ ctrl.Quarantined launched.epoch) :
    Processes ctrl (count + 1) (⟨count, launched.epoch, true, false⟩ :: holds) procs' := by
  have new : procs' count = launched := by rw [changed, if_pos rfl]
  have old {q : Nat} (other : q ≠ count) : procs' q = procs q := by rw [changed, if_neg other]
  have older {q : Nat} (inside : q < count) : procs' q = procs q := old (by omega)
  have split {q : Nat} (inside : q < count + 1) : q = count ∨ q < count := by omega
  refine ⟨fun q inside alive => ?_, fun entry member proven q inside same => ?_,
    fun h member => ?_, fun active current => ?_, fun q forwards => ?_, fun q inside => ?_,
    fun q => ?_, fun q f forwards => ?_, fun active current => ?_⟩
  · rcases split inside with rfl | inside
    · exact .inl ⟨_, List.mem_cons_self, rfl⟩
    · rw [older inside] at alive ⊢
      refine (inv.tracked q inside alive).imp ?_ id
      exact fun ⟨h, member, here⟩ => ⟨h, List.mem_cons_of_mem _ member, here⟩
  · rcases split inside with rfl | inside
    · rw [new] at same
      exact absurd ⟨entry, member, same.symm⟩ unlisted
    · rw [older inside] at same ⊢
      exact inv.buried entry member proven q inside same
  · rcases List.mem_cons.mp member with rfl | member
    · rw [new]
      exact ⟨Nat.lt_succ_self _, rfl, fun _ => serving, fun none => by cases none⟩
    · obtain ⟨inside, rest⟩ := inv.held h member
      rw [older inside]
      exact ⟨by omega, rest⟩
  · obtain ⟨inside, rest⟩ := inv.slot active current
    rw [older inside]
    exact ⟨by omega, rest⟩
  · by_cases here : q = count
    · rw [here, new] at forwards
      exact absurd silent forwards
    · exact inv.silent q (old here ▸ forwards)
  · rcases split inside with rfl | inside
    · rw [new]
      exact issued
    · rw [older inside]
      exact inv.issued q inside
  · by_cases here : q = count
    · rw [here, new]
      exact sound
    · rw [old here]
      exact inv.sound q
  · by_cases here : q = count
    · rw [here, new, silent] at forwards
      cases forwards
    · rw [old here] at forwards ⊢
      exact inv.forwarding q f forwards
  · rw [older (inv.slot active current).1]
    exact inv.forwarded active current

theorem Inv.launch (inv : Inv env c w) {process : Instance} (sound : process.Sound)
    (silent : process.forwarder = none) (serving : process.userStop = false)
    (keeps : Keeps c.ctrl c.owned process.epoch) (unlisted : ¬ c.ctrl.Quarantined process.epoch) :
    Inv env { c with
      count := c.count + 1
      held := ⟨c.count, process.epoch, true, false⟩ :: c.held } (w.launch process) := by
  have changed (q : Nat) : (w.launch process).procs q = if q = c.count then process else w.procs q := by
    rw [← inv.count]
    rfl
  have older {q : Nat} (inside : q < c.count) : (w.launch process).procs q = w.procs q := by
    rw [changed, if_neg (by omega)]
  refine { inv with
    count := congrArg (· + 1) inv.count
    valid := { inv.valid with
      covered := fun h member => ?_
      apart := fun h member active current => ?_
      nodup := List.nodup_cons.mpr ⟨fun again => ?_, inv.valid.nodup⟩ }
    processes := inv.processes.spawn changed sound silent serving (inv.valid.issued _ keeps) unlisted
    shown := inv.shown.others (Nat.le_succ _) (fun p inside => ?_)
      fun active current => older (inv.processes.slot active current).1 }
  · rcases List.mem_cons.mp member with rfl | member
    · exact keeps
    · exact inv.valid.covered h member
  · rcases List.mem_cons.mp member with rfl | member
    · exact Nat.ne_of_lt (inv.processes.slot active current).1
    · exact inv.valid.apart h member active current
  · obtain ⟨h, member, same⟩ := List.mem_map.mp again
    have inside : h.proc < c.count := (inv.processes.held h member).1
    exact absurd same (Nat.ne_of_lt inside)
  · rw [older inside]
    exact ⟨rfl, fun _ => id, fun _ => id⟩

theorem spawnInstance_ends (inv : Inv env c w) {plan : EpochPlan}
    (keeps : Keeps c.ctrl c.owned plan.revision.epoch)
    (unlisted : ¬ c.ctrl.Quarantined plan.revision.epoch) :
    Ends env (spawnInstance plan) w (Either
      (fun error w' => error.isStopUnconfirmed = false ∧ Inv env c w') fun p w' => p = c.count ∧
      Inv env { c with
        count := c.count + 1
        held := ⟨c.count, plan.revision.epoch, true, false⟩ :: c.held } w') := by
  refine inv.ends_atomic fun k v inv' => ?_
  cases env.launch k with
  | some failure => exact ⟨failure.not_stopUnconfirmed, inv'⟩
  | none =>
      exact ⟨inv'.count, inv'.launch (Instance.launched_sound _ _ _ _ _) rfl rfl keeps unlisted⟩

/-! ## Readiness and stops -/

/-- `j` may stand for the process `i` outside the slot: same identity, nothing
    forgotten, and a proven death stays proven. -/
structure Instance.Succeeds (j i : Instance) : Prop where
  epoch : j.epoch = i.epoch
  forwarder : j.forwarder = i.forwarder
  dead : i.provenDead = true → j.provenDead = true
  runs : ∀ run ∈ i.runs, run ∈ j.runs
  history : ∀ entry ∈ i.history, entry ∈ j.history
  sound : j.Sound

/-- What is recorded about a held process is true of it. -/
structure Held.Describes (h : Held) (i : Instance) : Prop where
  epoch : i.epoch = h.epoch
  serving : h.serving = true → i.userStop = false
  ready : h.ready = true → 0 < i.version

section

variable {h : Held} {held held' : List Held}

/-- One held process changes, and with it what the operation holds: either the
    process under a new description, or nothing once it is dead. -/
theorem Inv.changeHeld (inv : Inv env c w) (holds : c.held = h :: held) (f : Instance → Instance)
    (succeeds : (f (w.procs h.proc)).Succeeds (w.procs h.proc))
    (change : held' = held ∧ (f (w.procs h.proc)).provenDead = true ∨
      ∃ h', held' = h' :: held ∧ h'.proc = h.proc ∧ h'.epoch = h.epoch ∧
        h'.Describes (f (w.procs h.proc))) :
    Inv env { c with held := held' } (w.updateProc h.proc f) := by
  have here : (w.updateProc h.proc f).procs h.proc = f (w.procs h.proc) := by simp
  have elsewhere {q : Nat} (other : q ≠ h.proc) : (w.updateProc h.proc f).procs q = w.procs q := by
    rw [World.updateProc_procs, if_neg other]
  have mine : h ∈ c.held := holds ▸ List.mem_cons_self
  have among {k : Held} (member : k ∈ held) : k ∈ c.held := holds ▸ List.mem_cons_of_mem _ member
  have nodups : ((h :: held).map (·.proc)).Nodup := holds ▸ inv.valid.nodup
  have offslot (active : Active) (current : c.ctrl.current = some active) :
      active.proc ≠ h.proc := inv.valid.apart h mine active current
  have unheld : h.proc ∉ held.map (·.proc) := (List.nodup_cons.mp nodups).1
  have apart {k : Held} (member : k ∈ held) : k.proc ≠ h.proc :=
    fun same => unheld (List.mem_map.mpr ⟨k, member, same⟩)
  have inside := (inv.processes.held h mine).1
  -- what is still held is the rest, and perhaps the process under its new description
  have fromOld {k : Held} (member : k ∈ held') : k ∈ held ∨
      k.proc = h.proc ∧ k.epoch = h.epoch ∧ k.Describes (f (w.procs h.proc)) := by
    rcases change with ⟨rfl, _⟩ | ⟨h', rfl, regraded⟩
    · exact .inl member
    · exact (List.mem_cons.mp member).elim (fun same => .inr (same ▸ regraded)) .inl
  have toNew {k : Held} (member : k ∈ held) : k ∈ held' := by
    rcases change with ⟨rfl, _⟩ | ⟨h', rfl, _⟩
    · exact member
    · exact List.mem_cons_of_mem _ member
  have nodup : (held'.map (·.proc)).Nodup := by
    rcases change with ⟨rfl, _⟩ | ⟨h', rfl, same, _⟩
    · exact (List.nodup_cons.mp nodups).2
    · rw [List.map_cons, same]
      exact nodups
  have silent : (f (w.procs h.proc)).forwarder = none := by
    rw [succeeds.forwarder]
    by_contra forwards
    obtain ⟨active, current, same⟩ := inv.processes.silent h.proc forwards
    exact offslot active current same
  refine { inv with
    valid := { inv.valid with
      covered := fun k member => ?_
      apart := fun k member => ?_
      nodup := nodup }
    processes :=
      { tracked := fun q inside alive => ?_
        buried := fun entry member proven q inside same => ?_
        held := fun k member => ?_
        slot := fun active current => ?_
        silent := fun q forwards => ?_
        issued := fun q inside => ?_
        sound := fun q => ?_
        forwarding := fun q g forwards => ?_
        forwarded := fun active current => ?_ }
    shown := inv.shown.others le_rfl (fun q _ => ?_)
      fun active current => elsewhere (offslot active current) }
  · rcases fromOld member with member | ⟨_, same, _⟩
    · exact inv.valid.covered k (among member)
    · rw [same]
      exact inv.valid.covered h mine
  · rcases fromOld member with member | ⟨same, _⟩
    · exact inv.valid.apart k (among member)
    · rw [same]
      exact inv.valid.apart h mine
  · by_cases own : q = h.proc
    · subst own
      rw [here] at alive
      rcases change with ⟨_, dead⟩ | ⟨h', rfl, same, _⟩
      · simp [dead] at alive
      · exact .inl ⟨h', List.mem_cons_self, same⟩
    · rw [elsewhere own] at alive ⊢
      refine (inv.processes.tracked q inside alive).imp (fun ⟨k, member, same⟩ => ?_) id
      rcases List.mem_cons.mp (holds ▸ member) with rfl | member
      · exact absurd same.symm own
      · exact ⟨k, toNew member, same⟩
  · by_cases own : q = h.proc
    · subst own
      rw [here, succeeds.epoch] at same
      rw [here]
      exact succeeds.dead (inv.processes.buried entry member proven _ inside same)
    · rw [elsewhere own] at same ⊢
      exact inv.processes.buried entry member proven q inside same
  · rcases fromOld member with member | ⟨same, _, describes⟩
    · rw [elsewhere (apart member)]
      exact inv.processes.held k (among member)
    · rw [same, here]
      exact ⟨inside, describes.epoch, describes.serving, describes.ready⟩
  · rw [elsewhere (offslot active current)]
    exact inv.processes.slot active current
  · by_cases own : q = h.proc
    · subst own
      rw [here] at forwards
      exact absurd silent forwards
    · exact inv.processes.silent q (elsewhere own ▸ forwards)
  · by_cases own : q = h.proc
    · subst own
      rw [here, succeeds.epoch]
      exact inv.processes.issued _ inside
    · rw [elsewhere own]
      exact inv.processes.issued q inside
  · by_cases own : q = h.proc
    · subst own
      rw [here]
      exact succeeds.sound
    · rw [elsewhere own]
      exact inv.processes.sound q
  · by_cases own : q = h.proc
    · subst own
      rw [here, silent] at forwards
      cases forwards
    · rw [elsewhere own] at forwards ⊢
      exact inv.processes.forwarding q g forwards
  · rw [elsewhere (offslot active current)]
    exact inv.processes.forwarded active current
  · by_cases own : q = h.proc
    · subst own
      rw [here]
      exact ⟨succeeds.epoch, succeeds.runs, succeeds.history⟩
    · rw [elsewhere own]
      exact ⟨rfl, fun _ => id, fun _ => id⟩

theorem waitReady_ends (inv : Inv env c w) (holds : c.held = h :: held) :
    Ends env (waitReady h.proc) w (Either
      (fun error w' => error.isStopUnconfirmed = false ∧ Inv env c w')
      fun _ w' => Inv env { c with held := { h with ready := true } :: held } w') := by
  refine inv.ends_atomic fun k v inv' => ?_
  dsimp only
  split
  case h_1 pid running =>
    have seen : 0 < (v.procs h.proc).version := by
      refine Nat.pos_of_ne_zero fun unpublished => ?_
      rw [(inv'.processes.sound h.proc).unpublished unpublished] at running
      cases running
    obtain ⟨_, own, serving, _⟩ := inv'.processes.held h (holds ▸ List.mem_cons_self)
    have ready := inv'.changeHeld holds id
      ⟨rfl, rfl, id, fun _ => id, fun _ => id, inv'.processes.sound _⟩
      (.inr ⟨{ h with ready := true }, rfl, rfl, rfl, own, serving, fun _ => seen⟩)
    rwa [World.updateProc_id] at ready
  case h_2 => split <;> exact ⟨rfl, inv'⟩
  case h_3 => exact ⟨rfl, inv'⟩

theorem beginStop_succeeds {i : Instance} (sound : i.Sound) : i.beginStop.Succeeds i := by
  obtain ⟨epoch, dead, forwarder, _, runs, history⟩ := i.beginStop_static
  exact ⟨epoch, forwarder, dead.trans, fun _ => runs ▸ id, history, Instance.beginStop_sound sound⟩

/-- A stop that returns successfully proves the death; one that fails leaves a
    process that no longer serves. -/
theorem stopAndConfirmDead_ends (inv : Inv env c w) (holds : c.held = h :: held) :
    Ends env (stopAndConfirmDead h.proc) w (Either
      (fun error w' => error.isStopUnconfirmed = true ∧
        Inv env { c with held := { h with serving := false } :: held } w')
      fun _ w' => Inv env { c with held := held } w') := by
  refine inv.ends_atomic fun k v inv' => ?_
  have succeeds := beginStop_succeeds (inv'.processes.sound h.proc)
  cases env.stop k with
  | some detail =>
      obtain ⟨_, own, _, ready⟩ := inv'.processes.held h (holds ▸ List.mem_cons_self)
      refine ⟨rfl, inv'.changeHeld holds _ succeeds (.inr ⟨_, rfl, rfl, rfl, ?_⟩)⟩
      exact
        { epoch := succeeds.epoch.trans own
          serving := fun none => by cases none
          ready := fun isReady => by
            have grows := (v.procs h.proc).beginStop_static.2.2.2.1
            have seen := ready isReady
            omega }
  | none =>
      exact inv'.changeHeld holds (fun i => { i.beginStop with provenDead := true })
        ⟨succeeds.epoch, succeeds.forwarder, fun _ => rfl, succeeds.runs, succeeds.history,
          succeeds.sound.proven true⟩ (.inl ⟨rfl, rfl⟩)

end

end Nyanpasu
