import Nyanpasu.Guarantees.Processes

/-! # Host DNS can be restored

A record that parses is on disk at every point at which the override may be in place,
crashes included.  The record in memory is the one on disk whenever a manager is idle,
and the baseline it names first stays, as long as no construction gives up on a record.
Every run of the manager is a run of this life.
-/

namespace Nyanpasu

namespace Dns

open Script

variable {faulty : Prop} {s : State} {life : Life}

/-! ## The record comes before the effect -/

def Recorded (s : State) : Prop := ∃ record, s.file = some (some record)

def Safe (s : State) : Prop := s.override = true → Recorded s

/-- A record that is written keeps the file, or is the file. -/
theorem safe_persist (safe : Safe s) (entry : DnsOverrideRecord) :
    Guarded (Effects faulty) Safe (fun written s' => written = true → Recorded s')
      (persistDnsRecord (some entry)) s := by
  refine Guarded.bind (α := Bool) (s := s) (?_ : Guarded (Effects faulty) Safe
    (fun written s' => written = true → Recorded s') (writeDnsRecord (some entry)) s) ?_
  · refine ⟨safe, ?_⟩
    rintro staged s' ⟨rfl, _⟩
    cases staged with
    | false => exact guarded_pure safe nofun
    | true =>
        refine guarded_perform safe ?_
        rintro published s' (⟨rfl, rfl⟩ | ⟨_, rfl, rfl⟩)
        · exact ⟨fun _ => ⟨entry, rfl⟩, fun _ => ⟨entry, rfl⟩⟩
        · exact ⟨safe, nofun⟩
  · intro written s' safe' recorded
    cases written with
    | false => exact guarded_pure safe' nofun
    | true =>
        refine ⟨safe', ?_⟩
        rintro synced s'' rfl
        refine ⟨safe', ?_⟩
        rintro _ s₃ rfl
        exact guarded_pure safe' fun _ => recorded rfl

/-- The record may go once the override has. -/
theorem safe_clear (gone : s.override = false) :
    Guarded (Effects faulty) Safe (fun _ _ => True) (persistDnsRecord none) s := by
  have off : ∀ s' : State, s'.override = false → Safe s' := by
    intro s' gone override
    rw [gone] at override
    cases override
  refine ⟨off s gone, ?_⟩
  rintro removed s' (⟨rfl, rfl⟩ | ⟨_, rfl, rfl⟩)
  · refine ⟨off _ gone, ?_⟩
    rintro synced s' rfl
    refine ⟨off _ gone, ?_⟩
    rintro _ s' rfl
    exact guarded_pure (off _ gone) trivial
  · exact guarded_pure (off _ gone) trivial

theorem safe_dnsRestore (safe : Safe s) :
    Guarded (Effects faulty) Safe (fun _ _ => True) dnsRestore s := by
  refine ⟨safe, ?_⟩
  rintro record s' ⟨rfl, rfl⟩
  cases s'.record with
  | none => exact guarded_pure safe trivial
  | some record =>
      refine (safe_persist safe _).bind ?_
      intro _ s₁ safe₁ _
      refine ⟨safe₁, ?_⟩
      intro answer s₂ restores
      cases answer with
      | done =>
          obtain rfl := restores
          refine (safe_clear rfl).bind ?_
          intro _ s₃ safe₃ _
          exact guarded_pure safe₃ trivial
      | failed | elapsed =>
          obtain rfl := restores
          exact guarded_pure safe₁ trivial

theorem safe_keepReadBack (safe : Safe s) (baseline : Option DnsOverrideRecord)
    (record : DnsOverrideRecord) :
    Guarded (Effects faulty) Safe (fun _ _ => True) (keepReadBack baseline record) s := by
  unfold keepReadBack
  split
  · refine (safe_persist safe _).bind ?_
    intro _ s' safe' _
    exact guarded_pure safe' trivial
  · split
    · exact guarded_pure safe trivial
    · refine (safe_persist safe _).bind ?_
      intro _ s' safe' _
      exact guarded_pure safe' trivial

/-- The override is applied over a record that is there. -/
theorem safe_dnsApply (safe : Safe s) (intent : DnsIntent) (epoch : Epoch) :
    Guarded (Effects faulty) Safe (fun _ _ => True) (dnsApply intent epoch) s := by
  refine ⟨safe, ?_⟩
  rintro record s' ⟨rfl, rfl⟩
  refine (safe_persist safe _).bind ?_
  intro written s₁ safe₁ recorded
  cases written with
  | false => exact guarded_pure safe₁ trivial
  | true =>
      have there : ∀ s₂, s₂ = { s₁ with override := true } → Safe s₂ := by
        rintro s₂ rfl _
        exact recorded rfl
      refine ⟨safe₁, ?_⟩
      intro answer s₂ applies
      cases answer with
      | done record => exact safe_keepReadBack (there s₂ applies) _ record
      | failed | elapsed => exact guarded_pure (there s₂ applies) trivial

theorem safe_dnsConverge (safe : Safe s) :
    Guarded (Effects faulty) Safe (fun _ _ => True) dnsConverge s := by
  refine ⟨safe, ?_⟩
  rintro wanted s' rfl
  cases wanted with
  | none => exact safe_dnsRestore safe
  | some wanted => exact safe_dnsApply safe wanted.1 wanted.2

theorem safe_reconcileOrphanRecord (safe : Safe s) :
    Guarded (Effects faulty) Safe (fun _ _ => True) reconcileOrphanRecord s := by
  refine ⟨safe, ?_⟩
  rintro found s' ⟨rfl, _⟩
  match found with
  | none | some none => exact guarded_pure safe trivial
  | some (some record) =>
      refine ⟨safe, ?_⟩
      intro answer s₁ restores
      cases answer with
      | done =>
          obtain rfl := restores
          refine ⟨nofun, ?_⟩
          rintro removed s₂ (⟨rfl, rfl⟩ | ⟨_, rfl, rfl⟩)
          · exact guarded_pure nofun trivial
          · exact guarded_pure nofun trivial
      | failed | elapsed =>
          obtain rfl := restores
          exact guarded_pure safe trivial

/-- Where a script runs, all that is left of it is safe. -/
def SafeLife (faulty : Prop) (life : Life) : Prop :=
  match life.phase with
  | .down | .idle => Safe life.state
  | .building script | .operating script =>
      Guarded (Effects faulty) Safe (fun _ _ => True) script life.state

theorem SafeLife.safe (holds : SafeLife faulty life) : Safe life.state := by
  obtain ⟨phase, s⟩ := life
  cases phase with
  | down | idle => exact holds
  | building script | operating script => exact Guarded.now holds

theorem SafeLife.step {life' : Life} (holds : SafeLife faulty life)
    (step : Step faulty life life') : SafeLife faulty life' := by
  cases step with
  | construct => exact safe_reconcileOrphanRecord holds
  | build advances | operate advances => exact Guarded.advances holds advances
  | built | finish => exact holds.1
  | restore => exact safe_dnsRestore holds
  | converge => exact safe_dnsConverge holds
  | crash => exact holds.safe

theorem safeLife_of_runs {file : RecordFile}
    (runs : Relation.ReflTransGen (Step faulty) ⟨.down, .start file⟩ life) :
    SafeLife faulty life := by
  induction runs with
  | refl => exact nofun
  | tail _ step ih => exact ih.step step

/-- At every point of every run, crashes, failing files and failing calls included: where
    the override may be in place, a record that parses is on disk. -/
theorem record_before_effect (file : RecordFile) (life : Life)
    (runs : Relation.ReflTransGen (Step True) ⟨.down, .start file⟩ life)
    (override : life.state.override = true) : ∃ record, life.state.file = some (some record) :=
  (safeLife_of_runs runs).safe override

def firstEpoch : Epoch := ⟨1, Nat.one_pos, Epoch.one_bounded⟩

/-- A first converge whose apply times out. -/
theorem first_apply_elapses (obeys : Prop) (file : RecordFile) :
    Relation.ReflTransGen (Step obeys) ⟨.idle, .start file⟩
      ⟨.operating (.ret ()), { State.start file with
        file := some (some (preRecord none ⟨["198.18.0.2"]⟩ firstEpoch))
        record := some (preRecord none ⟨["198.18.0.2"]⟩ firstEpoch)
        override := true
        promised := promise (State.start file).promised
          (preRecord none ⟨["198.18.0.2"]⟩ firstEpoch) }⟩ := by
  refine .head .converge ?_
  refine .head (.operate ⟨some (⟨["198.18.0.2"]⟩, firstEpoch), rfl, rfl⟩) ?_
  refine .head (.operate ⟨none, ⟨rfl, rfl⟩, rfl⟩) ?_
  refine .head (.operate ⟨true, ⟨rfl, .inl rfl⟩, rfl⟩) ?_
  refine .head (.operate ⟨true, .inl ⟨rfl, rfl⟩, rfl⟩) ?_
  refine .head (.operate ⟨true, rfl, rfl⟩) ?_
  refine .head (.operate ⟨(), rfl, rfl⟩) ?_
  refine .head (.operate ⟨.elapsed, rfl, rfl⟩) ?_
  exact .refl

/-- An apply that timed out leaves the record that was written before it. -/
theorem record_before_effect_elapsed :
    ∃ life, Relation.ReflTransGen (Step True) ⟨.down, .start none⟩ life ∧
      life.state.override = true ∧ ∃ record, life.state.file = some (some record) := by
  have built : Relation.ReflTransGen (Step True) ⟨.down, .start none⟩ ⟨.idle, .start none⟩ := by
    refine .head .construct ?_
    refine .head (.build ⟨none, ⟨rfl, .inl rfl⟩, rfl⟩) ?_
    exact .head .built .refl
  have run := built.trans (first_apply_elapses True none)
  exact ⟨_, run, rfl, record_before_effect none _ run rfl⟩

/-! ## Ownership -/

/-- The record on disk still names the interface and servers that were promised. -/
def Kept (s : State) : Prop :=
  ∀ baseline, s.promised = some baseline → baseline.1 ≠ "" ∧
    ∃ record, s.onDisk = some record ∧ (record.interface, record.previous) = baseline

/-- The record in memory is the one on disk. -/
def Owned (s : State) : Prop := s.record = s.onDisk

/-- A new record may not break a promise. -/
def Agrees (s : State) (entry : DnsOverrideRecord) : Prop :=
  ∀ baseline, s.promised = some baseline → (entry.interface, entry.previous) = baseline

theorem kept_publish {entry : DnsOverrideRecord} (kept : Kept s) (agrees : Agrees s entry) :
    Kept { s with file := some (some entry), promised := promise s.promised entry } := by
  intro baseline promised
  cases before : s.promised with
  | some first =>
      simp only [promise, before, Option.some_or, Option.some.injEq] at promised
      subst promised
      exact ⟨(kept first before).1, entry, rfl, agrees first before⟩
  | none =>
      simp only [promise, before, Option.none_or] at promised
      split at promised
      case isTrue named =>
        cases promised
        exact ⟨named, entry, rfl, rfl⟩
      case isFalse => cases promised

/-- Where files do not fail, a record is written to disk and to memory. -/
theorem kept_persist {entry : DnsOverrideRecord} (kept : Kept s) (agrees : Agrees s entry) :
    Guarded (Effects False) Kept
      (fun written s' => written = true ∧ s'.onDisk = some entry ∧ s'.record = some entry ∧
        s'.promised = promise s.promised entry) (persistDnsRecord (some entry)) s := by
  have published := kept_publish kept agrees
  refine ⟨kept, ?_⟩
  rintro staged s' ⟨rfl, rfl | fails⟩
  · refine ⟨kept, ?_⟩
    rintro answer s' (⟨rfl, rfl⟩ | ⟨fails, _⟩)
    · refine ⟨published, ?_⟩
      rintro synced s' rfl
      refine ⟨published, ?_⟩
      rintro _ s' rfl
      exact guarded_pure published ⟨rfl, rfl, rfl, rfl⟩
    · exact fails.elim
  · exact fails.elim

theorem kept_clear (nothing : s.promised = none) :
    Guarded (Effects False) Kept (fun _ => Owned) (persistDnsRecord none) s := by
  have kept : ∀ s' : State, s'.promised = none → Kept s' := by
    intro s' nothing baseline promised
    rw [nothing] at promised
    cases promised
  refine ⟨kept s nothing, ?_⟩
  rintro removed s' (⟨rfl, rfl⟩ | ⟨fails, _⟩)
  · refine ⟨kept _ nothing, ?_⟩
    rintro synced s' rfl
    refine ⟨kept _ nothing, ?_⟩
    rintro _ s' rfl
    exact guarded_pure (kept _ nothing) rfl
  · exact fails.elim

section

variable (kept : Kept s) (owned : Owned s)

include kept owned

theorem kept_dnsRestore : Guarded (Effects False) Kept (fun _ => Owned) dnsRestore s := by
  refine ⟨kept, ?_⟩
  rintro record s' ⟨rfl, rfl⟩
  cases memory : s'.record with
  | none => exact guarded_pure kept owned
  | some record =>
      have agrees : Agrees s' { record with state := .restorePending } := by
        intro baseline promised
        obtain ⟨_, found, disk, same⟩ := kept baseline promised
        rw [Owned, memory, disk] at owned
        cases owned
        exact same
      refine (kept_persist kept agrees).bind ?_
      rintro _ s₁ kept₁ ⟨_, disk, memory, _⟩
      have owned₁ : Owned s₁ := memory.trans disk.symm
      refine ⟨kept₁, ?_⟩
      intro answer s₂ restores
      cases answer with
      | done =>
          obtain rfl := restores
          refine (kept_clear rfl).bind ?_
          intro _ s₃ kept₃ owned₃
          exact guarded_pure kept₃ owned₃
      | failed | elapsed =>
          obtain rfl := restores
          exact guarded_pure kept₁ owned₁

/-- The baseline that a converge works from is the one that is promised. -/
theorem agrees_baseline (intent : DnsIntent) (epoch : Epoch) :
    Agrees s (preRecord (s.record.filter (·.interface ≠ "")) intent epoch) := by
  intro baseline promised
  obtain ⟨named, record, disk, same⟩ := kept baseline promised
  subst same
  rw [owned, disk]
  simp [preRecord, Option.filter, named]

theorem kept_keepReadBack {baseline : Option DnsOverrideRecord} {record : DnsOverrideRecord}
    (agrees : ∀ promised, s.promised = some promised → ∃ base, baseline = some base ∧ (base.interface, base.previous) = promised) :
    Guarded (Effects False) Kept (fun _ => Owned) (keepReadBack baseline record) s := by
  have persists : ∀ entry, Agrees s entry → Guarded (Effects False) Kept (fun _ => Owned)
      (persistDnsRecord (some entry) >>= fun _ => pure ()) s := by
    intro entry holds
    refine (kept_persist kept holds).bind ?_
    rintro _ s' kept' ⟨_, disk, memory, _⟩
    exact guarded_pure kept' (memory.trans disk.symm)
  cases baseline with
  | none =>
      apply persists
      intro promised found
      obtain ⟨_, absurd, _⟩ := agrees promised found
      cases absurd
  | some base =>
      simp only [keepReadBack]
      split
      case isTrue => exact guarded_pure kept owned
      case isFalse same =>
        apply persists
        intro promised found
        obtain ⟨_, isBase, named⟩ := agrees promised found
        cases isBase
        rw [← named, not_not.mp same]

theorem kept_dnsApply (intent : DnsIntent) (epoch : Epoch) :
    Guarded (Effects False) Kept (fun _ => Owned) (dnsApply intent epoch) s := by
  refine ⟨kept, ?_⟩
  rintro record s' ⟨rfl, rfl⟩
  refine (kept_persist kept (agrees_baseline kept owned intent epoch)).bind ?_
  rintro _ s₁ kept₁ ⟨rfl, disk, memory, _⟩
  have owned₁ : Owned s₁ := memory.trans disk.symm
  refine ⟨kept₁, ?_⟩
  rintro answer s₂ rfl
  cases answer with
  | failed | elapsed => exact guarded_pure kept₁ owned₁
  | done record =>
      refine kept_keepReadBack (s := { s₁ with override := true }) kept₁ owned₁ ?_
      intro promised found
      obtain ⟨named, entry, onDisk, same⟩ := kept₁ promised found
      rw [disk] at onDisk
      cases onDisk
      cases baseline : s'.record.filter (·.interface ≠ "") with
      | none =>
          -- without a baseline the record names no interface, so nothing is promised
          rw [← same, baseline] at named
          exact absurd rfl named
      | some base =>
          rw [baseline] at same
          exact ⟨base, rfl, same⟩

theorem kept_dnsConverge : Guarded (Effects False) Kept (fun _ => Owned) dnsConverge s := by
  refine ⟨kept, ?_⟩
  rintro wanted s' rfl
  cases wanted with
  | none => exact kept_dnsRestore kept owned
  | some wanted => exact kept_dnsApply kept owned wanted.1 wanted.2

end

/-! ## Construction -/

/-- A restore that does not say it succeeded. -/
def Fails : ∀ β : Type, Command β → β → Prop
  | _, .restore _, .failed => True
  | _, .restore _, .elapsed => True
  | _, _, _ => False

/-- The effects of a construction that does not give up on a record. -/
def Restoring : Effect Command State := fun β command s answer s' =>
  Effects False β command s answer s' ∧ ¬ Fails β command answer

theorem kept_reconcileOrphanRecord (kept : Kept s) (blank : s.record = none) :
    Guarded Restoring Kept (fun _ => Owned) reconcileOrphanRecord s := by
  refine ⟨kept, ?_⟩
  rintro found s' ⟨⟨rfl, rfl | ⟨fails, _⟩⟩, _⟩
  · match file : s'.file with
    | none | some none =>
        have nothing : s'.onDisk = none := by simp [State.onDisk, file]
        exact guarded_pure kept (blank.trans nothing.symm)
    | some (some record) =>
        refine ⟨kept, ?_⟩
        rintro answer s₁ ⟨restores, succeeds⟩
        cases answer with
        | failed | elapsed => exact absurd trivial succeeds
        | done =>
            obtain rfl := restores
            refine ⟨nofun, ?_⟩
            rintro removed s₂ ⟨⟨rfl, rfl⟩ | ⟨fails, _⟩, _⟩
            · exact guarded_pure nofun blank
            · exact fails.elim
  · exact fails.elim

/-- The step on which a construction gives up on the record it found. -/
def GivesUp (life life' : Life) : Prop :=
  ∃ record next answer, life.phase = .building (.call (.restore record) next) ∧
    life'.phase = .building (next answer) ∧ ∀ done, answer ≠ .done done

/-- A step with files that do not fail, on which no construction gives up. -/
def CandidStep (life life' : Life) : Prop := Step False life life' ∧ ¬ GivesUp life life'

/-- The construction is about to restore. -/
def Phase.atRestore : Phase → Bool
  | .building (.call (.restore _) _) => true
  | _ => false

theorem candid_elsewhere {life' : Life} (elsewhere : life.phase.atRestore = false)
    (step : Step False life life') : CandidStep life life' := by
  refine ⟨step, ?_⟩
  rintro ⟨record, next, answer, here, _⟩
  rw [here] at elsewhere
  cases elsewhere

theorem restoring_of_candid {script script' : Sync Unit} {s' : State}
    (advances : Advances (Effects False) script s script' s')
    (candid : ¬ GivesUp ⟨.building script, s⟩ ⟨.building script', s'⟩) :
    Advances Restoring script s script' s' := by
  cases script with
  | ret => exact advances
  | call command next =>
      obtain ⟨answer, happens, rfl⟩ := advances
      refine ⟨answer, ⟨happens, ?_⟩, rfl⟩
      intro fails
      cases command with
      | restore record =>
          apply candid
          refine ⟨record, next, answer, rfl, rfl, ?_⟩
          rintro done rfl
          exact fails
      | read | stage | publish | remove | syncDir | record | setRecord | desired | apply =>
          exact fails

/-- What is true of a life in each of its phases. -/
def OwnedLife (life : Life) : Prop :=
  match life.phase with
  | .down => Kept life.state ∧ life.state.record = none
  | .idle => Kept life.state ∧ Owned life.state
  | .building script => Guarded Restoring Kept (fun _ => Owned) script life.state
  | .operating script => Guarded (Effects False) Kept (fun _ => Owned) script life.state

theorem OwnedLife.kept (holds : OwnedLife life) : Kept life.state := by
  obtain ⟨phase, s⟩ := life
  cases phase with
  | down | idle => exact holds.1
  | building script | operating script => exact Guarded.now holds

theorem OwnedLife.step {life' : Life} (holds : OwnedLife life) (step : CandidStep life life') :
    OwnedLife life' := by
  obtain ⟨step, candid⟩ := step
  cases step with
  | construct => exact kept_reconcileOrphanRecord holds.1 holds.2
  | build advances => exact Guarded.advances holds (restoring_of_candid advances candid)
  | operate advances => exact Guarded.advances holds advances
  | built | finish => exact holds
  | restore => exact kept_dnsRestore holds.1 holds.2
  | converge => exact kept_dnsConverge holds.1 holds.2
  | crash => exact ⟨holds.kept, rfl⟩

theorem ownedLife_start (file : RecordFile) :
    OwnedLife ⟨.down, .start file⟩ := by
  refine ⟨?_, rfl⟩
  intro baseline promised
  obtain ⟨record, disk, named⟩ := Option.bind_eq_some_iff.mp promised
  simp only [promise, Option.none_or] at named
  split at named
  case isTrue filled =>
    cases named
    exact ⟨filled, record, disk, rfl⟩
  case isFalse => cases named

theorem ownedLife_of_runs {file : RecordFile}
    (runs : Relation.ReflTransGen CandidStep ⟨.down, .start file⟩ life) : OwnedLife life := by
  induction runs with
  | refl => exact ownedLife_start file
  | tail _ step ih => exact ih.step step

/-- In every run on which no construction gives up on a record: an idle manager has in
    memory what is on disk, and the baseline named first stays on disk until a restore
    succeeds. -/
theorem ownership_kept (file : RecordFile) (life : Life)
    (runs : Relation.ReflTransGen CandidStep ⟨.down, .start file⟩ life) :
    (life.phase = .idle → life.state.record = life.state.onDisk) ∧
      ∀ interface previous, life.state.promised = some (interface, previous) →
        ∃ record, life.state.onDisk = some record ∧ record.interface = interface ∧
          record.previous = previous := by
  have holds := ownedLife_of_runs runs
  constructor
  · intro idle
    rw [OwnedLife, idle] at holds
    exact holds.2
  · intro interface previous promised
    obtain ⟨_, record, disk, same⟩ := holds.kept _ promised
    exact ⟨record, disk, congrArg Prod.fst same, congrArg Prod.snd same⟩

def wifi (epoch : Nat) (applied : List String) : DnsOverrideRecord where
  interface := "Wi-Fi"
  previous := ["10.0.0.1"]
  applied := applied
  runtimeEpoch := epoch
  ownerGeneration := none
  state := .applied

theorem ownership_kept_applied :
    ∃ life, Relation.ReflTransGen CandidStep ⟨.down, .start none⟩ life ∧ life.phase = .idle ∧
      life.state.promised = some ("Wi-Fi", ["10.0.0.1"]) ∧
      life.state.record = life.state.onDisk := by
  have run : Relation.ReflTransGen CandidStep ⟨.down, .start none⟩
      ⟨.idle, ⟨some (some (wifi 1 ["198.18.0.2"])), some (wifi 1 ["198.18.0.2"]), true,
        some ("Wi-Fi", ["10.0.0.1"])⟩⟩ := by
    refine .head (candid_elsewhere rfl .construct) ?_
    refine .head (candid_elsewhere rfl (.build ⟨none, ⟨rfl, .inl rfl⟩, rfl⟩)) ?_
    refine .head (candid_elsewhere rfl .built) ?_
    refine .head (candid_elsewhere rfl .converge) ?_
    refine .head (candid_elsewhere rfl
      (.operate ⟨some (⟨["198.18.0.2"]⟩, firstEpoch), rfl, rfl⟩)) ?_
    refine .head (candid_elsewhere rfl (.operate ⟨none, ⟨rfl, rfl⟩, rfl⟩)) ?_
    refine .head (candid_elsewhere rfl (.operate ⟨true, ⟨rfl, .inl rfl⟩, rfl⟩)) ?_
    refine .head (candid_elsewhere rfl (.operate ⟨true, .inl ⟨rfl, rfl⟩, rfl⟩)) ?_
    refine .head (candid_elsewhere rfl (.operate ⟨true, rfl, rfl⟩)) ?_
    refine .head (candid_elsewhere rfl (.operate ⟨(), rfl, rfl⟩)) ?_
    refine .head (candid_elsewhere rfl (.operate ⟨.done (wifi 1 ["198.18.0.2"]), rfl, rfl⟩)) ?_
    refine .head (candid_elsewhere rfl (.operate ⟨true, ⟨rfl, .inl rfl⟩, rfl⟩)) ?_
    refine .head (candid_elsewhere rfl (.operate ⟨true, .inl ⟨rfl, rfl⟩, rfl⟩)) ?_
    refine .head (candid_elsewhere rfl (.operate ⟨true, rfl, rfl⟩)) ?_
    refine .head (candid_elsewhere rfl (.operate ⟨(), rfl, rfl⟩)) ?_
    refine .head (candid_elsewhere rfl .finish) ?_
    exact .refl
  exact ⟨_, run, rfl, rfl, (ownership_kept none _ run).1 rfl⟩

/-- A construction whose restore fails keeps the record on disk and knows nothing of it:
    an idle manager owes a restore it will never retry, and the next converge writes over
    the baseline. -/
theorem ownership_lost :
    (∃ life, Relation.ReflTransGen (Step False)
        ⟨.down, .start (some (some (wifi 7 ["198.18.0.2"])))⟩ life ∧ life.phase = .idle ∧
      life.state.record ≠ life.state.onDisk) ∧
    ∃ life record, Relation.ReflTransGen (Step False)
        ⟨.down, .start (some (some (wifi 7 ["198.18.0.2"])))⟩ life ∧
      life.state.promised = some ("Wi-Fi", ["10.0.0.1"]) ∧ life.state.onDisk = some record ∧
      record.interface = "" := by
  have orphaned : Relation.ReflTransGen (Step False)
      ⟨.down, .start (some (some (wifi 7 ["198.18.0.2"])))⟩
      ⟨.idle, .start (some (some (wifi 7 ["198.18.0.2"])))⟩ := by
    refine .head .construct ?_
    refine .head (.build ⟨some (some (wifi 7 ["198.18.0.2"])), ⟨rfl, .inl rfl⟩, rfl⟩) ?_
    refine .head (.build ⟨.failed, rfl, rfl⟩) ?_
    exact .head .built .refl
  constructor
  · exact ⟨_, orphaned, rfl, by decide⟩
  · exact ⟨_, _, (orphaned.trans (first_apply_elapses False _)).tail .finish, rfl, rfl, rfl⟩

/-! ## Every run of the manager -/

/-- Between the operations of every run, host DNS is as in some life of the scripts; so a
    record that parses is on disk where a controller call may have left an override. -/
theorem managed_lives {env : Env} {dns : DnsController} {dir : Dir} {w : World}
    (injected : env.dns = some dns) (reachable : Reachable env dir w) :
    (∃ origin s, Relation.ReflTransGen (Step True) ⟨.down, .start origin⟩ ⟨.idle, s⟩ ∧
      Views w.dnsFile w.ctrl.dnsRecord w.dnsCalls s) ∧
    (overriding w.dnsCalls = true → ∃ record, w.dnsFile = some (some record)) := by
  obtain ⟨c, inv, _⟩ := reachable.stable
  obtain ⟨origin, s, lives, views⟩ := inv.dns dns injected
  rw [← inv.ctrl] at views
  refine ⟨⟨origin, s, lives, views⟩, fun override => ?_⟩
  obtain ⟨record, held⟩ := (safeLife_of_runs lives).safe (views.override.trans override)
  exact ⟨record, views.file.symm.trans held⟩

/-- The first apply times out. -/
def elapsingEnv : Env :=
  { calmEnv with
    dns := some ⟨fun _ => some ⟨["198.18.0.2"]⟩, fun _ => .elapsed, fun _ => .done ()⟩ }

/-- A converge over a runtime that is up leaves an override and its record. -/
theorem managed_lives_elapsed : ∃ w, Reachable elapsingEnv [] w ∧ w.slotLive = true ∧
    overriding w.dnsCalls = true ∧ ∃ record, w.dnsFile = some (some record) := by
  obtain ⟨w, reachable, holds⟩ := reachable_of_endsWith elapsingEnv [] [.reconcile sampleSpec none]
    (fun w => w.slotLive && overriding w.dnsCalls) (by decide +kernel)
  obtain ⟨live, override⟩ := Bool.and_eq_true_iff.mp holds
  exact ⟨w, reachable, live, override, (managed_lives rfl reachable).2 override⟩

end Dns

end Nyanpasu
