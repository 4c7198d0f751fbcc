import Nyanpasu.Invariant.Errors
import Nyanpasu.Guarantees.Processes

/-! # Compare-and-set

The token of an apply names the revision it is meant to replace.  Revisions only
grow, so a token that was spent is never good again; and an operation whose token
is refused leaves the world to the environment.
-/

namespace Nyanpasu

open Naming Store Program

/-! ## The environment alone -/

namespace World

theorem after_clock (env : Env) (n : Nat) (w : World) : (w.after env n).clock = w.clock + n := by
  induction n with
  | zero => rfl
  | succ n ih =>
      rw [after_succ, ← Nat.add_assoc, ← ih]
      rfl

end World

/-! ## Refusals -/

variable {env : Env} {w w' : World} {error : Error}

variable {α : Type} {program : Manager (Except Error α)}

theorem Plain.not_conflict (plain : Plain program) (conflict : error.isConflict = true)
    : program env w ≠ .ok (.error error, w') := by
  intro run
  simp [plain env w error w' run] at conflict

theorem Plain.map {β : Type} (plain : Plain program) (f : α → β)
    : Plain (do return (← program).map f) :=
  plain.bind plain_error fun _ => plain_ok _

theorem run_of_map_error {β : Type} {f : α → β}
    (run : (do return (← program).map f : Manager (Except Error β)) env w = .ok (.error error, w')) :
    program env w = .ok (.error error, w') := by
  obtain ⟨result, v, ran, run⟩ := run_bind run
  cases result with
  | error other =>
      cases run
      exact ran
  | ok answer => cases run

/-- A refused token is the answer of the check after one look at the slot. -/
theorem applyLocked_refused {input : InstanceSpec} {expected : Option RevisionId}
    (run : applyLocked input expected env w = .ok (.error error, w'))
    (conflict : error.isConflict = true) : w' = w.after env 1 := by
  obtain ⟨ctrl, v, read, run⟩ := run_bind run
  cases read
  cases current : w.ctrl.current with
  | none =>
      simp only [current] at run
      cases run
      cases conflict
  | some active =>
  simp only [current] at run
  obtain ⟨running, v, looked, run⟩ := run_bind run
  cases looked
  cases alive : (w.tick env).slotLive with
  | false =>
      simp only [alive] at run
      cases run
      cases conflict
  | true =>
  simp only [alive] at run
  cases refused : conflicts expected active.plan.revision.id with
  | some refusal =>
      simp only [refused] at run
      cases run
      rfl
  | none =>
      simp only [refused] at run
      exact absurd run ((plain_applyChecked active input).not_conflict conflict)

variable {spec : InstanceSpec}

theorem reconcileLocked_refused {expected : Option RevisionId}
    (run : reconcileLocked spec expected env w = .ok (.error error, w'))
    (conflict : error.isConflict = true) : ∃ n, w' = w.after env n := by
  obtain ⟨running, v, looked, run⟩ := run_bind run
  cases looked
  cases alive : (w.tick env).slotLive with
  | true =>
      simp only [alive] at run
      exact ⟨2, applyLocked_refused run conflict⟩
  | false =>
  simp only [alive] at run
  cases expected with
  | some token =>
      cases run
      exact ⟨1, rfl⟩
  | none =>
      refine absurd run (Plain.not_conflict ?_ conflict)
      refine plain_discardStale.bind plain_error fun _ => ?_
      refine (plain_startLocked spec).bind plain_error fun _ => .after fun ctrl => ?_
      split
      · exact plain_abort _
      · exact plain_ok _

/-- The operation itself did nothing but possibly to host DNS, and not even that
    if the slot's instance was alive all along. -/
def Untouched (env : Env) (w w' : World) : Prop :=
  ∃ n, (∃ entry file calls, w' = (w.after env n).withDns entry file calls) ∧
    ((∀ m ≤ n, (w.after env m).slotLive = true) → w' = w.after env n)

theorem World.untouched_after (n : Nat) : Untouched env w (w.after env n) :=
  ⟨n, ⟨_, _, _, rfl⟩, fun _ => rfl⟩

/-- Passing the quarantine check takes no move. -/
theorem run_of_rejectQuarantine {rest : Except Error Unit → Manager (Except Error α)}
    (run : (rejectQuarantine >>= rest) env w = .ok (.error error, w'))
    (conflict : error.isConflict = true)
    (failed : ∀ error, error.isConflict = false → Plain (rest (.error error))) :
    rest (.ok ()) env w = .ok (.error error, w') := by
  obtain ⟨result, v, ran, run⟩ := run_bind run
  cases result with
  | error other =>
      have harmless := plain_rejectQuarantine env w other v ran
      exact absurd run ((failed other harmless).not_conflict conflict)
  | ok _ =>
      obtain ⟨ctrl, v', read, ran⟩ := run_bind ran
      cases read
      cases rejected : quarantineError w.ctrl.quarantine with
      | some other =>
          simp only [rejected] at ran
          cases ran
      | none =>
          simp only [rejected] at ran
          cases ran
          exact run

/-- DNS follows a refusal only after the slot's instance was seen ended. -/
theorem reconcile_refused {expected : Option RevisionId}
    (run : reconcile spec expected env w = .ok (.error error, w'))
    (conflict : error.isConflict = true) : Untouched env w w' := by
  have run := run_of_rejectQuarantine run conflict plain_error
  obtain ⟨result, v, ran, run⟩ := run_bind run
  obtain ⟨alive, u, looked, run⟩ := run_bind run
  cases looked
  cases result with
  | ok outcome =>
      obtain ⟨_, _, _, run⟩ := run_bind run
      cases run
  | error other =>
  cases live : (v.tick env).slotLive with
  | true =>
      simp only [live] at run
      cases run
      obtain ⟨n, rfl⟩ := reconcileLocked_refused ran conflict
      rw [← World.after_succ]
      exact World.untouched_after (n + 1)
  | false =>
      simp only [live] at run
      obtain ⟨_, u, converged, run⟩ := run_bind run
      cases run
      obtain ⟨n, rfl⟩ := reconcileLocked_refused ran conflict
      rw [← World.after_succ] at live converged
      obtain ⟨k, entry, file, calls, drifted⟩ :=
        (Dns.drifts_dnsConverge (w.after env (n + 1))).of_run converged
      rw [← World.after_add] at drifted
      refine ⟨n + 1 + k, ⟨entry, file, calls, drifted⟩, fun stays => ?_⟩
      simp [stays (n + 1) (by omega)] at live

variable {operation : Operation}

theorem Operation.refused (run : operation.run env w = .ok (.error error, w'))
    (conflict : error.isConflict = true) : Untouched env w w' := by
  cases operation with
  | start spec => exact absurd run (((plain_start spec).map _).not_conflict conflict)
  | stop => exact absurd run ((plain_stop.map _).not_conflict conflict)
  | switch spec => exact absurd run (((plain_switch spec).map _).not_conflict conflict)
  | restart => exact absurd run ((plain_restart.map _).not_conflict conflict)
  | recoverQuarantine => exact absurd run ((plain_recoverQuarantine.map _).not_conflict conflict)
  | shutdown => exact absurd run ((plain_shutdown.map _).not_conflict conflict)
  | applyConfig spec expected =>
      have run := run_of_rejectQuarantine (run_of_map_error run) conflict plain_error
      rw [applyLocked_refused run conflict]
      exact World.untouched_after 1
  | reconcile spec expected => exact reconcile_refused (run_of_map_error run) conflict

/-! ## Revisions along runs -/

/-- The current revision. -/
def World.revision (w : World) : Option ConfigRevision := w.ctrl.current.map (·.plan.revision)

theorem Inv.revision {env : Setting} {c : Ctx} (inv : Inv env c w) : w.revision = c.revision := by
  rw [World.revision, inv.ctrl, Ctx.revision]

/-- A success that installed a revision of its own. -/
def ApplyOutcome.changes (outcome : ApplyOutcome) : Bool :=
  match outcome.settled with
  | .noop _ | .rolledBack _ _ => false
  | _ => true

/-- The answer of an operation that went back to where it started. -/
def endsRolledBack : Except Error Reply → Bool
  | .ok (.applied outcome) =>
      match outcome.settled with
      | .rolledBack _ _ => true
      | _ => false
  | _ => false

/-- What became current in an operation: after a rollback the revision it started
    from; otherwise nothing new, or one revision above every earlier one. -/
def RevisionsGrow (reply : Except Error Reply) (w w' : World) : Prop :=
  if endsRolledBack reply then
    ∃ revision, w.revision = some revision ∧ w'.revision = some revision ∧
      w'.installs = revision :: w.installs
  else
    (w'.installs = w.installs ∧ (w'.revision = none ∨ w'.revision = w.revision)) ∨
      ∃ revision, w'.installs = revision :: w.installs ∧ w'.revision = some revision ∧
        ∀ earlier ∈ w.installs, earlier.rank < revision.rank

section

variable {env : Setting} {c c' : Ctx} {reply : Except Error Reply}

theorem revisionsGrow_of_installs (inv : Inv env c w) (inv' : Inv env c' w')
    (still : c'.installs = c.installs ∧ (c'.revision = none ∨ c'.revision = c.revision) ∨
      Advanced c c') (stays : endsRolledBack reply = false) :
    RevisionsGrow reply w w' := by
  rw [RevisionsGrow, stays, inv.revision, inv'.revision, inv.installs, inv'.installs]
  exact still

theorem revisionsGrow_of_forward (inv : Inv env c w) (inv' : Inv env c' w')
    (forward : Forward c c') (stays : endsRolledBack reply = false) :
    RevisionsGrow reply w w' :=
  revisionsGrow_of_installs inv inv' (forward.imp (fun kept => ⟨kept.installs, kept.2⟩) id) stays

theorem Operation.revisionsGrow (inv : Inv env c w) (inv' : Inv env c' w')
    (done : operation.After reply c c') : RevisionsGrow reply w w' := by
  cases reply with
  | error error => exact revisionsGrow_of_forward inv inv' done rfl
  | ok answer =>
  cases answer with
  | done => exact revisionsGrow_of_forward inv inv' done rfl
  | switched outcome => exact revisionsGrow_of_forward inv inv' done rfl
  | applied outcome =>
  obtain ⟨effect, _⟩ := done
  unfold ApplyOutcome.Effect at effect
  split at effect
  case h_1 revision settled =>
    refine revisionsGrow_of_installs inv inv' (.inl ⟨effect.1, .inr effect.2⟩) ?_
    simp [endsRolledBack, settled]
  case h_2 revision text settled =>
    obtain ⟨restored, installs, current, before⟩ := effect
    rw [RevisionsGrow, if_pos (by simp [endsRolledBack, settled]), inv.revision, inv'.revision,
      inv.installs, inv'.installs]
    exact ⟨restored, before, current, installs⟩
  case h_3 kept other =>
    refine revisionsGrow_of_forward inv inv' (.inr effect) ?_
    simp only [endsRolledBack]

end

/-- What comes after a world: the environment moves and operations run. -/
inductive Later (env : Env) (w : World) : World → Prop where
  | same : Later env w w
  | moved {v : World} : Later env w v → Later env w (v.tick env)
  | operated {v v' : World} {operation : Operation} {reply : Except Error Reply} :
      Later env w v → operation.run env v = .ok (reply, v') → Later env w v'

theorem RevisionsGrow.recorded {reply : Except Error Reply} (grow : RevisionsGrow reply w w')
    {revision : ConfigRevision} (member : revision ∈ w.installs) : revision ∈ w'.installs := by
  unfold RevisionsGrow at grow
  split at grow
  · obtain ⟨_, _, _, installs⟩ := grow
    exact installs ▸ List.mem_cons_of_mem _ member
  · rcases grow with ⟨installs, _⟩ | ⟨_, installs, _⟩
    · exact installs ▸ member
    · exact installs ▸ List.mem_cons_of_mem _ member

variable {dir : Dir}

theorem Reachable.revisionsGrow {reply : Except Error Reply} (reachable : Reachable env dir w)
    (run : operation.run env w = .ok (reply, w')) : RevisionsGrow reply w w' := by
  obtain ⟨c, inv, idle⟩ := reachable.stable
  obtain ⟨c', inv', _, done, _⟩ := operation.leaves inv idle run
  exact operation.revisionsGrow inv inv' done

/-- A later world is reachable and remembers every revision. -/
theorem Later.keeps {v : World} (later : Later env w v) (reachable : Reachable env dir w) :
    Reachable env dir v ∧ ∀ revision ∈ w.installs, revision ∈ v.installs := by
  induction later with
  | same => exact ⟨reachable, fun _ => id⟩
  | moved _ ih =>
      refine ⟨ih.1.moved, fun revision member => ?_⟩
      rw [(World.moved_tick env _).installs]
      exact ih.2 revision member
  | operated _ run ih =>
      exact ⟨ih.1.operated run, fun revision member =>
        (ih.1.revisionsGrow run).recorded (ih.2 revision member)⟩

variable {outcome : ApplyOutcome}

variable {token : RevisionId}

/-- A success with a token started from the revision the token names, which is the
    newest one of all. -/
theorem Reachable.expected (reachable : Reachable env dir w)
    (run : operation.run env w = .ok (.ok (.applied outcome), w'))
    (given : operation.expected = some token) :
    ∃ revision ∈ w.installs, revision.id = token ∧
      ∀ earlier ∈ w.installs, earlier.rank ≤ revision.rank := by
  obtain ⟨c, inv, idle⟩ := reachable.stable
  obtain ⟨c', inv', _, ⟨_, expects⟩, _⟩ := operation.leaves inv idle run
  obtain ⟨revision, current, named⟩ := expects token given
  obtain ⟨active, slot, rfl⟩ := Option.map_eq_some_iff.mp current
  rw [inv.installs]
  exact ⟨_, inv.valid.recorded active slot, named, inv.valid.newest active slot⟩

theorem ConfigRevision.rank_eq_of_id {first second : ConfigRevision} (same : first.id = second.id) :
    first.rank = second.rank := by
  have epochs : first.epoch = second.epoch := congrArg RevisionId.epoch same
  have generations : first.generation = second.generation := congrArg RevisionId.generation same
  rw [rank, rank, epochs, generations]

theorem Reachable.changed (reachable : Reachable env dir w)
    (run : operation.run env w = .ok (.ok (.applied outcome), w'))
    (changes : outcome.changes = true) :
    ∃ revision ∈ w'.installs, ∀ earlier ∈ w.installs, earlier.rank < revision.rank := by
  obtain ⟨c, inv, idle⟩ := reachable.stable
  obtain ⟨c', inv', _, ⟨effect, _⟩, _⟩ := operation.leaves inv idle run
  rw [inv.installs, inv'.installs]
  unfold ApplyOutcome.Effect at effect
  split at effect
  case h_1 revision settled => simp [ApplyOutcome.changes, settled] at changes
  case h_2 revision text settled => simp [ApplyOutcome.changes, settled] at changes
  case h_3 =>
    obtain ⟨revision, installs, _, newer⟩ := effect
    exact ⟨revision, installs ▸ List.mem_cons_self, newer⟩

/-- Once an operation has changed the configuration, its token is spent. -/
theorem token_spent {v v' : World} {operation' : Operation} {outcome' : ApplyOutcome}
    (reachable : Reachable env dir w) (given : operation.expected = some token)
    (given' : operation'.expected = some token)
    (run : operation.run env w = .ok (.ok (.applied outcome), w'))
    (changes : outcome.changes = true) (later : Later env w' v) :
    operation'.run env v ≠ .ok (.ok (.applied outcome'), v') := by
  intro run'
  obtain ⟨before, known, named, _⟩ := reachable.expected run given
  obtain ⟨installed, recorded, newer⟩ := reachable.changed run changes
  obtain ⟨reachable', remembers⟩ := later.keeps (reachable.operated run)
  obtain ⟨current, _, named', newest⟩ := reachable'.expected run' given'
  have same : before.rank = current.rank :=
    ConfigRevision.rank_eq_of_id (named.trans named'.symm)
  have above : before.rank < current.rank :=
    (newer before known).trans_le (newest installed (remembers installed recorded))
  exact absurd same above.ne

/-! ## No update is lost -/

/-- In every run: the revisions that become current grow, but for rollbacks, which
    end where they started; of two operations with the same token, the later one
    does not succeed once the earlier one changed anything; and an operation that
    ends in a conflict has itself touched neither slot, allocator, files nor status,
    nor host DNS while the runtime stays alive. -/
theorem compare_and_set {dir : Dir} (reachable : Reachable env dir w) :
    (∀ (operation : Operation) reply w', operation.run env w = .ok (reply, w') →
      RevisionsGrow reply w w') ∧
    (∀ token (operation operation' : Operation) (outcome outcome' : ApplyOutcome) w' v v',
      operation.expected = some token → operation'.expected = some token →
      operation.run env w = .ok (.ok (.applied outcome), w') → outcome.changes = true →
      Later env w' v → operation'.run env v ≠ .ok (.ok (.applied outcome'), v')) ∧
    ∀ (operation : Operation) expected actual w',
      operation.run env w = .ok (.error (.revisionConflict expected actual), w') →
      ∃ n, w'.clock = w.clock + n ∧ w'.ctrl.current = w.ctrl.current ∧ w'.ctrl.epochs = w.ctrl.epochs ∧
        w'.dir = (w.after env n).dir ∧ w'.status = (w.after env n).status ∧
        w'.published = (w.after env n).published ∧
        ((∀ m ≤ n, (w.after env m).slotLive = true) →
          w'.ctrl.dnsRecord = w.ctrl.dnsRecord ∧ w'.dnsFile = w.dnsFile ∧
            w'.dnsCalls = w.dnsCalls) := by
  refine ⟨fun _ _ _ => reachable.revisionsGrow, fun _ _ _ _ _ _ _ _ given given' run changes =>
    token_spent reachable given given' run changes, fun operation expected actual w' run => ?_⟩
  obtain ⟨n, ⟨entry, file, calls, drifted⟩, alone⟩ := operation.refused run rfl
  obtain ⟨ctrl, dns⟩ := w.after_leaves env n
  refine ⟨n, ?_, ?_, ?_, by rw [drifted]; rfl, by rw [drifted]; rfl, by rw [drifted]; rfl,
    fun alive => ?_⟩
  · rw [drifted, ← w.after_clock env n]
    rfl
  · rw [drifted, ← ctrl]
    rfl
  · rw [drifted, ← ctrl]
    rfl
  · rw [alone alive, ctrl]
    exact ⟨rfl, dns⟩

/-- Two applies with the token of the slot: the first one changes something, the second
    one is refused. -/
def secondRefused (w : World) : Bool :=
  w.ctrl.current.any fun active =>
    match (Operation.applyConfig sampleSpec (some active.plan.revision.id)).run calmEnv w with
    | .ok (.ok (.applied outcome), w₁) => outcome.changes &&
        match (Operation.applyConfig sampleSpec (some active.plan.revision.id)).run calmEnv w₁ with
        | .ok (.error (.revisionConflict _ _), _) => true
        | _ => false
    | _ => false

/-- The second of two applies with the token of the first revision is refused. -/
theorem compare_and_set_twice : ∃ w w₁ w₂ active outcome expected actual,
    Reachable calmEnv [] w ∧ w.ctrl.current = some active ∧
    (Operation.applyConfig sampleSpec (some active.plan.revision.id)).run calmEnv w =
      .ok (.ok (.applied outcome), w₁) ∧ outcome.changes = true ∧
    (Operation.applyConfig sampleSpec (some active.plan.revision.id)).run calmEnv w₁ =
      .ok (.error (.revisionConflict expected actual), w₂) ∧
    RevisionsGrow (.ok (.applied outcome)) w w₁ ∧
    (∀ outcome' v, (Operation.applyConfig sampleSpec (some active.plan.revision.id)).run calmEnv w₁ ≠
      .ok (.ok (.applied outcome'), v)) ∧
    w₂.ctrl.current = w₁.ctrl.current ∧ w₂.ctrl.epochs = w₁.ctrl.epochs := by
  obtain ⟨w, reachable, holds⟩ := reachable_of_endsWith calmEnv [] [.start sampleSpec]
    secondRefused (by decide +kernel)
  rw [secondRefused, Option.any_eq_true] at holds
  obtain ⟨active, current, second⟩ := holds
  split at second
  case h_2 => cases second
  case h_1 outcome w₁ first =>
  rw [Bool.and_eq_true] at second
  obtain ⟨changes, second⟩ := second
  split at second
  case h_2 => cases second
  case h_1 expected actual w₂ refused =>
  obtain ⟨_, _, slot, epochs, _⟩ :=
    (compare_and_set (reachable.operated first)).2.2 _ expected actual w₂ refused
  exact ⟨w, w₁, w₂, active, outcome, expected, actual, reachable, current, first, changes, refused,
    (compare_and_set reachable).1 _ _ _ first, fun outcome' v =>
      (compare_and_set reachable).2.1 _ _ _ outcome outcome' _ _ v rfl rfl first changes .same,
    slot, epochs⟩

end Nyanpasu
