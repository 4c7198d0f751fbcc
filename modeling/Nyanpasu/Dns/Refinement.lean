import Nyanpasu.Invariant.Store

/-! # The manager runs the scripts

Every run of the DNS part of an operation is a run of its script to the end, on the
record file and the record in memory; all else it leaves to the environment.
-/

namespace Nyanpasu

open Naming

/-- The DNS part of the world replaced: the record in memory, the record file, and
    the calls to the controller. -/
def World.withDns (w : World) (entry : Option DnsOverrideRecord) (file : RecordFile)
    (calls : List DnsCall) : World :=
  { w with ctrl := { w.ctrl with dnsRecord := entry }, dnsFile := file, dnsCalls := calls }

namespace World

/-- The world after `n` moves of the environment. -/
def after (env : Env) (n : Nat) (w : World) : World := (World.tick env)^[n] w

theorem after_succ (env : Env) (n : Nat) (w : World) :
    w.after env (n + 1) = (w.after env n).tick env :=
  Function.iterate_succ_apply' _ _ _

theorem after_add (env : Env) (n k : Nat) (w : World) :
    w.after env (n + k) = (w.after env n).after env k := by
  rw [Nat.add_comm]
  exact Function.iterate_add_apply _ _ _ _

section

variable (w : World) (entry : Option DnsOverrideRecord) (file : RecordFile) (calls : List DnsCall)

theorem writeOwn_withDns (p : Nat) (name : FileName) (contents : Option Bytes) :
    (w.withDns entry file calls).writeOwn p name contents =
      (w.writeOwn p name contents).withDns entry file calls := by
  by_cases alive : p < w.procCount ∧ (w.procs p).provenDead = false
  · cases contents <;> simp [writeOwn, withDns, alive]
  · simp [writeOwn, withDns, alive]

/-- The environment does not look at host DNS. -/
theorem interfere_withDns (move : Interference) :
    (w.withDns entry file calls).interfere move = (w.interfere move).withDns entry file calls := by
  cases move with
  | monitor p event => rfl
  | observe p =>
      simp only [interfere, observeProc, withDns]
      split
      case h_1 seen _ =>
        by_cases seenAll : seen = (w.procs p).version
        · simp [seenAll]
        · simp [seenAll, updateProc]
      case h_2 => rfl
  | deliver p now =>
      simp only [interfere, deliver, withDns]
      split
      · simp only [updateProc]
        split <;> rfl
      · rfl
  | pidFile p contents => exact writeOwn_withDns w entry file calls p _ contents
  | socket p contents => exact writeOwn_withDns w entry file calls p _ contents

theorem tick_withDns (env : Env) :
    (w.withDns entry file calls).tick env = (w.tick env).withDns entry file calls := by
  have moves : ∀ (list : List Interference) (v : World),
      list.foldl interfere (v.withDns entry file calls) =
        (list.foldl interfere v).withDns entry file calls := by
    intro list
    induction list with
    | nil => exact fun _ => rfl
    | cons move rest ih =>
        intro v
        rw [List.foldl_cons, interfere_withDns, ih, List.foldl_cons]
  exact congrArg (fun v : World => { v with clock := w.clock + 1 })
    (moves (env.interference w.clock) w)

theorem after_withDns (env : Env) (n : Nat) :
    (w.withDns entry file calls).after env n = (w.after env n).withDns entry file calls := by
  induction n with
  | zero => rfl
  | succ n ih => rw [after_succ, after_succ, ih, tick_withDns]

end

theorem after_leaves (env : Env) (n : Nat) (w : World) : (w.after env n).ctrl = w.ctrl ∧
    (w.after env n).dnsFile = w.dnsFile ∧ (w.after env n).dnsCalls = w.dnsCalls := by
  induction n with
  | zero => exact ⟨rfl, rfl, rfl⟩
  | succ n ih =>
      have moved := moved_tick env (w.after env n)
      rwa [after_succ, moved.ctrl, moved.dnsFile, moved.dnsCalls]

end World

/-- Nothing but the environment has moved since `w`, up to host DNS. -/
def Drifted (env : Env) (w v : World) : Prop :=
  ∃ n entry file calls, v = (w.after env n).withDns entry file calls

variable {env : Env} {u v w : World}

theorem drifted_tick (w : World) : Drifted env w (w.tick env) := ⟨1, _, _, _, rfl⟩

theorem Drifted.trans (first : Drifted env u v) (second : Drifted env v w) : Drifted env u w := by
  obtain ⟨n, _, _, _, rfl⟩ := first
  obtain ⟨k, entry, file, calls, rfl⟩ := second
  refine ⟨n + k, entry, file, calls, ?_⟩
  rw [World.after_withDns, World.after_add]
  rfl

/-- What the environment keeps holds still, with host DNS put back as it was. -/
theorem Drifted.keeps {P : World → Prop} (drifted : Drifted env w v)
    (tick : ∀ w, P w → P (w.tick env)) (holds : P w) :
    P (v.withDns w.ctrl.dnsRecord w.dnsFile w.dnsCalls) := by
  obtain ⟨n, _, _, _, rfl⟩ := drifted
  have alone : P (w.after env n) := by
    induction n with
    | zero => exact holds
    | succ n ih =>
        rw [World.after_succ]
        exact tick _ ih
  obtain ⟨ctrl, file, calls⟩ := w.after_leaves env n
  rw [← ctrl, ← file, ← calls]
  exact alone

namespace Dns

open Script Program Store

/-- The state shows a world, with `memory` of the control block for the record in memory. -/
abbrev Shows (memory : Ctrl → Option DnsOverrideRecord) (w : World) (s : State) : Prop :=
  Views w.dnsFile (memory w.ctrl) w.dnsCalls s

/-- Each run of the program is a run of the script, with related results, and does nothing
    else. -/
def Simulates {α β : Type} (memory : Ctrl → Option DnsOverrideRecord) (env : Env)
    (related : α → β → Prop) (program : Manager α) (script : Sync β) : Prop :=
  ∀ w s, Shows memory w s → Ensures Tolerated env program w fun a w' =>
    Drifted env w w' ∧
      ∃ b s', related a b ∧ Shows memory w' s' ∧ Completes (Effects True) script s b s'

section

variable {α α' β β' : Type} {memory : Ctrl → Option DnsOverrideRecord} {env : Env}
  {related : α → β → Prop} {related' : α' → β' → Prop}

theorem shows_tick {w : World} {s : State} (views : Shows memory w s) :
    Shows memory (w.tick env) s := by
  have moved := World.moved_tick env w
  rwa [Shows, moved.dnsFile, moved.ctrl, moved.dnsCalls]

theorem Simulates.bind {program : Manager α} {script : Sync β} {rest : α → Manager α'}
    {rest' : β → Sync β'} (first : Simulates memory env related program script)
    (next : ∀ a b, related a b → Simulates memory env related' (rest a) (rest' b)) :
    Simulates memory env related' (program >>= rest) (script >>= rest') := by
  intro w s views
  refine (first w s views).bind ?_
  rintro a w₁ ⟨drifted, b, s₁, holds, views₁, completes⟩
  refine (next a b holds w₁ s₁ views₁).mono ?_
  rintro a' w₂ ⟨drifted', b', s₂, holds', views₂, follows⟩
  exact ⟨drifted.trans drifted', b', s₂, holds', views₂, completes.bind follows⟩

theorem simulates_pure {a : α} {b : β} (holds : related a b) :
    Simulates memory env related (pure a) (pure b) :=
  fun _ s views => ⟨⟨0, _, _, _, rfl⟩, b, s, holds, views, rfl, rfl⟩

/-- The answer of the first part is dropped. -/
theorem Simulates.answering {program : Manager α} {script : Sync β} {a : α'} {b : β'}
    (first : Simulates memory env related program script) (holds : related' a b) :
    Simulates memory env related' (program >>= fun _ => pure a) (script >>= fun _ => pure b) :=
  first.bind fun _ _ _ => simulates_pure holds

/-- One atomic step that is one command. -/
theorem simulates_atomic {f : Env → Nat → World → α × World} {command : Command β}
    (step : ∀ k w s, Shows memory w s →
      (∃ entry file calls, (f env k w).2 = w.withDns entry file calls) ∧
        ∃ b s', related (f env k w).1 b ∧ Shows memory (f env k w).2 s' ∧
          Effects True β command s b s') :
    Simulates memory env related (atomic f) (perform command) := by
  intro w s views
  obtain ⟨beside, b, s', holds, views', happens⟩ := step w.clock (w.tick env) s (shows_tick views)
  exact ⟨⟨1, beside⟩, b, s', holds, views', b, s', happens, rfl, rfl⟩

theorem simulates_observe {f : World → α} (command : Command α)
    (reads : ∀ w s, Shows memory w s → Effects True α command s (f w) s) :
    Simulates memory env (· = ·) (observe f) (perform command) := by
  apply simulates_atomic
  intro k w s views
  exact ⟨⟨_, _, _, rfl⟩, _, s, rfl, views, reads w s views⟩

/-- The scripts do not see where the controller is looked up. -/
theorem Simulates.injected {dns : DnsController} {rest : Option DnsController → Manager α}
    {script : Sync β} (injected : env.dns = some dns)
    (next : Simulates memory env related (rest (some dns)) script) :
    Simulates memory env related (ask (fun env _ => env.dns) >>= rest) script := by
  intro w s views
  rw [← injected] at next
  refine ensures_bind (ensures_act ((next _ s (shows_tick views)).mono ?_))
  exact fun _ _ ⟨drifted, rest⟩ => ⟨(drifted_tick w).trans drifted, rest⟩

/-- Reading memory is a command of the script and no step of the manager. -/
theorem Simulates.of_record {rest : Ctrl → Manager α} {rest' : Option DnsOverrideRecord → Sync β}
    (next : ∀ ctrl, Simulates Ctrl.dnsRecord env related (rest ctrl) (rest' ctrl.dnsRecord)) :
    Simulates Ctrl.dnsRecord env related (getCtrl >>= rest) (perform .record >>= rest') := by
  intro w s views
  refine Ensures.mono (next w.ctrl w s views) ?_
  rintro a w' ⟨drifted, b, s', holds, views', completes⟩
  exact ⟨drifted, b, s', holds, views', w.ctrl.dnsRecord, s, ⟨views.record.symm, rfl⟩, completes⟩

end

/-- A file operation succeeds where the script's does. -/
def Succeeds (result : Except Error Unit) (answer : Bool) : Prop := result.isOk = answer

variable {memory : Ctrl → Option DnsOverrideRecord} {env : Env}

/-! ## Files -/

theorem simulates_fileOp (command : Command Bool)
    (answers : ∀ s answer, Effects True Bool command s answer s) :
    Simulates memory env Succeeds (fileOp fun dir => .ok ((), dir)) (perform command) := by
  apply simulates_atomic
  intro k w s views
  cases env.fault k with
  | some failure => exact ⟨⟨_, _, _, rfl⟩, false, s, rfl, views, answers s false⟩
  | none => exact ⟨⟨_, _, _, rfl⟩, true, s, rfl, { views with }, answers s true⟩

theorem simulates_writeDnsRecord (entry : Option DnsOverrideRecord) :
    Simulates memory env Succeeds (Nyanpasu.writeDnsRecord entry) (writeDnsRecord entry) := by
  cases entry with
  | none =>
      rw [Nyanpasu.writeDnsRecord, writeDnsRecord]
      apply simulates_atomic
      intro k w s views
      cases env.removeFault k with
      | some failure => exact ⟨⟨_, _, _, rfl⟩, false, s, rfl, views, .inr ⟨trivial, rfl, rfl⟩⟩
      | none =>
          exact ⟨⟨_, _, _, rfl⟩, true, { s with file := none }, rfl, { views with file := rfl },
            .inl ⟨rfl, rfl⟩⟩
  | some entry =>
      refine (simulates_fileOp .stage fun _ _ => ⟨rfl, .inr trivial⟩).bind ?_
      rintro (error | _) _ rfl
      · exact simulates_pure rfl
      · apply simulates_atomic
        intro k w s views
        cases env.fault k with
        | some failure => exact ⟨⟨_, _, _, rfl⟩, false, s, rfl, views, .inr ⟨trivial, rfl, rfl⟩⟩
        | none =>
            exact ⟨⟨_, _, _, rfl⟩, true,
              { s with file := some (some entry), promised := promise s.promised entry }, rfl,
              { views with file := rfl }, .inl ⟨rfl, rfl⟩⟩

theorem simulates_persistDnsRecord (record : Option DnsOverrideRecord) :
    Simulates Ctrl.dnsRecord env Succeeds (Nyanpasu.persistDnsRecord record) (persistDnsRecord record) := by
  refine (simulates_writeDnsRecord record).bind ?_
  rintro (error | _) _ rfl
  · exact simulates_pure rfl
  · refine (simulates_fileOp .syncDir fun _ _ => rfl).bind ?_
    -- memory is written under the lock, without a step of its own
    intro _ _ _ w s views
    exact ⟨⟨0, _, _, _, rfl⟩, true, { s with record := record }, rfl, { views with record := rfl },
      (), _, rfl, rfl, rfl⟩

/-! ## Host calls -/

theorem simulates_restore (dns : DnsController) (record : DnsOverrideRecord) :
    Simulates memory env (· = ·) (callDns .restore dns.restore) (perform (.restore record)) := by
  apply simulates_atomic
  intro k w s views
  cases dns.restore k with
  | done =>
      exact ⟨⟨_, _, _, rfl⟩, .done (), { s with override := false, promised := none }, rfl,
        { views with override := rfl }, rfl⟩
  | failed | elapsed => exact ⟨⟨_, _, _, rfl⟩, _, s, rfl, { views with }, rfl⟩

theorem simulates_apply (dns : DnsController) (intent : DnsIntent) (epoch : Epoch) :
    Simulates memory env (· = ·) (callDns (fun _ => .apply) dns.apply) (perform (.apply intent epoch)) := by
  apply simulates_atomic
  intro k w s views
  exact ⟨⟨_, _, _, rfl⟩, _, { s with override := true }, rfl, { views with override := rfl }, rfl⟩

variable {dns : DnsController}

/-! ## The functions -/

theorem simulates_dnsRestore (injected : env.dns = some dns) :
    Simulates Ctrl.dnsRecord env (· = ·) Nyanpasu.dnsRestore dnsRestore := by
  refine .injected injected (.of_record ?_)
  intro ctrl
  cases ctrl.dnsRecord with
  | none => exact simulates_pure rfl
  | some record =>
      refine (simulates_persistDnsRecord _).bind ?_
      intro _ _ _
      refine (simulates_restore dns record).bind ?_
      rintro answer _ rfl
      cases answer with
      | failed | elapsed => exact simulates_pure rfl
      | done => exact (simulates_persistDnsRecord none).answering rfl

theorem simulates_dnsApply (dns : DnsController) (intent : DnsIntent) (epoch : Epoch) :
    Simulates Ctrl.dnsRecord env (· = ·) (Nyanpasu.dnsApply dns intent epoch) (dnsApply intent epoch) := by
  unfold Nyanpasu.dnsApply dnsApply
  refine Simulates.of_record ?_
  intro ctrl
  refine (simulates_persistDnsRecord _).bind ?_
  rintro (error | _) _ rfl
  · exact simulates_pure rfl
  · refine (simulates_apply dns intent epoch).bind ?_
    rintro answer _ rfl
    cases answer with
    | failed | elapsed => exact simulates_pure rfl
    | done record' =>
        unfold keepReadBack
        cases ctrl.dnsRecord.filter (·.interface ≠ "") with
        | none => exact (simulates_persistDnsRecord _).answering rfl
        | some base =>
            show Simulates Ctrl.dnsRecord env _ (ite _ _ _) (ite _ _ _)
            split_ifs
            · exact simulates_pure rfl
            · exact (simulates_persistDnsRecord _).answering rfl

theorem simulates_dnsConverge (injected : env.dns = some dns) :
    Simulates Ctrl.dnsRecord env (· = ·) Nyanpasu.dnsConverge dnsConverge := by
  refine .injected injected ?_
  refine (simulates_observe .desired fun _ _ _ => rfl).bind ?_
  rintro wanted _ rfl
  cases wanted with
  | none => exact simulates_dnsRestore injected
  | some wanted => exact simulates_dnsApply dns wanted.1 wanted.2

theorem simulates_reconcileOrphanRecord (memory : Ctrl → Option DnsOverrideRecord)
    (injected : env.dns = some dns) : Simulates memory env (· = ·)
      Nyanpasu.reconcileOrphanRecord reconcileOrphanRecord := by
  refine (simulates_observe .read fun _ _ views => ⟨rfl, .inl views.file.symm⟩).bind ?_
  rintro found _ rfl
  refine .injected injected ?_
  match found with
  | none | some none => exact simulates_pure rfl
  | some (some record) =>
      refine (simulates_restore dns record).bind ?_
      rintro answer _ rfl
      cases answer with
      | failed | elapsed => exact simulates_pure rfl
      | done => exact (simulates_writeDnsRecord none).answering rfl

/-! ## With or without a controller -/

theorem Simulates.drifts {program : Manager Unit} {script : Sync Unit}
    (simulates : Simulates memory env (· = ·) program script) (w : World) :
    Ensures Tolerated env program w fun _ w' => Drifted env w w' :=
  (simulates w ⟨_, _, _, none⟩ ⟨rfl, rfl, rfl⟩).mono fun _ _ ends => ends.1

theorem drifts_dnsRestore (w : World) :
    Ensures Tolerated env Nyanpasu.dnsRestore w fun _ w' => Drifted env w w' := by
  cases injected : env.dns with
  | some dns => exact (simulates_dnsRestore injected).drifts w
  | none =>
      refine ensures_bind (ensures_act (ensures_bind (ensures_act ?_)))
      simp only [injected]
      exact drifted_tick w

theorem drifts_dnsConverge (w : World) :
    Ensures Tolerated env Nyanpasu.dnsConverge w fun _ w' => Drifted env w w' := by
  cases injected : env.dns with
  | some dns => exact (simulates_dnsConverge injected).drifts w
  | none =>
      refine ensures_bind (ensures_act ?_)
      simp only [injected]
      exact drifted_tick w

theorem drifts_reconcileOrphanRecord (w : World) :
    Ensures Tolerated env Nyanpasu.reconcileOrphanRecord w fun _ w' => Drifted env w w' := by
  cases injected : env.dns with
  | some dns => exact (simulates_reconcileOrphanRecord (fun _ => none) injected).drifts w
  | none =>
      refine ensures_bind (ensures_act (ensures_bind (ensures_act ?_)))
      simp only [injected]
      rcases (w.tick env).dnsFile with _ | _ | _ <;> exact (drifted_tick w).trans (drifted_tick _)

/-! ## The life of a manager -/

/-- A script that runs to its end is a stretch of a life. -/
theorem lives_of_completes {script : Sync Unit} {phase : Sync Unit → Phase} {s s' : State}
    (moves : ∀ {now s later s'}, Advances (Effects True) now s later s' →
      Step True ⟨phase now, s⟩ ⟨phase later, s'⟩)
    (completes : Completes (Effects True) script s () s') :
    Relation.ReflTransGen (Step True) ⟨phase script, s⟩ ⟨phase (.ret ()), s'⟩ := by
  induction script generalizing s with
  | ret _ =>
      obtain ⟨_, rfl⟩ := completes
      exact .refl
  | call command next ih =>
      obtain ⟨answer, middle, happens, completes⟩ := completes
      exact .head (moves ⟨answer, happens, rfl⟩) (ih answer completes)

/-- Over any file: as after a manager that could not read it. -/
theorem lived_start (env : Env) (file : RecordFile) :
    Lived env file none [] := by
  refine fun _ _ => ⟨file, .start file, .head .construct ?_, ⟨rfl, rfl, rfl⟩⟩
  exact .head (.build ⟨none, ⟨rfl, .inr ⟨trivial, rfl⟩⟩, rfl⟩) (.single .built)

end Dns

end Nyanpasu
