import Nyanpasu.Guarantees.Processes

/-! # The commit feed

A commit is announced together with a running status, before or after the plan
enters the slot.  Between operations nothing announced is left unadopted, and the
newest announcement is the plan in the slot unless a running status went out
without the identity of a run.
-/

namespace Nyanpasu

open Naming Store

variable {env : Env} {dir : Dir} {w : World}

/-- Unless a running status was published without an identity for a revision that was
    not the one committed last, the feed shows the current revision with its document.
    Every configuration ever sent became current, and is the full document of its
    revision and the only one that was current under it. -/
theorem commit_feed_tracks_commits (reachable : Reachable env dir w) :
    (.uncommitted ∉ w.marks → ∀ active, w.ctrl.current = some active →
      ∃ sent, w.commits = some sent ∧ sent.revision = active.plan.revision ∧
        sent.config = active.plan.effectiveDocument) ∧
    ∀ sent ∈ w.feed, sent.revision ∈ w.installs ∧ sent.configuration ∈ w.adopted ∧
      env.Full sent.configuration ∧
      ∀ document, (sent.revision, document) ∈ w.adopted → document = sent.config := by
  obtain ⟨c, inv, idle⟩ := reachable.stable
  have announced := inv.feeding.announced
  rw [idle.pledge] at announced
  constructor
  · intro unmarked active current
    rw [inv.ctrl] at current
    have latest := announced.current (fun due => by cases due) unmarked active.plan.configuration
      (by rw [current]; rfl)
    obtain ⟨sent, newest, same⟩ := Option.map_eq_some_iff.mp latest
    obtain ⟨revision, document⟩ := Prod.mk.inj same
    exact ⟨sent, newest, revision, document⟩
  · intro sent member
    have adopted : sent.configuration ∈ c.adopted := by
      rcases announced.honest _ (List.mem_map_of_mem member) with known | early
      · exact known
      · cases early
    rw [inv.installs, inv.adopted, ← inv.valid.matched]
    refine ⟨List.mem_map_of_mem adopted, adopted, inv.feeding.full _ adopted, ?_⟩
    intro document other
    exact (Prod.mk.inj (announced.unique _ adopted _ other rfl)).2

/-- A start and a configuration applied in place are both announced. -/
theorem commit_feed_tracks_commits_applied : ∃ w active, Reachable calmEnv [] w ∧
    w.feed.length = 2 ∧ w.ctrl.current = some active ∧
    (∃ sent, w.commits = some sent ∧ sent.revision = active.plan.revision ∧
      sent.config = active.plan.effectiveDocument) ∧
    ∀ sent ∈ w.feed, sent.revision ∈ w.installs ∧ sent.configuration ∈ w.adopted ∧
      calmEnv.Full sent.configuration ∧
      ∀ document, (sent.revision, document) ∈ w.adopted → document = sent.config := by
  obtain ⟨w, reachable, holds⟩ := reachable_of_endsWith calmEnv []
    [.start sampleSpec, .applyConfig sampleSpec none]
    (fun w => w.feed.length = 2 && w.marks = [] && w.ctrl.current.isSome) (by decide +kernel)
  simp only [Bool.and_eq_true, decide_eq_true_eq, Option.isSome_iff_exists] at holds
  obtain ⟨⟨both, unmarked⟩, active, current⟩ := holds
  have tracks := commit_feed_tracks_commits reachable
  exact ⟨w, active, reachable, both, current, tracks.1 (by simp [unmarked]) active current,
    tracks.2⟩

/-- The process crashes between the read of its pid and the snapshot, and is running
    again when the start returns. -/
def lostCommitEnv : Env :=
  { calmEnv with
    interference := fun k =>
      if k = 21 then comesUp 0
      else if k = 23 then [.monitor 0 (.exited ⟨some 1, none⟩), .monitor 0 (.restarting 1 0)]
      else if k = 25 then
        [.monitor 0 (.started 200 (Nat.succ_pos 199) 20 0 0),
          .monitor 0 (.observation ⟨2, 200, .readiness, 0, 0, .healthy⟩ true)]
      else [] }

/-- The start succeeds and its instance runs, but nothing was ever announced. -/
theorem commit_feed_misses_commit : ∃ w active, Reachable lostCommitEnv [] w ∧
    w.ctrl.current = some active ∧ (w.procs active.proc).status.state = .running 200 ∧
    w.commits = none := by
  obtain ⟨w, reachable, holds⟩ := reachable_of_endsWith lostCommitEnv [] [.start sampleSpec]
    (fun w => w.commits.isNone && w.ctrl.current.any fun active =>
      (w.procs active.proc).status.state = .running 200) (by decide +kernel)
  simp only [Bool.and_eq_true, Option.isNone_iff_eq_none, Option.any_eq_true,
    decide_eq_true_eq] at holds
  obtain ⟨nothing, active, current, running⟩ := holds
  exact ⟨w, active, reachable, current, running, nothing⟩

end Nyanpasu
