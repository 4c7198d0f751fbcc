import Nyanpasu.Service.Echo

/-! # The echo and the newest commit

The echo is a numbered register, so it ends up with the newest of the commits that were
observed before every newer reconcile.  A rollback that is observed first takes the number
and leaves the value, and a commit below it is then never echoed.
-/

namespace Nyanpasu

namespace EchoService

variable {s s' : EchoService} {watcher : Watcher}

/-! ## Every run -/

/-- The echo holds what the completions left in it. -/
structure Echoing (s : EchoService) : Prop where
  reachable : s.plane.Reachable
  holds : Numbered.Holds none s.completions s.register
  watching : ∀ watcher ∈ s.watchers, watcher ∈ s.admitted
  observed : ∀ seen ∈ s.observed,
    seen.1 ∈ s.admitted ∧ (seen.1.sequence, seen.2) ∈ s.plane.reports

variable {plane : ControlPlane}

theorem echoing_new (reachable : plane.Reachable) : (new plane).Echoing where
  reachable := reachable
  holds := Numbered.holds_nil none
  watching := fun _ none => by cases none
  observed := fun _ none => by cases none

/-- The control plane moves on. -/
theorem Echoing.control (echoing : s.Echoing) {event : ControlPlane.Event}
    (steps : s.plane.step event = some plane) : { s with plane := plane }.Echoing := by
  have kept := (ControlPlane.step_follows steps echoing.reachable.coherent
    echoing.reachable.reported).kept
  exact ⟨echoing.reachable.runs (.single ⟨event, steps⟩), echoing.holds, echoing.watching,
    fun seen member =>
      ⟨(echoing.observed seen member).1, kept _ (echoing.observed seen member).2⟩⟩

variable {coreType : CoreType}

theorem Echoing.submitV2 (echoing : s.Echoing) {envelope : CoreCommandEnvelope}
    (steps : s.plane.step (.admitSubmit envelope) = some plane) :
    (s.submitV2 envelope coreType plane).Echoing := by
  have moved := echoing.control steps
  unfold EchoService.submitV2
  split
  · refine ⟨moved.reachable, moved.holds, ?_, ?_⟩
    · intro watcher member
      rcases List.mem_cons.mp member with rfl | earlier
      · exact List.mem_cons_self
      · exact List.mem_cons_of_mem _ (echoing.watching watcher earlier)
    · intro seen member
      exact ⟨List.mem_cons_of_mem _ (moved.observed seen member).1, (moved.observed seen member).2⟩
  · exact moved

theorem Echoing.observe (echoing : s.Echoing) {state : OperationState}
    (waits : watcher ∈ s.watchers) (reported : s.plane.reports.lookup watcher.sequence = some state) :
    { s.watchReconcileEcho watcher state with
      watchers := s.watchers.erase watcher
      observed := s.observed ++ [(watcher, state)] }.Echoing := by
  obtain ⟨plane, admitted⟩ := s.watchReconcileEcho_frame watcher state
  refine ⟨?_, ?_, ?_, ?_⟩ <;> simp only [plane, admitted]
  · exact echoing.reachable
  · have written := s.register_watchReconcileEcho watcher state
    have listed : (s.observed ++ [(watcher, state)]).filterMap offer =
        s.completions ++ (offer (watcher, state)).toList := by
      rw [List.filterMap_append, completions]
      cases known : offer (watcher, state) <;> simp [known]
    simp only [completions, listed]
    change Numbered.Holds none _ (s.watchReconcileEcho watcher state).register
    rw [written]
    cases offer (watcher, state) with
    | none => simpa [completions] using echoing.holds
    | some item => exact echoing.holds.offer item.1 item.2
  · intro other member
    exact echoing.watching other (List.mem_of_mem_erase member)
  · intro seen member
    rcases List.mem_append.mp member with before | new
    · exact echoing.observed seen before
    · obtain rfl := List.mem_singleton.mp new
      obtain ⟨before, after, split, _⟩ := List.lookup_eq_some_iff.mp reported
      refine ⟨echoing.watching watcher waits, ?_⟩
      rw [split]
      exact List.mem_append_right _ List.mem_cons_self

theorem step_echoing {event : Event} (steps : s.step event = some s') (echoing : s.Echoing) :
    s'.Echoing := by
  cases event with
  | control event =>
      simp only [step] at steps
      split at steps
      · cases steps
      · obtain ⟨plane, moves, rfl⟩ := Option.map_eq_some_iff.mp steps
        exact echoing.control moves
  | submit envelope coreType =>
      simp only [step] at steps
      split at steps
      · obtain ⟨plane, moves, rfl⟩ := Option.map_eq_some_iff.mp steps
        exact echoing.submitV2 moves
      · cases steps
  | observe watcher =>
      simp only [step] at steps
      split at steps
      · rename_i waits
        obtain ⟨state, reported, rfl⟩ := Option.map_eq_some_iff.mp steps
        exact echoing.observe waits reported
      · cases steps

theorem Reachable.echoing (reachable : Reachable s) : s.Echoing := by
  induction reachable with
  | initial new =>
      obtain ⟨settings, queueCapacity, registryCapacity, rfl⟩ := new
      exact echoing_new ⟨settings, queueCapacity, registryCapacity, .refl⟩
  | step _ _ steps ih => exact step_echoing steps ih

/-! ## The newest commit -/

/-- A watched reconcile that succeeded without being rolled back. -/
def Committed (s : EchoService) (watcher : Watcher) : Prop :=
  watcher ∈ s.admitted ∧
    ∃ state, (watcher.sequence, state) ∈ s.plane.reports ∧ echoCommits state = true

def Newest (s : EchoService) (watcher : Watcher) : Prop :=
  s.Committed watcher ∧ ∀ other, s.Committed other → other.sequence ≤ watcher.sequence

/-- The echo is the core type of the newest commit, and as it was when there is none. -/
def EchoesNewest (s : EchoService) : Prop :=
  (∀ watcher, s.Newest watcher → s.requestedCore = some watcher.coreType) ∧
    ((∀ watcher, ¬ s.Committed watcher) → s.requestedCore = none)

/-- The newest of the commits that were observed before every newer reconcile asks for the
    core type of the newest commit of all; it may be that one. -/
def SeenInTime (s : EchoService) : Prop :=
  ∀ watcher, s.Newest watcher → ∃ n, InTime s.completions (n, some watcher.coreType) ∧
    ∀ m coreType, InTime s.completions (m, some coreType) → m ≤ n

/-- A completion that writes is a commit. -/
theorem Echoing.committed (echoing : s.Echoing) {n : Nat}
    (member : (n, some coreType) ∈ s.completions) : s.Committed ⟨n, coreType⟩ := by
  obtain ⟨⟨watcher, state⟩, seen, offered⟩ := List.mem_filterMap.mp member
  obtain ⟨admitted, reported⟩ := echoing.observed _ seen
  simp only [offer] at offered
  split at offered
  · obtain ⟨rfl, write⟩ := Prod.mk.inj (Option.some.inj offered)
    split at write
    · rename_i commits
      cases write
      exact ⟨admitted, state, reported, commits⟩
    · cases write
  · cases offered

/-- In every interleaving, once all watchers have finished, the echo is the core type of the
    highest-sequence commit exactly when a commit for that type was seen in time and no
    newer one was. -/
theorem echo_follows_newest_commit_iff (reachable : Reachable s) :
    s.EchoesNewest ↔ s.SeenInTime := by
  have echoing := reachable.echoing
  have value := echoing.holds.value
  constructor
  · rintro ⟨echoes, _⟩ watcher newest
    have echo := echoes watcher newest
    rcases value with ⟨none, _⟩ | ⟨n, coreType, holds, inTime, greatest⟩
    · rw [register, echo] at none
      cases none
    · rw [register, echo] at holds
      cases holds
      exact ⟨n, inTime, greatest⟩
  · intro seen
    refine ⟨?_, ?_⟩
    · intro watcher newest
      obtain ⟨n, inTime, greatest⟩ := seen watcher newest
      rcases value with ⟨_, nothing⟩ | ⟨m, coreType, holds, inTime', greatest'⟩
      · exact absurd inTime (nothing n _)
      · have same : n = m := le_antisymm (greatest' n _ inTime) (greatest m _ inTime')
        have item := inTime.unique inTime' same
        cases (Prod.mk.inj item).2
        exact holds
    · intro nothing
      rcases value with ⟨none, _⟩ | ⟨n, coreType, _, inTime, _⟩
      · exact none
      · exact absurd (echoing.committed inTime.mem) (nothing _)

/-! ## A commit and a rollback -/

def reconcileFor (number : UInt64) (kind : CoreKind) : CoreCommandEnvelope :=
  ⟨⟨number, 1, 1⟩, .reconcile ⟨⟨kind, "core".toList, none, []⟩, ⟨[], none⟩, .default, none⟩⟩

def settledRevision : ConfigRevision :=
  ⟨⟨1, Nat.one_pos, Epoch.one_bounded⟩, 0, "source", "effective", "core.yaml".toList⟩

/-- A reconcile to mihomo commits, and one to clash-rs after it is rolled back. -/
def rolledBackSecond : List Event :=
  let executed (outcome : ApplyOutcome) : List Event :=
    [.control .advance, .control .advance, .control .advance,
      .control (.finish (.returned (.ok (.reconciled outcome)))), .control .advance]
  [.control (.submit (reconcileFor 1 .mihomo)), .submit (reconcileFor 1 .mihomo) (.clash .mihomo),
    .control (.submit (reconcileFor 2 .clashRust)),
    .submit (reconcileFor 2 .clashRust) (.clash .clashRust)] ++
  executed (.started settledRevision) ++ executed (.rolledBack settledRevision "probe failed")

/-- The two watchers, finishing in the given order. -/
def observedAs (order : List Watcher) : EchoService :=
  replayed step (new (.spawn ⟨.prefer, false⟩ 3 2)) (rolledBackSecond ++ order.map .observe)

theorem reachable_observedAs (order : List Watcher) : (observedAs order).Reachable :=
  (Reaches.initial ⟨_, _, _, rfl⟩).replayed (allAllowed_of_forall (fun _ _ => trivial) _)

def mihomoWatcher : Watcher := ⟨0, .clash .mihomo⟩

def clashRustWatcher : Watcher := ⟨1, .clash .clashRust⟩

/-- Whatever the order, only the first reconcile commits. -/
theorem newest_of_run {s : EchoService} (admitted : s.admitted = [clashRustWatcher, mihomoWatcher])
    (reports : s.plane.reports = [
      (1, .succeeded (.reconciled (.rolledBack settledRevision "probe failed"))),
      (0, .succeeded (.reconciled (.started settledRevision)))]) (watcher : Watcher) :
    s.Committed watcher ↔ watcher = mihomoWatcher := by
  constructor
  · rintro ⟨known, state, reported, commits⟩
    rw [admitted] at known
    rw [reports] at reported
    rcases List.mem_cons.mp known with rfl | known
    · rcases List.mem_cons.mp reported with rolledBack | reported
      · cases (Prod.mk.inj rolledBack).2
        cases commits
      · cases (Prod.mk.inj (List.mem_singleton.mp reported)).1
    · exact List.mem_singleton.mp known
  · rintro rfl
    refine ⟨?_, .succeeded (.reconciled (.started settledRevision)), ?_, ?_⟩
    · rw [admitted]
      exact List.mem_cons_of_mem _ List.mem_cons_self
    · rw [reports]
      exact List.mem_cons_of_mem _ List.mem_cons_self
    · rfl

theorem echo_follows_newest_commit_in_order :
    (observedAs [mihomoWatcher, clashRustWatcher]).watchers = [] ∧
      (observedAs [mihomoWatcher, clashRustWatcher]).EchoesNewest := by
  have admitted : (observedAs [mihomoWatcher, clashRustWatcher]).admitted =
      [clashRustWatcher, mihomoWatcher] := by decide +kernel
  have committed := newest_of_run admitted (by decide +kernel)
  have completions : (observedAs [mihomoWatcher, clashRustWatcher]).completions =
      [(0, some (.clash .mihomo)), (1, none)] := by decide +kernel
  refine ⟨by decide +kernel, (echo_follows_newest_commit_iff (reachable_observedAs _)).mpr ?_⟩
  intro watcher newest
  obtain rfl := (committed watcher).mp newest.1
  refine ⟨0, ⟨[], [(1, none)], completions, fun _ none => by cases none⟩, ?_⟩
  intro m coreType inTime
  have member := inTime.mem
  rw [completions] at member
  simp at member
  omega

/-- The rollback is seen first and takes the number: the commit, seen after it, is never
    echoed. -/
theorem echo_misses_commit_seen_late :
    (observedAs [clashRustWatcher, mihomoWatcher]).Reachable ∧
      (observedAs [clashRustWatcher, mihomoWatcher]).watchers = [] ∧
      (observedAs [clashRustWatcher, mihomoWatcher]).Newest mihomoWatcher ∧
      (observedAs [clashRustWatcher, mihomoWatcher]).requestedCore = none := by
  have admitted : (observedAs [clashRustWatcher, mihomoWatcher]).admitted =
      [clashRustWatcher, mihomoWatcher] := by decide +kernel
  have committed := newest_of_run admitted (by decide +kernel)
  refine ⟨reachable_observedAs _, by decide +kernel, ⟨(committed _).mpr rfl, ?_⟩, by decide +kernel⟩
  intro other commits
  obtain rfl := (committed other).mp commits
  exact le_rfl

end EchoService

end Nyanpasu
