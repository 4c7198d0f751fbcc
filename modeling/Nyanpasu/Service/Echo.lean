import Nyanpasu.Control.Reports
import Nyanpasu.Machine
import Nyanpasu.Newest

/-! # The echo of the requested core

`manager_bridge.rs`: the manager knows no alpha variants, so the service keeps the core
type of the last committed request beside it.  Every reconcile that `submit_v2` has newly
admitted is watched by a task of its own, which waits for the terminal state and then
moves the echo, unless a reconcile with a greater sequence number was seen before.

A state holds the control plane, the watchers that have not finished and the echo.  What
the watchers have seen is recorded in the order of their critical sections.
-/

namespace Nyanpasu

inductive ClashCoreType where
  | mihomo
  | mihomoAlpha
  | clashRust
  | clashRustAlpha
  | clashPremium
  | meow
  deriving Repr, DecidableEq

inductive CoreType where
  | clash (core : ClashCoreType)
  | singBox
  deriving Repr, DecidableEq

/-- `core_kind`. -/
def coreKind : CoreType → Except String CoreKind
  | .clash .mihomo | .clash .mihomoAlpha => .ok .mihomo
  | .clash .clashRust | .clash .clashRustAlpha => .ok .clashRust
  | .clash .clashPremium => .ok .clashPremium
  | .clash .meow => .ok .meow
  | .singBox => .error "sing-box is not a supported core"

/-- `echo_commits`: whether the terminal state put the requested core type in place. -/
def echoCommits : OperationState → Bool
  | .succeeded (.reconciled outcome) =>
      match outcome.settled with
      | .rolledBack _ _ => false
      | _ => true
  | _ => false

def OperationState.isReconciled : OperationState → Bool
  | .succeeded (.reconciled _) => true
  | _ => false

/-- The task of `watch_reconcile_echo`. -/
structure Watcher where
  sequence : Nat
  coreType : CoreType
  deriving Repr, DecidableEq

/-- `admitted` and `observed` only record: every watcher that was ever started, and the
    finished ones with the state each has seen, oldest first. -/
structure EchoService where
  plane : ControlPlane
  watchers : List Watcher
  echoApplied : Option Nat
  requestedCore : Option CoreType
  admitted : List Watcher
  observed : List (Watcher × OperationState)

namespace EchoService

def new (plane : ControlPlane) : EchoService := ⟨plane, [], none, none, [], []⟩

/-- A commit moves the echo, anything else publishes it as it is. -/
def publishRequestedCore (s : EchoService) (committed : Option CoreType) : EchoService :=
  { s with requestedCore := committed <|> s.requestedCore }

/-- `watch_reconcile_echo`, once there is a terminal state to see. -/
def watchReconcileEcho (s : EchoService) (watcher : Watcher) (state : OperationState) :
    EchoService :=
  let commits := echoCommits state
  if !commits && !state.isReconciled then s
  else if s.echoApplied.any (watcher.sequence ≤ ·) then s
  else
    let s := { s with echoApplied := some watcher.sequence }
    if commits then s.publishRequestedCore (some watcher.coreType)
    else s.publishRequestedCore none

/-- The critical section of `submit_v2` for a reconcile.  Only the submission that
    registered the operation starts a watcher. -/
def submitV2 (s : EchoService) (envelope : CoreCommandEnvelope) (coreType : CoreType)
    (plane : ControlPlane) : EchoService :=
  match (s.plane.admitSubmit envelope).1 with
  | .registered sequence _ =>
      { s with
        plane := plane
        watchers := ⟨sequence, coreType⟩ :: s.watchers
        admitted := ⟨sequence, coreType⟩ :: s.admitted }
  | _ => { s with plane := plane }

inductive Event where
  /-- Anything in the control plane but the admission of a reconcile. -/
  | control (event : ControlPlane.Event)
  /-- A reconcile for a core of this type is admitted, or not. -/
  | submit (envelope : CoreCommandEnvelope) (coreType : CoreType)
  /-- A watcher sees the terminal state it waited for. -/
  | observe (watcher : Watcher)

/-- The kind of core a command asks for. -/
def requestedKind : CoreCommand → Option CoreKind
  | .reconcile request => some request.core.kind
  | _ => none

def admitsReconcile : ControlPlane.Event → Bool
  | .admitSubmit envelope => (requestedKind envelope.command).isSome
  | _ => false

def step (s : EchoService) : Event → Option EchoService
  | .control event =>
      if admitsReconcile event then none
      else (s.plane.step event).map fun plane => { s with plane := plane }
  | .submit envelope coreType =>
      if requestedKind envelope.command = (coreKind coreType).toOption ∧
          (requestedKind envelope.command).isSome then
        (s.plane.step (.admitSubmit envelope)).map (s.submitV2 envelope coreType)
      else none
  | .observe watcher =>
      if watcher ∈ s.watchers then
        (s.plane.reports.lookup watcher.sequence).map fun state =>
          { s.watchReconcileEcho watcher state with
            watchers := s.watchers.erase watcher
            observed := s.observed ++ [(watcher, state)] }
      else none

/-- The service around a new control plane. -/
def Initial (s : EchoService) : Prop :=
  ∃ settings queueCapacity registryCapacity,
    s = new (.spawn settings queueCapacity registryCapacity)

/-- The states of all interleavings. -/
def Reachable : EchoService → Prop := Reaches step Initial fun _ _ => True

/-! ## The echo as a numbered register -/

/-- What a watcher offers: a commit its core type, a rollback nothing; a reconcile that
    failed does not offer at all. -/
def offer (seen : Watcher × OperationState) : Option (Nat × Option CoreType) :=
  if seen.2.isReconciled then
    some (seen.1.sequence, if echoCommits seen.2 then some seen.1.coreType else none)
  else none

/-- The reconciles that went through, committed or rolled back, in the order in which
    they were observed. -/
def completions (s : EchoService) : List (Nat × Option CoreType) := s.observed.filterMap offer

theorem isReconciled_of_commits {state : OperationState} (commits : echoCommits state = true) :
    state.isReconciled = true := by
  cases state with
  | succeeded output => cases output <;> first | rfl | cases commits
  | _ => cases commits

/-- The register behind the echo. -/
def register (s : EchoService) : Numbered CoreType := ⟨s.echoApplied, s.requestedCore⟩

theorem register_watchReconcileEcho (s : EchoService) (watcher : Watcher)
    (state : OperationState) :
    (s.watchReconcileEcho watcher state).register =
      match offer (watcher, state) with
      | some (n, write) => s.register.offer n write
      | none => s.register := by
  by_cases reconciled : state.isReconciled = true
  · simp only [watchReconcileEcho, offer, reconciled, Bool.not_true, Bool.and_false,
      Bool.false_eq_true, if_false, if_true, Numbered.offer, register]
    by_cases late : s.echoApplied.any (watcher.sequence ≤ ·) = true
    · simp only [late, if_true]
    · simp only [late, Bool.false_eq_true, if_false]
      cases echoCommits state <;> rfl
  · have rejected : echoCommits state = false := by
      cases commits : echoCommits state with
      | false => rfl
      | true => exact absurd (isReconciled_of_commits commits) reconciled
    simp [watchReconcileEcho, offer, reconciled, rejected]

theorem watchReconcileEcho_frame (s : EchoService) (watcher : Watcher) (state : OperationState) :
    (s.watchReconcileEcho watcher state).plane = s.plane ∧
      (s.watchReconcileEcho watcher state).admitted = s.admitted := by
  simp only [watchReconcileEcho, publishRequestedCore]
  split
  · exact ⟨rfl, rfl⟩
  · split
    · exact ⟨rfl, rfl⟩
    · split <;> exact ⟨rfl, rfl⟩

end EchoService

end Nyanpasu
