import Nyanpasu.Control.Command
import Nyanpasu.Channel
import Mathlib.Data.List.AList

/-! # The registry of operations

`Registry` of `control/executor.rs`: the bounded table that makes submissions
idempotent and answers queries.  Admission registers and enqueues in one critical
section, so each function here is one step of the control plane.
-/

namespace Nyanpasu

structure RegisteredOperation where
  digest : String
  sequence : Nat
  state : OperationState
  deriving DecidableEq

structure Registry where
  operations : AList fun _ : OperationId => RegisteredOperation
  order : List OperationId
  nextSequence : Nat
  capacity : Nat

/-- What an admission answers; a registration also returns what enqueueing gave. -/
inductive Admission (χ : Type) where
  | registered (sequence : Nat) (enqueued : χ)
  | existing (sequence : Nat)
  | rejected (error : CoreError)
  /-- The 64-bit sequence counter is exhausted. -/
  | overflowed

/-- The error a submission returns, if it returns one. -/
def Admission.failure {χ : Type} : Admission χ → Option CoreError
  | rejected error => some error
  | _ => none

namespace Registry

def new (capacity : Nat) : Registry := ⟨∅, [], 0, capacity⟩

def get (r : Registry) (id : OperationId) : Option RegisteredOperation := r.operations.lookup id

def isTerminal (r : Registry) (id : OperationId) : Bool := (r.get id).any (·.state.isTerminal)

/-- Drop the oldest terminal entry, if there is one. -/
def evictOldest (r : Registry) : Option Registry :=
  (r.order.find? r.isTerminal).map fun evicted =>
    { r with order := r.order.erase evicted, operations := r.operations.erase evicted }

/-- The loop that makes room; every round shortens the order. -/
def evict : Nat → Registry → Registry
  | 0, r => r
  | rounds + 1, r =>
      if r.capacity ≤ r.operations.entries.length then
        match r.evictOldest with
        | some r' => evict rounds r'
        | none => r
      else r

def makeRoom (r : Registry) : Registry := evict r.order.length r

def conflict (id : OperationId) : CoreError :=
  (CoreError.new .operationConflict
    ("operation " ++ id.display ++ " was already submitted with a different payload")
    false).withOperation id

def sendFailure (id : OperationId) : TrySendError → CoreError
  | .full => (CoreError.new .queueFull "the operation queue is full" true).withOperation id
  | .closed => (CoreError.new .internal "the control executor is gone" false).withOperation id

/-- The entry of a new operation, at the back of the order. -/
def insert (r : Registry) (id : OperationId) (digest : String) : Registry :=
  { r with
    operations := r.operations.insert id ⟨digest, r.nextSequence, .queued⟩
    order := r.order ++ [id]
    nextSequence := r.nextSequence + 1 }

/-- Take back an entry that was just inserted; its number stays used. -/
def retract (r : Registry) (id : OperationId) : Registry :=
  { r with operations := r.operations.erase id, order := r.order.dropLast }

def admitOperation {χ : Type} (r : Registry) (id : OperationId) (digest : String)
    (enqueue : Nat → Except TrySendError χ) : Admission χ × Registry :=
  match r.get id with
  | some existing =>
      if existing.digest = digest then (.existing existing.sequence, r)
      else (.rejected (conflict id), r)
  | none =>
      let r := r.makeRoom
      if r.nextSequence + 1 < 2 ^ 64 then
        match enqueue r.nextSequence with
        | .ok enqueued => (.registered r.nextSequence enqueued, r.insert id digest)
        | .error error => (.rejected (sendFailure id error), (r.insert id digest).retract id)
      else (.overflowed, r)

def set (r : Registry) (id : OperationId) (state : OperationState) : Registry :=
  match r.get id with
  | some operation =>
      { r with operations := r.operations.insert id { operation with state := state } }
  | none => r

/-- `live_registry_capacity`: the queue and the running operation always fit. -/
def liveCapacity (registryCapacity queueCapacity : Nat) : Nat :=
  max registryCapacity (min (queueCapacity + 1) (2 ^ 64 - 1))

/-! ## Lookups -/

variable {χ : Type} {r r' : Registry} {id other : OperationId}

theorem get_insert_self (r : Registry) (id : OperationId) (digest : String) :
    (r.insert id digest).get id = some ⟨digest, r.nextSequence, .queued⟩ :=
  AList.lookup_insert _

theorem get_insert_ne (different : other ≠ id) (digest : String) :
    (r.insert id digest).get other = r.get other :=
  AList.lookup_insert_ne different

theorem get_retract_self (r : Registry) (id : OperationId) : (r.retract id).get id = none :=
  AList.lookup_erase _ _

theorem get_retract_ne (different : other ≠ id) : (r.retract id).get other = r.get other :=
  AList.lookup_erase_ne different

theorem get_set_self {operation : RegisteredOperation} (present : r.get id = some operation)
    (state : OperationState) : (r.set id state).get id = some { operation with state := state } := by
  simp only [set, present]
  exact AList.lookup_insert _

theorem get_set_ne (different : other ≠ id) (state : OperationState) :
    (r.set id state).get other = r.get other := by
  unfold set
  split
  · exact AList.lookup_insert_ne different
  · rfl

/-- A state is written to an entry that was there. -/
theorem present_of_get_set {state : OperationState} {later : RegisteredOperation}
    (present : (r.set id state).get other = some later) :
    ∃ operation, r.get other = some operation ∧ operation.sequence = later.sequence := by
  by_cases same : other = id
  · subst same
    cases before : r.get other with
    | none =>
        rw [set, before] at present
        exact absurd present (by simp [before])
    | some operation =>
        rw [get_set_self before] at present
        cases present
        exact ⟨operation, rfl, rfl⟩
  · rw [get_set_ne same] at present
    exact ⟨later, present, rfl⟩

theorem nextSequence_set (r : Registry) (id : OperationId) (state : OperationState) :
    (r.set id state).nextSequence = r.nextSequence := by
  unfold set
  split <;> rfl

/-! ## Eviction -/

/-- Only terminal entries are gone. -/
def Thinned (r r' : Registry) : Prop :=
  ∀ id, r'.get id = r.get id ∨ r'.get id = none ∧ r.isTerminal id = true

theorem Thinned.refl (r : Registry) : r.Thinned r := fun _ => .inl rfl

theorem Thinned.trans {r'' : Registry} (first : r.Thinned r') (second : r'.Thinned r'') :
    r.Thinned r'' := by
  intro id
  rcases second id with same | ⟨gone, terminal⟩
  · rw [same]
    exact first id
  · rcases first id with kept | ⟨missing, _⟩
    · refine .inr ⟨gone, ?_⟩
      rwa [isTerminal, kept] at terminal
    · simp [isTerminal, missing] at terminal

theorem thinned_evictOldest (evicts : r.evictOldest = some r') :
    r.Thinned r' ∧ r'.nextSequence = r.nextSequence := by
  obtain ⟨evicted, found, rfl⟩ := Option.map_eq_some_iff.mp evicts
  refine ⟨fun id => ?_, rfl⟩
  by_cases same : id = evicted
  · subst same
    exact .inr ⟨AList.lookup_erase _ _, List.find?_some found⟩
  · exact .inl (AList.lookup_erase_ne same)

/-- What every eviction keeps, the whole loop keeps. -/
theorem evict_keeps {P : Registry → Prop}
    (keeps : ∀ r r' : Registry, r.evictOldest = some r' → P r → P r') (rounds : Nat)
    (holds : P r) : P (evict rounds r) := by
  induction rounds generalizing r with
  | zero => exact holds
  | succ rounds ih =>
      unfold evict
      split
      · split
        case h_1 evicts => exact ih (keeps _ _ evicts holds)
        case h_2 => exact holds
      · exact holds

theorem thinned_evict (rounds : Nat) (r : Registry) :
    r.Thinned (evict rounds r) ∧ (evict rounds r).nextSequence = r.nextSequence := by
  apply evict_keeps (P := fun r' => r.Thinned r' ∧ r'.nextSequence = r.nextSequence)
  · intro before after evicts ⟨thinned, same⟩
    obtain ⟨next, kept⟩ := thinned_evictOldest evicts
    exact ⟨thinned.trans next, kept.trans same⟩
  · exact ⟨.refl r, rfl⟩

theorem thinned_makeRoom (r : Registry) : r.Thinned r.makeRoom := (thinned_evict _ r).1

theorem nextSequence_makeRoom (r : Registry) : r.makeRoom.nextSequence = r.nextSequence :=
  (thinned_evict _ r).2

theorem Thinned.absent (thinned : r.Thinned r') (absent : r.get id = none) : r'.get id = none := by
  rcases thinned id with same | ⟨gone, _⟩
  · exact same.trans absent
  · exact gone

/-! ## Admission -/

/-- What an admission that enters nothing can do to the registry. -/
inductive Shrinks (r : Registry) : Registry → Prop where
  | same : Shrinks r r
  | made : Shrinks r r.makeRoom
  | retracted {id : OperationId} (digest : String) : r.get id = none →
      Shrinks r ((r.makeRoom.insert id digest).retract id)

theorem Shrinks.thinned (shrinks : r.Shrinks r') : r.Thinned r' := by
  cases shrinks with
  | same => exact .refl r
  | made => exact thinned_makeRoom r
  | @retracted id digest absent =>
      intro other
      by_cases same : other = id
      · subst same
        exact .inl ((get_retract_self _ _).trans absent.symm)
      · rw [get_retract_ne same, get_insert_ne same]
        exact thinned_makeRoom r other

theorem Shrinks.grown (shrinks : r.Shrinks r') : r.nextSequence ≤ r'.nextSequence := by
  cases shrinks with
  | same => exact le_rfl
  | made => exact (nextSequence_makeRoom r).ge
  | retracted => exact (nextSequence_makeRoom r).ge.trans (Nat.le_succ _)

/-- What an admission did: it attached to or clashed with an entry and left the
    registry alone; or it made room and then entered the operation, took it back, or
    ran out of numbers. -/
inductive Admitted (r : Registry) (id : OperationId) (digest : String)
    (enqueue : Nat → Except TrySendError χ) : Admission χ → Registry → Prop where
  | attached {operation : RegisteredOperation} : r.get id = some operation →
      operation.digest = digest → Admitted r id digest enqueue (.existing operation.sequence) r
  | clashed {operation : RegisteredOperation} : r.get id = some operation →
      operation.digest ≠ digest → Admitted r id digest enqueue (.rejected (conflict id)) r
  | entered {enqueued : χ} : r.get id = none → enqueue r.nextSequence = .ok enqueued →
      Admitted r id digest enqueue (.registered r.nextSequence enqueued)
        (r.makeRoom.insert id digest)
  | failed {error : TrySendError} : r.get id = none → enqueue r.nextSequence = .error error →
      Admitted r id digest enqueue (.rejected (sendFailure id error))
        ((r.makeRoom.insert id digest).retract id)
  | overflowed : r.get id = none → Admitted r id digest enqueue .overflowed r.makeRoom

theorem admitted_admitOperation (r : Registry) (id : OperationId) (digest : String)
    (enqueue : Nat → Except TrySendError χ) :
    Admitted r id digest enqueue (r.admitOperation id digest enqueue).1
      (r.admitOperation id digest enqueue).2 := by
  unfold admitOperation
  cases present : r.get id with
  | some operation =>
      by_cases same : operation.digest = digest
      · simp only [same, if_true]
        exact .attached present same
      · simp only [same, if_false]
        exact .clashed present same
  | none =>
      simp only [nextSequence_makeRoom]
      split
      · cases enqueues : enqueue r.nextSequence with
        | ok enqueued => exact .entered present enqueues
        | error error => exact .failed present enqueues
      · exact .overflowed present

end Registry

end Nyanpasu
