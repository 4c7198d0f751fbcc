import Nyanpasu.Control.Registry

/-! # Order and size of the registry

The eviction order lists every registered id once, so its length is the number of
entries, and making room stops below the capacity or where nothing terminal is left.
-/

namespace Nyanpasu

namespace Registry

variable {r r' : Registry} {id : OperationId}

/-- The number of registered operations. -/
def size (r : Registry) : Nat := r.operations.entries.length

structure Ordered (r : Registry) : Prop where
  nodup : r.order.Nodup
  listed : ∀ id, id ∈ r.order ↔ (r.get id).isSome = true

theorem Ordered.length_eq (ordered : r.Ordered) : r.order.length = r.size := by
  have keys : r.order.Perm r.operations.keys := by
    rw [List.perm_ext_iff_of_nodup ordered.nodup r.operations.keys_nodup]
    intro id
    rw [ordered.listed id, get, AList.lookup_isSome, AList.mem_keys]
  rw [keys.length_eq, size, AList.keys, List.keys, List.length_map]

theorem ordered_new (capacity : Nat) : (new capacity).Ordered where
  nodup := List.nodup_nil
  listed := fun id => by simp [new, get]

/-! ## Making room -/

theorem evictOldest_eq_some (evicts : r.evictOldest = some r') :
    ∃ evicted ∈ r.order, r.isTerminal evicted = true ∧ r' = { r with
      order := r.order.erase evicted, operations := r.operations.erase evicted } := by
  obtain ⟨evicted, found, rfl⟩ := Option.map_eq_some_iff.mp evicts
  exact ⟨evicted, List.mem_of_find?_eq_some found, List.find?_some found, rfl⟩

theorem evictOldest_eq_none (stays : r.evictOldest = none) :
    ∀ id ∈ r.order, r.isTerminal id = false := by
  intro id member
  have none := List.find?_eq_none.mp (Option.map_eq_none_iff.mp stays) id member
  simpa using none

theorem Ordered.evictOldest (ordered : r.Ordered) (evicts : r.evictOldest = some r') :
    r'.Ordered := by
  obtain ⟨evicted, _, _, rfl⟩ := evictOldest_eq_some evicts
  refine ⟨ordered.nodup.erase evicted, ?_⟩
  intro id
  rw [ordered.nodup.mem_erase_iff, ordered.listed id]
  by_cases same : id = evicted
  · subst same
    simp [get]
  · simp [get, same]

theorem length_evictOldest (evicts : r.evictOldest = some r') :
    r'.order.length + 1 = r.order.length := by
  obtain ⟨evicted, member, _, rfl⟩ := evictOldest_eq_some evicts
  exact List.length_erase_add_one member

theorem Ordered.makeRoom (ordered : r.Ordered) : r.makeRoom.Ordered :=
  evict_keeps (fun _ _ evicts ordered => ordered.evictOldest evicts) _ ordered

theorem capacity_makeRoom (r : Registry) : r.makeRoom.capacity = r.capacity := by
  apply evict_keeps (P := fun r' => r'.capacity = r.capacity)
  · intro before after evicts same
    obtain ⟨_, _, _, rfl⟩ := evictOldest_eq_some evicts
    exact same
  · rfl

theorem length_evict_le (rounds : Nat) (r : Registry) :
    (evict rounds r).order.length ≤ r.order.length := by
  apply evict_keeps (P := fun r' => r'.order.length ≤ r.order.length)
  · intro before after evicts shorter
    have less := length_evictOldest evicts
    omega
  · exact le_rfl

/-- The loop ends below the capacity, or for want of anything to evict. -/
theorem Ordered.evict_full (ordered : r.Ordered) {rounds : Nat} (enough : r.order.length ≤ rounds) :
    (evict rounds r).order.length < r.capacity ∨
      ∀ id ∈ (evict rounds r).order, (evict rounds r).isTerminal id = false := by
  induction rounds generalizing r with
  | zero =>
      right
      have empty : r.order = [] := List.eq_nil_of_length_eq_zero (Nat.le_zero.mp enough)
      simp [evict, empty]
  | succ rounds ih =>
      unfold evict
      split
      case isTrue =>
        split
        case h_1 next evicts =>
          have shorter := length_evictOldest evicts
          have same : next.capacity = r.capacity := by
            obtain ⟨_, _, _, rfl⟩ := evictOldest_eq_some evicts
            rfl
          rw [← same]
          exact ih (ordered.evictOldest evicts) (by omega)
        case h_2 stays => exact .inr (evictOldest_eq_none stays)
      case isFalse room =>
        left
        rw [ordered.length_eq, size]
        omega

theorem Ordered.makeRoom_full (ordered : r.Ordered) :
    r.makeRoom.order.length < r.capacity ∨
      ∀ id ∈ r.makeRoom.order, r.makeRoom.isTerminal id = false :=
  ordered.evict_full le_rfl

/-- Nothing is evicted below the capacity, or without anything terminal. -/
theorem makeRoom_eq_self (stays : r.size < r.capacity ∨ ∀ id ∈ r.order, r.isTerminal id = false) :
    r.makeRoom = r := by
  unfold makeRoom
  cases rounds : r.order.length with
  | zero => rfl
  | succ rounds =>
      unfold evict
      split
      case isTrue full =>
        rcases stays with below | live
        · rw [size] at below
          omega
        · have none : r.evictOldest = none := by
            simpa [evictOldest] using live
          simp only [none]
      case isFalse => rfl

/-- Otherwise something is. -/
theorem length_makeRoom_lt {id : OperationId} (full : r.capacity ≤ r.size)
    (listed : id ∈ r.order) (terminal : r.isTerminal id = true) :
    r.makeRoom.order.length < r.order.length := by
  obtain ⟨rounds, counted⟩ := Nat.exists_eq_succ_of_ne_zero
    (Nat.ne_of_gt (List.length_pos_of_mem listed))
  cases evicts : r.evictOldest with
  | none =>
      have live := evictOldest_eq_none evicts id listed
      rw [terminal] at live
      cases live
  | some next =>
      have shorter := length_evictOldest evicts
      have rest := length_evict_le rounds next
      have room : r.makeRoom = evict rounds next := by
        rw [size] at full
        rw [makeRoom, counted, evict, if_pos full, evicts]
      rw [room]
      omega

/-! ## Entries -/

theorem Ordered.insert (ordered : r.Ordered) (absent : r.get id = none) (digest : String) :
    (r.insert id digest).Ordered := by
  have new : id ∉ r.order := by simp [ordered.listed, absent]
  refine ⟨?_, ?_⟩
  · refine List.nodup_append.mpr ⟨ordered.nodup, List.nodup_singleton id, ?_⟩
    intro other member last isLast same
    apply new
    rwa [← List.mem_singleton.mp isLast, ← same]
  · intro other
    by_cases same : other = id
    · subst same
      rw [get_insert_self]
      simp [Registry.insert]
    · rw [get_insert_ne same, ← ordered.listed other]
      simp [Registry.insert, same]

theorem order_retract_insert (r : Registry) (id : OperationId) (digest : String) :
    ((r.insert id digest).retract id).order = r.order := by
  simp [Registry.insert, retract]

theorem get_retract_insert (absent : r.get id = none) (digest : String) (other : OperationId) :
    ((r.insert id digest).retract id).get other = r.get other := by
  by_cases same : other = id
  · subst same
    rw [get_retract_self, absent]
  · rw [get_retract_ne same, get_insert_ne same]

theorem Ordered.retract (ordered : r.Ordered) (absent : r.get id = none) (digest : String) :
    ((r.insert id digest).retract id).Ordered := by
  refine ⟨?_, ?_⟩
  · rw [order_retract_insert]
    exact ordered.nodup
  · intro other
    rw [order_retract_insert, get_retract_insert absent]
    exact ordered.listed other

theorem order_set (r : Registry) (id : OperationId) (state : OperationState) :
    (r.set id state).order = r.order := by
  unfold set
  split <;> rfl

theorem capacity_set (r : Registry) (id : OperationId) (state : OperationState) :
    (r.set id state).capacity = r.capacity := by
  unfold set
  split <;> rfl

theorem Ordered.set (ordered : r.Ordered) (id : OperationId) (state : OperationState) :
    (r.set id state).Ordered := by
  refine ⟨?_, ?_⟩
  · rw [order_set]
    exact ordered.nodup
  · intro other
    rw [order_set, ordered.listed other]
    by_cases same : other = id
    · subst same
      cases present : r.get other with
      | none => simp [Registry.set, present]
      | some operation => rw [get_set_self present]; rfl
    · rw [get_set_ne same]

theorem Shrinks.ordered (shrinks : r.Shrinks r') (ordered : r.Ordered) :
    r'.Ordered ∧ r'.capacity = r.capacity ∧ r'.order.length ≤ r.order.length := by
  have shorter := length_evict_le r.order.length r
  cases shrinks with
  | same => exact ⟨ordered, rfl, le_rfl⟩
  | made => exact ⟨ordered.makeRoom, capacity_makeRoom r, shorter⟩
  | retracted digest absent =>
      have absent := (thinned_makeRoom r).absent absent
      refine ⟨ordered.makeRoom.retract absent digest, capacity_makeRoom r, ?_⟩
      rw [order_retract_insert]
      exact shorter

end Registry

end Nyanpasu
