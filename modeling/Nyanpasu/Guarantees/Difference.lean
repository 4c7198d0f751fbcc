import Nyanpasu.Config.Diff

/-! # The structural difference is correct

Its entries stand apart from one another, tell the truth about both sides, miss nothing,
and, where nothing was removed, lead from one document to the other.
-/

namespace Nyanpasu

variable {current desired : Option Node} {path : List String} {entries : List DiffEntry}

/-- Equal up to the order of keys. -/
def SameTree (value value' : Option Node) : Prop := treeOf value = treeOf value'

/-- Neither path leads through the other. -/
def Apart (path path' : List String) : Prop := ¬ path <+: path' ∧ ¬ path' <+: path

/-- Sets the value at a path; mappings that are missing on the way are created. -/
def Node.write : Option Node → List String → Node → Node
  | _, [], value => value
  | target, key :: path, value =>
      let entries := (target.bind Node.asMapping).getD .nil
      .mapping (entries.insert key (Node.write (entries.get key) path value))

/-- One entry applied: a removal has no value to set. -/
def DiffEntry.set (target : Option Node) (entry : DiffEntry) : Option Node :=
  match entry.new with
  | some value => some (Node.write target entry.path value)
  | none => target

variable {value : Option Node} {key : String}

/-! ## Nothing where the sides are equal, something elsewhere -/

theorem isMap_of_child (present : (child value key).isSome = true) : Tree.IsMap (treeOf value) := by
  match value with
  | some (.mapping _) => trivial
  | none | some .null | some (.bool _) | some (.int _) | some (.float _) | some (.string _)
  | some (.sequence _) => simp [child, Node.asMapping] at present

theorem isSome_of_same {value' : Option Node} (equal : same value value' = true) :
    value.isSome = value'.isSome := by
  cases value <;> cases value' <;> simp_all [same]

/-- Where the difference goes on, some child differs. -/
theorem exists_child_differs (differ : same current desired = false)
    (on_ : goesOn current desired = true) :
    ∃ key ∈ childKeys current desired, same (child current key) (child desired key) = false := by
  by_contra all
  have equal : ∀ key, same (child current key) (child desired key) = true := by
    intro key
    by_cases listed : key ∈ childKeys current desired
    · by_contra unequal
      exact all ⟨key, listed, eq_false_of_ne_true unequal⟩
    · obtain ⟨absent, absent'⟩ := not_mem_childKeys.mp listed
      rw [absent, absent']
      rfl
  have listed : childKeys current desired ≠ [] := by
    simp only [goesOn, Bool.and_eq_true, Bool.not_eq_true', List.isEmpty_eq_false_iff] at on_
    exact on_.2
  -- one key is enough to see that both sides are mappings
  obtain ⟨key, member⟩ := List.exists_mem_of_ne_nil _ listed
  have both : (child current key).isSome = true ∧ (child desired key).isSome = true := by
    have agree := isSome_of_same (equal key)
    rcases mem_childKeys.mp member with here | there
    · exact ⟨here, agree ▸ here⟩
    · exact ⟨agree ▸ there, there⟩
  have trees : treeOf current = treeOf desired := by
    apply Tree.IsMap.ext (isMap_of_child both.1) (isMap_of_child both.2)
    intro key
    rw [← treeOf_child, ← treeOf_child, ← same_iff]
    exact equal key
  rw [same_iff.mpr trees] at differ
  cases differ

theorem diff_ne_nil (current desired : Document) :
    same (some (.mapping current)) (some (.mapping desired)) = false →
      diff current desired ≠ [] := by
  refine diff_induction
    (motive := fun current desired _ entries => same current desired = false → entries ≠ [])
    ?equal ?stops ?goes current desired
  case equal =>
    intro _ _ _ equal differ
    rw [equal] at differ
    cases differ
  case stops => exact fun _ _ _ _ => List.cons_ne_nil _ _
  case goes =>
    intro _ _ _ inner differ on_ ih _ none_
    obtain ⟨key, listed, childDiffers⟩ := exists_child_differs differ on_
    exact ih key childDiffers (List.flatMap_eq_nil_iff.mp none_ key listed)

theorem diff_eq_nil_iff (current desired : Document) :
    diff current desired = [] ↔ SameTree (some (.mapping current)) (some (.mapping desired)) := by
  rw [SameTree, ← same_iff]
  constructor
  · intro empty
    by_contra differ
    exact diff_ne_nil current desired (eq_false_of_ne_true differ) empty
  · intro equal
    rw [diff, diffValue, if_pos equal]

/-! ## Entries stand apart -/

theorem Apart.under {key' : String} {rest rest' : List String} (different : key ≠ key')
    (path : List String) : Apart (path ++ [key] ++ rest) (path ++ [key'] ++ rest') := by
  constructor
  · rw [List.append_assoc, List.append_assoc, List.prefix_append_right_inj]
    rintro ⟨_, equal⟩
    exact different (List.cons.inj equal).1
  · rw [List.append_assoc, List.append_assoc, List.prefix_append_right_inj]
    rintro ⟨_, equal⟩
    exact different (List.cons.inj equal).1.symm

theorem apart_diff (current desired : Document) :
    (diff current desired).Pairwise fun entry entry' => Apart entry.path entry'.path := by
  refine (diff_induction (motive := fun _ _ path entries =>
    (∀ entry ∈ entries, path <+: entry.path) ∧
      entries.Pairwise fun entry entry' => Apart entry.path entry'.path)
    ?equal ?stops ?goes current desired).2
  case equal => exact fun _ _ => ⟨fun _ member => (nomatch member), List.Pairwise.nil⟩
  case stops =>
    intro _ _ path _ _
    refine ⟨fun entry member => ?_, List.pairwise_singleton _ _⟩
    obtain rfl := List.mem_singleton.mp member
    exact List.prefix_rfl
  case goes =>
    intro current desired path inner _ _ ih
    refine ⟨fun entry member => ?_, ?_⟩
    · obtain ⟨key, _, member⟩ := List.mem_flatMap.mp member
      exact (List.prefix_append path [key]).trans ((ih key).1 entry member)
    · -- the keys are distinct, and each keeps its entries below itself
      rw [List.pairwise_flatMap]
      refine ⟨fun key _ => (ih key).2, ?_⟩
      refine nodup_childKeys.imp fun {key key'} different entry member entry' member' => ?_
      obtain ⟨rest, at_⟩ := (ih key).1 entry member
      obtain ⟨rest', at_'⟩ := (ih key').1 entry' member'
      rw [← at_, ← at_']
      exact Apart.under different path

/-! ## Every difference is covered -/

theorem same_below {value' : Option Node} (equal : same value value' = true) (path : List String)
    : same (below value path) (below value' path) = true := by
  induction path generalizing value value' with
  | nil => exact equal
  | cons key path ih => exact ih (same_child equal key)

/-- An entry at a path or above it, or below it. -/
def Covers (entries : List DiffEntry) (path rest : List String) : Prop :=
  ∃ entry ∈ entries, ∃ tail, entry.path = path ++ tail ∧ (tail <+: rest ∨ rest <+: tail)

theorem Covers.child {inner : String → List DiffEntry} {keys tail : List String}
    (listed : key ∈ keys) (covers : Covers (inner key) (path ++ [key]) tail) :
    Covers (keys.flatMap inner) path (key :: tail) := by
  obtain ⟨entry, member, rest, at_, near⟩ := covers
  refine ⟨entry, List.mem_flatMap.mpr ⟨key, listed, member⟩, key :: rest, by simp [at_], ?_⟩
  simpa only [List.cons_prefix_cons, true_and] using near

theorem covers_diff (current desired : Document) (rest : List String)
    (differ : same (below (some (.mapping current)) rest) (below (some (.mapping desired)) rest) =
      false) : Covers (diff current desired) [] rest := by
  refine diff_induction (motive := fun current desired path entries =>
    ∀ rest, same (below current rest) (below desired rest) = false → Covers entries path rest)
    ?equal ?stops ?goes current desired rest differ
  case equal =>
    intro _ _ _ equal rest differ
    rw [same_below equal rest] at differ
    cases differ
  case stops =>
    intro _ _ path _ _ rest _
    exact ⟨_, List.mem_singleton_self _, [], by simp, .inl List.nil_prefix⟩
  case goes =>
    intro current desired path inner unequal on_ ih rest differ
    cases rest with
    | nil =>
        -- any child that differs has an entry, which is below the path
        obtain ⟨key, listed, childDiffers⟩ := exists_child_differs unequal on_
        obtain ⟨entry, member, tail, at_, _⟩ := (ih key [] childDiffers).child listed
        exact ⟨entry, member, tail, at_, .inr List.nil_prefix⟩
    | cons key tail =>
        have childDiffers : same (child current key) (child desired key) = false := by
          by_contra equal
          rw [below, below, same_below (eq_true_of_ne_false equal) tail] at differ
          cases differ
        exact (ih key tail differ).child (mem_childKeys_of_differ childDiffers)

/-! ## Without removals the entries lead to the desired side -/

def writes (entries : List DiffEntry) : List (List String × Tree String Node) :=
  entries.filterMap fun entry => entry.new.map fun value => (entry.path, value.tree)

theorem tree_insert (doc : Document) (key : String) (value : Node) :
    (doc.insert key value).tree = fun other => if other = key then some value.tree
      else doc.tree other := by
  funext other
  by_cases same_ : other = key
  · simp [Document.tree_get, same_]
  · simp [Document.tree_get, same_]

theorem tree_write (target : Option Node) (path : List String) (value : Node) :
    (Node.write target path value).tree = Tree.write (treeOf target) path value.tree := by
  induction path generalizing target with
  | nil => rfl
  | cons key path ih =>
      have entries_child : ∀ other, ((target.bind Node.asMapping).getD .nil).tree other =
          Tree.child (treeOf target) other := by
        intro other
        rw [← treeOf_child, Document.tree_get, child]
        cases target.bind Node.asMapping <;> rfl
      have inner : treeOf (((target.bind Node.asMapping).getD .nil).get key) =
          Tree.child (treeOf target) key := by
        rw [← entries_child, Document.tree_get, treeOf]
      simp only [Node.write, Node.tree, tree_insert, Tree.write, ih, inner, entries_child]

theorem treeOf_set (target : Option Node) (entries : List DiffEntry) :
    treeOf (entries.foldl DiffEntry.set target) =
      Tree.writeAll (treeOf target) (writes entries) := by
  induction entries generalizing target with
  | nil => rfl
  | cons entry rest ih =>
      rw [List.foldl_cons, ih]
      cases new : entry.new with
      | none => simp [DiffEntry.set, writes, new]
      | some value =>
          have written : treeOf (DiffEntry.set target entry) =
              some (Tree.write (treeOf target) entry.path value.tree) := by
            simp [DiffEntry.set, new, treeOf, tree_write]
          rw [written]
          simp [writes, new, Tree.writeAll]

/-- The entries below a path, with nothing removed among them, lead from the tree there to
    the desired one. -/
def Leads (current desired : Option Node) (path : List String) (entries : List DiffEntry) : Prop :=
  (∀ entry ∈ entries, entry.new.isSome = true) →
    ∃ rel, writes entries = rel.map (fun w => (path ++ w.1, w.2)) ∧
      Tree.writeAll (treeOf current) rel = treeOf desired

theorem isSome_writeAll {t : Option (Tree String Node)} (present : t.isSome = true)
    (rel : List (List String × Tree String Node)) : (Tree.writeAll t rel).isSome = true := by
  induction rel generalizing t with
  | nil => exact present
  | cons _ _ ih => exact ih rfl

/-- The difference goes on below a mapping, or below nothing. -/
theorem current_of_goesOn (on_ : goesOn current desired = true) :
    current = none ∨ Tree.IsMap (treeOf current) := by
  have descends_ : descends current desired = true := by
    simp only [goesOn, Bool.and_eq_true] at on_
    exact on_.1
  cases current with
  | none => exact .inl rfl
  | some value =>
      cases value with
      | mapping entries => exact .inr trivial
      | null | bool | int | float | string | sequence =>
          simp [descends, Node.asMapping] at descends_

/-- The children's writes, each below its key, lead from one mapping to the other. -/
theorem writeAll_children (on_ : goesOn current desired = true)
    {rel : String → List (List String × Tree String Node)}
    (leads : ∀ key ∈ childKeys current desired,
      Tree.writeAll (treeOf (child current key)) (rel key) = treeOf (child desired key)) :
    Tree.writeAll (treeOf current)
      ((childKeys current desired).flatMap fun key => Tree.under key (rel key)) =
        treeOf desired := by
  have listed : childKeys current desired ≠ [] := by
    simp only [goesOn, Bool.and_eq_true, Bool.not_eq_true', List.isEmpty_eq_false_iff] at on_
    exact on_.2
  obtain ⟨key, member⟩ := List.exists_mem_of_ne_nil _ listed
  have reached := leads key member
  -- a write never leaves nothing, so the desired side has the key
  have there : (child desired key).isSome = true := by
    rcases mem_childKeys.mp member with here | there
    · have some_ := isSome_writeAll (t := treeOf (child current key)) (by simpa [treeOf] using here)
        (rel key)
      rw [reached] at some_
      simpa [treeOf] using some_
    · exact there
  apply Tree.IsMap.ext
  · apply Tree.isMap_writeAll
    · intro w isWrite
      obtain ⟨key, _, isWrite⟩ := List.mem_flatMap.mp isWrite
      obtain ⟨_, _, rfl⟩ := List.mem_map.mp isWrite
      exact List.cons_ne_nil _ _
    · rcases current_of_goesOn on_ with missing | isMap
      · right
        subst missing
        intro nothing
        have none_ := List.flatMap_eq_nil_iff.mp nothing key member
        rw [List.map_eq_nil_iff.mp none_] at reached
        have gone : treeOf (child desired key) = none := reached.symm
        simp only [treeOf, Option.map_eq_none_iff] at gone
        simp [gone] at there
      · exact .inl isMap
  · exact isMap_of_child there
  · intro other
    rw [Tree.child_writeAll_flatMap nodup_childKeys, ← treeOf_child, ← treeOf_child]
    split
    case isTrue listed => exact leads other listed
    case isFalse unlisted =>
      obtain ⟨absent, absent'⟩ := not_mem_childKeys.mp unlisted
      rw [absent, absent']

theorem leads_diff (current desired : Document) :
    Leads (some (.mapping current)) (some (.mapping desired)) [] (diff current desired) := by
  apply diff_induction
  case equal => exact fun _ equal _ => ⟨[], rfl, same_iff.mp equal⟩
  case stops =>
    intro _ desired path _ _ kept
    obtain ⟨value, rfl⟩ := Option.isSome_iff_exists.mp (kept _ (List.mem_singleton_self _))
    exact ⟨[([], value.tree)], by simp [writes], rfl⟩
  case goes =>
    intro current desired path inner _ on_ ih kept
    have below_ : ∀ key ∈ childKeys current desired, ∃ rel,
        writes (inner key) = rel.map (fun w => (path ++ [key] ++ w.1, w.2)) ∧
          Tree.writeAll (treeOf (child current key)) rel = treeOf (child desired key) :=
      fun key listed => ih key fun entry member =>
        kept entry (List.mem_flatMap.mpr ⟨key, listed, member⟩)
    choose! rel same_ leads using below_
    refine ⟨(childKeys current desired).flatMap fun key => Tree.under key (rel key), ?_,
      writeAll_children on_ leads⟩
    rw [writes, List.filterMap_flatMap, List.map_flatMap]
    apply List.flatMap_congr
    intro key listed
    rw [← writes, same_ key listed, Tree.under, List.map_map]
    apply List.map_congr_left
    intro w _
    simp

/-! ## The law -/

/-- The difference is empty exactly between documents that are equal up to the order of
    keys; its paths do not lead through one another; an entry carries the desired value at
    its path, which differs from the current one; every path where the documents differ
    leads to an entry or from one; and where nothing was removed, setting every entry in
    the current document gives the desired one. -/
theorem diff_correct (current desired : Document) :
    (diff current desired = [] ↔
      SameTree (some (.mapping current)) (some (.mapping desired))) ∧
    (diff current desired).Pairwise (fun entry entry' => Apart entry.path entry'.path) ∧
    (∀ entry ∈ diff current desired,
      entry.new = (Node.mapping desired).valueAt entry.path ∧
      ¬ SameTree ((Node.mapping current).valueAt entry.path)
        ((Node.mapping desired).valueAt entry.path)) ∧
    (∀ path, ¬ SameTree ((Node.mapping current).valueAt path)
        ((Node.mapping desired).valueAt path) →
      ∃ entry ∈ diff current desired, entry.path <+: path ∨ path <+: entry.path) ∧
    ((∀ entry ∈ diff current desired, entry.new ≠ none) →
      SameTree ((diff current desired).foldl DiffEntry.set (some (.mapping current)))
        (some (.mapping desired))) := by
  refine ⟨diff_eq_nil_iff current desired, apart_diff current desired, ?_, ?_, ?_⟩
  · intro entry member
    obtain ⟨new, differ, _⟩ := diff_sound member
    refine ⟨new, fun equal => ?_⟩
    rw [same_iff.mpr equal] at differ
    cases differ
  · intro path differ
    have unequal : same (below (some (.mapping current)) path)
        (below (some (.mapping desired)) path) = false := by
      rw [below_some, below_some]
      exact eq_false_of_ne_true (mt same_iff.mp differ)
    obtain ⟨entry, member, tail, at_, near⟩ := covers_diff current desired path unequal
    rw [List.nil_append] at at_
    exact ⟨entry, member, at_ ▸ near⟩
  · intro kept
    obtain ⟨rel, relative, leads⟩ := leads_diff current desired fun entry member =>
      Option.isSome_iff_ne_none.mpr (kept entry member)
    have absolute : writes (diff current desired) = rel := by simpa using relative
    rw [SameTree, treeOf_set, absolute]
    exact leads

end Nyanpasu
