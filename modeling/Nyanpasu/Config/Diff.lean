import Nyanpasu.Config.Equality
import Mathlib.Data.String.Basic

/-! # The structural difference of two documents

`config/diff.rs`: where the two sides are mappings, or one of them is missing, the
difference goes down key by key; everywhere else a changed value is one entry.
-/

namespace Nyanpasu

structure DiffEntry where
  path : List String
  new : Option Node
  deriving DecidableEq

/-- Insertion into a `BTreeSet` of keys. -/
def insertKey (key : String) : List String → List String
  | [] => [key]
  | first :: rest =>
      if key < first then key :: first :: rest
      else if key = first then first :: rest
      else first :: insertKey key rest

def keySet (keys : List String) : List String := keys.foldr insertKey []

variable {key : String} {keys : List String}

theorem mem_insertKey {wanted : String} :
    wanted ∈ insertKey key keys ↔ wanted = key ∨ wanted ∈ keys := by
  induction keys with
  | nil => simp [insertKey]
  | cons first rest ih =>
      unfold insertKey
      split
      · simp
      · split
        case isTrue same =>
          subst same
          simp
        case isFalse =>
          simp only [List.mem_cons, ih]
          tauto

theorem mem_keySet {wanted : String} : wanted ∈ keySet keys ↔ wanted ∈ keys := by
  induction keys with
  | nil => simp [keySet]
  | cons key rest ih =>
      simp only [keySet, List.foldr_cons, mem_insertKey, List.mem_cons]
      rw [← keySet, ih]

theorem sorted_insertKey (sorted : keys.Pairwise (· < ·)) :
    (insertKey key keys).Pairwise (· < ·) := by
  induction keys with
  | nil => exact List.pairwise_singleton _ _
  | cons first rest ih =>
      obtain ⟨least, rest_sorted⟩ := List.pairwise_cons.mp sorted
      unfold insertKey
      split
      case isTrue before =>
        refine List.pairwise_cons.mpr ⟨fun other member => ?_, sorted⟩
        rcases List.mem_cons.mp member with rfl | later
        · exact before
        · exact before.trans (least other later)
      case isFalse notBefore =>
        split
        case isTrue => exact sorted
        case isFalse different =>
          refine List.pairwise_cons.mpr ⟨fun other member => ?_, ih rest_sorted⟩
          rcases mem_insertKey.mp member with rfl | later
          · exact lt_of_le_of_ne (not_lt.mp notBefore) (Ne.symm different)
          · exact least other later

theorem nodup_keySet (keys : List String) : (keySet keys).Nodup := by
  have sorted : (keySet keys).Pairwise (· < ·) := by
    induction keys with
    | nil => exact List.Pairwise.nil
    | cons key rest ih => exact sorted_insertKey ih
  exact sorted.imp fun less => ne_of_lt less

/-- Whether the difference goes down: both sides are mappings, or one is and the other
    is missing. -/
def descends (current desired : Option Node) : Bool :=
  let currentMapping := current.bind Node.asMapping
  let desiredMapping := desired.bind Node.asMapping
  (currentMapping.isSome || desiredMapping.isSome) &&
    (current.isNone || currentMapping.isSome && (desired.isNone || desiredMapping.isSome))

def childKeys (current desired : Option Node) : List String :=
  keySet (((current.bind Node.asMapping).map Document.keys).getD [] ++
    ((desired.bind Node.asMapping).map Document.keys).getD [])

def child (value : Option Node) (key : String) : Option Node :=
  (value.bind Node.asMapping).bind (·.get key)

/-- The recursion goes at most as deep as the deeper side, which `diff` provides for. -/
def diffValue : Nat → Option Node → Option Node → List String → List DiffEntry
  | fuel, current, desired, path =>
      if same current desired then []
      else
        match fuel with
        | fuel + 1 =>
            if descends current desired && !(childKeys current desired).isEmpty then
              (childKeys current desired).flatMap fun key =>
                diffValue fuel (child current key) (child desired key) (path ++ [key])
            else [⟨path, desired⟩]
        | 0 => [⟨path, desired⟩]

def diff (current desired : Document) : List DiffEntry :=
  diffValue (max current.depth desired.depth + 1) (some (.mapping current))
    (some (.mapping desired)) []

/-! ## Enough depth -/

def depthOf (value : Option Node) : Nat := (value.map Node.depth).getD 0

variable {fuel : Nat}

theorem depthOf_child {value : Option Node} (enough : depthOf value ≤ fuel + 1)
    : depthOf (child value key) ≤ fuel := by
  cases value with
  | none => exact Nat.zero_le _
  | some value =>
      cases value with
      | mapping entries =>
          cases found : entries.get key with
          | none => simp [child, Node.asMapping, found, depthOf]
          | some inner =>
              have below := Document.depth_get found
              simp only [depthOf, Option.map_some, Option.getD_some, Node.depth] at enough
              simp only [child, Option.bind_some, Node.asMapping, found, depthOf, Option.map_some,
                Option.getD_some]
              omega
      | null | bool | int | float | string | sequence => exact Nat.zero_le _

variable {current desired : Option Node}

theorem not_descends_of_depth (flat : depthOf current = 0) (flat' : depthOf desired = 0)
    : descends current desired = false := by
  have none : ∀ value : Option Node, depthOf value = 0 → value.bind Node.asMapping = none := by
    intro value flat
    cases value with
    | none => rfl
    | some value => cases value <;> simp_all [depthOf, Node.depth, Node.asMapping]
  simp [descends, none current flat, none desired flat']

variable {path : List String}

/-- With enough fuel the recursion is that of the source: more makes no difference. -/
theorem diffValue_enough (enough : depthOf current ≤ fuel) (enough' : depthOf desired ≤ fuel) :
    diffValue (fuel + 1) current desired path = diffValue fuel current desired path := by
  induction fuel generalizing current desired path with
  | zero =>
      have flat := not_descends_of_depth (Nat.le_zero.mp enough) (Nat.le_zero.mp enough')
      simp [diffValue, flat]
  | succ fuel ih =>
      conv_lhs => unfold diffValue
      conv_rhs => unfold diffValue
      have deeper : ∀ key, diffValue (fuel + 1) (child current key) (child desired key)
          (path ++ [key]) = diffValue fuel (child current key) (child desired key)
          (path ++ [key]) := fun key => ih (depthOf_child enough) (depthOf_child enough')
      simp only [deeper]

/-! ## What an entry says -/

/-- The value below a path on one side, where that side may be missing. -/
def below : Option Node → List String → Option Node
  | value, [] => value
  | value, key :: path => below (child value key) path

theorem below_some (value : Node) (path : List String) :
    below (some value) path = value.valueAt path := by
  induction path generalizing value with
  | nil => rfl
  | cons key path ih =>
      simp only [below, child, Option.bind_some, Node.valueAt]
      cases value.asMapping.bind (·.get key) with
      | none =>
          have nothing : ∀ path, below none path = none := by
            intro path
            induction path with
            | nil => rfl
            | cons key path ih => exact ih
          exact nothing path
      | some inner => exact ih inner

/-- Where the difference goes on below a pair of values. -/
def goesOn (current desired : Option Node) : Bool :=
  descends current desired && !(childKeys current desired).isEmpty

theorem diffValue_succ (fuel : Nat) (current desired : Option Node) (path : List String) :
    diffValue (fuel + 1) current desired path =
      if same current desired then []
      else if goesOn current desired then
        (childKeys current desired).flatMap fun key =>
          diffValue fuel (child current key) (child desired key) (path ++ [key])
      else [⟨path, desired⟩] := by
  conv_lhs => unfold diffValue
  rfl

section

variable {motive : Option Node → Option Node → List String → List DiffEntry → Prop}
    (equal : ∀ {current desired} path, same current desired = true →
      motive current desired path [])
    (stops : ∀ {current desired} path, same current desired = false →
      goesOn current desired = false → motive current desired path [⟨path, desired⟩])
    (goes : ∀ {current desired path} (inner : String → List DiffEntry),
      same current desired = false → goesOn current desired = true →
      (∀ key, motive (child current key) (child desired key) (path ++ [key]) (inner key)) →
      motive current desired path ((childKeys current desired).flatMap inner))

include equal stops goes

/-- With enough fuel the entries follow the recursion of the source: none where the sides
    are equal, one where the difference stops, and those of the children elsewhere. -/
theorem diffValue_induction (enough : depthOf current ≤ fuel) (enough' : depthOf desired ≤ fuel) :
    motive current desired path (diffValue fuel current desired path) := by
  rw [← diffValue_enough enough enough', diffValue_succ]
  induction fuel generalizing current desired path with
  | zero =>
      have flat := not_descends_of_depth (Nat.le_zero.mp enough) (Nat.le_zero.mp enough')
      have stops_ : goesOn current desired = false := by simp [goesOn, flat]
      split
      case isTrue same_ => exact equal path same_
      case isFalse differ =>
        rw [stops_]
        exact stops path (eq_false_of_ne_true differ) stops_
  | succ fuel ih =>
      split
      case isTrue same_ => exact equal path same_
      case isFalse differ =>
        split
        case isTrue on_ =>
          apply goes _ (eq_false_of_ne_true differ) on_
          intro key
          rw [diffValue_succ]
          exact ih (depthOf_child enough) (depthOf_child enough')
        case isFalse off => exact stops path (eq_false_of_ne_true differ) (eq_false_of_ne_true off)

theorem diff_induction
    (current desired : Document) :
    motive (some (.mapping current)) (some (.mapping desired)) [] (diff current desired) := by
  apply diffValue_induction equal stops goes
  · simp only [depthOf, Option.map_some, Option.getD_some, Node.depth]
    omega
  · simp only [depthOf, Option.map_some, Option.getD_some, Node.depth]
    omega

end

/-- An entry is at a path where the two sides differ and the difference stops, and it
    carries the desired side. -/
def Tells (current desired : Option Node) (path : List String) (entries : List DiffEntry) : Prop :=
  ∀ entry ∈ entries, ∃ rest, entry.path = path ++ rest ∧ entry.new = below desired rest ∧
    same (below current rest) (below desired rest) = false ∧
    goesOn (below current rest) (below desired rest) = false

theorem tells_diff (current desired : Document) :
    Tells (some (.mapping current)) (some (.mapping desired)) [] (diff current desired) := by
  apply diff_induction
  case equal => exact fun _ _ _ member => nomatch member
  case stops =>
    intro _ _ path differ stops entry member
    obtain rfl := List.mem_singleton.mp member
    exact ⟨[], by simp, rfl, differ, stops⟩
  case goes =>
    intro _ _ path inner _ _ ih entry member
    obtain ⟨key, _, member⟩ := List.mem_flatMap.mp member
    obtain ⟨rest, at_, new, differ, stops⟩ := ih key entry member
    exact ⟨key :: rest, by simp [at_], new, differ, stops⟩

variable {entry : DiffEntry}

theorem diff_sound {current desired : Document} (member : entry ∈ diff current desired) :
    entry.new = (Node.mapping desired).valueAt entry.path ∧
      same ((Node.mapping current).valueAt entry.path)
        ((Node.mapping desired).valueAt entry.path) = false ∧
      goesOn ((Node.mapping current).valueAt entry.path)
        ((Node.mapping desired).valueAt entry.path) = false := by
  obtain ⟨rest, at_, new, differ, stops⟩ := tells_diff current desired entry member
  simp only [List.nil_append] at at_
  simp only [below_some, ← at_] at new differ stops
  exact ⟨new, differ, stops⟩

/-! ## What is not missed -/

theorem mem_childKeys :
    key ∈ childKeys current desired ↔
      (child current key).isSome = true ∨ (child desired key).isSome = true := by
  have listed : ∀ value : Option Node,
      key ∈ ((value.bind Node.asMapping).map Document.keys).getD [] ↔
        (child value key).isSome = true := by
    intro value
    cases mapping : value.bind Node.asMapping with
    | none => simp [child, mapping]
    | some entries => simp [child, mapping, Document.mem_keys]
  rw [childKeys, mem_keySet, List.mem_append, listed, listed]

theorem treeOf_child (value : Option Node) (key : String) :
    treeOf (child value key) = Tree.child (treeOf value) key := by
  cases value with
  | none => rfl
  | some value =>
      cases value with
      | mapping entries => exact (Document.tree_get entries key).symm
      | null | bool | int | float | string | sequence => rfl

/-- Equal values have equal children. -/
theorem same_child (equal : same current desired = true) (key : String)
    : same (child current key) (child desired key) = true := by
  rw [same_iff] at equal ⊢
  rw [treeOf_child, treeOf_child, equal]

theorem not_mem_childKeys :
    key ∉ childKeys current desired ↔ child current key = none ∧ child desired key = none := by
  rw [mem_childKeys, not_or, Option.not_isSome_iff_eq_none, Option.not_isSome_iff_eq_none]

/-- The difference of two mappings goes on. -/
theorem goesOn_mappings {current desired : Document}
    (differ : same (some (.mapping current)) (some (.mapping desired)) = false) :
    goesOn (some (.mapping current)) (some (.mapping desired)) = true := by
  by_contra stops
  have empty : childKeys (some (.mapping current)) (some (.mapping desired)) = [] := by
    simpa [goesOn, descends, Node.asMapping] using stops
  have isMap : ∀ doc : Document, Tree.IsMap (treeOf (some (.mapping doc))) := fun _ => trivial
  have trees : treeOf (some (.mapping current)) = treeOf (some (.mapping desired)) := by
    apply (isMap current).ext (isMap desired)
    intro key
    have absent : key ∉ childKeys (some (.mapping current)) (some (.mapping desired)) := by
      simp [empty]
    rw [not_mem_childKeys] at absent
    rw [← treeOf_child, ← treeOf_child, absent.1, absent.2]
  rw [same_iff.mpr trees] at differ
  cases differ

theorem path_ne_nil_of_mem_diff {current desired : Document} (member : entry ∈ diff current desired)
    : entry.path ≠ [] := by
  intro root
  obtain ⟨_, differ, stops⟩ := diff_sound member
  rw [root] at differ stops
  exact absurd (goesOn_mappings differ) (ne_true_of_eq_false stops)

theorem nodup_childKeys : (childKeys current desired).Nodup :=
  nodup_keySet _

theorem not_same_of_child (differ : same (child current key) (child desired key) = false) :
    same current desired = false := by
  by_contra equal
  rw [same_child (eq_true_of_ne_false equal) key] at differ
  cases differ

theorem mem_childKeys_of_differ (differ : same (child current key) (child desired key) = false) :
    key ∈ childKeys current desired := by
  by_contra absent
  obtain ⟨absent, absent'⟩ := not_mem_childKeys.mp absent
  rw [absent, absent'] at differ
  cases differ

/-- A difference of two children is found. -/
theorem mem_diffValue_child (key : String) (descends_ : descends current desired = true)
    (differ : same (child current key) (child desired key) = false)
    (member : entry ∈ diffValue fuel (child current key) (child desired key) (path ++ [key])) :
    entry ∈ diffValue (fuel + 1) current desired path := by
  have listed := mem_childKeys_of_differ differ
  have different : ¬ same current desired = true :=
    ne_true_of_eq_false (not_same_of_child differ)
  have on_ : goesOn current desired = true := by
    simp only [goesOn, descends_, Bool.true_and, Bool.not_eq_true', List.isEmpty_eq_false_iff]
    exact List.ne_nil_of_mem listed
  rw [diffValue_succ, if_neg different, if_pos on_]
  exact List.mem_flatMap.mpr ⟨key, listed, member⟩

/-- A difference that stops is an entry. -/
theorem mem_diffValue_stops (differ : same current desired = false)
    (stops : descends current desired = false) :
    ⟨path, desired⟩ ∈ diffValue fuel current desired path := by
  unfold diffValue
  simp only [differ, Bool.false_eq_true, if_false]
  cases fuel with
  | zero => simp
  | succ fuel => simp [stops]

end Nyanpasu
