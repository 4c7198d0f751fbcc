import Mathlib.Algebra.Group.Int.Defs
import Mathlib.Algebra.Group.Nat.Defs
import Mathlib.Data.List.Basic

/-! # Canonical documents

What `canonicalize` of `config/mod.rs` lets through: a YAML value whose mappings have
string keys and that carries no tag.  The classification of changes works on these.
-/

namespace Nyanpasu

mutual

/-- A float carries the bits of one representative of the floats the library holds
    equal. -/
inductive Node where
  | null
  | bool (value : Bool)
  | int (value : Int)
  | float (bits : UInt64)
  | string (value : String)
  | sequence (items : Nodes)
  | mapping (entries : Document)
  deriving DecidableEq

inductive Nodes where
  | nil
  | cons (head : Node) (tail : Nodes)
  deriving DecidableEq

/-- The entries of a mapping, in insertion order. -/
inductive Document where
  | nil
  | cons (key : String) (value : Node) (rest : Document)
  deriving DecidableEq

end

/-- Induction along the entries, without going into the values. -/
@[elab_as_elim, induction_eliminator]
theorem Document.entriesInduction {motive : Document → Prop} (nil : motive .nil)
    (cons : ∀ key value rest, motive rest → motive (.cons key value rest)) :
    ∀ doc, motive doc
  | .nil => nil
  | .cons key value rest => cons key value rest (entriesInduction nil cons rest)

def Nodes.toList : Nodes → List Node
  | nil => []
  | cons head tail => head :: tail.toList

def Nodes.ofList : List Node → Nodes
  | [] => nil
  | head :: tail => cons head (ofList tail)

theorem Nodes.ofList_toList : ∀ items : Nodes, ofList items.toList = items
  | nil => rfl
  | cons head tail => congrArg (cons head) (ofList_toList tail)

theorem Nodes.toList_ofList (items : List Node) : (ofList items).toList = items := by
  induction items with
  | nil => rfl
  | cons head tail ih => exact congrArg (head :: ·) ih

/-! ## Mappings -/

namespace Document

def ofList : List (String × Node) → Document
  | [] => nil
  | (key, value) :: rest => cons key value (ofList rest)

def toList : Document → List (String × Node)
  | nil => []
  | cons key value rest => (key, value) :: rest.toList

theorem ofList_toList (doc : Document) : ofList doc.toList = doc := by
  induction doc with
  | nil => rfl
  | cons key value rest ih => exact congrArg (cons key value) ih

def isEmpty : Document → Bool
  | nil => true
  | cons _ _ _ => false

def keys : Document → List String
  | nil => []
  | cons key _ rest => key :: rest.keys

def get : Document → String → Option Node
  | nil, _ => none
  | cons key value rest, wanted => if key = wanted then some value else rest.get wanted

/-- The value of a key already there is replaced in its place. -/
def insert : Document → String → Node → Document
  | nil, key, value => cons key value nil
  | cons key' value' rest, key, value =>
      if key' = key then cons key' value rest else cons key' value' (rest.insert key value)

variable {doc : Document} {key other : String} {value : Node}

@[simp] theorem get_insert_self (doc : Document) (key : String) (value : Node) :
    (doc.insert key value).get key = some value := by
  induction doc with
  | nil => simp [insert, get]
  | cons key' value' rest ih =>
      by_cases same : key' = key <;> simp [insert, get, same, ih]

@[simp] theorem get_insert_ne (different : other ≠ key) (value : Node) :
    (doc.insert key value).get other = doc.get other := by
  induction doc with
  | nil => simp [insert, get, different.symm]
  | cons key' value' rest ih =>
      by_cases same : key' = key
      · simp [insert, get, same, different.symm]
      · by_cases wanted : key' = other
        · subst wanted
          simp [insert, get, same]
        · simp [insert, get, same, wanted, ih]

/-- Writing back what is there changes nothing. -/
theorem insert_get (present : doc.get key = some value) : doc.insert key value = doc := by
  induction doc with
  | nil => cases present
  | cons key' value' rest ih =>
      by_cases same : key' = key
      · simp only [get, same, if_true, Option.some.injEq] at present
        simp [insert, same, present]
      · simp only [get, same, if_false] at present
        simp [insert, same, ih present]

theorem keys_insert (present : (doc.get key).isSome = true) (value : Node) :
    (doc.insert key value).keys = doc.keys := by
  induction doc with
  | nil => cases present
  | cons key' value' rest ih =>
      by_cases same : key' = key
      · simp [insert, same, keys]
      · simp only [get, same, if_false] at present
        simp [insert, same, keys, ih present]

theorem mem_keys : key ∈ doc.keys ↔ (doc.get key).isSome = true := by
  induction doc with
  | nil => simp [keys, get]
  | cons key' value' rest ih =>
      by_cases same : key' = key
      · simp [keys, get, same]
      · simp [keys, get, same, Ne.symm same, ih]

theorem keys_ofList (entries : List (String × Node)) :
    (ofList entries).keys = entries.map (·.1) := by
  induction entries with
  | nil => rfl
  | cons entry rest ih => exact congrArg (entry.1 :: ·) ih

theorem get_ofList (entries : List (String × Node)) (key : String) :
    (ofList entries).get key = entries.lookup key := by
  induction entries with
  | nil => rfl
  | cons entry rest ih =>
      obtain ⟨key', value'⟩ := entry
      by_cases same : key' = key
      · simp [ofList, get, same]
      · have other : (key == key') = false := by simpa using Ne.symm same
        simp [ofList, get, List.lookup_cons, same, other, ih]

end Document

/-! ## Views of a value -/

namespace Node

def asMapping : Node → Option Document
  | mapping entries => some entries
  | _ => none

def asStr : Node → Option String
  | string value => some value
  | _ => none

def asBool : Node → Option Bool
  | bool value => some value
  | _ => none

def asI64 : Node → Option Int
  | int value => if -2 ^ 63 ≤ value ∧ value < 2 ^ 63 then some value else none
  | _ => none

def isNull : Node → Bool
  | null => true
  | _ => false

/-- The value below a path of keys. -/
def valueAt : Node → List String → Option Node
  | value, [] => some value
  | value, key :: path =>
      (value.asMapping.bind (·.get key)).bind fun child => child.valueAt path

theorem valueAt_append (value : Node) (path rest : List String) :
    value.valueAt (path ++ rest) = (value.valueAt path).bind fun child => child.valueAt rest := by
  induction path generalizing value with
  | nil => rfl
  | cons key path ih =>
      cases child : value.asMapping.bind (·.get key) with
      | none => simp [valueAt, child]
      | some child' => simp [valueAt, child, ih]

end Node

/-! ## Leaves and overlays -/

mutual

def Node.collectLeaves (path : List String) : Node → List (List String × Node)
  | .mapping entries =>
      if entries.isEmpty then [(path, .mapping entries)] else entries.collectLeaves path
  | value => [(path, value)]

def Document.collectLeaves (path : List String) : Document → List (List String × Node)
  | .nil => []
  | .cons key value rest => value.collectLeaves (path ++ [key]) ++ rest.collectLeaves path

end

theorem Document.collectLeaves_get {doc : Document} {key : String} {value : Node}
    (present : doc.get key = some value) (path : List String) :
    value.collectLeaves (path ++ [key]) ⊆ doc.collectLeaves path := by
  induction doc with
  | nil => cases present
  | cons first inner rest ih =>
      intro leaf member
      rw [Document.collectLeaves, List.mem_append]
      by_cases same : first = key
      · simp only [Document.get, same, if_true, Option.some.injEq] at present
        subst same present
        exact .inl member
      · simp only [Document.get, same, if_false] at present
        exact .inr (ih present member)

/-- The leaves of a part are leaves of the whole. -/
theorem Node.collectLeaves_valueAt {node value : Node} {path : List String}
    (found : node.valueAt path = some value) (front : List String) :
    value.collectLeaves (front ++ path) ⊆ node.collectLeaves front := by
  induction path generalizing node front with
  | nil =>
      cases found
      simp
  | cons key path ih =>
      obtain ⟨child, present, found⟩ := Option.bind_eq_some_iff.mp found
      obtain ⟨entries, isMapping, present⟩ := Option.bind_eq_some_iff.mp present
      have filled : entries.isEmpty = false := by
        cases entries with
        | nil => cases present
        | cons _ _ _ => rfl
      have mapping : node = .mapping entries := by
        cases node <;> simp_all [Node.asMapping]
      have below := ih found (front ++ [key])
      rw [List.append_assoc, List.singleton_append] at below
      rw [mapping, Node.collectLeaves, filled]
      exact List.Subset.trans below (Document.collectLeaves_get present front)

mutual

/-- `merge` of the tests: mappings are merged, everything else is replaced. -/
def Document.overlay : Document → Document → Document
  | target, .nil => target
  | target, .cons key value rest =>
      (target.insert key (value.overlayOn (target.get key))).overlay rest

def Node.overlayOn (value : Node) (target : Option Node) : Node :=
  match value with
  | .mapping patch =>
      match target.bind Node.asMapping with
      | some inner => .mapping (inner.overlay patch)
      | none => .mapping patch
  | value => value

end

/-! ## Documents of one shape -/

namespace Document

/-- The same keys in the same places, and the same values wherever a key does not occur
    for the first time.  Replacing the value of a key keeps this. -/
def Aligned (seen : List String) : Document → Document → Prop
  | nil, nil => True
  | cons key value rest, cons key' value' rest' =>
      key = key' ∧ (key ∈ seen → value = value') ∧ Aligned (key :: seen) rest rest'
  | _, _ => False

variable {seen : List String} {doc doc' patch : Document} {key : String}

theorem aligned_refl (seen : List String) (doc : Document) : Aligned seen doc doc := by
  induction doc generalizing seen with
  | nil => trivial
  | cons key value rest ih => exact ⟨rfl, fun _ => rfl, ih _⟩

theorem Aligned.insert (aligned : Aligned seen doc doc') (fresh : key ∉ seen)
    (present : (doc'.get key).isSome = true) (value : Node) :
    Aligned seen doc (doc'.insert key value) := by
  induction doc generalizing seen doc' with
  | nil =>
      match doc', aligned with
      | nil, _ => cases present
  | cons first mine rest ih =>
      match doc', aligned with
      | cons first' theirs rest', ⟨same, shadowed, aligned⟩ =>
          subst same
          by_cases here : first = key
          · subst here
            simp only [Document.insert, if_true]
            exact ⟨rfl, fun again => absurd again fresh, aligned⟩
          · simp only [Document.get, here, if_false] at present
            simp only [Document.insert, here, if_false]
            have later : key ∉ first :: seen := by
              rw [List.mem_cons, not_or]
              exact ⟨Ne.symm here, fresh⟩
            exact ⟨rfl, shadowed, ih aligned later present⟩

/-- Two documents of one shape that answer every lookup alike are the same. -/
theorem Aligned.eq (aligned : Aligned seen doc doc')
    (same : ∀ key, key ∉ seen → doc.get key = doc'.get key) : doc = doc' := by
  induction doc generalizing seen doc' with
  | nil =>
      match doc', aligned with
      | nil, _ => rfl
  | cons first mine rest ih =>
      match doc', aligned with
      | cons first' theirs rest', ⟨keys, shadowed, aligned⟩ =>
          subst keys
          have values : mine = theirs := by
            by_cases again : first ∈ seen
            · exact shadowed again
            · simpa [Document.get] using same first again
          have rests : rest = rest' := by
            apply ih aligned
            intro key later
            rw [List.mem_cons, not_or] at later
            have found := same key later.2
            simpa only [Document.get, Ne.symm later.1, if_false] using found
          rw [values, rests]

theorem get_overlay (distinct : patch.keys.Nodup) (target : Document) (key : String) :
    (target.overlay patch).get key =
      match patch.get key with
      | some value => some (value.overlayOn (target.get key))
      | none => target.get key := by
  induction patch generalizing target with
  | nil => rfl
  | cons first value rest ih =>
      obtain ⟨once, distinct⟩ := List.nodup_cons.mp distinct
      rw [Document.overlay, ih distinct]
      by_cases here : first = key
      · subst here
        have absent : rest.get first = none := by
          rw [mem_keys] at once
          simpa using once
        simp [Document.get, absent]
      · simp [Document.get, here, Document.get_insert_ne (Ne.symm here)]

/-- An overlay of keys that are there keeps the shape. -/
theorem Aligned.overlay {target : Document} (aligned : Aligned [] doc target)
    (present : ∀ key ∈ patch.keys, (target.get key).isSome = true) :
    Aligned [] doc (target.overlay patch) := by
  induction patch generalizing target with
  | nil => exact aligned
  | cons first value rest ih =>
      rw [Document.overlay]
      apply ih (aligned.insert (List.not_mem_nil) (present first List.mem_cons_self) _)
      intro key member
      by_cases here : key = first
      · subst here
        simp
      · rw [Document.get_insert_ne here]
        exact present key (List.mem_cons_of_mem _ member)

end Document

mutual

def Node.depth : Node → Nat
  | .mapping entries => entries.depth + 1
  | _ => 0

def Document.depth : Document → Nat
  | .nil => 0
  | .cons _ value rest => max value.depth rest.depth

end

theorem Document.depth_get {doc : Document} {key : String} {value : Node}
    (present : doc.get key = some value) : value.depth ≤ doc.depth := by
  induction doc with
  | nil => cases present
  | cons key' value' rest ih =>
      simp only [Document.depth]
      by_cases same : key' = key
      · simp only [Document.get, same, if_true, Option.some.injEq] at present
        subst present
        omega
      · simp only [Document.get, same, if_false] at present
        have below := ih present
        omega

end Nyanpasu
