import Nyanpasu.Tree
import Nyanpasu.Config.Document
import Mathlib.Data.Finset.Card

/-! # Equality of values

`serde_yaml_ng` compares mappings without their order: as many keys, and an equal value
for each of them.  That is equality of the trees the values stand for.
-/

namespace Nyanpasu

mutual

/-- A scalar is its own leaf. -/
def Node.tree : Node → Tree String Node
  | .sequence items => .list items.trees
  | .mapping entries => .map entries.tree
  | scalar => .leaf scalar

def Nodes.trees : Nodes → List (Tree String Node)
  | .nil => []
  | .cons head tail => head.tree :: tail.trees

/-- A mapping has each key once; were one repeated, lookups would see the first. -/
def Document.tree : Document → String → Option (Tree String Node)
  | .nil, _ => none
  | .cons key value rest, wanted => if key = wanted then some value.tree else rest.tree wanted

end

/-- The number of keys besides those of `seen`. -/
def Document.size : Document → List String → Nat
  | .nil, _ => 0
  | .cons key _ rest, seen => (if key ∈ seen then 0 else 1) + rest.size (key :: seen)

mutual

/-- `PartialEq` of a value. -/
def Node.eqv : Node → Node → Bool
  | .null, .null => true
  | .bool value, .bool value' => value == value'
  | .int value, .int value' => value == value'
  | .float bits, .float bits' => bits == bits'
  | .string value, .string value' => value == value'
  | .sequence items, .sequence items' => items.eqv items'
  | .mapping entries, .mapping entries' =>
      entries.size [] == entries'.size [] && entries.within [] entries'
  | _, _ => false

def Nodes.eqv : Nodes → Nodes → Bool
  | .nil, .nil => true
  | .cons head tail, .cons head' tail' => head.eqv head' && tail.eqv tail'
  | _, _ => false

/-- Every key besides those of `seen` has an equal value on the other side. -/
def Document.within : Document → List String → Document → Bool
  | .nil, _, _ => true
  | .cons key value rest, seen, other =>
      (seen.contains key || (other.get key).any fun value' => value.eqv value') &&
        rest.within (key :: seen) other

end

/-! ## Lookups in a tree -/

namespace Document

variable {doc other : Document} {key : String} {seen : List String}

theorem tree_get (doc : Document) (key : String) : doc.tree key = (doc.get key).map Node.tree := by
  induction doc with
  | nil => rfl
  | cons first value rest ih =>
      by_cases same : first = key
      · simp [Document.tree, get, same]
      · simp [Document.tree, get, same, ih]

theorem mem_keys_tree : key ∈ doc.keys ↔ (doc.tree key).isSome = true := by
  rw [mem_keys, tree_get, Option.isSome_map]

theorem size_eq_card (doc : Document) (seen : List String) :
    doc.size seen = (doc.keys.toFinset \ seen.toFinset).card := by
  induction doc generalizing seen with
  | nil => simp [size, keys]
  | cons key value rest ih =>
      rw [size, keys, ih, List.toFinset_cons, List.toFinset_cons]
      by_cases again : key ∈ seen
      · have listed : key ∈ seen.toFinset := List.mem_toFinset.mpr again
        rw [if_pos again, Nat.zero_add, Finset.insert_sdiff_of_mem _ listed,
          Finset.insert_eq_of_mem listed]
      · have fresh : key ∉ seen.toFinset := fun listed => again (List.mem_toFinset.mp listed)
        have apart : key ∉ rest.keys.toFinset \ Insert.insert key seen.toFinset := by simp
        have split : Insert.insert key rest.keys.toFinset \ seen.toFinset =
            Insert.insert key (rest.keys.toFinset \ Insert.insert key seen.toFinset) := by
          ext other
          by_cases here : other = key
          · simp [here, fresh]
          · simp [here]
        rw [if_neg again, split, Finset.card_insert_of_notMem apart, Nat.add_comm]

/-- As many keys, and each value found again: then nothing else is on the other side. -/
theorem tree_eq_iff :
    doc.tree = other.tree ↔ doc.size [] = other.size [] ∧
      ∀ key, (doc.tree key).isSome = true → doc.tree key = other.tree key := by
  constructor
  · intro same
    have keys_eq : doc.keys.toFinset = other.keys.toFinset := by
      ext key
      rw [List.mem_toFinset, List.mem_toFinset, mem_keys_tree, mem_keys_tree, same]
    refine ⟨?_, fun key _ => congrFun same key⟩
    rw [size_eq_card, size_eq_card, keys_eq]
  · rintro ⟨sizes, found⟩
    have part : doc.keys.toFinset ⊆ other.keys.toFinset := by
      intro key member
      rw [List.mem_toFinset, mem_keys_tree] at member ⊢
      rwa [← found key member]
    have whole : doc.keys.toFinset = other.keys.toFinset := by
      apply Finset.eq_of_subset_of_card_le part
      simpa [size_eq_card] using sizes.ge
    funext key
    by_cases here : (doc.tree key).isSome = true
    · exact found key here
    · have away : ¬ (other.tree key).isSome = true := by
        rw [← mem_keys_tree, ← List.mem_toFinset, ← whole, List.mem_toFinset, mem_keys_tree]
        exact here
      simp only [Option.not_isSome_iff_eq_none] at here away
      rw [here, away]

end Document

/-! ## Equality is that of trees -/

mutual

theorem Node.eqv_iff : ∀ value value' : Node, value.eqv value' = true ↔ value.tree = value'.tree
  | .sequence items, value' => by
      cases value' <;> simp [Node.eqv, Node.tree, Nodes.eqv_iff items]
  | .mapping entries, value' => by
      cases value' with
      | mapping entries' =>
          simp [Node.eqv, Node.tree, Document.within_iff entries, Document.tree_eq_iff]
      | null | bool | int | float | string | sequence => simp [Node.eqv, Node.tree]
  | .null, value' => by cases value' <;> simp [Node.eqv, Node.tree]
  | .bool _, value' => by cases value' <;> simp [Node.eqv, Node.tree]
  | .int _, value' => by cases value' <;> simp [Node.eqv, Node.tree]
  | .float _, value' => by cases value' <;> simp [Node.eqv, Node.tree]
  | .string _, value' => by cases value' <;> simp [Node.eqv, Node.tree]

theorem Nodes.eqv_iff : ∀ items items' : Nodes, items.eqv items' = true ↔ items.trees = items'.trees
  | .nil, items' => by cases items' <;> simp [Nodes.eqv, Nodes.trees]
  | .cons head tail, items' => by
      cases items' <;> simp [Nodes.eqv, Nodes.trees, Node.eqv_iff head, Nodes.eqv_iff tail]

theorem Document.within_iff : ∀ (doc : Document) (seen : List String) (other : Document),
    doc.within seen other = true ↔
      ∀ key ∉ seen, (doc.tree key).isSome = true → doc.tree key = other.tree key
  | .nil, seen, other => by simp [Document.within, Document.tree]
  | .cons first value rest, seen, other => by
      have here : ((other.get first).any fun value' => value.eqv value') = true ↔
          some value.tree = other.tree first := by
        rw [Document.tree_get]
        cases found : other.get first with
        | none => simp
        | some value' => simp [Node.eqv_iff value value']
      simp only [Document.within, Bool.and_eq_true, Bool.or_eq_true, List.contains_iff_mem, here,
        Document.within_iff rest]
      constructor
      · rintro ⟨head, tail⟩ key fresh present
        by_cases same : first = key
        · subst same
          simpa [Document.tree] using head.resolve_left fresh
        · simp only [Document.tree, same, if_false] at present ⊢
          exact tail key (by simp [fresh, Ne.symm same]) present
      · intro all
        refine ⟨?_, fun key fresh present => ?_⟩
        · by_cases again : first ∈ seen
          · exact .inl again
          · right
            simpa [Document.tree] using all first again (by simp [Document.tree])
        · rw [List.mem_cons, not_or] at fresh
          have found := all key fresh.2
          simp only [Document.tree, Ne.symm fresh.1, if_false] at found
          exact found present

end

/-- The comparison of two values that may be missing. -/
def same : Option Node → Option Node → Bool
  | none, none => true
  | some value, some value' => value.eqv value'
  | _, _ => false

def treeOf (value : Option Node) : Option (Tree String Node) := value.map Node.tree

theorem same_iff {value value' : Option Node} :
    same value value' = true ↔ treeOf value = treeOf value' := by
  cases value <;> cases value' <;> simp [same, treeOf, Node.eqv_iff]

@[simp] theorem same_refl (value : Option Node) : same value value = true := same_iff.mpr rfl

theorem ne_of_not_same {value value' : Option Node} (different : same value value' = false) :
    value ≠ value' := by
  rintro rfl
  simp at different

end Nyanpasu
