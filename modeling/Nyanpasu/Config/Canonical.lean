import Nyanpasu.State
import Nyanpasu.Tree
import Mathlib.Data.List.Sort
import Mathlib.Data.String.Basic

/-! # Canonical documents

`canonicalize` of `config/mod.rs`: string keys only, no tags, and the entries of every
mapping in the order of their keys.
-/

namespace Nyanpasu

/-- `Mapping::insert`: the value of a key already there is replaced in its place. -/
def Mapping.insert : Mapping → String → Value → Mapping
  | [], key, value => [(.string key, value)]
  | entry :: rest, key, value =>
      if entry.1.asStr = some key then (entry.1, value) :: rest
      else entry :: Mapping.insert rest key value

/-- `sort_by` on the keys, which is stable. -/
def sortByKey {α : Type} (entries : List (String × α)) : List (String × α) :=
  entries.insertionSort fun left right => left.1 ≤ right.1

mutual

def canonicalize : Value → Except Error Value
  | .mapping entries => do
      let entries ← canonicalizeEntries entries
      return .mapping ((sortByKey entries).foldl (fun doc e => Mapping.insert doc e.1 e.2) [])
  | .sequence items => do
      let items ← canonicalizeItems items
      return .sequence items
  | .tagged _ _ =>
      .error (.invalidConfig "tagged YAML values are not supported in runtime configs")
  | scalar => .ok scalar

def canonicalizeItems : List Value → Except Error (List Value)
  | [] => .ok []
  | item :: rest => do
      let item ← canonicalize item
      let rest ← canonicalizeItems rest
      return item :: rest

def canonicalizeEntries : List (Value × Value) → Except Error (List (String × Value))
  | [] => .ok []
  | (key, value) :: rest =>
      match key with
      | .string key => do
          let value ← canonicalize value
          let rest ← canonicalizeEntries rest
          return (key, value) :: rest
      | _ => .error (.invalidConfig "all YAML mapping keys must be strings")

end

/-- The document of a configuration and the bytes that are hashed for it. -/
def canonicalBytes (serialize : Mapping → Except Error Bytes) (value : Value) :
    Except Error (Mapping × Bytes) := do
  match ← canonicalize value with
  | .mapping document =>
      let canonical ← serialize document
      return (document, canonical)
  | _ => .error (.invalidConfig "top-level YAML document must be a mapping")

/-- `ConfigSnapshot::from_bytes`, with the parser and the serialiser of the library. -/
def ConfigSnapshot.fromBytes (parse : Bytes → Except Error Value)
    (serialize : Mapping → Except Error Bytes) (sourcePath : Naming.FileName) (raw : Bytes) :
    Except Error ConfigSnapshot := do
  let value ← parse raw
  let (document, canonical) ← canonicalBytes serialize value
  return ⟨sourcePath, document, semanticHash canonical⟩

/-! ## Values as unordered trees -/

mutual

/-- The tree of a value with string keys; a scalar is its own leaf. -/
def Value.tree : Value → Tree String Value
  | .sequence items => .list (treesOf items)
  | .mapping entries => .map (entriesTree entries)
  | scalar => .leaf scalar

def treesOf : List Value → List (Tree String Value)
  | [] => []
  | item :: rest => item.tree :: treesOf rest

def entriesTree : List (Value × Value) → String → Option (Tree String Value)
  | [], _ => none
  | (key, value) :: rest, wanted =>
      if key.asStr = some wanted then some value.tree else entriesTree rest wanted

end

/-- A mapping of the library has each key once. -/
inductive Value.Distinct : Value → Prop where
  | null : Distinct .null
  | bool (value : Bool) : Distinct (.bool value)
  | number (value : Number) : Distinct (.number value)
  | string (value : String) : Distinct (.string value)
  | sequence {items : List Value} : (∀ item ∈ items, Distinct item) → Distinct (.sequence items)
  | mapping {entries : List (Value × Value)} : (entries.map (·.1)).Nodup →
      (∀ entry ∈ entries, Distinct entry.2) → Distinct (.mapping entries)
  | tagged {tag : String} {value : Value} : Distinct value → Distinct (.tagged tag value)

/-- The entries of a mapping, from string keys. -/
def ofEntries (entries : List (String × Value)) : Mapping :=
  entries.map fun entry => (.string entry.1, entry.2)

/-- Strictly ascending string keys in every mapping, and no tag. -/
inductive Value.Canonical : Value → Prop where
  | null : Canonical .null
  | bool (value : Bool) : Canonical (.bool value)
  | number (value : Number) : Canonical (.number value)
  | string (value : String) : Canonical (.string value)
  | sequence {items : List Value} : (∀ item ∈ items, Canonical item) → Canonical (.sequence items)
  | mapping {entries : List (String × Value)} : entries.Pairwise (·.1 < ·.1) →
      (∀ entry ∈ entries, Canonical entry.2) → Canonical (.mapping (ofEntries entries))

/-! ## The passes over lists -/

theorem bind_eq_ok {ε α β : Type} {x : Except ε α} {f : α → Except ε β} {b : β} :
    (x >>= f) = .ok b ↔ ∃ a, x = .ok a ∧ f a = .ok b := by
  cases x <;> simp [bind, Except.bind]

variable {items : List Value}

theorem canonicalizeItems_eq_ok {results : List Value} :
    canonicalizeItems items = .ok results ↔
      List.Forall₂ (fun item result => canonicalize item = .ok result) items results := by
  induction items generalizing results with
  | nil => simp [canonicalizeItems, eq_comm]
  | cons item rest ih =>
      simp only [canonicalizeItems, bind_eq_ok, List.forall₂_cons_left_iff, ih]
      constructor
      · rintro ⟨first, isFirst, others, areOthers, same⟩
        exact ⟨first, others, isFirst, areOthers, (Except.ok.inj same).symm⟩
      · rintro ⟨first, others, isFirst, areOthers, rfl⟩
        exact ⟨first, isFirst, others, areOthers, rfl⟩

/-- An entry and what becomes of it. -/
def Becomes (entry : Value × Value) (result : String × Value) : Prop :=
  entry.1 = .string result.1 ∧ canonicalize entry.2 = .ok result.2

variable {results : List (String × Value)}

theorem canonicalizeEntries_eq_ok {entries : List (Value × Value)} :
    canonicalizeEntries entries = .ok results ↔ List.Forall₂ Becomes entries results := by
  induction entries generalizing results with
  | nil => simp [canonicalizeEntries, eq_comm]
  | cons entry rest ih =>
      obtain ⟨key, value⟩ := entry
      cases key with
      | string key =>
          simp only [canonicalizeEntries, bind_eq_ok, List.forall₂_cons_left_iff, ih, Becomes]
          constructor
          · rintro ⟨first, isFirst, others, areOthers, same⟩
            exact ⟨(key, first), others, ⟨rfl, isFirst⟩, areOthers, (Except.ok.inj same).symm⟩
          · rintro ⟨⟨_, first⟩, others, ⟨sameKey, isFirst⟩, areOthers, rfl⟩
            obtain rfl := Value.string.inj sameKey
            exact ⟨first, isFirst, others, areOthers, rfl⟩
      | null | bool | number | sequence | mapping | tagged =>
          simp [canonicalizeEntries, List.forall₂_cons_left_iff, Becomes]

variable {key : String}

/-! ## Building a mapping from sorted entries -/

theorem insert_fresh {doc : Mapping} (value : Value)
    (fresh : ∀ entry ∈ doc, entry.1.asStr ≠ some key) :
    Mapping.insert doc key value = doc ++ [(.string key, value)] := by
  induction doc with
  | nil => rfl
  | cons entry rest ih =>
      rw [Mapping.insert, if_neg (fresh entry List.mem_cons_self),
        ih fun entry member => fresh entry (List.mem_cons_of_mem _ member)]
      rfl

/-- Entries with distinct keys are put one after the other. -/
theorem foldl_insert {entries : List (String × Value)} {doc : Mapping}
    (distinct : (entries.map (·.1)).Nodup)
    (fresh : ∀ entry ∈ entries, ∀ old ∈ doc, old.1.asStr ≠ some entry.1) :
    entries.foldl (fun doc e => Mapping.insert doc e.1 e.2) doc = doc ++ ofEntries entries := by
  induction entries generalizing doc with
  | nil => simp [ofEntries]
  | cons entry rest ih =>
      rw [List.map_cons, List.nodup_cons] at distinct
      rw [List.foldl_cons, insert_fresh entry.2 (fresh entry List.mem_cons_self),
        ih distinct.2 ?_]
      · simp [ofEntries]
      · intro later member old present
        rcases List.mem_append.mp present with present | added
        · exact fresh later (List.mem_cons_of_mem _ member) old present
        · obtain rfl := List.mem_singleton.mp added
          intro same
          have key_eq : entry.1 = later.1 := by simpa [Value.asStr] using same
          exact distinct.1 (key_eq ▸ List.mem_map_of_mem member)

section Sorting

variable {α : Type} {entries : List (String × α)}

theorem perm_sortByKey (entries : List (String × α)) : (sortByKey entries).Perm entries :=
  List.perm_insertionSort _ _

theorem sorted_sortByKey (distinct : (entries.map (·.1)).Nodup) :
    (sortByKey entries).Pairwise (·.1 < ·.1) := by
  have total : Std.Total fun left right : String × α => left.1 ≤ right.1 :=
    ⟨fun left right => le_total left.1 right.1⟩
  have trans : IsTrans (String × α) fun left right => left.1 ≤ right.1 :=
    ⟨fun _ _ _ => le_trans⟩
  have sorted : (sortByKey entries).Pairwise (·.1 ≤ ·.1) := List.pairwise_insertionSort _ _
  have apart : (sortByKey entries).Pairwise (·.1 ≠ ·.1) := by
    rw [← List.pairwise_map (R := (· ≠ ·))]
    exact ((perm_sortByKey entries).map _).nodup_iff.mpr distinct
  exact (sorted.and apart).imp fun both => lt_of_le_of_ne both.1 both.2

theorem nodup_of_sorted (sorted : entries.Pairwise (·.1 < ·.1)) : (entries.map (·.1)).Nodup :=
  List.pairwise_map.mpr (sorted.imp ne_of_lt)

theorem sortByKey_eq_self (sorted : entries.Pairwise (·.1 < ·.1)) : sortByKey entries = entries :=
  List.Pairwise.insertionSort_eq (sorted.imp le_of_lt)

end Sorting

variable {t : Tree String Value}

/-! ## Lookups -/

theorem entriesTree_eq_some {entries : List (Value × Value)} (distinct : (entries.map (·.1)).Nodup) :
    entriesTree entries key = some t ↔
      ∃ value, (.string key, value) ∈ entries ∧ value.tree = t := by
  induction entries with
  | nil => simp [entriesTree]
  | cons entry rest ih =>
      obtain ⟨first, value⟩ := entry
      rw [List.map_cons, List.nodup_cons] at distinct
      by_cases here : first.asStr = some key
      · have first_eq : first = .string key := by
          cases first <;> simp_all [Value.asStr]
        subst first_eq
        simp only [entriesTree, Value.asStr, if_true, Option.some.injEq]
        constructor
        · intro same_
          exact ⟨value, List.mem_cons_self, same_⟩
        · rintro ⟨found, member, same_⟩
          rcases List.mem_cons.mp member with equal | later
          · rw [← (Prod.mk.inj equal).2]
            exact same_
          · exact absurd (List.mem_map_of_mem (f := (·.1)) later) distinct.1
      · have other : ∀ found, ((.string key, found) : Value × Value) ≠ (first, value) := by
          intro found same_
          exact here (by rw [← (Prod.mk.inj same_).1]; rfl)
        simp [entriesTree, here, ih distinct.2, other]

theorem nodup_ofEntries {entries : List (String × Value)} (distinct : (entries.map (·.1)).Nodup) :
    ((ofEntries entries).map (·.1)).Nodup := by
  have keys : (ofEntries entries).map (·.1) = (entries.map (·.1)).map Value.string := by
    simp [ofEntries]
  rw [keys]
  exact distinct.map fun _ _ => Value.string.inj

variable {value : Value}

theorem mem_ofEntries {entries : List (String × Value)} :
    (.string key, value) ∈ ofEntries entries ↔ (key, value) ∈ entries := by
  simp [ofEntries]

theorem entriesTree_ofEntries {entries : List (String × Value)}
    (distinct : (entries.map (·.1)).Nodup) :
    entriesTree (ofEntries entries) key = some t ↔
      ∃ value, (key, value) ∈ entries ∧ value.tree = t := by
  rw [entriesTree_eq_some (nodup_ofEntries distinct)]
  simp only [mem_ofEntries]

/-! ## The result is canonical and stands for the same tree -/

theorem keys_of_keeps {entries : List (Value × Value)}
    (keeps : List.Forall₂ Becomes entries results) :
    entries.map (·.1) = (results.map (·.1)).map Value.string := by
  induction keeps with
  | nil => rfl
  | cons first _ ih => simp [first.1, ih]

theorem nodup_of_keeps {entries : List (Value × Value)}
    (keeps : List.Forall₂ Becomes entries results) (distinct : (entries.map (·.1)).Nodup) :
    (results.map (·.1)).Nodup := by
  rw [keys_of_keeps keeps] at distinct
  exact distinct.of_map _

theorem canonicalize_mapping {entries : List (Value × Value)} {result : Value}
    (distinct : (entries.map (·.1)).Nodup) :
    canonicalize (.mapping entries) = .ok result ↔
      ∃ results, List.Forall₂ Becomes entries results ∧
        result = .mapping (ofEntries (sortByKey results)) := by
  simp only [canonicalize, bind_eq_ok, canonicalizeEntries_eq_ok]
  refine exists_congr fun results => and_congr_right fun keeps => ?_
  have sorted := sorted_sortByKey (nodup_of_keeps keeps distinct)
  rw [foldl_insert (nodup_of_sorted sorted) (by simp), List.nil_append]
  exact ⟨fun same_ => (Except.ok.inj same_).symm, fun same_ => congrArg Except.ok same_.symm⟩

theorem mem_of_forall₂_left {α β : Type} {R : α → β → Prop} {l : List α} {l' : List β}
    (related : List.Forall₂ R l l') {a : α} (member : a ∈ l) : ∃ b ∈ l', R a b := by
  induction related with
  | nil => cases member
  | cons first _ ih =>
      rcases List.mem_cons.mp member with rfl | later
      · exact ⟨_, List.mem_cons_self, first⟩
      · obtain ⟨b, member, holds⟩ := ih later
        exact ⟨b, List.mem_cons_of_mem _ member, holds⟩

theorem treesOf_congr {R : Value → Value → Prop} {results : List Value}
    (related : List.Forall₂ R items results)
    (same_ : ∀ item ∈ items, ∀ result, R item result → result.tree = item.tree) :
    treesOf results = treesOf items := by
  induction related with
  | nil => rfl
  | cons first _ ih =>
      rw [treesOf, treesOf, same_ _ List.mem_cons_self _ first,
        ih fun item member => same_ item (List.mem_cons_of_mem _ member)]

theorem canonicalize_sound (distinct : value.Distinct) {result : Value}
    (done : canonicalize value = .ok result) : result.Canonical ∧ result.tree = value.tree := by
  induction distinct generalizing result with
  | null => cases done; exact ⟨.null, rfl⟩
  | bool => cases done; exact ⟨.bool _, rfl⟩
  | number => cases done; exact ⟨.number _, rfl⟩
  | string => cases done; exact ⟨.string _, rfl⟩
  | tagged => cases done
  | @sequence items _ ih =>
      simp only [canonicalize, bind_eq_ok, canonicalizeItems_eq_ok] at done
      obtain ⟨results, related, done⟩ := done
      cases done
      refine ⟨.sequence fun result member => ?_, congrArg Tree.list ?_⟩
      · obtain ⟨item, isItem, done⟩ := mem_of_forall₂_left related.flip member
        exact (ih item isItem done).1
      · exact treesOf_congr related fun item isItem result done => (ih item isItem done).2
  | @mapping entries keys _ ih =>
      obtain ⟨results, keeps, rfl⟩ := (canonicalize_mapping keys).mp done
      have resultKeys := nodup_of_keeps keeps keys
      have sorted := sorted_sortByKey resultKeys
      refine ⟨.mapping sorted ?_, congrArg Tree.map (funext fun key => Option.ext fun t => ?_)⟩
      · intro result member
        rw [(perm_sortByKey results).mem_iff] at member
        obtain ⟨entry, isEntry, keep⟩ := mem_of_forall₂_left keeps.flip member
        exact (ih entry isEntry keep.2).1
      · rw [entriesTree_ofEntries (nodup_of_sorted sorted), entriesTree_eq_some keys]
        simp only [(perm_sortByKey results).mem_iff]
        constructor
        · rintro ⟨value, member, same_⟩
          obtain ⟨⟨first, old⟩, isEntry, keep⟩ := mem_of_forall₂_left keeps.flip member
          obtain rfl : first = .string key := keep.1
          exact ⟨old, isEntry, (ih _ isEntry keep.2).2 ▸ same_⟩
        · rintro ⟨old, isEntry, same_⟩
          obtain ⟨⟨first, value⟩, member, keep⟩ := mem_of_forall₂_left keeps isEntry
          obtain rfl := Value.string.inj keep.1
          exact ⟨value, member, (ih _ isEntry keep.2).2.trans same_⟩

/-- A canonical value is left as it is. -/
theorem canonicalize_canonical (canonical : value.Canonical) : canonicalize value = .ok value := by
  induction canonical with
  | null | bool | number | string => rfl
  | @sequence items _ ih =>
      have related : List.Forall₂ (fun item result => canonicalize item = .ok result) items items :=
        List.forall₂_same.mpr ih
      rw [canonicalize, canonicalizeItems_eq_ok.mpr related]
      rfl
  | @mapping entries sorted _ ih =>
      have keeps : List.Forall₂ Becomes (ofEntries entries) entries := by
        rw [ofEntries, List.forall₂_map_left_iff, List.forall₂_same]
        exact fun entry member => ⟨rfl, ih entry member⟩
      rw [canonicalize_mapping (nodup_ofEntries (nodup_of_sorted sorted))]
      exact ⟨entries, keeps, by rw [sortByKey_eq_self sorted]⟩

/-! ## A tree has one canonical value -/

/-- A value that is determined by its tree among the canonical ones. -/
def Value.Determined (value : Value) : Prop :=
  ∀ value' : Value, value'.Canonical → value.tree = value'.tree → value = value'

theorem eq_of_treesOf {items' : List Value} (determined : ∀ item ∈ items, item.Determined)
    (canonical' : ∀ item ∈ items', item.Canonical) (same_ : treesOf items = treesOf items') :
    items = items' := by
  induction items generalizing items' with
  | nil => cases items' <;> simp_all [treesOf]
  | cons item rest ih =>
      cases items' with
      | nil => simp [treesOf] at same_
      | cons item' rest' =>
          simp only [treesOf, List.cons.injEq] at same_
          rw [List.forall_mem_cons] at determined canonical'
          rw [determined.1 item' canonical'.1 same_.1, ih determined.2 canonical'.2 same_.2]

theorem eq_of_entriesTree {entries entries' : List (String × Value)}
    (determined : ∀ entry ∈ entries, entry.2.Determined)
    (canonical' : ∀ entry ∈ entries', entry.2.Canonical)
    (sorted : entries.Pairwise (·.1 < ·.1)) (sorted' : entries'.Pairwise (·.1 < ·.1))
    (same_ : entriesTree (ofEntries entries) = entriesTree (ofEntries entries')) :
    entries = entries' := by
  have found : ∀ key t, (∃ value, (key, value) ∈ entries ∧ value.tree = t) ↔
      ∃ value, (key, value) ∈ entries' ∧ value.tree = t := by
    intro key t
    rw [← entriesTree_ofEntries (nodup_of_sorted sorted), same_,
      entriesTree_ofEntries (nodup_of_sorted sorted')]
  have asymm : Std.Asymm fun left right : String × Value => left.1 < right.1 :=
    ⟨fun _ _ => lt_asymm⟩
  apply sorted.eq_of_mem_iff sorted'
  rintro ⟨key, value⟩
  constructor
  · intro member
    obtain ⟨value', member', tree_eq⟩ := (found key _).mp ⟨value, member, rfl⟩
    have value_eq : value = value' := determined _ member value' (canonical' _ member') tree_eq.symm
    exact value_eq ▸ member'
  · intro member'
    obtain ⟨value', member, tree_eq⟩ := (found key _).mpr ⟨value, member', rfl⟩
    have value_eq : value' = value := determined _ member value (canonical' _ member') tree_eq
    exact value_eq ▸ member

/-- Canonical values that stand for the same tree are identical. -/
theorem Value.Canonical.determined (canonical : value.Canonical) : value.Determined := by
  induction canonical with
  | null | bool | number | string =>
      intro value' canonical' same_
      cases canonical' <;> simp_all [Value.tree]
  | sequence _ ih =>
      intro value' canonical' same_
      cases canonical' with
      | sequence all' =>
          simp only [Value.tree, Tree.list.injEq] at same_
          rw [eq_of_treesOf ih all' same_]
      | null | bool | number | string | mapping => simp [Value.tree] at same_
  | mapping sorted _ ih =>
      intro value' canonical' same_
      cases canonical' with
      | mapping sorted' all' =>
          simp only [Value.tree, Tree.map.injEq] at same_
          rw [eq_of_entriesTree ih all' sorted sorted' same_]
      | null | bool | number | string | sequence => simp [Value.tree] at same_

end Nyanpasu
