import Mathlib.Data.List.AList
import Mathlib.Tactic.Common

/-! # Tables

Finite maps with one value for each key, as hash maps are used: entries are inserted,
changed where they stand, and dropped by a test.
-/

namespace Nyanpasu

abbrev Table (κ α : Type) := AList fun _ : κ => α

namespace Table

variable {κ α : Type}

def size (t : Table κ α) : Nat := t.entries.length

def values (t : Table κ α) : List α := t.entries.map (·.2)

def retain (keep : κ → α → Bool) (t : Table κ α) : Table κ α where
  entries := t.entries.filter fun e => keep e.1 e.2
  nodupKeys := t.nodupKeys.sublist List.filter_sublist

def update (f : κ → α → α) (t : Table κ α) : Table κ α where
  entries := t.entries.map fun e => ⟨e.1, f e.1 e.2⟩
  nodupKeys := by
    have keys : (t.entries.map fun e => (⟨e.1, f e.1 e.2⟩ : Sigma fun _ : κ => α)).keys =
        t.entries.keys := by
      simp [List.keys, Function.comp_def]
    unfold List.NodupKeys
    rw [keys]
    exact t.nodupKeys

theorem size_retain_le (keep : κ → α → Bool) (t : Table κ α) : (t.retain keep).size ≤ t.size :=
  List.length_filter_le _ _

@[simp] theorem size_update (f : κ → α → α) (t : Table κ α) : (t.update f).size = t.size :=
  List.length_map _

variable [DecidableEq κ]

def modify (key : κ) (f : α → α) (t : Table κ α) : Table κ α :=
  t.update fun k a => if k = key then f a else a

variable {t : Table κ α} {key : κ}

theorem mem_entries {a : α} :
    (⟨key, a⟩ : Sigma fun _ : κ => α) ∈ t.entries ↔ t.lookup key = some a :=
  AList.mem_lookup_iff.symm

theorem mem_values {a : α} : a ∈ t.values ↔ ∃ key, t.lookup key = some a := by
  simp only [values, List.mem_map, Sigma.exists, ← mem_entries]
  constructor
  · rintro ⟨key, b, member, rfl⟩
    exact ⟨key, member⟩
  · rintro ⟨key, member⟩
    exact ⟨key, a, member, rfl⟩

theorem lookup_retain (keep : κ → α → Bool) (t : Table κ α) (key : κ) :
    (t.retain keep).lookup key = (t.lookup key).filter (keep key) := by
  apply Option.ext
  intro a
  rw [Option.filter_eq_some_iff, ← mem_entries, ← mem_entries]
  simp [retain, List.mem_filter]

theorem lookup_update (f : κ → α → α) (t : Table κ α) (key : κ) :
    (t.update f).lookup key = (t.lookup key).map (f key) := by
  apply Option.ext
  intro a
  rw [Option.map_eq_some_iff, ← mem_entries]
  simp only [update, List.mem_map, Sigma.exists, ← mem_entries]
  constructor
  · rintro ⟨k, b, member, equal⟩
    cases equal
    exact ⟨b, member, rfl⟩
  · rintro ⟨b, member, rfl⟩
    exact ⟨key, b, member, rfl⟩

@[simp] theorem size_modify (key : κ) (f : α → α) (t : Table κ α) : (t.modify key f).size = t.size :=
  size_update _ _

theorem lookup_modify (key : κ) (f : α → α) (t : Table κ α) :
    (t.modify key f).lookup key = (t.lookup key).map f := by
  rw [modify, lookup_update]
  simp

theorem lookup_modify_ne {other : κ} (different : other ≠ key) (f : α → α) (t : Table κ α) :
    (t.modify key f).lookup other = t.lookup other := by
  rw [modify, lookup_update]
  simp [different]

theorem size_insert (absent : t.lookup key = none) (a : α) :
    size (AList.insert key a t) = t.size + 1 := by
  have outside : key ∉ t := by
    rw [← AList.lookup_isSome, absent]
    simp
  rw [size, AList.entries_insert_of_notMem outside]
  rfl

theorem size_erase_le (t : Table κ α) (key : κ) : size (AList.erase key t) ≤ t.size :=
  (List.kerase_sublist key t.entries).length_le

end Table

end Nyanpasu
