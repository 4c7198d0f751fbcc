import Mathlib.Data.List.Basic
import Mathlib.Tactic.Common

/-! # Trees with unordered mappings

A mapping is the function it answers lookups with, so two trees are equal exactly when
they differ in nothing but the order of their keys.
-/

namespace Nyanpasu

inductive Tree (κ σ : Type) where
  | leaf (value : σ)
  | list (items : List (Tree κ σ))
  | map (entries : κ → Option (Tree κ σ))

namespace Tree

variable {κ σ : Type}

/-- What is below a key of a tree that may be missing. -/
def child : Option (Tree κ σ) → κ → Option (Tree κ σ)
  | some (map entries), key => entries key
  | _, _ => none

def IsMap : Option (Tree κ σ) → Prop
  | some (map _) => True
  | _ => False

/-- Mappings are compared by their children. -/
theorem IsMap.ext {t t' : Option (Tree κ σ)} (isMap : IsMap t) (isMap' : IsMap t')
    (same : ∀ key, child t key = child t' key) : t = t' := by
  match t, t', isMap, isMap' with
  | some (map entries), some (map entries'), _, _ =>
      have entries_eq : entries = entries' := funext same
      rw [entries_eq]

/-- The tree below a path. -/
def descend : Option (Tree κ σ) → List κ → Option (Tree κ σ)
  | t, [] => t
  | t, key :: path => descend (child t key) path

variable [DecidableEq κ]

/-- Sets the value at a path; what is missing on the way, or is no mapping, becomes one. -/
def write : Option (Tree κ σ) → List κ → Tree κ σ → Tree κ σ
  | _, [], value => value
  | t, key :: path, value =>
      map fun other => if other = key then some (write (child t key) path value) else child t other

def writeAll (t : Option (Tree κ σ)) (writes : List (List κ × Tree κ σ)) : Option (Tree κ σ) :=
  writes.foldl (fun t w => some (write t w.1 w.2)) t

/-- Writes below one key, seen from above it. -/
def under (key : κ) (writes : List (List κ × Tree κ σ)) : List (List κ × Tree κ σ) :=
  writes.map fun w => (key :: w.1, w.2)

variable {t : Option (Tree κ σ)} {key other : κ}

theorem writeAll_append (t : Option (Tree κ σ)) (writes more : List (List κ × Tree κ σ)) :
    writeAll t (writes ++ more) = writeAll (writeAll t writes) more := List.foldl_append

/-- Writes below one key change what is below that key and nothing else. -/
theorem child_writeAll_under (t : Option (Tree κ σ)) (key other : κ)
    (writes : List (List κ × Tree κ σ)) :
    child (writeAll t (under key writes)) other =
      if other = key then writeAll (child t key) writes else child t other := by
  induction writes generalizing t with
  | nil => by_cases same : other = key <;> simp [under, writeAll, same]
  | cons first rest ih =>
      have step : child (some (write t (key :: first.1) first.2)) key =
          some (write (child t key) first.1 first.2) := by simp [write, child]
      have kept : other ≠ key → child (some (write t (key :: first.1) first.2)) other =
          child t other := by
        intro different
        simp [write, child, different]
      have unfolded : writeAll t (under key (first :: rest)) =
          writeAll (some (write t (key :: first.1) first.2)) (under key rest) := rfl
      rw [unfolded, ih, step]
      by_cases same : other = key
      · simp [same, writeAll]
      · simp [same, kept same]

/-- Writes below several keys, one key after the other. -/
theorem child_writeAll_flatMap {keys : List κ} (distinct : keys.Nodup)
    (writes : κ → List (List κ × Tree κ σ)) (t : Option (Tree κ σ)) (other : κ) :
    child (writeAll t (keys.flatMap fun key => under key (writes key))) other =
      if other ∈ keys then writeAll (child t other) (writes other) else child t other := by
  induction keys generalizing t with
  | nil => rfl
  | cons key keys ih =>
      obtain ⟨once, distinct⟩ := List.nodup_cons.mp distinct
      rw [List.flatMap_cons, writeAll_append, ih distinct, child_writeAll_under]
      by_cases same : other = key
      · subst same
        simp [once]
      · simp [same]

/-- Something was written below a key, or a mapping was there before. -/
theorem isMap_writeAll {writes : List (List κ × Tree κ σ)}
    (below : ∀ w ∈ writes, w.1 ≠ []) (start : IsMap t ∨ writes ≠ []) :
    IsMap (writeAll t writes) := by
  induction writes generalizing t with
  | nil => simpa [writeAll] using start
  | cons first rest ih =>
      have written : IsMap (some (write t first.1 first.2)) := by
        cases path : first.1 with
        | nil => exact absurd path (below first List.mem_cons_self)
        | cons key path' => trivial
      exact ih (fun w member => below w (List.mem_cons_of_mem _ member)) (.inl written)

end Tree

end Nyanpasu
