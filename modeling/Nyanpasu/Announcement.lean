import Mathlib.Data.List.Basic
import Mathlib.Tactic.Common

/-! # Announcing what a slot adopts

A slot adopts keyed values one after the other, and a feed announces them.  The
announcement comes right before the adoption or right after it; the pledge says
which of the two is still owed.  While nothing is owed, every value ever announced
was adopted under its own key, and the newest announcement is what the slot holds
unless one was missed.
-/

namespace Nyanpasu

variable {K V : Type} {slot latest latest' : Option (K × V)} {adopted feed feed' : List (K × V)}
  {missed missed' : Prop} {a : K × V}

/-- What is owed: nothing, the adoption of a value already announced, or the
    announcement of the value in the slot. -/
inductive Pledge (α : Type) where
  | kept
  | sent (a : α)
  | due

/-- Nothing else was adopted under the key. -/
def Fits (adopted : List (K × V)) (a : K × V) : Prop := ∀ b ∈ adopted, b.1 = a.1 → b = a

structure Announced (slot : Option (K × V)) (adopted : List (K × V)) (pledge : Pledge (K × V))
    (latest : Option (K × V)) (feed : List (K × V)) (missed : Prop) : Prop where
  unique : ∀ a ∈ adopted, Fits adopted a
  held : ∀ a, slot = some a → a ∈ adopted
  newest : ∀ a, latest = some a → a ∈ feed
  current : pledge ≠ .due → ¬ missed → ∀ a, slot = some a → latest = some a
  ahead : ∀ a, pledge = .sent a → ¬ missed → latest = some a
  honest : ∀ a ∈ feed, a ∈ adopted ∨ pledge = .sent a

/-- An attempt to announce `a`: the feed gets it or nothing, and a miss is noticed
    whenever the newest announcement is left under another key. -/
structure Announces (a : K × V) (latest' : Option (K × V)) (feed feed' : List (K × V))
    (missed missed' : Prop) : Prop where
  sends : ∀ b ∈ feed', b ∈ feed ∨ b = a
  newest : ∀ b, latest' = some b → b ∈ feed'
  noticed : missed → missed'
  key : ¬ missed' → latest'.map Prod.fst = some a.1

namespace Announced

theorem empty : Announced (none : Option (K × V)) [] .kept none [] False where
  unique := by simp
  held := by simp
  newest := by simp
  current := by simp
  ahead := by simp
  honest := by simp

section

variable {pledge : Pledge (K × V)} (announced : Announced slot adopted pledge latest feed missed)

include announced

theorem miss (more : missed → missed') : Announced slot adopted pledge latest feed missed' :=
  { announced with
    current := fun owed seen => announced.current owed fun before => seen (more before)
    ahead := fun a owed seen => announced.ahead a owed fun before => seen (more before) }

theorem vacate : Announced none adopted pledge latest feed missed :=
  { announced with
    held := fun _ none => by cases none
    current := fun _ _ _ none => by cases none }

/-- The newest announcement is `a` once it is under the key of `a`. -/
theorem latest_eq (announces : Announces a latest' feed feed' missed missed')
    (fits : Fits adopted a) (owed : ∀ b, pledge ≠ .sent b) (seen : ¬ missed')
    : latest' = some a := by
  obtain ⟨b, newest, key⟩ := Option.map_eq_some_iff.mp (announces.key seen)
  rw [newest]
  rcases announces.sends b (announces.newest b newest) with earlier | same
  · rcases announced.honest b earlier with member | early
    · rw [fits b member key]
    · exact absurd early (owed b)
  · rw [same]

/-- Announcing what the slot holds settles the debt. -/
theorem announce_held (announces : Announces a latest' feed feed' missed missed')
    (holds : slot = some a) (owed : ∀ b, pledge ≠ .sent b)
    : Announced slot adopted .kept latest' feed' missed' where
  __ := announced
  newest := announces.newest
  current := fun _ seen b same => by
    rw [holds] at same
    cases same
    have member := announced.held a holds
    exact announced.latest_eq announces (announced.unique a member) owed seen
  ahead := fun _ none => by cases none
  honest := fun b member => by
    rcases announces.sends b member with earlier | rfl
    · rcases announced.honest b earlier with adopted | early
      · exact .inl adopted
      · exact absurd early (owed b)
    · exact .inl (announced.held b holds)

end

/-- Announcing ahead of the adoption. -/
theorem announce_ahead (announced : Announced none adopted .kept latest feed missed)
    (announces : Announces a latest' feed feed' missed missed') (fits : Fits adopted a) :
    Announced none adopted (.sent a) latest' feed' missed' where
  __ := announced
  newest := announces.newest
  current := fun _ _ _ none => by cases none
  ahead := fun b owed seen => by
    cases owed
    exact announced.latest_eq announces fits (fun _ none => by cases none) seen
  honest := fun b member => by
    rcases announces.sends b member with earlier | rfl
    · rcases announced.honest b earlier with adopted | early
      · exact .inl adopted
      · cases early
    · exact .inr rfl

/-- Adopting `a` settles its announcement, or owes it. -/
theorem adopt {pledge pledge' : Pledge (K × V)}
    (announced : Announced slot adopted pledge latest feed missed) (fits : Fits adopted a)
    (owed : pledge' = .due ∧ pledge = .kept ∨ pledge' = .kept ∧ pledge = .sent a) :
    Announced (some a) (a :: adopted) pledge' latest feed missed where
  unique := fun b member other otherMember same => by
    rcases List.mem_cons.mp member with rfl | earlier
    · rcases List.mem_cons.mp otherMember with rfl | otherEarlier
      · rfl
      · exact fits other otherEarlier same
    · rcases List.mem_cons.mp otherMember with rfl | otherEarlier
      · exact (fits b earlier same.symm).symm
      · exact announced.unique b earlier other otherEarlier same
  held := fun b holds => by
    cases holds
    exact List.mem_cons_self
  newest := announced.newest
  current := fun settled seen b holds => by
    cases holds
    rcases owed with ⟨due, _⟩ | ⟨_, early⟩
    · exact absurd due settled
    · exact announced.ahead a early seen
  ahead := fun b early => by
    rcases owed with ⟨rfl, _⟩ | ⟨rfl, _⟩ <;> cases early
  honest := fun b member => by
    rcases announced.honest b member with known | early
    · exact .inl (List.mem_cons_of_mem a known)
    · rcases owed with ⟨_, none⟩ | ⟨_, promised⟩
      · rw [none] at early
        cases early
      · rw [promised] at early
        cases early
        exact .inl List.mem_cons_self

end Announced

end Nyanpasu
