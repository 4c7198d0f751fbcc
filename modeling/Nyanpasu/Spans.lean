import Mathlib.Data.List.Basic
import Mathlib.Tactic.Common

/-! # Ordered spans and their two sides

Items that lie one after the other, each from `lo` to `hi`, are walked away from a
boundary in one of two directions.  Having walked past an item, its far edge is a
boundary with exactly the remaining items on its side.
-/

namespace Nyanpasu

variable {α : Type} {lo hi : α → Nat} {items taken rest : List α} {a : α} {boundary : Nat}
  {reverse : Bool}

structure OrderedSpans (lo hi : α → Nat) (items : List α) : Prop where
  ordered : items.Pairwise fun a b => hi a ≤ lo b
  proper : ∀ a ∈ items, lo a < hi a

/-- The items on one side of the boundary, nearest first. -/
def side (lo : α → Nat) (reverse : Bool) (boundary : Nat) (items : List α) : List α :=
  if reverse then (items.filter fun a => lo a < boundary).reverse
  else items.filter fun a => boundary ≤ lo a

/-- The items that start between two boundaries. -/
def between (lo : α → Nat) (c d : Nat) (items : List α) : List α :=
  items.filter fun a => decide (c ≤ lo a) && decide (lo a < d)

/-- The edge of an item that is passed last. -/
def edge (lo hi : α → Nat) (reverse : Bool) (a : α) : Nat := if reverse then lo a else hi a

/-- One boundary lies further than the other. -/
def Beyond (reverse : Bool) (near far : Nat) : Prop := if reverse then far < near else near < far

variable {c d : Nat}

namespace OrderedSpans

variable (spans : OrderedSpans lo hi items)

include spans

theorem sublist (part : taken.Sublist items) : OrderedSpans lo hi taken :=
  ⟨spans.ordered.sublist part, fun a member => spans.proper a (part.subset member)⟩

theorem starts : items.Pairwise fun a b => lo a < lo b := by
  refine spans.ordered.imp_of_mem ?_
  intro a b inA _ apart
  have proper := spans.proper a inA
  omega

theorem takeWhile_eq (boundary : Nat) :
    items.takeWhile (fun a => lo a < boundary) = items.filter fun a => lo a < boundary := by
  have starts := spans.starts
  induction items with
  | nil => rfl
  | cons a items ih =>
      rw [List.pairwise_cons] at starts
      by_cases before : lo a < boundary
      · simp only [List.takeWhile_cons, List.filter_cons, before, decide_true, if_true]
        rw [ih (spans.sublist (List.sublist_cons_self a items)) starts.2]
      · simp only [List.takeWhile_cons, List.filter_cons, before, decide_false,
          Bool.false_eq_true, if_false]
        symm
        rw [List.filter_eq_nil_iff]
        intro b member
        have later := starts.1 b member
        simp only [decide_eq_true_eq]
        omega

theorem dropWhile_eq (boundary : Nat) :
    items.dropWhile (fun a => lo a < boundary) = items.filter fun a => boundary ≤ lo a := by
  have starts := spans.starts
  induction items with
  | nil => rfl
  | cons a items ih =>
      rw [List.pairwise_cons] at starts
      by_cases before : lo a < boundary
      · have outside : ¬ boundary ≤ lo a := by omega
        simp only [List.dropWhile_cons, List.filter_cons, before, outside, decide_true,
          decide_false, if_true, Bool.false_eq_true, if_false]
        exact ih (spans.sublist (List.sublist_cons_self a items)) starts.2
      · have inside : boundary ≤ lo a := by omega
        simp only [List.dropWhile_cons, before, decide_false, Bool.false_eq_true, if_false]
        symm
        rw [List.filter_eq_self]
        intro b member
        simp only [decide_eq_true_eq]
        rcases List.mem_cons.mp member with rfl | later
        · exact inside
        · have follows := starts.1 b later
          omega

theorem split_at (boundary : Nat) :
    items = items.filter (fun a => lo a < boundary) ++ items.filter fun a => boundary ≤ lo a := by
  rw [← spans.takeWhile_eq, ← spans.dropWhile_eq, List.takeWhile_append_dropWhile]

/-- Of two items the one that starts first ends before the other starts. -/
theorem apart {b : α} (first : a ∈ items) (second : b ∈ items) (before : lo a < lo b)
    : hi a ≤ lo b := by
  have ordered := spans.ordered
  rw [spans.split_at (lo b)] at ordered
  exact (List.pairwise_append.mp ordered).2.2 a (List.mem_filter.mpr ⟨first, decide_eq_true before⟩) b
    (List.mem_filter.mpr ⟨second, decide_eq_true (Nat.le_refl _)⟩)

theorem between_append {e : Nat} (first : c ≤ d) (second : d ≤ e)
    : between lo c e items = between lo c d items ++ between lo d e items := by
  have part : OrderedSpans lo hi (between lo c e items) := spans.sublist List.filter_sublist
  rw [part.split_at d]
  simp only [between, List.filter_filter]
  congr 1
  · apply List.filter_congr
    intro a _
    rw [← Bool.decide_and, ← Bool.decide_and, ← Bool.decide_and, decide_eq_decide]
    omega
  · apply List.filter_congr
    intro a _
    rw [← Bool.decide_and, ← Bool.decide_and, ← Bool.decide_and, decide_eq_decide]
    omega

/-- What lies on the side of a boundary, up to another one and beyond. -/
theorem side_between (order : c ≤ d) :
    side lo false c items = between lo c d items ++ side lo false d items ∧
      side lo true d items = (between lo c d items).reverse ++ side lo true c items := by
  constructor
  · have part : OrderedSpans lo hi (items.filter fun a => c ≤ lo a) :=
      spans.sublist List.filter_sublist
    simp only [side, Bool.false_eq_true, if_false]
    rw [part.split_at d]
    simp only [between, List.filter_filter]
    congr 1
    · apply List.filter_congr
      intro a _
      rw [Bool.and_comm]
    · apply List.filter_congr
      intro a _
      rw [← Bool.decide_and, decide_eq_decide]
      omega
  · have part : OrderedSpans lo hi (items.filter fun a => lo a < d) :=
      spans.sublist List.filter_sublist
    simp only [side, if_true]
    rw [part.split_at c, List.reverse_append]
    simp only [between, List.filter_filter]
    congr 2
    apply List.filter_congr
    intro a _
    rw [← Bool.decide_and, decide_eq_decide]
    omega

/-- Past an item, the rest of the side remains. -/
theorem side_edge (walked : side lo reverse boundary items = taken ++ a :: rest) :
    side lo reverse (edge lo hi reverse a) items = rest := by
  cases reverse with
  | false =>
      simp only [side, edge, Bool.false_eq_true, if_false] at walked ⊢
      have part := spans.sublist (walked ▸ List.filter_sublist)
      have inside : a ∈ items.filter fun a => boundary ≤ lo a := by simp [walked]
      simp only [List.mem_filter, decide_eq_true_eq] at inside
      have proper := spans.proper a inside.1
      have narrow : items.filter (fun b => hi a ≤ lo b) =
          (items.filter fun b => boundary ≤ lo b).filter fun b => hi a ≤ lo b := by
        rw [List.filter_filter]
        apply List.filter_congr
        intro b _
        have bound := inside.2
        rw [← Bool.decide_and, decide_eq_decide]
        omega
      rw [narrow, walked, List.filter_append, List.filter_cons]
      have apart := List.pairwise_append.mp part.ordered
      have first : taken.filter (fun b => hi a ≤ lo b) = [] := by
        rw [List.filter_eq_nil_iff]
        intro b member
        have order := apart.2.2 b member a List.mem_cons_self
        have width := part.proper b (List.mem_append_left _ member)
        simp only [decide_eq_true_eq]
        omega
      have last : rest.filter (fun b => hi a ≤ lo b) = rest := by
        rw [List.filter_eq_self]
        intro b member
        simpa using (List.pairwise_cons.mp apart.2.1).1 b member
      have self : ¬ hi a ≤ lo a := by omega
      simp [first, last, self]
  | true =>
      simp only [side, edge, if_true] at walked ⊢
      have forward : (items.filter fun b => lo b < boundary) = rest.reverse ++ a :: taken.reverse := by
        rw [← List.reverse_inj, walked]
        simp
      have part := spans.sublist (forward ▸ List.filter_sublist)
      have inside : a ∈ items.filter fun b => lo b < boundary := by simp [forward]
      simp only [List.mem_filter, decide_eq_true_eq] at inside
      have narrow : items.filter (fun b => lo b < lo a) =
          (items.filter fun b => lo b < boundary).filter fun b => lo b < lo a := by
        rw [List.filter_filter]
        apply List.filter_congr
        intro b _
        have bound := inside.2
        rw [← Bool.decide_and, decide_eq_decide]
        omega
      rw [narrow, forward, List.filter_append, List.filter_cons]
      have apart := List.pairwise_append.mp part.starts
      have first : rest.reverse.filter (fun b => lo b < lo a) = rest.reverse := by
        rw [List.filter_eq_self]
        intro b member
        simpa using apart.2.2 b member a List.mem_cons_self
      have last : taken.reverse.filter (fun b => lo b < lo a) = [] := by
        rw [List.filter_eq_nil_iff]
        intro b member
        have order := (List.pairwise_cons.mp apart.2.1).1 b member
        simp only [decide_eq_true_eq]
        omega
      simp [first, last]

theorem length_side_edge (member : a ∈ side lo reverse boundary items) :
    (side lo reverse (edge lo hi reverse a) items).length <
      (side lo reverse boundary items).length := by
  obtain ⟨taken, rest, walked⟩ := List.append_of_mem member
  rw [spans.side_edge walked, walked]
  simp only [List.length_append, List.length_cons]
  omega

theorem beyond_edge (member : a ∈ side lo reverse boundary items) :
    Beyond reverse boundary (edge lo hi reverse a) := by
  cases reverse with
  | false =>
      simp only [side, Bool.false_eq_true, if_false, List.mem_filter, decide_eq_true_eq] at member
      have proper := spans.proper a member.1
      simp only [Beyond, edge, Bool.false_eq_true, if_false]
      omega
  | true =>
      simp only [side, if_true, List.mem_reverse, List.mem_filter, decide_eq_true_eq] at member
      exact member.2

end OrderedSpans

theorem mem_between : a ∈ between lo c d items ↔ a ∈ items ∧ c ≤ lo a ∧ lo a < d := by
  simp only [between, List.mem_filter, Bool.and_eq_true, decide_eq_true_eq]

theorem between_nil (order : d ≤ c) : between lo c d items = [] := by
  rw [List.eq_nil_iff_forall_not_mem]
  intro a member
  have inside := (mem_between.mp member).2
  omega

theorem between_filter (selected : α → Bool) :
    between lo c d (items.filter selected) = (between lo c d items).filter selected := by
  simp only [between, List.filter_filter]
  apply List.filter_congr
  intro a _
  exact Bool.and_comm _ _

theorem between_map {β : Type} (f : β → α) (items : List β) :
    between lo c d (items.map f) = (between (lo ∘ f) c d items).map f :=
  List.filter_map

theorem mem_side (member : a ∈ side lo reverse boundary items) : a ∈ items := by
  cases reverse with
  | false => exact List.mem_of_mem_filter member
  | true => exact List.mem_of_mem_filter (List.mem_reverse.mp member)

theorem side_filter (selected : α → Bool) (items : List α) :
    side lo reverse boundary (items.filter selected) =
      (side lo reverse boundary items).filter selected := by
  cases reverse <;> simp [side, List.filter_filter, Bool.and_comm, List.filter_reverse]

theorem length_side_le (items : List α) : (side lo reverse boundary items).length ≤ items.length := by
  cases reverse with
  | false => exact List.length_filter_le _ _
  | true => simpa [side] using List.length_filter_le _ items

end Nyanpasu
