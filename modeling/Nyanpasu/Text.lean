import Mathlib.Data.List.Basic
import Mathlib.Tactic.Common

/-! # Texts cut at byte offsets

A text is a list of characters that is measured, searched and cut by the bytes of its UTF-8
form.  A cut inside a character has no result.
-/

namespace Nyanpasu

abbrev Text := List Char

namespace Text

/-! ## Bytes -/

def bytes (text : Text) : List UInt8 := text.flatMap String.utf8EncodeChar

/-- The number of bytes. -/
def size : Text → Nat
  | [] => 0
  | c :: text => c.utf8Size + size text

def ofBytes? (bs : List UInt8) : Option Text := bs.toByteArray.utf8Decode?.map Array.toList

@[simp] theorem bytes_nil : bytes [] = [] := rfl

@[simp] theorem bytes_cons (c : Char) (text : Text) :
    bytes (c :: text) = String.utf8EncodeChar c ++ bytes text := rfl

@[simp] theorem bytes_append (a b : Text) : bytes (a ++ b) = bytes a ++ bytes b :=
  List.flatMap_append

@[simp] theorem size_nil : size [] = 0 := rfl

@[simp] theorem size_cons (c : Char) (text : Text) : size (c :: text) = c.utf8Size + size text := rfl

@[simp] theorem size_append (a b : Text) : size (a ++ b) = size a + size b := by
  induction a with
  | nil => simp
  | cons c a ih => simp only [List.cons_append, size_cons, ih]; omega

theorem length_bytes (text : Text) : (bytes text).length = size text := by
  induction text with
  | nil => rfl
  | cons c text ih => rw [bytes_cons, List.length_append, String.length_utf8EncodeChar, ih, size_cons]

theorem length_le_size (text : Text) : text.length ≤ size text := by
  induction text with
  | nil => exact Nat.le_refl _
  | cons c text ih =>
      have positive := c.utf8Size_pos
      simp only [List.length_cons, size_cons]
      omega

variable {text : Text}

theorem size_eq_zero : size text = 0 ↔ text = [] := by
  refine ⟨fun none => ?_, fun empty => by rw [empty, size_nil]⟩
  have bound := length_le_size text
  exact List.length_eq_zero_iff.mp (by omega)

theorem ofBytes?_bytes (text : Text) : ofBytes? (bytes text) = some text := by
  have decoded : (bytes text).toByteArray.utf8Decode? = some text.toArray :=
    List.utf8Decode?_utf8Encode
  rw [ofBytes?, decoded, Option.map_some]

/-- Different texts have different bytes. -/
theorem bytes_injective {text' : Text} (same : bytes text = bytes text') : text = text' := by
  have decoded := congrArg ofBytes? same
  rwa [ofBytes?_bytes, ofBytes?_bytes, Option.some.injEq] at decoded

variable {c : Char}

theorem encode_of_ascii (ascii : c.toNat < 0x80) :
    String.utf8EncodeChar c = [UInt8.ofNat c.toNat] := by
  have narrow : c.val.toNat ≤ 127 := Nat.le_of_lt_succ ascii
  rw [String.utf8EncodeChar]
  exact if_pos narrow

/-- No byte of a wider character is ASCII. -/
theorem encode_of_wide (wide : 0x80 ≤ c.toNat) : ∀ b ∈ String.utf8EncodeChar c, 0x80 ≤ b.toNat := by
  have notNarrow : ¬ c.val.toNat ≤ 127 := Nat.not_le.mpr wide
  intro b member
  rw [String.utf8EncodeChar] at member
  simp only [notNarrow, if_false] at member
  split at member
  · simp only [List.mem_cons, List.not_mem_nil, or_false] at member
    rcases member with rfl | rfl <;> simp only [UInt8.toNat_ofNat'] <;> omega
  · split at member
    · simp only [List.mem_cons, List.not_mem_nil, or_false] at member
      rcases member with rfl | rfl | rfl <;> simp only [UInt8.toNat_ofNat'] <;> omega
    · simp only [List.mem_cons, List.not_mem_nil, or_false] at member
      rcases member with rfl | rfl | rfl | rfl <;> simp only [UInt8.toNat_ofNat'] <;> omega

/-! ## Cuts -/

/-- The two sides of a byte offset, if it is a character boundary. -/
def split : Text → Nat → Option (Text × Text)
  | text, 0 => some ([], text)
  | [], _ + 1 => none
  | c :: text, n + 1 =>
      if c.utf8Size ≤ n + 1 then
        (split text (n + 1 - c.utf8Size)).map fun sides => (c :: sides.1, sides.2)
      else none

def isBoundary (text : Text) (n : Nat) : Bool := (split text n).isSome

/-- What is between two byte offsets, if both are character boundaries. -/
def range? (text : Text) (start stop : Nat) : Option Text := do
  let (upTo, _) ← split text stop
  let (_, found) ← split upTo start
  return found

theorem split_append (a b : Text) : split (a ++ b) (size a) = some (a, b) := by
  induction a with
  | nil => cases b <;> rfl
  | cons c a ih =>
      obtain ⟨n, width⟩ : ∃ n, c.utf8Size + size a = n + 1 :=
        Nat.exists_eq_succ_of_ne_zero (by have := c.utf8Size_pos; omega)
      have rest : n + 1 - c.utf8Size = size a := by omega
      rw [List.cons_append, size_cons, width, split, if_pos (by omega), rest, ih]
      rfl

theorem split_eq_some {a b : Text} {n : Nat} :
    split text n = some (a, b) ↔ text = a ++ b ∧ size a = n := by
  constructor
  · intro found
    induction text generalizing n a with
    | nil =>
        cases n with
        | zero => cases found; exact ⟨rfl, rfl⟩
        | succ n => exact absurd found (by simp [split])
    | cons c text ih =>
        cases n with
        | zero => cases found; exact ⟨rfl, rfl⟩
        | succ n =>
            rw [split] at found
            split at found
            · obtain ⟨⟨a', b'⟩, inner, same⟩ := Option.map_eq_some_iff.mp found
              cases same
              obtain ⟨rfl, measured⟩ := ih inner
              exact ⟨rfl, by simp only [size_cons] at measured ⊢; omega⟩
            · exact absurd found (by simp)
  · rintro ⟨rfl, rfl⟩
    exact split_append a b

theorem split_inside {a b : Text} {n : Nat} (start : size a < n) (stop : n < size a + c.utf8Size)
    : split (a ++ c :: b) n = none := by
  cases found : split (a ++ c :: b) n with
  | none => rfl
  | some sides =>
      obtain ⟨x, y⟩ := sides
      obtain ⟨same, rfl⟩ := split_eq_some.mp found
      rcases List.append_eq_append_iff.mp same with ⟨more, rfl, tail⟩ | ⟨more, rfl, -⟩
      · cases more with
        | nil =>
            simp only [List.append_nil] at start
            omega
        | cons d more =>
            rw [List.cons_append] at tail
            rw [← (List.cons.inj tail).1, size_append, size_cons] at stop
            omega
      · rw [size_append] at start
        omega

/-- The largest boundary at or below an offset. -/
def floorBoundary (text : Text) : Nat → Nat
  | 0 => 0
  | n + 1 => if isBoundary text (n + 1) then n + 1 else floorBoundary text n

theorem split_zero (text : Text) : split text 0 = some ([], text) := by cases text <;> rfl

/-- A cut at the largest boundary leaves out no character that would still fit. -/
theorem split_floorBoundary (text : Text) (n : Nat) :
    ∃ a b, split text (floorBoundary text n) = some (a, b) ∧ size a ≤ n ∧
      ∀ c b', b = c :: b' → n < size a + c.utf8Size := by
  induction n with
  | zero =>
      refine ⟨[], text, split_zero text, Nat.le_refl _, fun c b' _ => ?_⟩
      have positive := c.utf8Size_pos
      simp only [size_nil]
      omega
  | succ n ih =>
      rw [floorBoundary]
      split
      · next boundary =>
          obtain ⟨⟨a, b⟩, found⟩ := Option.isSome_iff_exists.mp boundary
          have measured := (split_eq_some.mp found).2
          refine ⟨a, b, found, Nat.le_of_eq measured, fun c b' _ => ?_⟩
          have positive := c.utf8Size_pos
          omega
      · next inside =>
          obtain ⟨a, b, found, fits, full⟩ := ih
          refine ⟨a, b, found, by omega, fun c b' same => ?_⟩
          have beyond := full c b' same
          -- the offset itself would be a boundary if the next character ended there
          have other : n + 1 ≠ size a + c.utf8Size := by
            intro ends
            apply inside
            have whole : text = (a ++ [c]) ++ b' := by
              rw [(split_eq_some.mp found).1, same, List.append_assoc, List.singleton_append]
            have cut := split_append (a ++ [c]) b'
            rw [← whole, size_append, size_cons, size_nil, Nat.add_zero, ← ends] at cut
            rw [isBoundary, cut, Option.isSome_some]
          omega

/-! ## Searches -/

/-- The offset of the first character that a test accepts. -/
def find? (p : Char → Bool) : Text → Option Nat
  | [] => none
  | c :: text => if p c then some 0 else (find? p text).map (c.utf8Size + ·)

/-- The offset of the last character that a test accepts. -/
def rfind? (p : Char → Bool) : Text → Option Nat
  | [] => none
  | c :: text =>
      match rfind? p text with
      | some n => some (c.utf8Size + n)
      | none => if p c then some 0 else none

/-- Both sides of the first occurrence of a pattern. -/
def splitOnce (pattern : Text) : Text → Option (Text × Text)
  | [] => if pattern.isEmpty then some ([], []) else none
  | c :: text =>
      if pattern.isPrefixOf (c :: text) then some ([], (c :: text).drop pattern.length)
      else (splitOnce pattern text).map fun sides => (c :: sides.1, sides.2)

variable {p : Char → Bool}

theorem find?_eq_some {n : Nat} (found : find? p text = some n) :
    ∃ a c b, text = a ++ c :: b ∧ size a = n ∧ p c = true ∧ ∀ x ∈ a, p x = false := by
  induction text generalizing n with
  | nil => exact absurd found (by simp [find?])
  | cons c text ih =>
      rw [find?] at found
      split at found
      · next accepted =>
          cases found
          exact ⟨[], c, text, rfl, rfl, accepted, by simp⟩
      · next refused =>
          obtain ⟨m, inner, rfl⟩ := Option.map_eq_some_iff.mp found
          obtain ⟨a, d, b, rfl, rfl, accepted, before⟩ := ih inner
          refine ⟨c :: a, d, b, rfl, rfl, accepted, ?_⟩
          intro x member
          rcases List.mem_cons.mp member with rfl | member
          · exact eq_false_of_ne_true refused
          · exact before x member

theorem rfind?_eq_none (refused : ∀ x ∈ text, p x = false) : rfind? p text = none := by
  induction text with
  | nil => rfl
  | cons d text ih =>
      rw [rfind?, ih fun x member => refused x (List.mem_cons_of_mem _ member)]
      simp [refused d List.mem_cons_self]

theorem rfind?_append (a : Text) {b : Text} (accepted : p c = true) (after : ∀ x ∈ b, p x = false)
    : rfind? p (a ++ c :: b) = some (size a) := by
  induction a with
  | nil => simp [rfind?, rfind?_eq_none after, accepted]
  | cons d a ih => rw [List.cons_append, rfind?, ih, size_cons]

/-- A text is free of what a test accepts, or has a last such character. -/
theorem last_or_none (p : Char → Bool) (text : Text) :
    (∀ x ∈ text, p x = false) ∨
      ∃ a c b, text = a ++ c :: b ∧ p c = true ∧ ∀ x ∈ b, p x = false := by
  induction text with
  | nil => exact .inl (by simp)
  | cons d text ih =>
      rcases ih with refused | ⟨a, c, b, rfl, accepted, after⟩
      · cases accepted : p d with
        | false =>
            refine .inl fun x member => ?_
            rcases List.mem_cons.mp member with rfl | member
            · exact accepted
            · exact refused x member
        | true => exact .inr ⟨[], d, text, rfl, accepted, refused⟩
      · exact .inr ⟨d :: a, c, b, rfl, accepted, after⟩

end Text

end Nyanpasu
