import Nyanpasu.Console.Parser

/-! # Slices of console lines

Which scans return.  Every slice is shown to be at a character boundary, but for one: the
anchor of a clash-rs header starts one byte after the last white space before it, which is
inside that character when it is a wide one.
-/

namespace Nyanpasu

namespace Console

open Logging (isWhitespace)

variable {bs : List UInt8}

variable {a b : Text}

namespace Scan

variable {α β : Type} {x : Scan α} {f : α → Scan β}

/-- The scan returns, with or without a result. -/
def Returns (x : Scan α) : Prop := ∃ r, x.run = .ok r

theorem run_bind_some {a : α} (found : x.run = .ok (some a)) :
    (x >>= f).run = (f a).run := by
  rw [OptionT.run_bind, found]
  rfl

theorem run_bind_none (missing : x.run = .ok none) :
    (x >>= f).run = .ok none := by
  rw [OptionT.run_bind, missing]
  rfl

theorem run_bind_error {panic : Panic} (failed : x.run = .error panic) :
    (x >>= f).run = .error panic := by
  rw [OptionT.run_bind, failed]
  rfl

theorem returns_pure (a : α) : Returns (pure a : Scan α) := ⟨some a, rfl⟩

theorem returns_failure : Returns (failure : Scan α) := ⟨none, rfl⟩

theorem returns_of (found : Option α) : Returns (of found) := ⟨found, rfl⟩

theorem run_of (found : Option α) : (of found).run = .ok found := rfl

theorem run_bind_eq_some {b : β} (found : (x >>= f).run = .ok (some b)) :
    ∃ a, x.run = .ok (some a) ∧ (f a).run = .ok (some b) := by
  cases run : x.run with
  | error panic =>
      exact absurd ((run_bind_error run).symm.trans found) (by simp)
  | ok r =>
      cases r with
      | none => exact absurd ((run_bind_none run).symm.trans found) (by simp)
      | some a => exact ⟨a, rfl, (run_bind_some run).symm.trans found⟩

theorem eq_true_of_check {holds : Bool} {u : Unit} (passed : (check holds).run = .ok (some u)) :
    holds = true := by
  cases holds with
  | true => rfl
  | false => exact absurd passed (by simp [check, of, require])

theorem returns_bind (first : Returns x)
    (next : ∀ a, x.run = .ok (some a) → Returns (f a)) : Returns (x >>= f) := by
  obtain ⟨_ | a, run⟩ := first
  · exact ⟨none, run_bind_none run⟩
  · obtain ⟨r, run'⟩ := next a run
    exact ⟨r, (run_bind_some run).trans run'⟩

theorem Returns.first (returns : Returns (x >>= f)) : Returns x := by
  cases run : x.run with
  | ok r => exact ⟨r, run⟩
  | error panic =>
      obtain ⟨r, all⟩ := returns
      exact absurd ((run_bind_error run).symm.trans all) (by simp)

theorem run_sliceTo : (sliceTo (a ++ b) (Text.size a)).run = .ok (some a) := by
  rw [sliceTo, Text.split_append]
  rfl

theorem run_sliceFrom : (sliceFrom (a ++ b) (Text.size a)).run = .ok (some b) := by
  rw [sliceFrom, Text.split_append]
  rfl

theorem run_sliceBytes {start stop : Nat} (inside : stop ≤ bs.length) :
    (sliceBytes bs start stop).run = .ok (some ((bs.take stop).drop start)) := by
  rw [sliceBytes, if_pos inside]
  rfl

end Scan

open Scan

/-! ## Escape sequences -/

/-- The characters outside control sequences. -/
def stripChars : Bool → Text → Text
  | _, [] => []
  | true, c :: text => stripChars (!(0x40 ≤ c.toNat && c.toNat ≤ 0x7E)) text
  | false, c :: text =>
      if c.toNat ≠ 0x1B then c :: stripChars false text
      else match text with
        | [] => []
        | d :: more => if d = '[' then stripChars true more else stripChars false (d :: more)

/-- A line without its control sequences. -/
def stripped (line : Text) : Text := stripChars false line

theorem stripBytes_open {b : UInt8} (rest : List UInt8) (high : 0x80 ≤ b.toNat) :
    stripBytes true (b :: rest) = stripBytes true rest := by
  have notFinal : ¬ b ≤ 0x7E := by
    intro small
    have := UInt8.le_iff_toNat_le.mp small
    have : (0x7E : UInt8).toNat = 0x7E := rfl
    omega
  rw [stripBytes]
  simp [notFinal]

theorem stripBytes_closed {b : UInt8} (rest : List UInt8) (plain : b ≠ 0x1B) :
    stripBytes false (b :: rest) = b :: stripBytes false rest := by
  conv_lhs => unfold stripBytes
  exact if_pos plain

theorem stripBytes_wide (rest : List UInt8) (high : ∀ b ∈ bs, 0x80 ≤ b.toNat) :
    stripBytes true (bs ++ rest) = stripBytes true rest ∧
      stripBytes false (bs ++ rest) = bs ++ stripBytes false rest := by
  induction bs with
  | nil => exact ⟨rfl, rfl⟩
  | cons b bs ih =>
      obtain ⟨opened, closed⟩ := ih fun x member => high x (List.mem_cons_of_mem _ member)
      have wide := high b List.mem_cons_self
      have plain : b ≠ 0x1B := by
        rintro rfl
        exact absurd wide (by decide)
      exact ⟨(stripBytes_open _ wide).trans opened,
        (stripBytes_closed _ plain).trans (congrArg (b :: ·) closed)⟩

theorem stripBytes_escape (more : List UInt8) :
    stripBytes false (0x1B :: 0x5B :: more) = stripBytes true more := by
  conv_lhs => unfold stripBytes
  simp

theorem stripBytes_bare {c : UInt8} (more : List UInt8) (other : c ≠ 0x5B) :
    stripBytes false (0x1B :: c :: more) = stripBytes false (c :: more) := by
  conv_lhs => unfold stripBytes
  simp [other]

variable {c : Char}

theorem toNat_asciiByte (ascii : c.toNat < 0x80) : (UInt8.ofNat c.toNat).toNat = c.toNat := by
  rw [UInt8.toNat_ofNat']
  omega

theorem asciiByte_eq_iff (ascii : c.toNat < 0x80) (b : UInt8) :
    UInt8.ofNat c.toNat = b ↔ c.toNat = b.toNat := by
  rw [← UInt8.toNat_inj, toNat_asciiByte ascii]

theorem encode_ne_bracket {d : Char} (other : d ≠ '[') :
    ∃ e es, String.utf8EncodeChar d = e :: es ∧ e ≠ 0x5B := by
  rcases Nat.lt_or_ge d.toNat 0x80 with ascii | wide
  · refine ⟨_, [], Text.encode_of_ascii ascii, fun bracket => other ?_⟩
    have code := (asciiByte_eq_iff ascii 0x5B).mp bracket
    exact Char.toNat_inj.mp code
  · obtain ⟨e, es, encoded⟩ := List.exists_cons_of_ne_nil (String.utf8EncodeChar_ne_nil (c := d))
    refine ⟨e, es, encoded, ?_⟩
    rintro rfl
    have high := Text.encode_of_wide wide 0x5B (encoded ▸ List.mem_cons_self)
    exact absurd high (by decide)

/-- Dropping control sequences byte by byte drops whole characters. -/
theorem stripBytes_bytes (mode : Bool) (text : Text) :
    stripBytes mode (Text.bytes text) = Text.bytes (stripChars mode text) := by
  induction mode, text using stripChars.induct with
  | case1 mode => cases mode <;> rfl
  | case2 c text ih =>
      rw [Text.bytes_cons, stripChars, ← ih]
      rcases Nat.lt_or_ge c.toNat 0x80 with ascii | wide
      · have low : (0x40 ≤ UInt8.ofNat c.toNat) ↔ 0x40 ≤ c.toNat := by
          rw [UInt8.le_iff_toNat_le, toNat_asciiByte ascii]
          rfl
        have high : (UInt8.ofNat c.toNat ≤ 0x7E) ↔ c.toNat ≤ 0x7E := by
          rw [UInt8.le_iff_toNat_le, toNat_asciiByte ascii]
          rfl
        rw [Text.encode_of_ascii ascii, List.singleton_append, stripBytes]
        simp only [low, high]
      · have notFinal : ¬ c.toNat ≤ 0x7E := by omega
        rw [(stripBytes_wide _ (Text.encode_of_wide wide)).1]
        simp [notFinal]
  | case3 c text plain ih =>
      conv_rhs => unfold stripChars
      rw [if_pos plain, Text.bytes_cons, Text.bytes_cons, ← ih]
      rcases Nat.lt_or_ge c.toNat 0x80 with ascii | wide
      · rw [Text.encode_of_ascii ascii, List.singleton_append, List.singleton_append]
        exact stripBytes_closed _ ((asciiByte_eq_iff ascii 0x1B).not.mpr plain)
      · exact (stripBytes_wide _ (Text.encode_of_wide wide)).2
  | case4 c escape =>
      have ascii : c.toNat < 0x80 := by omega
      have byte := (asciiByte_eq_iff ascii 0x1B).mpr (by simpa using escape)
      rw [Text.bytes_cons, Text.encode_of_ascii ascii, byte]
      unfold stripChars
      rw [if_neg escape]
      rfl
  | case5 c escape more ih =>
      have ascii : c.toNat < 0x80 := by omega
      have byte := (asciiByte_eq_iff ascii 0x1B).mpr (by simpa using escape)
      conv_rhs => unfold stripChars
      simp only [escape, if_false, if_true]
      rw [← ih, Text.bytes_cons, Text.encode_of_ascii ascii, byte, Text.bytes_cons]
      exact stripBytes_escape _
  | case6 c escape d more other ih =>
      have ascii : c.toNat < 0x80 := by omega
      have byte := (asciiByte_eq_iff ascii 0x1B).mpr (by simpa using escape)
      conv_rhs => unfold stripChars
      simp only [escape, other, if_false]
      obtain ⟨e, es, encoded, notBracket⟩ := encode_ne_bracket other
      rw [← ih, Text.bytes_cons, Text.encode_of_ascii ascii, byte, Text.bytes_cons, encoded]
      exact stripBytes_bare _ notBracket

variable {text : Text}

theorem stripChars_of_no_escape (none : ∀ c ∈ text, c.toNat ≠ 0x1B) :
    stripChars false text = text := by
  induction text with
  | nil => rfl
  | cons c text ih =>
      unfold stripChars
      rw [if_pos (none c List.mem_cons_self),
        ih fun d member => none d (List.mem_cons_of_mem _ member)]

theorem escape_mem_bytes (member : c ∈ text) (escape : c.toNat = 0x1B) :
    (0x1B : UInt8) ∈ Text.bytes text := by
  have ascii : c.toNat < 0x80 := by omega
  refine List.mem_flatMap.mpr ⟨c, member, ?_⟩
  rw [Text.encode_of_ascii ascii, (asciiByte_eq_iff ascii 0x1B).mpr escape]
  exact List.mem_cons_self

/-- `strip_ansi` always returns: what it leaves is UTF-8. -/
theorem stripAnsi_eq (line : Text) : stripAnsi line = .ok (stripped line) := by
  unfold stripAnsi
  split
  · next plain =>
      have noEscape : ∀ c ∈ line, c.toNat ≠ 0x1B := by
        intro c member escape
        have contained := List.contains_iff_mem.mpr (escape_mem_bytes member escape)
        rw [contained] at plain
        exact absurd plain (by decide)
      rw [stripped, stripChars_of_no_escape noEscape]
  · rw [stripBytes_bytes, Text.ofBytes?_bytes, stripped]

/-! ## Tokens -/

theorem returns_takeToken (input : Text) : Returns (takeToken input) := by
  refine returns_bind (returns_of _) fun stop found => ?_
  rw [run_of, Except.ok.injEq] at found
  obtain ⟨a, c, b, same, rfl, -, -⟩ := Text.find?_eq_some found
  rw [same]
  refine returns_bind ⟨_, run_sliceTo⟩ fun _ _ => ?_
  exact returns_bind ⟨_, run_sliceFrom⟩ fun _ _ => returns_pure _

variable {Instant Date Time : Type}

theorem returns_parseMeow (cal : Calendar Instant Date Time) (line : Text) :
    Returns (parseMeow cal line) := by
  refine returns_bind (returns_takeToken line) fun _ _ => ?_
  refine returns_bind (returns_takeToken _) fun _ _ => ?_
  refine returns_bind (returns_of _) fun _ _ => ?_
  refine returns_bind (returns_of _) fun _ _ => ?_
  exact returns_bind (returns_of _) fun _ _ => returns_pure _

/-! ## Timestamps of clash-rs -/

theorem returns_allDigits {slots : List (Nat × Nat)} (inside : ∀ slot ∈ slots, slot.2 ≤ bs.length)
    : Returns (allDigits bs slots) := by
  induction slots with
  | nil => exact returns_pure _
  | cons slot slots ih =>
      refine returns_bind ⟨_, run_sliceBytes (inside slot List.mem_cons_self)⟩ fun _ _ => ?_
      split
      · exact ih fun other member => inside other (List.mem_cons_of_mem _ member)
      · exact returns_pure _

/-- The separators reach as far as the slots of the numbers do. -/
theorem length_of_separators
    (all : (separators.all fun (index, separator) => bs[index]? == some separator) = true) :
    18 ≤ bs.length := by
  have last := List.all_eq_true.mp all (17, 0x3A) (by decide)
  simp only [beq_iff_eq] at last
  obtain ⟨inside, -⟩ := List.getElem?_eq_some_iff.mp last
  omega

theorem returns_clashRsTimestampEnd (line : Text) : Returns (clashRsTimestampEnd line) := by
  refine returns_bind (returns_of _) fun _ passed => ?_
  have long := length_of_separators (eq_true_of_check passed)
  have slots : ∀ slot ∈ numbers, slot.2 ≤ (Text.bytes line).length := by
    intro slot member
    have bounded : ∀ slot ∈ numbers, slot.2 ≤ 17 := by decide
    have := bounded slot member
    omega
  refine returns_bind (returns_allDigits slots) fun _ _ => ?_
  refine returns_bind (returns_of _) fun _ _ => ?_
  refine returns_bind ⟨_, run_sliceBytes (Nat.le_refl _)⟩ fun _ _ => ?_
  exact returns_bind (returns_of _) fun _ _ => returns_pure _

theorem clashRsTimestampEnd_le {line : Text} {n : Nat}
    (found : (clashRsTimestampEnd line).run = .ok (some n)) : n ≤ 27 := by
  obtain ⟨_, -, found⟩ := run_bind_eq_some found
  obtain ⟨_, -, found⟩ := run_bind_eq_some found
  obtain ⟨_, -, found⟩ := run_bind_eq_some found
  obtain ⟨tail, -, found⟩ := run_bind_eq_some found
  obtain ⟨_, passed, found⟩ := run_bind_eq_some found
  have digits := of_decide_eq_true (eq_true_of_check passed)
  cases found
  omega

variable {digits : Text}

theorem digitsValue_lt (all : ∀ c ∈ digits, c.isDigit = true) (n : Nat) :
    digits.foldl (fun n c => 10 * n + (c.toNat - 48)) n < (n + 1) * 10 ^ digits.length := by
  induction digits generalizing n with
  | nil => simp
  | cons c digits ih =>
      have digit := all c List.mem_cons_self
      have bound : c.toNat ≤ 57 := by
        simp only [Char.isDigit, Bool.and_eq_true, decide_eq_true_eq] at digit
        exact digit.2
      have rest := ih (fun d member => all d (List.mem_cons_of_mem _ member)) (10 * n + (c.toNat - 48))
      have step : (10 * n + (c.toNat - 48) + 1) * 10 ^ digits.length ≤
          (10 * (n + 1)) * 10 ^ digits.length := Nat.mul_le_mul_right _ (by omega)
      rw [List.foldl_cons, List.length_cons, Nat.pow_succ']
      calc _ < _ := rest
        _ ≤ _ := step
        _ = _ := by rw [Nat.mul_assoc, Nat.mul_left_comm]

theorem length_withoutSign_le (text : Text) : (withoutSign text).length ≤ Text.size text := by
  have bound := Text.length_le_size text
  unfold withoutSign
  split
  · rw [List.length_tail]
    omega
  · exact bound

theorem parseU32_lt {n : Nat} (parsed : parseU32 text = some n) : n < 10 ^ Text.size text := by
  unfold parseU32 at parsed
  simp only at parsed
  split at parsed
  · exact absurd parsed (by simp)
  · next valid =>
      split at parsed
      · cases parsed
        rw [Bool.or_eq_true, not_or, Bool.not_eq_true, Bool.not_eq_true, Bool.not_eq_false'] at valid
        have value := digitsValue_lt (List.all_eq_true.mp valid.2) 0
        rw [Nat.zero_add, Nat.one_mul] at value
        exact Nat.lt_of_lt_of_le value (Nat.pow_le_pow_right (by decide) (length_withoutSign_le text))
      · exact absurd parsed (by simp)

/-- A subsecond has at most nine digits, so it scales to nanoseconds without overflow. -/
theorem returns_clashRsUnixMs (cal : Calendar Instant Date Time) {raw : Text} (observedAt : Instant)
    (short : Text.size raw ≤ 27) : Returns (clashRsUnixMs cal raw observedAt) := by
  refine returns_bind (returns_of _) fun sides found => ?_
  obtain ⟨same, measured⟩ := Text.split_eq_some.mp (Except.ok.inj found)
  have subsecond : Text.size sides.2 ≤ 9 := by
    rw [same, Text.size_append] at short
    omega
  refine returns_bind (returns_of _) fun value parsed => ?_
  have small := parseU32_lt (Except.ok.inj parsed)
  have exponent : (checkedSub 9 (Text.size sides.2)).run = .ok (some (9 - Text.size sides.2)) := by
    rw [checkedSub, if_pos subsecond]
    rfl
  have product : value * 10 ^ (9 - Text.size sides.2) < 2 ^ 32 := by
    calc value * 10 ^ (9 - Text.size sides.2)
        < 10 ^ Text.size sides.2 * 10 ^ (9 - Text.size sides.2) :=
          Nat.mul_lt_mul_of_pos_right small (Nat.pow_pos (by decide))
      _ = 10 ^ 9 := by rw [← Nat.pow_add, Nat.add_sub_cancel' subsecond]
      _ < 2 ^ 32 := by decide
  have nanos : (checkedMul value (10 ^ (9 - Text.size sides.2))).run =
      .ok (some (value * 10 ^ (9 - Text.size sides.2))) := by
    rw [checkedMul, if_pos product]
    rfl
  refine returns_bind ⟨_, exponent⟩ fun a found => ?_
  cases exponent.symm.trans found
  refine returns_bind ⟨_, nanos⟩ fun _ _ => ?_
  refine returns_bind (returns_of _) fun _ _ => ?_
  refine returns_bind (returns_of _) fun _ _ => ?_
  refine returns_bind (returns_of _) fun _ _ => ?_
  refine returns_bind (returns_of _) fun _ _ => ?_
  refine returns_bind (returns_of _) fun _ _ => ?_
  refine returns_bind (returns_of _) fun _ _ => ?_
  refine returns_bind (returns_of _) fun _ _ => ?_
  exact returns_bind (returns_of _) fun _ _ => returns_of _

theorem returns_clashRsHeader (line : Text) : Returns (clashRsHeader line) := by
  refine returns_bind (returns_clashRsTimestampEnd line) fun _ _ => ?_
  refine returns_bind (returns_of _) fun _ _ => ?_
  refine returns_bind (returns_takeToken _) fun _ _ => ?_
  exact returns_bind (returns_of _) fun _ _ => returns_pure _

variable {rest : Text}

theorem size_rawTime {line rawTime : Text} {level : LogLevel}
    (found : (clashRsHeader line).run = .ok (some (rawTime, level, rest))) :
    Text.size rawTime ≤ 27 := by
  obtain ⟨n, stop, found⟩ := run_bind_eq_some found
  obtain ⟨⟨raw, rest⟩, sides, found⟩ := run_bind_eq_some found
  obtain ⟨_, -, found⟩ := run_bind_eq_some found
  obtain ⟨_, -, found⟩ := run_bind_eq_some found
  cases found
  have measured := (Text.split_eq_some.mp (Except.ok.inj sides)).2
  have bound := clashRsTimestampEnd_le stop
  exact measured ▸ bound

/-! ## The source anchor of clash-rs -/

/-- A white space of one byte. -/
def isNarrowBlank (c : Char) : Bool := isWhitespace c && c.utf8Size == 1

/-- A text before `: ` that names a source line: something, a colon and a number. -/
def IsAnchor (head before : Text) : Prop :=
  ∃ digits, head = before ++ ':' :: digits ∧ digits ≠ [] ∧ (∀ c ∈ digits, c.isDigit = true) ∧
    before ≠ [] ∧ ∀ c ∈ before.getLast?, isNarrowBlank c = false

/-- What stands before each `: `. -/
def heads : Text → List Text
  | [] => []
  | c :: text =>
      let later := (heads text).map (c :: ·)
      if c = ':' ∧ text.head? = some ' ' then [] :: later else later

inductive FirstAnchor : List Text → Text → Prop where
  | here {head before : Text} {more : List Text} : IsAnchor head before →
      FirstAnchor (head :: more) before
  | later {head before : Text} {more : List Text} : (∀ before, ¬ IsAnchor head before) →
      FirstAnchor more before → FirstAnchor (head :: more) before

/-- The last white space is one of several bytes. -/
def EndsWide (before : Text) : Prop :=
  ∃ a w b, before = a ++ w :: b ∧ isWhitespace w = true ∧ 1 < w.utf8Size ∧
    ∀ c ∈ b, isWhitespace c = false

/-- The first anchor follows a wide white space. -/
def Splits (rest : Text) : Prop := ∃ before, FirstAnchor (heads rest) before ∧ EndsWide before

theorem matchIndices_eq (rest : Text) : matchIndices rest = (heads rest).map Text.size := by
  induction rest with
  | nil => rfl
  | cons c text ih =>
      have later : (matchIndices text).map (c.utf8Size + ·) =
          ((heads text).map (c :: ·)).map Text.size := by
        rw [ih, List.map_map, List.map_map]
        rfl
      unfold matchIndices heads
      simp only [later]
      split <;> rfl

variable {head : Text}

theorem mem_heads (member : head ∈ heads rest) :
    ∃ message, rest = head ++ ':' :: ' ' :: message := by
  induction rest generalizing head with
  | nil => exact absurd member (by simp [heads])
  | cons c text ih =>
      have later : head ∈ (heads text).map (c :: ·) →
          ∃ message, c :: text = head ++ ':' :: ' ' :: message := by
        intro member
        obtain ⟨inner, found, rfl⟩ := List.mem_map.mp member
        obtain ⟨message, rfl⟩ := ih found
        exact ⟨message, rfl⟩
      unfold heads at member
      simp only at member
      split at member
      · next colon =>
          rcases List.mem_cons.mp member with rfl | member
          · obtain ⟨rfl, blank⟩ := colon
            cases text with
            | nil => exact absurd blank (by simp)
            | cons d text =>
                cases blank
                exact ⟨text, rfl⟩
          · exact later member
      · exact later member

theorem all_isAsciiDigit (digits : Text) :
    (Text.bytes digits).all isAsciiDigit = true ↔ ∀ c ∈ digits, c.isDigit = true := by
  have one : ∀ c : Char, (String.utf8EncodeChar c).all isAsciiDigit = true ↔ c.isDigit = true := by
    intro c
    have code : c.isDigit = true ↔ 48 ≤ c.toNat ∧ c.toNat ≤ 57 := by
      simp only [Char.isDigit, Bool.and_eq_true, decide_eq_true_eq]
      rfl
    rcases Nat.lt_or_ge c.toNat 0x80 with ascii | wide
    · rw [Text.encode_of_ascii ascii, code]
      simp only [List.all_cons, List.all_nil, isAsciiDigit, Bool.and_true, Bool.and_eq_true,
        decide_eq_true_eq, UInt8.le_iff_toNat_le, toNat_asciiByte ascii]
      rfl
    · rw [code]
      constructor
      · intro all
        obtain ⟨e, es, encoded⟩ :=
          List.exists_cons_of_ne_nil (String.utf8EncodeChar_ne_nil (c := c))
        have member : e ∈ String.utf8EncodeChar c := encoded ▸ List.mem_cons_self
        have high := Text.encode_of_wide wide e member
        have digit := List.all_eq_true.mp all e member
        simp only [isAsciiDigit, Bool.and_eq_true, decide_eq_true_eq,
          UInt8.le_iff_toNat_le] at digit
        have : (0x39 : UInt8).toNat = 0x39 := rfl
        omega
      · omega
  induction digits with
  | nil => simp
  | cons c digits ih =>
      rw [Text.bytes_cons, List.all_append, Bool.and_eq_true, one, List.forall_mem_cons]
      exact and_congr_right fun _ => ih

/-- Where the text of an anchor is taken to start. -/
def startOf (before : Text) : Nat := ((Text.rfind? isWhitespace before).map (· + 1)).getD 0

variable {before : Text}

theorem startOf_none (none : ∀ c ∈ before, isWhitespace c = false) : startOf before = 0 := by
  rw [startOf, Text.rfind?_eq_none none]
  rfl

theorem startOf_append {w : Char} (blank : isWhitespace w = true)
    (after : ∀ c ∈ b, isWhitespace c = false) : startOf (a ++ w :: b) = Text.size a + 1 := by
  rw [startOf, Text.rfind?_append a blank after]
  rfl

theorem startOf_eq_size_iff (before : Text) :
    startOf before = Text.size before ↔
      before = [] ∨ ∃ c ∈ before.getLast?, isNarrowBlank c = true := by
  rcases Text.last_or_none isWhitespace before with none | ⟨a, w, b, rfl, blank, after⟩
  · rw [startOf_none none, eq_comm, Text.size_eq_zero]
    refine ⟨.inl, fun found => found.resolve_right ?_⟩
    rintro ⟨c, last, narrow⟩
    have plain := none c (List.mem_of_getLast? last)
    simp [isNarrowBlank, plain] at narrow
  · rw [startOf_append blank after]
    have positive := w.utf8Size_pos
    simp only [Text.size_append, Text.size_cons]
    cases b with
    | nil =>
        simp only [Text.size_nil, List.append_eq_nil_iff, List.cons_ne_nil, and_false, false_or,
          List.getLast?_concat, Option.mem_def, Option.some.injEq, exists_eq_left', isNarrowBlank,
          blank, Bool.true_and, beq_iff_eq]
        omega
    | cons d b =>
        have wide := d.utf8Size_pos
        refine ⟨fun same => ?_, ?_⟩
        · rw [Text.size_cons] at same
          omega
        · rintro (empty | ⟨c, last, narrow⟩)
          · simp at empty
          · rw [List.getLast?_append, List.getLast?_cons_cons] at last
            have member : c ∈ d :: b := by
              rw [List.getLast?_eq_some_getLast (List.cons_ne_nil d b)] at last
              cases last
              exact List.getLast_mem _
            simp [isNarrowBlank, after c member] at narrow

theorem no_colon (all : ∀ c ∈ digits, c.isDigit = true) : ∀ c ∈ digits, (c == ':') = false := by
  intro c member
  refine beq_eq_false_iff_ne.mpr ?_
  rintro rfl
  exact absurd (all ':' member) (by decide)

/-- The parts of an anchor are those at its last colon. -/
theorem IsAnchor.parts {x : Text} (noColon : ∀ c ∈ digits, (c == ':') = false)
    (anchor : IsAnchor (before ++ ':' :: digits) x) :
    x = before ∧ digits ≠ [] ∧ (∀ c ∈ digits, c.isDigit = true) ∧
      startOf before ≠ Text.size before := by
  obtain ⟨digits', same, nonempty, all, named, last⟩ := anchor
  have here := Text.rfind?_append (p := (· == ':')) before (c := ':') rfl noColon
  have there := Text.rfind?_append (p := (· == ':')) x (c := ':') rfl (no_colon all)
  rw [same, there, Option.some.injEq] at here
  have left := Text.split_append before (':' :: digits)
  have right := Text.split_append x (':' :: digits')
  rw [← here, same, right] at left
  obtain ⟨rfl, rest⟩ := Prod.mk.inj (Option.some.inj left)
  obtain ⟨-, rfl⟩ := List.cons.inj rest
  refine ⟨rfl, nonempty, all, ?_⟩
  rw [Ne, startOf_eq_size_iff]
  rintro (empty | ⟨c, found, narrow⟩)
  · exact named empty
  · rw [last c found] at narrow
    exact absurd narrow (by decide)

theorem isAnchor_of (nonempty : digits ≠ []) (all : ∀ c ∈ digits, c.isDigit = true)
    (starts : startOf before ≠ Text.size before) : IsAnchor (before ++ ':' :: digits) before := by
  rw [Ne, startOf_eq_size_iff, not_or] at starts
  refine ⟨digits, rfl, nonempty, all, starts.1, fun c found => ?_⟩
  exact eq_false_of_ne_true fun narrow => starts.2 ⟨c, found, narrow⟩

/-- One turn of the loop over the separators, on a head with a colon. -/
theorem clashRsSourceAt_colon (message : Text) (more : List Nat)
    (noColon : ∀ c ∈ digits, (c == ':') = false) :
    (clashRsSourceAt ((before ++ ':' :: digits) ++ ':' :: ' ' :: message)
        (Text.size (before ++ ':' :: digits) :: more)).run =
      (if digits.isEmpty || !(Text.bytes digits).all isAsciiDigit then
        clashRsSourceAt ((before ++ ':' :: digits) ++ ':' :: ' ' :: message) more
      else if startOf before = Text.size before then
        clashRsSourceAt ((before ++ ':' :: digits) ++ ':' :: ' ' :: message) more
      else do
        let target ← sliceFrom (before ++ ':' :: digits) (startOf before)
        return (target, message)).run := by
  have colon := Text.rfind?_append (p := (· == ':')) before (c := ':') rfl noColon
  have digitsSlice : (sliceFrom (before ++ ':' :: digits) (Text.size before + 1)).run =
      .ok (some digits) := by
    have cut := run_sliceFrom (a := before ++ [':']) (b := digits)
    rwa [Text.size_append, List.append_assoc, List.singleton_append] at cut
  have messageSlice : (sliceFrom ((before ++ ':' :: digits) ++ ':' :: ' ' :: message)
      (Text.size (before ++ ':' :: digits) + 2)).run = .ok (some message) := by
    have cut := run_sliceFrom (a := (before ++ ':' :: digits) ++ [':', ' ']) (b := message)
    rwa [Text.size_append, List.append_assoc] at cut
  rw [clashRsSourceAt, run_bind_some run_sliceTo]
  simp only [colon]
  rw [run_bind_some digitsSlice]
  split
  · rfl
  · rw [run_bind_some run_sliceTo, ← startOf]
    split
    · rfl
    · cases target : (sliceFrom (before ++ ':' :: digits) (startOf before)).run with
      | error panic => rw [run_bind_error target, run_bind_error target]
      | ok found =>
          cases found with
          | none => rw [run_bind_none target, run_bind_none target]
          | some text => rw [run_bind_some target, run_bind_some messageSlice, run_bind_some target]

theorem returns_of_run_eq {α : Type} {x y : Scan α} (same : x.run = y.run) :
    Returns x ↔ Returns y := by
  rw [Returns, Returns, same]

/-- A scan of a head that is no anchor goes on to the next. -/
theorem clashRsSourceAt_skip {message : Text} (more : List Nat)
    (split : rest = head ++ ':' :: ' ' :: message) (other : ∀ before, ¬ IsAnchor head before) :
    (clashRsSourceAt rest (Text.size head :: more)).run = (clashRsSourceAt rest more).run := by
  subst split
  rcases Text.last_or_none (· == ':') head with none | ⟨before, c, digits, rfl, colon, noColon⟩
  · rw [clashRsSourceAt, run_bind_some run_sliceTo]
    simp only [Text.rfind?_eq_none none]
  · obtain rfl : c = ':' := by simpa using colon
    rw [clashRsSourceAt_colon message more noColon]
    split
    · rfl
    · next valid =>
        rw [Bool.or_eq_true, not_or, Bool.not_eq_true, Bool.not_eq_true, Bool.not_eq_false',
          all_isAsciiDigit] at valid
        have nonempty : digits ≠ [] := by
          rintro rfl
          exact absurd valid.1 (by decide)
        split
        · rfl
        · next starts => exact absurd (isAnchor_of nonempty valid.2 starts) (other before)

theorem returns_sliceFrom_iff (text : Text) (n : Nat) :
    Returns (sliceFrom text n) ↔ (Text.split text n).isSome = true := by
  unfold sliceFrom
  cases Text.split text n with
  | none => simp [orPanic, Returns]
  | some sides => exact ⟨fun _ => rfl, fun _ => ⟨_, rfl⟩⟩

/-- The anchor starts inside a character exactly when the white space before it is wide. -/
theorem split_startOf_iff (before tail : Text) :
    (Text.split (before ++ tail) (startOf before)).isSome = true ↔ ¬ EndsWide before := by
  rcases Text.last_or_none isWhitespace before with none | ⟨a, w, b, rfl, blank, after⟩
  · have narrow : ¬ EndsWide before := by
      rintro ⟨a, w, b, rfl, blank, -, -⟩
      rw [none w (by simp)] at blank
      exact absurd blank (by decide)
    simp [startOf_none none, Text.split_zero, narrow]
  · rw [startOf_append blank after, List.append_assoc, List.cons_append]
    have positive := w.utf8Size_pos
    rcases Nat.lt_or_ge 1 w.utf8Size with wide | narrow
    · rw [Text.split_inside (Nat.lt_succ_self _) (by omega)]
      simpa using ⟨a, w, b, rfl, blank, wide, after⟩
    · have cut := Text.split_append (a ++ [w]) (b ++ tail)
      rw [Text.size_append, Text.size_cons, Text.size_nil, Nat.add_zero, List.append_assoc,
        List.singleton_append, show w.utf8Size = 1 by omega] at cut
      rw [cut]
      simp only [Option.isSome_some, true_iff]
      rintro ⟨a', w', b', same, blank', wide, after'⟩
      -- the last white space is the one that was found
      have here := Text.rfind?_append (p := isWhitespace) a blank after
      have there := Text.rfind?_append (p := isWhitespace) a' blank' after'
      rw [same, there, Option.some.injEq] at here
      have left := Text.split_append a (w :: b)
      rw [← here, same, Text.split_append] at left
      obtain ⟨-, rest⟩ := Prod.mk.inj (Option.some.inj left)
      obtain ⟨rfl, -⟩ := List.cons.inj rest
      omega

/-- A scan of an anchor ends there. -/
theorem clashRsSourceAt_anchor {message : Text} (more : List Nat)
    (split : rest = head ++ ':' :: ' ' :: message) (anchor : IsAnchor head before) :
    Returns (clashRsSourceAt rest (Text.size head :: more)) ↔ ¬ EndsWide before := by
  obtain ⟨digits, rfl, nonempty, all, -, -⟩ := id anchor
  have noColon := no_colon all
  obtain ⟨-, -, -, starts⟩ := anchor.parts noColon
  subst split
  have digit : (digits.isEmpty || !(Text.bytes digits).all isAsciiDigit) = false := by
    rw [(all_isAsciiDigit digits).mpr all]
    simpa using nonempty
  rw [returns_of_run_eq (clashRsSourceAt_colon message more noColon), digit,
    ← split_startOf_iff before (':' :: digits), ← returns_sliceFrom_iff]
  simp only [Bool.false_eq_true, if_false, starts]
  exact ⟨Returns.first, fun returns => returns_bind returns fun _ _ => returns_pure _⟩

theorem returns_clashRsSourceAt (rest : Text) {found : List Text}
    (split : ∀ head ∈ found, ∃ message, rest = head ++ ':' :: ' ' :: message) :
    Returns (clashRsSourceAt rest (found.map Text.size)) ↔
      ¬ ∃ before, FirstAnchor found before ∧ EndsWide before := by
  induction found with
  | nil =>
      refine ⟨fun _ => ?_, fun _ => returns_failure⟩
      rintro ⟨before, first, -⟩
      cases first
  | cons head more ih =>
      obtain ⟨message, same⟩ := split head List.mem_cons_self
      rw [List.map_cons]
      by_cases anchored : ∃ before, IsAnchor head before
      · obtain ⟨before, anchor⟩ := anchored
        rw [clashRsSourceAt_anchor (more.map Text.size) same anchor]
        refine not_congr ⟨fun wide => ⟨before, .here anchor, wide⟩, ?_⟩
        rintro ⟨other, first, wide⟩
        cases first with
        | here anchor' =>
            obtain ⟨digits, rfl, -, all, -, -⟩ := anchor
            rwa [← (anchor'.parts (no_colon all)).1]
        | later none _ => exact absurd anchor (none before)
      · have none : ∀ before, ¬ IsAnchor head before := fun before anchor => anchored ⟨before, anchor⟩
        rw [returns_of_run_eq (clashRsSourceAt_skip (more.map Text.size) same none),
          ih fun other member => split other (List.mem_cons_of_mem _ member)]
        refine not_congr (exists_congr fun before => and_congr_left fun _ => ⟨.later none, ?_⟩)
        intro first
        cases first with
        | here anchor => exact absurd anchor (none before)
        | later _ first => exact first

/-- The anchor of a clash-rs line is found, or missing, without a panic unless it splits. -/
theorem returns_clashRsSource (rest : Text) : Returns (clashRsSource rest) ↔ ¬ Splits rest := by
  rw [clashRsSource, matchIndices_eq]
  exact returns_clashRsSourceAt rest fun head => mem_heads

/-- A clash-rs line whose header is in order and whose anchor splits a character. -/
def SplitsLine (line : Text) : Prop :=
  ∃ rawTime level rest, (clashRsHeader line).run = .ok (some (rawTime, level, rest)) ∧ Splits rest

theorem returns_parseClashRs (cal : Calendar Instant Date Time) (line : Text)
    (observedAt : Instant) : Returns (parseClashRs cal line observedAt) ↔ ¬ SplitsLine line := by
  obtain ⟨header, run⟩ := returns_clashRsHeader line
  cases header with
  | none =>
      refine ⟨fun _ => ?_, fun _ => ⟨none, run_bind_none run⟩⟩
      rintro ⟨_, _, _, found, -⟩
      exact absurd (run.symm.trans found) (by simp)
  | some header =>
      obtain ⟨rawTime, level, rest⟩ := header
      have splits : SplitsLine line ↔ Splits rest := by
        refine ⟨?_, fun splits => ⟨rawTime, level, rest, run, splits⟩⟩
        rintro ⟨_, _, _, found, splits⟩
        cases run.symm.trans found
        exact splits
      rw [splits, ← returns_clashRsSource, parseClashRs, returns_of_run_eq (run_bind_some run)]
      refine ⟨Returns.first, fun returns => returns_bind returns fun _ _ => ?_⟩
      obtain ⟨unixMs, dated⟩ := returns_clashRsUnixMs cal observedAt (size_rawTime run)
      rw [dated]
      exact returns_bind ⟨_, rfl⟩ fun _ _ => returns_pure _

end Console

end Nyanpasu
