import Nyanpasu.Console.Scan

/-! # logfmt is read back

Pairs that are written with every value quoted come out of the scanner as they went in.
-/

namespace Nyanpasu.Console

/-- A character of a quoted value. -/
def escape : Char → Text
  | '"' => ['\\', '"']
  | '\\' => ['\\', '\\']
  | '\n' => ['\\', 'n']
  | '\r' => ['\\', 'r']
  | '\t' => ['\\', 't']
  | c => [c]

def renderPair (pair : Text × Text) : Text :=
  pair.1 ++ '=' :: '"' :: (pair.2.flatMap escape ++ ['"'])

/-- `key="value"` pairs with single spaces between them. -/
def renderLogfmt (pairs : List (Text × Text)) : Text :=
  [' '].intercalate (pairs.map renderPair)

/-- A key that needs no quoting. -/
def PlainKey (key : Text) : Prop :=
  key ≠ [] ∧ ∀ c ∈ key, c ≠ '=' ∧ c ∉ [' ', '\t', '\n', '\x0c', '\r']

theorem unquote_plain {bs : List UInt8} (plain : ∀ b ∈ bs, b ≠ 0x22 ∧ b ≠ 0x5C)
    (rest : List UInt8) :
    unquote (bs ++ rest) = (unquote rest).map fun read => (bs ++ read.1, read.2) := by
  induction bs with
  | nil => simp
  | cons b bs ih =>
      obtain ⟨quote, slash⟩ := plain b (by simp)
      rw [List.cons_append, unquote.eq_def]
      simp only [quote, slash, if_false, ih fun b member => plain b (by simp [member])]
      cases unquote rest <;> rfl

theorem unquote_slash (escaped : UInt8) (rest : List UInt8) :
    unquote (0x5C :: escaped :: rest) =
      (unquote rest).map fun read => (escapedBytes escaped ++ read.1, read.2) := by
  rw [unquote.eq_def]
  simp

/-- A byte below 128 is a character of its own. -/
theorem char_of_byte {c : Char} {b : UInt8} (member : b ∈ String.utf8EncodeChar c)
    (ascii : b.toNat < 0x80) : c = Char.ofNat b.toNat := by
  by_cases narrow : c.toNat < 0x80
  · rw [Text.encode_of_ascii narrow, List.mem_singleton] at member
    rw [member, UInt8.toNat_ofNat', Nat.mod_eq_of_lt (by omega), Char.ofNat_toNat]
  · have wide := Text.encode_of_wide (Nat.le_of_not_lt narrow) b member
    omega

theorem unquote_escape (c : Char) (rest : List UInt8) :
    unquote (Text.bytes (escape c) ++ rest) =
      (unquote rest).map fun read => (Text.bytes [c] ++ read.1, read.2) := by
  unfold escape
  split
  case h_6 quote slash _ _ _ =>
    refine unquote_plain (fun b member => ?_) rest
    rw [Text.bytes_cons, Text.bytes_nil, List.append_nil] at member
    constructor
    · rintro rfl
      exact quote (char_of_byte member (by decide))
    · rintro rfl
      exact slash (char_of_byte member (by decide))
  case h_1 => exact unquote_slash 0x22 rest
  case h_2 => exact unquote_slash 0x5C rest
  case h_3 => exact unquote_slash 0x6E rest
  case h_4 => exact unquote_slash 0x72 rest
  case h_5 => exact unquote_slash 0x74 rest

theorem unquote_value (value : Text) (rest : List UInt8) :
    unquote (Text.bytes (value.flatMap escape) ++ 0x22 :: rest) =
      some (Text.bytes value, rest) := by
  induction value with
  | nil =>
      rw [List.flatMap_nil, Text.bytes_nil, List.nil_append, unquote.eq_def]
      rfl
  | cons c value ih =>
      rw [List.flatMap_cons, Text.bytes_append, List.append_assoc, unquote_escape, ih]
      simp

theorem PlainKey.bytes {key : Text} (plain : PlainKey key) :
    ∀ b ∈ Text.bytes key, b ≠ 0x3D ∧ isAsciiWhitespace b = false := by
  intro b member
  obtain ⟨c, inside, encoded⟩ := List.mem_flatMap.mp member
  obtain ⟨equals, white⟩ := plain.2 c inside
  have other (d : UInt8) (ascii : d.toNat < 0x80) (differs : c ≠ Char.ofNat d.toNat) : b ≠ d := by
    rintro rfl
    exact differs (char_of_byte encoded ascii)
  simp only [List.mem_cons, List.not_mem_nil, or_false, not_or] at white
  refine ⟨other 0x3D (by decide) equals, ?_⟩
  simp only [isAsciiWhitespace, Bool.or_eq_false_iff, beq_eq_false_iff_ne]
  exact ⟨⟨⟨⟨other _ (by decide) white.1, other _ (by decide) white.2.1⟩,
    other _ (by decide) white.2.2.1⟩, other _ (by decide) white.2.2.2.1⟩,
    other _ (by decide) white.2.2.2.2⟩

theorem range?_middle (a b c : Text) :
    Text.range? (a ++ (b ++ c)) (Text.size a) (Text.size a + Text.size b) = some b := by
  have upTo : Text.split (a ++ (b ++ c)) (Text.size a + Text.size b) = some (a ++ b, c) := by
    rw [← List.append_assoc, ← Text.size_append]
    exact Text.split_append _ _
  simp [Text.range?, upTo, Text.split_append]

/-- What may follow a pair: nothing, or a space and more. -/
theorem scanFrom_pair {key value before after : Text} (plain : PlainKey key)
    (space : Text.bytes after = [] ∨ ∃ more, Text.bytes after = 0x20 :: more) :
    scanFrom (before ++ (renderPair (key, value) ++ after))
        (Text.bytes (renderPair (key, value) ++ after)) =
      (scanFrom (before ++ (renderPair (key, value) ++ after)) (Text.bytes after)).map
        ((key, value) :: ·) := by
  obtain ⟨line, isLine⟩ : ∃ line, line = before ++ (renderPair (key, value) ++ after) := ⟨_, rfl⟩
  obtain ⟨behind, isBehind⟩ : ∃ behind, behind =
      0x22 :: (Text.bytes (value.flatMap escape) ++ 0x22 :: Text.bytes after) := ⟨_, rfl⟩
  rw [← isLine]
  have split : Text.bytes (renderPair (key, value) ++ after) =
      Text.bytes key ++ 0x3D :: behind := by
    have quote : String.utf8EncodeChar '"' = [0x22] := by decide
    have equals : String.utf8EncodeChar '=' = [0x3D] := by decide
    simp [renderPair, isBehind, quote, equals]
  have read : scanValue line behind = some (value, Text.bytes after) := by
    have follows : (Text.bytes after).head?.any (!isAsciiWhitespace ·) = false := by
      rcases space with none | ⟨more, some⟩
      · simp [none]
      · simp [some, isAsciiWhitespace]
    simp [scanValue, isBehind, unquote_value, follows, Text.ofBytes?_bytes]
  have total : (Text.bytes line).length =
      Text.size before + (Text.size key + (behind.length + 1)) := by
    rw [isLine, Text.bytes_append, List.length_append, split, List.length_append,
      Text.length_bytes, Text.length_bytes, List.length_cons]
  have isKey : Text.range? line ((Text.bytes line).length - (Text.bytes key ++ 0x3D :: behind).length)
      ((Text.bytes line).length - (0x3D :: behind).length) = some key := by
    have start : (Text.bytes line).length - (Text.bytes key ++ 0x3D :: behind).length =
        Text.size before := by
      rw [total, List.length_append, List.length_cons, Text.length_bytes]
      omega
    have stop : (Text.bytes line).length - (0x3D :: behind).length =
        Text.size before + Text.size key := by
      rw [total, List.length_cons]
      omega
    rw [start, stop, isLine, renderPair, List.append_assoc key]
    exact range?_middle before key _
  rw [split]
  have keyBytes := plain.bytes
  have stops : (Text.bytes key ++ 0x3D :: behind).dropWhile
      (fun b => b != 0x3D && !isAsciiWhitespace b) = 0x3D :: behind := by
    rw [List.dropWhile_append_of_pos fun b member => by simpa using keyBytes b member]
    rfl
  cases isBytes : Text.bytes key with
  | nil =>
      have nothing := Text.length_bytes key
      rw [isBytes] at nothing
      exact absurd (Text.size_eq_zero.mp nothing.symm) plain.1
  | cons b bs =>
      rw [isBytes, List.cons_append] at isKey stops
      have first := (keyBytes b (by simp [isBytes])).2
      have starts : (b :: (bs ++ 0x3D :: behind)).dropWhile isAsciiWhitespace =
          b :: (bs ++ 0x3D :: behind) := List.dropWhile_cons_of_neg (by simp [first])
      rw [List.cons_append, scanFrom.eq_def]
      dsimp only
      split
      case h_1 none =>
        rw [starts] at none
        cases none
      case h_2 b' bs' same =>
        rw [starts] at same
        obtain ⟨rfl, rfl⟩ := List.cons.inj same
        split
        case h_1 none =>
          rw [stops] at none
          cases none
        case h_2 e rest found =>
          rw [stops] at found
          obtain ⟨rfl, rfl⟩ := List.cons.inj found
          have longer : behind.length ≠ (bs ++ 0x3D :: behind).length := by
            rw [List.length_append, List.length_cons]
            omega
          simp only [ne_eq, not_true_eq_false, longer, or_self, if_false, isKey]
          split
          case h_1 none => simp [read] at none
          case h_2 text left found =>
            rw [read] at found
            cases found
            rfl

/-- Whatever the values hold, quotes and line ends included. -/
theorem scanLogfmt_renderLogfmt (pairs : List (Text × Text))
    (plain : ∀ pair ∈ pairs, PlainKey pair.1) : scanLogfmt (renderLogfmt pairs) = some pairs := by
  have scanned : ∀ before, scanFrom (before ++ renderLogfmt pairs)
      (Text.bytes (renderLogfmt pairs)) = some pairs := by
    induction pairs with
    | nil =>
        intro before
        rw [scanFrom.eq_def]
        rfl
    | cons pair rest ih =>
        intro before
        obtain ⟨isPlain, others⟩ := List.forall_mem_cons.mp plain
        cases rest with
        | nil =>
            have alone := @scanFrom_pair pair.1 pair.2 before [] isPlain (.inl rfl)
            rw [List.append_nil] at alone
            rw [show renderLogfmt [pair] = renderPair pair from List.append_nil _, alone,
              scanFrom.eq_def]
            rfl
        | cons next rest =>
            have shape : renderLogfmt (pair :: next :: rest) =
                renderPair pair ++ ' ' :: renderLogfmt (next :: rest) := by
              simp [renderLogfmt, List.intercalate]
            -- the space is skipped, and from there on the line is the rest of the pairs
            have skips (line : Text) : scanFrom line
                (Text.bytes (' ' :: renderLogfmt (next :: rest))) =
                  scanFrom line (Text.bytes (renderLogfmt (next :: rest))) := by
              conv_lhs => rw [scanFrom.eq_def]
              conv_rhs => rw [scanFrom.eq_def]
              rfl
            have later := ih others (before ++ (renderPair pair ++ [' ']))
            rw [shape, scanFrom_pair isPlain (.inr ⟨_, rfl⟩), skips]
            simp only [List.append_assoc, List.cons_append, List.nil_append] at later
            rw [later]
            rfl
  exact scanned []

/-- A value with a quote and a line end in it, and an empty one. -/
theorem scanLogfmt_renderLogfmt_quoted :
    scanLogfmt (renderLogfmt [("msg".toList, ['a', '"', '\n']), ("k".toList, [])]) =
      some [("msg".toList, ['a', '"', '\n']), ("k".toList, [])] := by
  apply scanLogfmt_renderLogfmt
  simp only [List.forall_mem_cons, List.not_mem_nil, false_implies, implies_true, and_true]
  exact ⟨⟨by decide, by simp⟩, by decide, by simp⟩

end Nyanpasu.Console
