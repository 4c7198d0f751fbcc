import Nyanpasu.Logging.Index

/-! # Rows of a page

A line is read back from the file as bytes and becomes a row of text.  Invalid UTF-8
grows when it is decoded and escaping can make it grow again, so long fields are cut;
every row then fits a page on its own.
-/

namespace Nyanpasu

namespace Logging

/-! ## Text -/

def replacement : Char := '�'

/-- The bytes that may follow a first byte of a sequence of two, three or four. -/
def follows (first second : UInt8) : Bool :=
  if first = 0xE0 then decide (0xA0 ≤ second ∧ second ≤ 0xBF)
  else if first = 0xED then decide (0x80 ≤ second ∧ second ≤ 0x9F)
  else if first = 0xF0 then decide (0x90 ≤ second ∧ second ≤ 0xBF)
  else if first = 0xF4 then decide (0x80 ≤ second ∧ second ≤ 0x8F)
  else decide (0x80 ≤ second ∧ second ≤ 0xBF)

def continues (byte : UInt8) : Bool := decide (0x80 ≤ byte ∧ byte ≤ 0xBF)

def scalar (lead : Nat) (rest : List UInt8) : Char :=
  .ofNat (rest.foldl (fun n byte => n * 64 + byte.toNat % 64) lead)

/-- `String::from_utf8_lossy`: each longest beginning of a sequence that no sequence
    completes is one replacement character. -/
def fromUtf8Lossy : Bytes → List Char
  | [] => []
  | a :: rest =>
      if a < 0x80 then .ofNat a.toNat :: fromUtf8Lossy rest
      else if a < 0xC2 ∨ 0xF4 < a then replacement :: fromUtf8Lossy rest
      else match rest with
        | [] => [replacement]
        | b :: rest₁ =>
            if !follows a b then replacement :: fromUtf8Lossy (b :: rest₁)
            else if a < 0xE0 then scalar (a.toNat % 32) [b] :: fromUtf8Lossy rest₁
            else match rest₁ with
              | [] => [replacement]
              | c :: rest₂ =>
                  if !continues c then replacement :: fromUtf8Lossy (c :: rest₂)
                  else if a < 0xF0 then scalar (a.toNat % 16) [b, c] :: fromUtf8Lossy rest₂
                  else match rest₂ with
                    | [] => [replacement]
                    | d :: rest₃ =>
                        if !continues d then replacement :: fromUtf8Lossy (d :: rest₃)
                        else scalar (a.toNat % 8) [b, c, d] :: fromUtf8Lossy rest₃

/-- The characters with Unicode's `White_Space` property. -/
def isWhitespace (c : Char) : Bool :=
  let n := c.toNat
  decide (0x9 ≤ n ∧ n ≤ 0xD) || n == 0x20 || n == 0x85 || n == 0xA0 || n == 0x1680 ||
    decide (0x2000 ≤ n ∧ n ≤ 0x200A) || n == 0x2028 || n == 0x2029 || n == 0x202F ||
    n == 0x205F || n == 0x3000

def trimEnd (text : List Char) : List Char := (text.reverse.dropWhile isWhitespace).reverse

def rawText (bytes : Bytes) : String := .ofList (trimEnd (fromUtf8Lossy bytes))

def contains (text pattern : String) : Bool := decide (pattern.toList <:+: text.toList)

/-- The longest beginning of a text that takes at most so many bytes. -/
def truncateAt : Nat → List Char → List Char
  | _, [] => []
  | room, c :: text =>
      if c.utf8Size ≤ room then c :: truncateAt (room - c.utf8Size) text else []

/-! ## Rows -/

structure LogRow where
  id : String
  timestamp : Option String
  level : Level
  target : String
  message : String
  raw : String
  unparsed : Bool
  truncated : Bool
  deriving DecidableEq

/-- What is kept of a field, and whether that is less than all of it. -/
def bounded (field : String) : String × Bool :=
  if maxLine / 4 < field.utf8ByteSize then (.ofList (truncateAt (maxLine / 4) field.toList), true)
  else (field, false)

def decimalText (n : Nat) : String := .ofList (Naming.decimal n)

def signedText (t : Int) : String :=
  if t < 0 then "-" ++ decimalText t.natAbs else decimalText t.natAbs

def LogRow.of (generation : String) (entry : Entry) (target message raw : String) : LogRow where
  id := generation ++ ":" ++ decimalText entry.start
  timestamp := entry.timestamp.map signedText
  level := entry.level
  target := target
  message := (bounded message).1
  raw := (bounded raw).1
  unparsed := entry.unparsed
  truncated := entry.truncated || (bounded raw).2 || (bounded message).2

/-! ## The size of a row -/

def hexDigit (n : Nat) : Char := Nat.digitChar n

/-- A character of a JSON string as `serde_json` writes it. -/
def escape (c : Char) : List Char :=
  match c with
  | '"' => ['\\', '"']
  | '\\' => ['\\', '\\']
  | '\x08' => ['\\', 'b']
  | '\x0c' => ['\\', 'f']
  | '\n' => ['\\', 'n']
  | '\r' => ['\\', 'r']
  | '\t' => ['\\', 't']
  | c => if c.toNat < 0x20 then ['\\', 'u', '0', '0', hexDigit (c.toNat / 16), hexDigit (c.toNat % 16)]
      else [c]

def jsonString (text : String) : String := "\"" ++ .ofList (text.toList.flatMap escape) ++ "\""

def Level.json : Level → String
  | trace => "\"trace\""
  | debug => "\"debug\""
  | info => "\"info\""
  | warn => "\"warn\""
  | error => "\"error\""
  | fatal => "\"fatal\""
  | unknown => "\"unknown\""

def jsonBool (b : Bool) : String := if b then "true" else "false"

def LogRow.json (row : LogRow) : String :=
  "\x7b\"id\":" ++ jsonString row.id ++
  ",\"timestamp\":" ++ (row.timestamp.map jsonString).getD "null" ++
  ",\"level\":" ++ row.level.json ++
  ",\"target\":" ++ jsonString row.target ++
  ",\"message\":" ++ jsonString row.message ++
  ",\"raw\":" ++ jsonString row.raw ++
  ",\"unparsed\":" ++ jsonBool row.unparsed ++
  ",\"truncated\":" ++ jsonBool row.truncated ++ "\x7d"

theorem utf8ByteSize_ofList_cons (c : Char) (text : List Char) :
    (String.ofList (c :: text)).utf8ByteSize = c.utf8Size + (String.ofList text).utf8ByteSize := by
  rw [String.ofList_cons, String.utf8ByteSize_append, String.utf8ByteSize_singleton]

theorem truncateAt_le (room : Nat) (text : List Char) :
    (String.ofList (truncateAt room text)).utf8ByteSize ≤ room := by
  induction text generalizing room with
  | nil => simp [truncateAt]
  | cons c text ih =>
      rw [truncateAt]
      split
      · next fits =>
          have rest := ih (room - c.utf8Size)
          rw [utf8ByteSize_ofList_cons]
          omega
      · simp

theorem bounded_le (field : String) : (bounded field).1.utf8ByteSize ≤ maxLine / 4 := by
  unfold bounded
  split
  · exact truncateAt_le _ _
  · next short => exact Nat.le_of_not_lt short

theorem hexDigit_size {n : Nat} (small : n < 16) : (hexDigit n).utf8Size = 1 := by
  revert n
  decide

/-- Escaping makes a character at most six times as long. -/
theorem escape_le (c : Char) : (String.ofList (escape c)).utf8ByteSize ≤ 6 * c.utf8Size := by
  have positive := c.utf8Size_pos
  unfold escape
  split
  case h_8 =>
    split
    · next control =>
        have high := hexDigit_size (n := c.toNat / 16) (by omega)
        have low := hexDigit_size (n := c.toNat % 16) (by omega)
        simp only [utf8ByteSize_ofList_cons, high, low, String.ofList_nil]
        have backslash : '\\'.utf8Size = 1 := rfl
        have u : 'u'.utf8Size = 1 := rfl
        have zero : '0'.utf8Size = 1 := rfl
        have empty : ("" : String).utf8ByteSize = 0 := rfl
        omega
    · rw [utf8ByteSize_ofList_cons, String.ofList_nil]
      have empty : ("" : String).utf8ByteSize = 0 := rfl
      omega
  all_goals exact Nat.le_trans (by decide) (Nat.mul_le_mul_left 6 positive)

theorem escapes_le (text : List Char) :
    (String.ofList (text.flatMap escape)).utf8ByteSize ≤ 6 * (String.ofList text).utf8ByteSize := by
  induction text with
  | nil => simp
  | cons c text ih =>
      have first := escape_le c
      rw [List.flatMap_cons, String.ofList_append, String.utf8ByteSize_append,
        utf8ByteSize_ofList_cons]
      omega

theorem jsonString_le (text : String) :
    (jsonString text).utf8ByteSize ≤ 6 * text.utf8ByteSize + 2 := by
  have inner := escapes_le text.toList
  have quote : ("\"" : String).utf8ByteSize = 1 := rfl
  rw [String.ofList_toList] at inner
  rw [jsonString, String.utf8ByteSize_append, String.utf8ByteSize_append, quote]
  omega

theorem utf8ByteSize_ofList_le (text : List Char) :
    (String.ofList text).utf8ByteSize ≤ 4 * text.length := by
  induction text with
  | nil => simp
  | cons c text ih =>
      have first := c.utf8Size_le_four
      rw [utf8ByteSize_ofList_cons, List.length_cons]
      omega

theorem decimalText_le {n : Nat} (fits : n < 2 ^ 64) : (decimalText n).utf8ByteSize ≤ 80 := by
  have digits : (Nat.toDigits 10 n).length ≤ 20 :=
    (Nat.length_toDigits_le_iff (by decide) (by decide)).mpr (fits.trans (by decide))
  exact (utf8ByteSize_ofList_le _).trans (Nat.mul_le_mul_left 4 digits)

theorem signedText_le {t : Int} (fits : t.natAbs < 2 ^ 64) : (signedText t).utf8ByteSize ≤ 81 := by
  have digits := decimalText_le fits
  have sign : ("-" : String).utf8ByteSize = 1 := rfl
  unfold signedText
  split
  · rw [String.utf8ByteSize_append, sign]
    omega
  · omega

theorem Level.json_le (level : Level) : level.json.utf8ByteSize ≤ 9 := by
  cases level <;> decide

theorem jsonBool_le (b : Bool) : (jsonBool b).utf8ByteSize ≤ 5 := by
  cases b <;> decide

/-- The names of the fields and the punctuation take 82 bytes. -/
theorem LogRow.size_json (row : LogRow) : row.json.utf8ByteSize = 82 +
    (jsonString row.id).utf8ByteSize + ((row.timestamp.map jsonString).getD "null").utf8ByteSize +
    row.level.json.utf8ByteSize + (jsonString row.target).utf8ByteSize +
    (jsonString row.message).utf8ByteSize + (jsonString row.raw).utf8ByteSize +
    (jsonBool row.unparsed).utf8ByteSize + (jsonBool row.truncated).utf8ByteSize := by
  unfold LogRow.json
  simp only [String.utf8ByteSize_append]
  generalize (jsonString row.id).utf8ByteSize = a
  generalize ((row.timestamp.map jsonString).getD "null").utf8ByteSize = b
  generalize row.level.json.utf8ByteSize = c
  generalize (jsonString row.target).utf8ByteSize = d
  generalize (jsonString row.message).utf8ByteSize = e
  generalize (jsonString row.raw).utf8ByteSize = f
  generalize (jsonBool row.unparsed).utf8ByteSize = g
  generalize (jsonBool row.truncated).utf8ByteSize = h
  change 6 + a + 13 + b + 9 + c + 10 + d + 11 + e + 7 + f + 12 + g + 13 + h + 1 = _
  omega

/-- A row leaves room in a page that has no other. -/
theorem LogRow.fits {generation target message raw : String} {entry : Entry}
    (short : generation.utf8ByteSize ≤ 36) (start : entry.start < 2 ^ 64)
    (timestamp : ∀ t, entry.timestamp = some t → t.natAbs < 2 ^ 64)
    (target_le : target.utf8ByteSize ≤ 4096) :
    4096 + ((LogRow.of generation entry target message raw).json.utf8ByteSize + 1) ≤ maxBatch := by
  have id_le : (generation ++ ":" ++ decimalText entry.start).utf8ByteSize ≤ 117 := by
    have digits := decimalText_le start
    have colon : (":" : String).utf8ByteSize = 1 := rfl
    rw [String.utf8ByteSize_append, String.utf8ByteSize_append, colon]
    omega
  have time_le : (((entry.timestamp.map signedText).map jsonString).getD "null").utf8ByteSize ≤
      488 := by
    cases time : entry.timestamp with
    | none => decide
    | some t =>
        have digits := signedText_le (timestamp t time)
        have quoted := jsonString_le (signedText t)
        simp only [Option.map_some, Option.getD_some]
        omega
  have id_json := jsonString_le (generation ++ ":" ++ decimalText entry.start)
  have target_json := jsonString_le target
  have message_json := jsonString_le (bounded message).1
  have raw_json := jsonString_le (bounded raw).1
  have message_le := bounded_le message
  have raw_le := bounded_le raw
  have level_le := entry.level.json_le
  have unparsed_le := jsonBool_le entry.unparsed
  have truncated_le := jsonBool_le (entry.truncated || (bounded raw).2 || (bounded message).2)
  have size := (LogRow.of generation entry target message raw).size_json
  generalize (LogRow.of generation entry target message raw).json.utf8ByteSize = total at size ⊢
  simp only [LogRow.of] at size
  simp only [maxLine, maxBatch] at message_le raw_le ⊢
  omega

end Logging

end Nyanpasu
