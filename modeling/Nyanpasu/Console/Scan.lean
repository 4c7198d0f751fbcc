import Nyanpasu.State
import Nyanpasu.Logging.Rows
import Nyanpasu.Text

/-! # Scanning console output

The header scanners of `nyanpasu-core-manager/src/log.rs`, one for each kind of core.  A scan
can find nothing, as an early return does, and it can panic, as a slice inside a character
does.
-/

namespace Nyanpasu

namespace Console

open Logging (isWhitespace)

/-! ## Scans -/

inductive Panic where
  /-- A slice out of range or inside a character. -/
  | slice
  /-- An arithmetic overflow. -/
  | overflow
  /-- A failed `expect`. -/
  | expect
  deriving Repr, DecidableEq

abbrev Scan := OptionT (Except Panic)

def require (holds : Bool) : Option Unit := if holds then some () else none

namespace Scan

/-- The `?` operator. -/
def of {α : Type} (found : Option α) : Scan α := OptionT.mk (.ok found)

/-- An early return unless a condition holds. -/
def check (holds : Bool) : Scan Unit := of (require holds)

/-- A step that panics where it has no result. -/
def orPanic {α : Type} (panic : Panic) : Option α → Scan α
  | some a => pure a
  | none => OptionT.mk (.error panic)

/-- `&text[..stop]`. -/
def sliceTo (text : Text) (stop : Nat) : Scan Text :=
  orPanic .slice ((Text.split text stop).map Prod.fst)

/-- `&text[start..]`. -/
def sliceFrom (text : Text) (start : Nat) : Scan Text :=
  orPanic .slice ((Text.split text start).map Prod.snd)

/-- `&bytes[start..stop]`. -/
def sliceBytes (bs : List UInt8) (start stop : Nat) : Scan (List UInt8) :=
  orPanic .slice (if stop ≤ bs.length then some ((bs.take stop).drop start) else none)

def checkedSub (a b : Nat) : Scan Nat := orPanic .overflow (if b ≤ a then some (a - b) else none)

/-- Multiplication of 32-bit numbers. -/
def checkedMul (a b : Nat) : Scan Nat :=
  orPanic .overflow (if a * b < 2 ^ 32 then some (a * b) else none)

end Scan

/-! ## Frames -/

inductive LogLevel where
  | trace
  | debug
  | info
  | warning
  | error
  | fatal
  deriving Repr, DecidableEq

/-- The derived order of the levels. -/
def LogLevel.rank : LogLevel → Nat
  | trace => 0
  | debug => 1
  | info => 2
  | warning => 3
  | error => 4
  | fatal => 5

inductive LogStream where
  | stdout
  | stderr
  deriving Repr, DecidableEq

structure LogTimestamp where
  unixMs : Option Int
  raw : Text
  inferred : Bool
  deriving Repr, DecidableEq

structure LogField where
  key : Text
  value : Text
  deriving Repr, DecidableEq

structure ParsedLine where
  timestamp : Option LogTimestamp
  level : LogLevel
  target : Option Text
  message : Text
  fields : List LogField
  deriving Repr, DecidableEq

/-- What the parser takes from its date and time library. -/
structure Calendar (Instant Date Time : Type) where
  timestampMillis : Instant → Int
  dateNaive : Instant → Date
  time : Instant → Time
  /-- `DateTime::parse_from_rfc3339`, in Unix milliseconds. -/
  rfc3339 : Text → Option Int
  /-- `NaiveTime::parse_from_str` with `%H:%M:%S`. -/
  parseTime : Text → Option Time
  fromYmd : Nat → Nat → Nat → Option Date
  fromHmsNano : Nat → Nat → Nat → Nat → Option Time
  succ : Date → Option Date
  pred : Date → Option Date
  /-- The nanoseconds from the second time to the first. -/
  signedDurationSince : Time → Time → Int
  /-- The instant of a local date and time at the offset of another, in Unix milliseconds. -/
  localUnixMs : Instant → Date → Time → Option Int

/-! ## Characters and numbers -/

def isAsciiWhitespace (b : UInt8) : Bool :=
  b == 0x20 || b == 0x09 || b == 0x0A || b == 0x0C || b == 0x0D

def isAsciiDigit (b : UInt8) : Bool := 0x30 ≤ b && b ≤ 0x39

def trimStart (text : Text) : Text := text.dropWhile isWhitespace

def digitsValue (digits : Text) : Nat := digits.foldl (fun n c => 10 * n + (c.toNat - 48)) 0

def withoutSign (text : Text) : Text := if text.head? = some '+' then text.tail else text

/-- `str::parse::<u32>`: a sign may come first, and a number that is too large fails. -/
def parseU32 (text : Text) : Option Nat :=
  let digits := withoutSign text
  if digits.isEmpty || !digits.all Char.isDigit then none
  else if digitsValue digits < 2 ^ 32 then some (digitsValue digits) else none

/-! ## Escape sequences -/

/-- The bytes outside control sequences; the first argument says whether one is open. -/
def stripBytes : Bool → List UInt8 → List UInt8
  | _, [] => []
  | true, b :: rest => stripBytes (!(0x40 ≤ b && b ≤ 0x7E)) rest
  | false, b :: rest =>
      if b ≠ 0x1B then b :: stripBytes false rest
      else match rest with
        | [] => []
        | c :: more => if c = 0x5B then stripBytes true more else stripBytes false (c :: more)

def stripAnsi (line : Text) : Except Panic Text :=
  if !(Text.bytes line).contains 0x1B then .ok line
  else match Text.ofBytes? (stripBytes false (Text.bytes line)) with
    | some text => .ok text
    | none => .error .expect

/-! ## Levels and tokens -/

def levels : List (String × LogLevel) :=
  [("trace", .trace), ("TRC", .trace), ("TRACE", .trace), ("debug", .debug), ("DBG", .debug),
    ("DEBUG", .debug), ("info", .info), ("INF", .info), ("INFO", .info), ("warn", .warning),
    ("warning", .warning), ("WRN", .warning), ("WARN", .warning), ("error", .error),
    ("ERR", .error), ("ERROR", .error), ("fatal", .fatal), ("panic", .fatal), ("FTL", .fatal),
    ("PNC", .fatal), ("???", .info)]

def parseLevel (level : Text) : Option LogLevel :=
  (levels.find? fun entry => entry.1.toList == level).map Prod.snd

def takeToken (input : Text) : Scan (Text × Text) := do
  let input := trimStart input
  let stop ← Scan.of (Text.find? isWhitespace input)
  let token ← Scan.sliceTo input stop
  let rest ← Scan.sliceFrom input stop
  return (token, trimStart rest)

/-! ## Mihomo -/

def escapedBytes (b : UInt8) : List UInt8 :=
  if b = 0x22 ∨ b = 0x5C then [b]
  else if b = 0x6E then [0x0A]
  else if b = 0x72 then [0x0D]
  else if b = 0x74 then [0x09]
  else [0x5C, b]

/-- A quoted value up to its closing quote, and what follows. -/
def unquote : List UInt8 → Option (List UInt8 × List UInt8)
  | [] => none
  | b :: rest =>
      if b = 0x22 then some ([], rest)
      else if b = 0x5C then
        match rest with
        | [] => none
        | escaped :: more =>
            (unquote more).map fun read => (escapedBytes escaped ++ read.1, read.2)
      else (unquote rest).map fun read => (b :: read.1, read.2)

theorem length_unquote {bs value rest : List UInt8} (read : unquote bs = some (value, rest)) :
    rest.length < bs.length := by
  induction bs using unquote.induct generalizing value with
  | case1 => exact absurd read (by simp [unquote])
  | case2 bs =>
      unfold unquote at read
      simp only [if_true] at read
      cases read
      exact Nat.lt_succ_self _
  | case3 => exact absurd read (by unfold unquote; simp)
  | case4 escaped more quote ih =>
      unfold unquote at read
      simp only [quote, if_false, if_true] at read
      obtain ⟨_, inner, same⟩ := Option.map_eq_some_iff.mp read
      cases same
      have shorter := ih inner
      simp only [List.length_cons]
      omega
  | case5 b bs quote escape ih =>
      unfold unquote at read
      simp only [quote, escape, if_false] at read
      obtain ⟨_, inner, same⟩ := Option.map_eq_some_iff.mp read
      cases same
      have shorter := ih inner
      simp only [List.length_cons]
      omega

/-- The value of a field, read from behind its equals sign, and what follows it. -/
def scanValue (line : Text) (rest : List UInt8) : Option (Text × List UInt8) :=
  if rest.head? = some 0x22 then
    match unquote rest.tail with
    | none => none
    | some (value, after) =>
        if after.head?.any (!isAsciiWhitespace ·) then none
        else (Text.ofBytes? value).map (·, after)
  else
    let total := (Text.bytes line).length
    let after := rest.dropWhile (!isAsciiWhitespace ·)
    (Text.range? line (total - rest.length) (total - after.length)).map (·, after)

theorem length_scanValue {line value : Text} {rest after : List UInt8}
    (read : scanValue line rest = some (value, after)) : after.length ≤ rest.length := by
  unfold scanValue at read
  split at read
  · split at read
    · exact absurd read (by simp)
    · next unquoted =>
        have shorter := length_unquote unquoted
        have tail : rest.tail.length ≤ rest.length := by simp
        split at read
        · exact absurd read (by simp)
        · obtain ⟨_, _, same⟩ := Option.map_eq_some_iff.mp read
          cases same
          omega
  · obtain ⟨_, _, same⟩ := Option.map_eq_some_iff.mp read
    cases same
    exact (List.dropWhile_suffix _).length_le

/-- The pairs from an offset on; the bytes from there to the end stand for it. -/
def scanFrom (line : Text) (rest : List UInt8) : Option (List (Text × Text)) :=
  let total := (Text.bytes line).length
  match _start : rest.dropWhile isAsciiWhitespace with
  | [] => some []
  | b :: bs =>
      match _stop : (b :: bs).dropWhile (fun b => b != 0x3D && !isAsciiWhitespace b) with
      | [] => none
      | e :: value =>
          if e ≠ 0x3D ∨ value.length = bs.length then none
          else match Text.range? line (total - (b :: bs).length) (total - (e :: value).length) with
            | none => none
            | some key =>
                match _read : scanValue line value with
                | none => none
                | some (text, after) => (scanFrom line after).map ((key, text) :: ·)
  termination_by rest.length
  decreasing_by
    have first := (List.dropWhile_suffix (l := rest) isAsciiWhitespace).length_le
    have second := (List.dropWhile_suffix (l := b :: bs)
      (fun b => b != 0x3D && !isAsciiWhitespace b)).length_le
    have third := length_scanValue _read
    rw [_start] at first
    rw [_stop] at second
    simp only [List.length_cons] at first second
    omega

/-- `key=value` pairs, where a value that needs it is quoted. -/
def scanLogfmt (line : Text) : Option (List (Text × Text)) := scanFrom line (Text.bytes line)

variable {Instant Date Time : Type}

/-- What the pairs of a line add up to. -/
structure LogfmtLine where
  time : Option Text := none
  level : Option LogLevel := none
  msg : Option Text := none
  fields : List LogField := []

def LogfmtLine.add (line : LogfmtLine) (pair : Text × Text) : LogfmtLine :=
  if pair.1 = "time".toList then { line with time := some pair.2 }
  else if pair.1 = "level".toList then { line with level := parseLevel pair.2 }
  else if pair.1 = "msg".toList then { line with msg := some pair.2 }
  else { line with fields := line.fields ++ [⟨pair.1, pair.2⟩] }

def parseMihomo (cal : Calendar Instant Date Time) (line : Text) : Option ParsedLine := do
  let pairs ← scanLogfmt line
  let read := pairs.foldl LogfmtLine.add {}
  let rawTime ← read.time
  let level ← read.level
  let message ← read.msg
  return { timestamp := some ⟨cal.rfc3339 rawTime, rawTime, false⟩, level, target := none,
           message, fields := read.fields }

/-! ## Meow -/

def parseMeow (cal : Calendar Instant Date Time) (line : Text) : Scan ParsedLine := do
  let (rawTime, rest) ← takeToken line
  let (level, rest) ← takeToken rest
  let level ← Scan.of (parseLevel level)
  let (target, message) ← Scan.of (Text.splitOnce ": ".toList rest)
  Scan.check (!target.isEmpty)
  return { timestamp := some ⟨cal.rfc3339 rawTime, rawTime, false⟩, level, target := some target,
           message, fields := [] }

/-! ## Clash in Rust -/

def separators : List (Nat × UInt8) :=
  [(2, 0x2D), (5, 0x2D), (8, 0x20), (11, 0x3A), (14, 0x3A), (17, 0x3A)]

def numbers : List (Nat × Nat) := [(0, 2), (3, 5), (6, 8), (9, 11), (12, 14), (15, 17)]

/-- Whether every slot holds digits; the first that does not ends the search. -/
def allDigits (bs : List UInt8) : List (Nat × Nat) → Scan Bool
  | [] => return true
  | (start, stop) :: rest => do
      let slot ← Scan.sliceBytes bs start stop
      if slot.all isAsciiDigit then allDigits bs rest else return false

def clashRsTimestampEnd (line : Text) : Scan Nat := do
  let bs := Text.bytes line
  Scan.check (separators.all fun (index, separator) => bs[index]? == some separator)
  Scan.check (← allDigits bs numbers)
  let tail ← Scan.sliceBytes bs 18 bs.length
  let digits := (tail.takeWhile isAsciiDigit).length
  Scan.check (decide (1 ≤ digits ∧ digits ≤ 9 ∧ bs[18 + digits]? = some 0x20))
  return 18 + digits

def number (raw : Text) (start stop : Nat) : Scan Nat :=
  Scan.of ((Text.range? raw start stop).bind parseU32)

def clashRsUnixMs (cal : Calendar Instant Date Time) (raw : Text) (observedAt : Instant) :
    Scan Int := do
  let (_, subsecond) ← Scan.of (Text.split raw 18)
  let value ← Scan.of (parseU32 subsecond)
  let exponent ← Scan.checkedSub 9 (Text.size subsecond)
  let nanos ← Scan.checkedMul value (10 ^ exponent)
  let date ← Scan.of (cal.fromYmd (2000 + (← number raw 0 2)) (← number raw 3 5) (← number raw 6 8))
  let time ← Scan.of
    (cal.fromHmsNano (← number raw 9 11) (← number raw 12 14) (← number raw 15 17) nanos)
  Scan.of (cal.localUnixMs observedAt date time)

/-- The offsets of `: `, which cannot overlap itself. -/
def matchIndices : Text → List Nat
  | [] => []
  | c :: text =>
      let later := (matchIndices text).map (c.utf8Size + ·)
      if c = ':' ∧ text.head? = some ' ' then 0 :: later else later

/-- The source anchor at the first offset that has one. -/
def clashRsSourceAt (rest : Text) : List Nat → Scan (Text × Text)
  | [] => failure
  | separator :: more => do
      let head ← Scan.sliceTo rest separator
      match Text.rfind? (· == ':') head with
      | none => clashRsSourceAt rest more
      | some colon =>
          let digits ← Scan.sliceFrom head (colon + 1)
          if digits.isEmpty || !(Text.bytes digits).all isAsciiDigit then
            clashRsSourceAt rest more
          else
            let before ← Scan.sliceTo head colon
            let start := ((Text.rfind? isWhitespace before).map (· + 1)).getD 0
            if start = colon then clashRsSourceAt rest more
            else
              let target ← Scan.sliceFrom head start
              let message ← Scan.sliceFrom rest (separator + 2)
              return (target, message)

def clashRsSource (rest : Text) : Scan (Text × Text) := clashRsSourceAt rest (matchIndices rest)

/-- The timestamp and the level, and what follows them. -/
def clashRsHeader (line : Text) : Scan (Text × LogLevel × Text) := do
  let timestampEnd ← clashRsTimestampEnd line
  let (rawTime, rest) ← Scan.of (Text.split line timestampEnd)
  let (level, rest) ← takeToken rest
  let level ← Scan.of (parseLevel level)
  return (rawTime, level, rest)

def parseClashRs (cal : Calendar Instant Date Time) (line : Text) (observedAt : Instant) :
    Scan ParsedLine := do
  let (rawTime, level, rest) ← clashRsHeader line
  let (target, message) ← clashRsSource rest
  let unixMs ← OptionT.lift (clashRsUnixMs cal rawTime observedAt).run
  return { timestamp := some ⟨unixMs, rawTime, true⟩, level, target := some target, message,
           fields := [] }

/-! ## Clash Premium -/

def halfDay : Int := 12 * 60 * 60 * 1000000000

def premiumTarget (body : Text) : Option Text × Text :=
  match body with
  | '[' :: rest =>
      match Text.splitOnce "] ".toList rest with
      | some (tag, message) =>
          if !tag.isEmpty && !tag.contains ' ' then (some tag, message) else (none, body)
      | none => (none, body)
  | _ => (none, body)

/-- The date a printed time belongs to. -/
def premiumDate (cal : Calendar Instant Date Time) (time : Time) (observedAt : Instant) :
    Option (Date × Time) → Option Date
  | some (date, previous) =>
      if halfDay < cal.signedDurationSince previous time then cal.succ date else some date
  | none =>
      if halfDay < cal.signedDurationSince time (cal.time observedAt) then
        cal.pred (cal.dateNaive observedAt)
      else some (cal.dateNaive observedAt)

/-- The printed instant and the clock that the next line is read with; a date that is out of
    range leaves the clock as it was. -/
def premiumUnixMs (cal : Calendar Instant Date Time) (time : Time) (observedAt : Instant)
    (clock : Option (Date × Time)) : Option Int × Option (Date × Time) :=
  match premiumDate cal time observedAt clock with
  | none => (none, clock)
  | some date => (cal.localUnixMs observedAt date time, some (date, time))

/-- The printed time, the level and the rest of a line. -/
def premiumHeader (cal : Calendar Instant Date Time) (line : Text) :
    Option (Text × Time × LogLevel × Text) := do
  let bs := Text.bytes line
  require (bs[8]? == some 0x20 && bs[12]? == some 0x20)
  let rawTime ← Text.range? line 0 8
  let time ← cal.parseTime rawTime
  let level ← parseLevel (← Text.range? line 9 12)
  let (_, body) ← Text.split line 13
  return (rawTime, time, level, body)

def parsePremium (cal : Calendar Instant Date Time) (line : Text) (observedAt : Instant)
    (clock : Option (Date × Time)) : Option ParsedLine × Option (Date × Time) :=
  match premiumHeader cal line with
  | none => (none, clock)
  | some (rawTime, time, level, body) =>
      let (target, message) := premiumTarget body
      let (unixMs, clock) := premiumUnixMs cal time observedAt clock
      (some { timestamp := some ⟨unixMs, rawTime, true⟩, level, target, message, fields := [] },
        clock)

end Console

end Nyanpasu
