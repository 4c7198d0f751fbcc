import Nyanpasu.Console.Scan

/-! # The console parser

`LogParser` of `nyanpasu-core-manager/src/log.rs`: lines of both streams become frames, an
error holds its frame back for the continuation lines that may follow, and every text of a
frame is cut to its cap.
-/

namespace Nyanpasu

namespace Console

def maxContinuationLines : Nat := 16
def maxLogTextBytes : Nat := 16 * 1024
def maxLogTargetBytes : Nat := 2048
def maxLogTimestampRawBytes : Nat := 256
def maxLogFields : Nat := 64
def maxLogFieldTextBytes : Nat := 1024

structure LogFrame where
  observedAt : Int
  epoch : Nat
  kind : CoreKind
  stream : LogStream
  level : LogLevel
  timestamp : Option LogTimestamp
  target : Option Text
  message : Text
  fields : List LogField
  raw : Text
  truncated : Bool
  deriving Repr, DecidableEq

structure Pending where
  frame : LogFrame
  continuations : Nat
  deriving Repr, DecidableEq

/-! ## Caps -/

def sliceTo (text : Text) (stop : Nat) : Except Panic Text :=
  match Text.split text stop with
  | some (kept, _) => .ok kept
  | none => .error .slice

/-- Cuts a text down to a number of bytes, and says whether it was cut. -/
def truncateText (text : Text) (maxBytes : Nat) : Except Panic (Text × Bool) :=
  if Text.size text ≤ maxBytes then .ok (text, false)
  else (sliceTo text (Text.floorBoundary text maxBytes)).map (·, true)

/-- Appends a line break and as much of a line as fits, and says whether something was left
    behind. -/
def appendBounded (text line : Text) (maxBytes : Nat) : Except Panic (Text × Bool) :=
  if maxBytes ≤ Text.size text then .ok (text, true)
  else if line.isEmpty then .ok (text ++ ['\n'], false)
  else
    let budget := maxBytes - Text.size text - 1
    let stop := Text.floorBoundary line (min budget (Text.size line))
    if stop = 0 then .ok (text, true)
    else (sliceTo line stop).map fun kept =>
      (text ++ '\n' :: kept, decide (stop < Text.size line))

def Pending.append (pending : Pending) (line : Text) : Except Panic Pending := do
  if pending.continuations = maxContinuationLines then
    return { pending with frame := { pending.frame with truncated := true } }
  let (raw, cutRaw) ← appendBounded pending.frame.raw line maxLogTextBytes
  let (message, cutMessage) ← appendBounded pending.frame.message line maxLogTextBytes
  let frame := { pending.frame with raw, message }
  if cutRaw || cutMessage then
    return ⟨{ frame with truncated := true }, maxContinuationLines⟩
  else return ⟨frame, pending.continuations + 1⟩

def truncateTimestamp (timestamp : LogTimestamp) : Except Panic (LogTimestamp × Bool) := do
  let (raw, cut) ← truncateText timestamp.raw maxLogTimestampRawBytes
  return ({ timestamp with raw }, cut)

def truncateField (field : LogField) : Except Panic (LogField × Bool) := do
  let (key, cutKey) ← truncateText field.key maxLogFieldTextBytes
  let (value, cutValue) ← truncateText field.value maxLogFieldTextBytes
  return (⟨key, value⟩, cutKey || cutValue)

/-- Cuts what is there. -/
def truncateOption {α : Type} (cutOne : α → Except Panic (α × Bool)) :
    Option α → Except Panic (Option α × Bool)
  | none => .ok (none, false)
  | some a => (cutOne a).map fun (a, cut) => (some a, cut)

def truncateFields : List LogField → Except Panic (List LogField × Bool)
  | [] => .ok ([], false)
  | field :: fields => do
      let (field, cut) ← truncateField field
      let (fields, cutLater) ← truncateFields fields
      return (field :: fields, cut || cutLater)

def boundFrame (frame : LogFrame) : Except Panic LogFrame := do
  let (message, cutMessage) ← truncateText frame.message maxLogTextBytes
  let (raw, cutRaw) ← truncateText frame.raw maxLogTextBytes
  let (target, cutTarget) ← truncateOption (truncateText · maxLogTargetBytes) frame.target
  let (timestamp, cutTimestamp) ← truncateOption truncateTimestamp frame.timestamp
  let (fields, cutFields) ← truncateFields (frame.fields.take maxLogFields)
  let cut := cutMessage || cutRaw || cutTarget || cutTimestamp ||
    decide (maxLogFields < frame.fields.length) || cutFields
  return { frame with message, raw, target, timestamp, fields, truncated := frame.truncated || cut }

/-! ## The parser -/

variable {Instant Date Time : Type}

structure LogParser (Date Time : Type) where
  kind : CoreKind
  epoch : Nat
  premiumClock : Option (Date × Time)
  pending : LogStream → Option Pending
  newestPending : Option LogStream

abbrev ParsedFrames := Option LogFrame × Option LogFrame

def ParsedFrames.list (frames : ParsedFrames) : List LogFrame := frames.1.toList ++ frames.2.toList

namespace LogParser

def new (kind : CoreKind) (epoch : Nat) : LogParser Date Time :=
  { kind, epoch, premiumClock := none, pending := fun _ => none, newestPending := none }

def parseHeader (cal : Calendar Instant Date Time) (parser : LogParser Date Time) (line : Text)
    (observedAt : Instant) : Except Panic (Option ParsedLine × Option (Date × Time)) :=
  match parser.kind with
  | .mihomo => .ok (parseMihomo cal line, parser.premiumClock)
  | .meow => (parseMeow cal line).run.map (·, parser.premiumClock)
  | .clashRust => (parseClashRs cal line observedAt).run.map (·, parser.premiumClock)
  | .clashPremium => .ok (parsePremium cal line observedAt parser.premiumClock)

def setPending (parser : LogParser Date Time) (stream : LogStream) (pending : Option Pending) :
    LogParser Date Time :=
  { parser with pending := fun other => if other = stream then pending else parser.pending other }

/-- Releases what the stream holds, and holds the new frame or releases it too. -/
def emit (parser : LogParser Date Time) (stream : LogStream) (frame : LogFrame) (hold : Bool) :
    ParsedFrames × LogParser Date Time :=
  let flushed := (parser.pending stream).map Pending.frame
  if hold then
    ((flushed, none),
      { parser.setPending stream (some ⟨frame, 0⟩) with newestPending := some stream })
  else ((flushed, some frame), parser.setPending stream none)

def isErrorRoot (line : Text) : Bool := "Error:".toList.isPrefixOf line

def isWarningRoot (line : Text) : Bool := "warning:".toList.isPrefixOf line

/-- The level of a line without a header. -/
def plainLevel (line : Text) (stream : LogStream) : LogLevel :=
  if isErrorRoot line then .error
  else if isWarningRoot line then .warning
  else match stream with
    | .stdout => .info
    | .stderr => .warning

def frameOf (cal : Calendar Instant Date Time) (parser : LogParser Date Time) (stream : LogStream)
    (line : Text) (observedAt : Instant) (parsed : ParsedLine) : LogFrame :=
  { observedAt := cal.timestampMillis observedAt, epoch := parser.epoch, kind := parser.kind,
    stream, level := parsed.level, timestamp := parsed.timestamp, target := parsed.target,
    message := parsed.message, fields := parsed.fields, raw := line, truncated := false }

/-- A line without a header is its own message. -/
def plainLine (line : Text) (stream : LogStream) : ParsedLine :=
  { timestamp := none, level := plainLevel line stream, target := none, message := line,
    fields := [] }

/-- Opens a record of its own. -/
def root (cal : Calendar Instant Date Time) (parser : LogParser Date Time) (stream : LogStream)
    (line : Text) (observedAt : Instant) (parsed : ParsedLine) (hold : Bool) :
    Except Panic (ParsedFrames × LogParser Date Time) :=
  (boundFrame (parser.frameOf cal stream line observedAt parsed)).map
    (parser.emit stream · hold)

def pushAt (cal : Calendar Instant Date Time) (parser : LogParser Date Time) (stream : LogStream)
    (line : Text) (observedAt : Instant) :
    Except Panic (ParsedFrames × LogParser Date Time) := do
  let line ← stripAnsi line
  let (header, premiumClock) ← parser.parseHeader cal line observedAt
  let parser := { parser with premiumClock }
  match header with
  | some parsed =>
      parser.root cal stream line observedAt parsed
        (decide (LogLevel.error.rank ≤ parsed.level.rank))
  | none =>
      match isErrorRoot line || isWarningRoot line, parser.pending stream with
      | false, some pending =>
          return ((none, none), parser.setPending stream (some (← pending.append line)))
      | _, _ =>
          parser.root cal stream line observedAt (plainLine line stream)
            (isErrorRoot line && stream = .stderr)

/-- Releases what is held, the older record first. -/
def finish (parser : LogParser Date Time) : ParsedFrames × LogParser Date Time :=
  let stdout := (parser.pending .stdout).map Pending.frame
  let stderr := (parser.pending .stderr).map Pending.frame
  let cleared := { parser with pending := fun _ => none, newestPending := none }
  match parser.newestPending with
  | some .stdout => ((stderr, stdout), cleared)
  | _ => ((stdout, stderr), cleared)

end LogParser

/-! ## Runs -/

/-- A line as a core printed it. -/
structure Line (Instant : Type) where
  stream : LogStream
  text : Text
  observedAt : Instant
  deriving Repr, DecidableEq

/-- The frames that leave while lines are pushed. -/
def LogParser.feed (cal : Calendar Instant Date Time) (parser : LogParser Date Time) :
    List (Line Instant) → Except Panic (List LogFrame × LogParser Date Time)
  | [] => .ok ([], parser)
  | line :: lines => do
      let (frames, parser) ← parser.pushAt cal line.stream line.text line.observedAt
      let (more, parser) ← parser.feed cal lines
      return (frames.list ++ more, parser)

/-- Every frame of a run that ends with `finish`. -/
def output (cal : Calendar Instant Date Time) (kind : CoreKind) (epoch : Nat)
    (lines : List (Line Instant)) : Except Panic (List LogFrame) := do
  let (frames, parser) ← (LogParser.new kind epoch).feed cal lines
  return frames ++ parser.finish.1.list

end Console

end Nyanpasu
