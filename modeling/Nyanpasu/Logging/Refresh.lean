import Nyanpasu.Logging.Files
import Nyanpasu.Logging.Rows
import Nyanpasu.Fallible

/-! # Refreshing an index and reading a page

`refresh_page` of `nyanpasu-logging/src/session.rs`: catch up with the file by at most
one batch and, once the index has reached the end, scan it and read the rows back.  The
work is kept as far as it got when a refresh fails.
-/

namespace Nyanpasu

namespace Logging

open Naming (parseU64)

structure LogCursor where
  generation : String
  offset : String
  deriving DecidableEq

structure QueryLogs where
  session : String
  filter : Filter
  direction : Direction
  cursor : Option LogCursor
  limit : Nat

structure LogPage where
  rows : List LogRow
  cursor : LogCursor
  head : LogCursor
  start : String
  file : String
  building : Bool
  more : Bool
  isPartial : Bool
  malformed : String
  truncated : String
  indexedBytes : String
  fileBytes : String
  deriving DecidableEq

structure Work where
  index : Index
  identity : String
  name : String
  leading : Bytes
  generation : String

def Work.new (generation : String) : Work := ⟨.new 0, "", "", [], generation⟩

/-- What lies outside of a refresh: at each moment one call to the files or one new
    identifier. -/
structure Outside where
  files : Nat → LogFiles
  uuid : Nat → String
  parsers : Parsers

structure Progress where
  work : Work
  moment : Nat

/-- A refresh that fails keeps its progress; one that panics has none. -/
abbrev Refresh := Fallible LogError Progress

namespace Refresh

variable (outside : Outside)

/-- The moment of the next call. -/
def tick : Refresh Nat :=
  modifyGet fun p => (p.moment, { p with moment := p.moment + 1 })

def catalog : Refresh (List LogFileInfo) := do
  let moment ← tick
  Fallible.lift (outside.files moment).catalog

def read (file : String) (offset length : Nat) : Refresh FileRead := do
  let moment ← tick
  Fallible.lift ((outside.files moment).read file offset length)

def newUuid : Refresh String := do
  let moment ← tick
  return outside.uuid moment

def getWork : Refresh Work := return (← get).work

def setWork (work : Work) : Refresh Unit := modify fun p => { p with work := work }

/-! ## Catching up -/

/-- An empty key is the newest file. -/
def fileName (key : String) : Refresh String := do
  if key = "" then
    match ← catalog outside with
    | [] => throw .fileGone
    | newest :: _ => return newest.id
  else return key

/-- The file is another one, or not a continuation of what was read. -/
def replaced (work : Work) (name : String) (found : FileRead) : Bool :=
  let shared := min work.leading.length found.leading.length
  decide (work.identity ≠ found.identity) || decide (work.name ≠ name) ||
    decide (found.len < work.index.nextRead) ||
    decide (work.leading.take shared ≠ found.leading.take shared)

/-- Start over on the newest window of the file. -/
def restart (name : String) (found : FileRead) : Refresh FileRead := do
  let generation ← newUuid outside
  setWork
    { Work.new generation with
      identity := found.identity
      name := name
      index := .new (found.len - maxWindow) }
  read outside name (found.len - maxWindow) maxBatch

/-- Feed the bytes behind the index to it. -/
def absorb (found : FileRead) : Refresh Unit := do
  let work ← getWork
  setWork { work with leading := found.leading }
  match work.index.append outside.parsers work.index.nextRead found.bytes with
  | .error _ => throw .invalidRequest
  | .ok index => setWork { work with leading := found.leading, index := index }

def continue_ (work : Work) (name : String) (found : FileRead) : Refresh FileRead :=
  if replaced work name found then restart outside name found else pure found

/-- The file that was read and its length. -/
def catchUp (key : String) : Refresh (String × Nat) := do
  let name ← fileName outside key
  let work ← getWork
  let found ← read outside name work.index.nextRead maxBatch
  let found ← continue_ outside work name found
  absorb outside found
  return (name, found.len)

/-! ## Where a page starts -/

def cursor (work : Work) (offset : Nat) : LogCursor := ⟨work.generation, decimalText offset⟩

def blank (work : Work) (name : String) (len : Nat) : LogPage where
  rows := []
  cursor := cursor work work.index.committed
  head := cursor work work.index.committed
  start := decimalText work.index.start
  file := name
  building := decide (work.index.nextRead < len)
  more := false
  isPartial := work.index.isPartial
  malformed := decimalText work.index.malformed
  truncated := decimalText work.index.truncated
  indexedBytes := decimalText work.index.nextRead
  fileBytes := decimalText len

def locate (work : Work) (query : QueryLogs) : Except LogError (Option Nat) :=
  match query.cursor with
  | none => .ok none
  | some cursor =>
      match parseU64 cursor.offset.toList with
      | none => .error .invalidRequest
      | some offset =>
          if cursor.generation ≠ work.generation ∨
              (query.direction = .after ∧ offset < work.index.start) ∨
              work.index.committed < offset then .error .cursorReset
          else .ok (some offset)

/-- The end of a page that lies before the live window. -/
def pastEnd (work : Work) (query : QueryLogs) (offset : Option Nat) : Option Nat :=
  match offset with
  | none => none
  | some offset =>
      if query.direction = .before ∧ 0 < offset ∧ offset ≤ work.index.start then some offset
      else none

/-- A stretch of the file that the index was built from. -/
def readBack (work : Work) (name : String) (start stop : Nat) : Refresh Bytes := do
  let content ← read outside name start (stop - start)
  if content.identity ≠ work.identity ∨ content.len < stop then throw .cursorReset
  else return content.bytes

/-- A temporary index of the bytes before `stop`, which never replaces the live one. -/
def readPast (work : Work) (name : String) (stop : Nat) : Refresh Index := do
  let bytes ← readBack outside work name (stop - maxBatch) stop
  match (Index.new (stop - maxBatch)).append outside.parsers (stop - maxBatch) bytes with
  | .error _ => throw .invalidRequest
  | .ok index => return index

/-- The index that a page is scanned from, and the oldest offset it covers. -/
def source (work : Work) (name : String) (query : QueryLogs) (offset : Option Nat) :
    Refresh (Index × Nat) := do
  match pastEnd work query offset with
  | none => return (work.index, work.index.start)
  | some stop =>
      let index ← readPast outside work name stop
      return (index, if index.entries.isEmpty then stop - maxBatch else index.start)

/-! ## Rows -/

structure Rows where
  bytes : Nat
  responseBytes : Nat
  rows : List LogRow
  /-- The offset behind the last row that was consumed. -/
  reached : Nat
  stopped : Bool

/-- `text` is in lower case. -/
def passes (parsers : Parsers) (text : Option String) (message target : String) : Bool :=
  text.all fun text => contains (parsers.lowercase message) text ||
    contains (parsers.lowercase target) text

/-- What one entry adds, given its bytes. -/
def Rows.take (work : Work) (text : Option String) (reverse : Bool)
    (entry : Entry) (target : String) (content : Bytes) (rows : Rows) : Rows :=
  let rows := { rows with bytes := rows.bytes + content.length }
  let edge := if reverse then entry.start else entry.stop
  let raw := rawText content
  let message := (outside.parsers.message raw).getD raw
  if !passes outside.parsers text message target then { rows with reached := edge }
  else
    let row := LogRow.of work.generation entry target message raw
    let rowBytes := row.json.utf8ByteSize + 1
    if maxBatch < rows.responseBytes + rowBytes then { rows with stopped := true }
    else
      { rows with
        responseBytes := rows.responseBytes + rowBytes
        rows := rows.rows ++ [row]
        reached := edge }

/-- The rows of the entries, nearest first, until a budget is used up. -/
def readRows (work : Work) (name : String) (index : Index) (text : Option String)
    (reverse : Bool) : List Entry → Rows → Refresh Rows
  | [], rows => return rows
  | entry :: entries, rows =>
      if maxBatch < rows.bytes + (entry.stop - entry.start) then
        return { rows with stopped := true }
      else do
        let content ← readBack outside work name entry.start entry.stop
        let rows := rows.take outside work text reverse entry (index.target entry) content
        if rows.stopped then return rows
        else readRows work name index text reverse entries rows

/-! ## Pages -/

/-- The page that an index has for a query. -/
def answerFrom (work : Work) (name : String) (query : QueryLogs) (blank : LogPage)
    (offset : Option Nat) (index : Index) (oldest : Nat) : Refresh LogPage := do
  let scan ← Fallible.orPanic (index.scan query.filter query.direction offset query.limit)
  let reverse := decide (query.direction ≠ .after)
  let text := query.filter.text.map outside.parsers.lowercase
  let near := offset.getD (if reverse then work.index.committed else work.index.start)
  let entries := if reverse then scan.entries.reverse else scan.entries
  let rows ← readRows outside work name index text reverse entries ⟨0, 4096, [], near, false⟩
  let far := if reverse && !scan.more then oldest else scan.boundary
  return { blank with
    rows := if reverse then rows.rows.reverse else rows.rows
    cursor := cursor work (if rows.stopped then rows.reached else far)
    more := scan.more || (reverse && decide (0 < oldest)) || rows.stopped }

def answer (work : Work) (name : String) (query : QueryLogs) (blank : LogPage)
    (offset : Option Nat) : Refresh LogPage := do
  let (index, oldest) ← source outside work name query offset
  answerFrom outside work name query blank offset index oldest

def refreshPage (key : String) (query : QueryLogs) : Refresh LogPage := do
  let (name, len) ← catchUp outside key
  let work ← getWork
  if (blank work name len).building then return blank work name len
  else do
    let offset ← Fallible.lift (locate work query)
    answer outside work name query (blank work name len) offset

end Refresh

end Logging

end Nyanpasu
