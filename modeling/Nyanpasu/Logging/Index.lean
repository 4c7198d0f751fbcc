import Nyanpasu.Config
import Nyanpasu.Interning
import Nyanpasu.Window
import Mathlib.Data.List.AList

/-! # The log index

`nyanpasu-logging/src/index.rs`: the index that one actor keeps of a log file.  Lines
are fed in batches, split at any byte; the newest of them are retained, with one list
of their starts for each target and each level.  Offsets and counters are natural
numbers.
-/

namespace Nyanpasu

namespace Logging

def maxWindow : Nat := 32 * 1024 * 1024

def maxEntries : Nat := 250000

def maxLine : Nat := 256 * 1024

def maxBatch : Nat := 1024 * 1024

def maxTargetBytes : Nat := 8 * 1024 * 1024

def maxPage : Nat := 200

def maxScan : Nat := 2000

inductive Level where
  | trace
  | debug
  | info
  | warn
  | error
  | fatal
  | unknown
  deriving Repr, DecidableEq

def Level.parse (value : String) : Level :=
  match value.toLower with
  | "trace" => .trace
  | "debug" => .debug
  | "info" => .info
  | "warn" | "warning" => .warn
  | "error" => .error
  | "fatal" => .fatal
  | _ => .unknown

structure Filter where
  levels : List Level
  target : Option String
  fromMs : Option Int
  toMs : Option Int
  text : Option String
  deriving DecidableEq

def Filter.default : Filter := ⟨[], none, none, none, none⟩

def Filter.valid (filter : Filter) : Bool :=
  decide (filter.levels.length ≤ 7) &&
  filter.target.all (fun target => decide (target.utf8ByteSize ≤ 4096)) &&
  filter.text.all (fun text => decide (text.length ≤ 256)) &&
  !(match filter.fromMs, filter.toMs with
    | some a, some b => decide (b < a)
    | _, _ => false)

inductive Direction where
  | latest
  | before
  | after
  deriving Repr, DecidableEq

/-- The string members of a JSON object that the index reads. -/
structure Members where
  timestamp : Option String
  level : Option String
  target : Option String

/-- The parsers of other packages, and the standard library's lower case.  `object` is
    what a line holds, unless it is no JSON object; `rfc3339` is a time in
    milliseconds; `message` is the string at `fields.message`. -/
structure Parsers where
  object : Bytes → Option Members
  rfc3339 : String → Option Int
  message : String → Option String
  lowercase : String → String

structure Entry where
  start : Nat
  stop : Nat
  timestamp : Option Int
  level : Level
  target : Nat
  unparsed : Bool
  truncated : Bool

structure Scan where
  entries : List Entry
  boundary : Nat
  more : Bool

structure Index where
  entries : List Entry
  targets : Pool String
  postings : AList fun _ : Nat => List Nat
  levels : Level → List Nat
  targetBytes : Nat
  pending : Bytes
  lineStart : Nat
  nextRead : Nat
  committed : Nat
  skipping : Bool
  malformed : Nat
  truncated : Nat
  isPartial : Bool

/-! ## What a line says -/

/-- A line as it is understood before a target may be given up for want of room. -/
structure Reading where
  timestamp : Option Int
  level : Level
  target : String
  unparsed : Bool
  truncated : Bool
  deriving DecidableEq

def Parsers.read (parsers : Parsers) (line : Bytes) : Reading :=
  let object := parsers.object line
  let rawTarget := (object.bind (·.target)).getD ""
  let tooLong := decide (4096 < rawTarget.utf8ByteSize)
  { timestamp := (object.bind (·.timestamp)).bind parsers.rfc3339
    level := ((object.bind (·.level)).map Level.parse).getD .unknown
    target := if tooLong then "" else rawTarget
    unparsed := object.isNone
    truncated := tooLong }

def Reading.entry (reading : Reading) (start stop : Nat) (truncated : Bool) (key : Nat) : Entry where
  start := start
  stop := stop
  timestamp := reading.timestamp
  level := reading.level
  target := key
  unparsed := reading.unparsed
  truncated := truncated

namespace Index

/-- A window that starts inside a record discards the leading fragment. -/
def new (start : Nat) : Index where
  entries := []
  targets := .empty
  postings := ∅
  levels := fun _ => []
  targetBytes := 0
  pending := []
  lineStart := start
  nextRead := start
  committed := start
  skipping := start ≠ 0
  malformed := 0
  truncated := 0
  isPartial := start ≠ 0

def start (index : Index) : Nat := (index.entries.head?.map (·.start)).getD index.committed

/-- The pool panics on a foreign key; no entry of a reachable index holds one. -/
def target (index : Index) (entry : Entry) : String :=
  (index.targets.resolve entry.target).getD ""

/-! ## Eviction -/

/-- Neither too many entries nor one before the window. -/
def fits (nextRead : Nat) (starts : List Nat) : Bool :=
  decide (starts.length ≤ maxEntries) &&
    starts.head?.all (fun start => decide (nextRead - maxWindow ≤ start))

def push (lists : AList fun _ : Nat => List Nat) (key value : Nat) :
    AList fun _ : Nat => List Nat :=
  lists.insert key ((lists.lookup key).getD [] ++ [value])

def pushLevel (levels : Level → List Nat) (level : Level) (value : Nat) : Level → List Nat :=
  Function.update levels level (levels level ++ [value])

/-- The key of a target, which takes room when it is new. -/
def intern (index : Index) (target : String) : Nat × Index :=
  let interned := index.targets.intern target
  (interned.1, { index with
    targets := interned.2
    targetBytes := index.targetBytes +
      if target ∈ index.targets.values then 0 else target.utf8ByteSize })

/-- Put an entry at the back, under a target. -/
def record (index : Index) (target : String) (entry : Nat → Entry) : Index :=
  let (key, index) := index.intern target
  { index with
    entries := index.entries ++ [entry key]
    postings := push index.postings key (entry key).start
    levels := pushLevel index.levels (entry key).level (entry key).start }

/-- The same entries over a pool of their own. -/
def rebuild (index : Index) (kept : List Entry) : Index :=
  kept.foldl
    (fun built entry => built.record (index.target entry) fun key => { entry with target := key })
    { index with
      entries := []
      targets := .empty
      postings := ∅
      levels := fun _ => []
      targetBytes := 0 }

def evict (index : Index) : Index :=
  let kept := trimFront (fun entries => fits index.nextRead (entries.map (·.start))) index.entries
  if kept.length < index.entries.length then { index.rebuild kept with isPartial := true }
  else index

/-! ## Insertion -/

/-- There is no room for a target that is not in the pool. -/
def overflows (index : Index) (target : String) : Bool :=
  decide (maxTargetBytes < index.targetBytes + target.utf8ByteSize)

/-- Room for the target, or the empty target and a mark that it was given up. -/
def makeRoom (index : Index) (target : String) (truncated : Bool) : Index × String × Bool :=
  if (index.targets.get target).isNone && index.overflows target then
    let index := index.evict
    if index.overflows target then (index, "", true) else (index, target, truncated)
  else (index, target, truncated)

def enter (index : Index) (reading : Reading) (target : String) (truncated : Bool) : Index :=
  let index := { index with
    malformed := index.malformed + reading.unparsed.toNat
    truncated := index.truncated + truncated.toNat }
  index.record target (reading.entry index.lineStart index.nextRead truncated)

def insert (parsers : Parsers) (index : Index) (line : Bytes) : Index :=
  let reading := parsers.read line
  let (index, target, truncated) := index.makeRoom reading.target reading.truncated
  index.enter reading target truncated

def newline : UInt8 := 10

/-- A line ends; it is entered unless its beginning was dropped. -/
def endLine (parsers : Parsers) (index : Index) : Index :=
  let index := if index.skipping then index else index.insert parsers index.pending
  { index with
    pending := []
    skipping := false
    committed := index.nextRead
    lineStart := index.nextRead }

def feed (parsers : Parsers) (index : Index) (byte : UInt8) : Index :=
  let index := { index with nextRead := index.nextRead + 1 }
  if byte = newline then index.endLine parsers
  else if index.skipping then index
  else if index.pending.length = maxLine then
    { index with
      pending := []
      skipping := true
      truncated := index.truncated + 1
      isPartial := true }
  else { index with pending := index.pending ++ [byte] }

def append (parsers : Parsers) (index : Index) (offset : Nat) (bytes : Bytes) :
    Except String Index :=
  if offset ≠ index.nextRead ∨ maxBatch < bytes.length then
    .error "noncontiguous or oversized batch"
  else .ok (bytes.foldl (feed parsers) index).evict

/-! ## Scanning -/

/-- The tests of a candidate against the filter, whose target has this key. -/
def accepts (filter : Filter) (targetKey : Option Nat) (entry : Entry) : Bool :=
  (filter.levels.isEmpty || filter.levels.contains entry.level) &&
  targetKey.all (fun key => key == entry.target) &&
  filter.fromMs.all (fun since => entry.timestamp.any fun t => decide (since ≤ t)) &&
  filter.toMs.all (fun until_ => entry.timestamp.any fun t => decide (t < until_))

/-- Candidates are looked up one by one; a start that no entry has is a panic. -/
def scanLoop (accepted : Entry → Bool) (reverse : Bool) (limit : Nat) :
    List (Option Entry) → Nat → Scan → Option Scan
  | [], _, result => some result
  | candidate :: rest, scanned, result =>
      match candidate with
      | none => none
      | some entry =>
          if maxScan ≤ scanned ∨ limit ≤ result.entries.length then
            some { result with more := true }
          else
            let result := { result with
              boundary := if reverse then entry.start else entry.stop }
            scanLoop accepted reverse limit rest (scanned + 1)
              (if accepted entry then { result with entries := result.entries ++ [entry] }
                else result)

/-- The far end of a scan in one direction. -/
def farEnd (index : Index) (reverse : Bool) : Nat :=
  if reverse then index.start else index.committed

/-- The shorter of the lists that apply. -/
def posting (index : Index) (filter : Filter) (targetKey : Option Nat) : Option (List Nat) :=
  let byTarget := targetKey.bind index.postings.lookup
  let byLevel := match filter.levels with
    | [level] => some (index.levels level)
    | _ => none
  match byTarget, byLevel with
  | some a, some b => some (if a.length < b.length then a else b)
  | a, b => a.or b

def candidates (index : Index) (posting : Option (List Nat)) (reverse : Bool) (boundary : Nat) :
    List (Option Entry) :=
  match posting with
  | some posting =>
      let ids := if reverse then (posting.takeWhile (· < boundary)).reverse
        else posting.dropWhile (· < boundary)
      ids.map fun id => index.entries.find? (·.start = id)
  | none =>
      let entries := if reverse then (index.entries.takeWhile (·.start < boundary)).reverse
        else index.entries.dropWhile (·.start < boundary)
      entries.map some

/-- A scan that met every candidate ends at the far end; pages are in file order. -/
def conclude (index : Index) (reverse : Bool) (result : Scan) : Scan where
  entries := if reverse then result.entries.reverse else result.entries
  boundary := if result.more then result.boundary else index.farEnd reverse
  more := result.more

/-- Nothing is returned only where the source panics. -/
def scan (index : Index) (filter : Filter) (direction : Direction) (boundary : Option Nat)
    (limit : Nat) : Option Scan :=
  let reverse := decide (direction ≠ .after)
  let boundary := boundary.getD (index.farEnd !reverse)
  let targetKey := filter.target.bind index.targets.get
  if filter.target.isSome && targetKey.isNone then
    some ⟨[], index.farEnd reverse, false⟩
  else do
    let candidates := index.candidates (index.posting filter targetKey) reverse boundary
    let result ← scanLoop (accepts filter targetKey) reverse (max 1 (min limit maxPage))
      candidates 0 ⟨[], boundary, false⟩
    return index.conclude reverse result

end Index

end Logging

end Nyanpasu
