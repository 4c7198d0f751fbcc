import Nyanpasu.Logging.Refresh
import Nyanpasu.Table

/-! # The actor of the log sessions

`State` and `LogsActor::handle` of `nyanpasu-logging/src/session.rs`.  Sessions are
leased; every file that has sessions has a slot, and a slot either holds the work on its
file or waits for the one task that has taken it.  A task runs outside of the actor and
comes back as a message.  The clock is read anew at each place that reads it, and adding
to a reading wraps as it does in a release build.
-/

namespace Nyanpasu

namespace Logging

def lease : UInt64 := 45000

def grace : UInt64 := 30000

structure OpenLogs where
  requestId : String
  file : Option String

structure LogSession where
  id : String
  leaseMs : Nat
  deriving DecidableEq

structure Session where
  owner : String
  request : String
  file : String
  expires : UInt64
  deriving DecidableEq

structure Slot where
  work : Option Work
  /-- The handle of the task that has the work. -/
  task : Option Nat
  page : LogPage
  idle : Option UInt64

/-- Where a caller waits. -/
abbrev Port := Nat

inductive Reply where
  | opened (result : Except LogError LogSession)
  | page (result : Except LogError LogPage)
  | closed (result : Except LogError Unit)

/-- A refresh that is on its way. -/
structure Task where
  handle : Nat
  file : String
  work : Work
  query : QueryLogs
  reply : Option Port

structure Actor where
  sessions : Table String Session
  slots : Table String Slot
  /-- The delay after which the next tick is due. -/
  timer : Option UInt64
  tasks : List Task
  /-- How many tasks were spawned. -/
  spawned : Nat
  replies : List (Port × Reply)

/-- What comes back from a task: nothing but an error when its thread panicked. -/
abbrev Outcome := Except LogError (Work × Except LogError LogPage)

inductive Message where
  | openLogs (owner : String) (request : OpenLogs) (reply : Port)
  | query (owner : String) (request : QueryLogs) (reply : Port)
  | close (owner : String) (id : String) (reply : Port)
  | done (file : String) (result : Outcome) (reply : Option Port)
  | tick

/-- The owner that a message is from. -/
def Message.owner : Message → Option String
  | openLogs owner .. | query owner .. | close owner .. => some owner
  | done .. | tick => none

/-- The readings of the clock while one message is handled, and new identifiers. -/
structure Readings where
  reap : UInt64
  now : UInt64
  again : UInt64
  schedule : UInt64
  sessionId : String
  generation : String

def Readings.clock (readings : Readings) : List UInt64 := [readings.reap, readings.now, readings.again]

def emptyPage : LogPage where
  rows := []
  cursor := ⟨"", "0"⟩
  head := ⟨"", "0"⟩
  start := "0"
  file := ""
  building := true
  more := false
  isPartial := false
  malformed := "0"
  truncated := "0"
  indexedBytes := "0"
  fileBytes := "0"

/-- The query that only keeps an index up to date. -/
def latestQuery (session : String) : QueryLogs := ⟨session, .default, .latest, none, 200⟩

namespace Actor

def preStart : Actor := ⟨∅, ∅, none, [], 0, []⟩

def answer (port : Port) (reply : Reply) (a : Actor) : Actor :=
  { a with replies := a.replies ++ [(port, reply)] }

def answerIf (port : Option Port) (reply : Reply) (a : Actor) : Actor :=
  match port with
  | none => a
  | some port => a.answer port reply

/-! ## Leases -/

def hosts (sessions : Table String Session) (file : String) : Bool :=
  sessions.values.any fun session => session.file = file

/-- When the last of the sessions of a file ran out that have run out by now. -/
def lastExpiry (sessions : Table String Session) (now : UInt64) (file : String) : Option UInt64 :=
  ((sessions.values.filter fun session => decide (session.expires ≤ now) && session.file == file).map
    (·.expires)).max?

def settle (a : Actor) (now : UInt64) (live : Table String Session) (file : String) (slot : Slot) :
    Slot :=
  { slot with
    idle := if hosts live file then none
      else slot.idle.or (some ((lastExpiry a.sessions now file).getD now)) }

def reap (now : UInt64) (a : Actor) : Actor :=
  let live := a.sessions.retain fun _ session => !decide (session.expires ≤ now)
  { a with
    sessions := live
    slots := (a.slots.update (a.settle now live)).retain fun _ slot =>
      slot.task.isSome || slot.idle.all fun since => decide (now < since + grace) }

def saturatingSub (a b : UInt64) : UInt64 := if b ≤ a then a - b else 0

def schedule (now : UInt64) (a : Actor) : Actor :=
  let deadlines := a.sessions.values.map (·.expires) ++
    (a.slots.values.filter (·.task.isNone)).filterMap fun slot => slot.idle.map (· + grace)
  { a with timer := deadlines.min?.map fun due => max (saturatingSub due now) 1 }

/-! ## Tasks -/

/-- The task takes the work of its slot along. -/
def spawn (file : String) (work : Work) (query : QueryLogs) (reply : Option Port) (a : Actor) :
    Actor :=
  { a with
    slots := a.slots.modify file fun slot => { slot with work := none, task := some a.spawned }
    tasks := a.tasks ++ [⟨a.spawned, file, work, query, reply⟩]
    spawned := a.spawned + 1 }

/-- A file without a slot is a panic. -/
def launch (file : String) (query : QueryLogs) (reply : Option Port) (a : Actor) : Option Actor :=
  match a.slots.lookup file with
  | none => none
  | some slot =>
      match slot.work with
      | none => some (a.answerIf reply (.page (.ok { slot.page with rows := [], building := true })))
      | some work => some (a.spawn file work query reply)

/-! ## Messages -/

def renew (now : UInt64) (id : String) (a : Actor) : Actor :=
  { a with sessions := a.sessions.modify id fun session => { session with expires := now + lease } }

/-- A slot for the file, which is in use from now on. -/
def ensureSlot (generation : String) (file : String) (a : Actor) : Actor :=
  match a.slots.lookup file with
  | some _ => { a with slots := a.slots.modify file fun slot => { slot with idle := none } }
  | none =>
      { a with slots := a.slots.insert file ⟨some (.new generation), none, emptyPage, none⟩ }

def full (file : String) (a : Actor) : Bool :=
  decide (16 ≤ a.sessions.size) || ((a.slots.lookup file).isNone && decide (4 ≤ a.slots.size))

def enroll (r : Readings) (owner request file : String) (a : Actor) : Actor :=
  { a with sessions := a.sessions.insert r.sessionId ⟨owner, request, file, r.now + lease⟩ }.ensureSlot
    r.generation file

def admitSession (r : Readings) (owner request file : String) (reply : Port) (a : Actor) : Option Actor :=
  let a := (a.enroll r owner request file).answer reply (.opened (.ok ⟨r.sessionId, 45000⟩))
  if (a.slots.lookup file).any (·.task.isNone) then
    a.launch file (latestQuery r.sessionId) none
  else some a

def handleOpen (r : Readings) (owner : String) (request : OpenLogs) (reply : Port) (a : Actor) :
    Option Actor :=
  let file := request.file.getD ""
  match a.sessions.entries.find? fun entry =>
      entry.2.owner = owner && entry.2.request = request.requestId with
  | some ⟨id, session⟩ =>
      if session.file ≠ file then some (a.answer reply (.opened (.error .invalidRequest)))
      else some ((a.renew r.now id).answer reply (.opened (.ok ⟨id, 45000⟩)))
  | none =>
      if a.full file then some (a.answer reply (.opened (.error .limit)))
      else a.admitSession r owner request.requestId file reply

def handleQuery (r : Readings) (owner : String) (request : QueryLogs) (reply : Port) (a : Actor) :
    Option Actor :=
  match (a.sessions.lookup request.session).filter fun session => session.owner = owner with
  | some session => (a.renew r.now request.session).launch session.file request (some reply)
  | none => some (a.answer reply (.page (.error .sessionExpired)))

def handleClose (r : Readings) (owner id : String) (reply : Port) (a : Actor) : Actor :=
  if (a.sessions.lookup id).any fun session => session.owner ≠ owner then
    a.answer reply (.closed (.error .sessionExpired))
  else
    ({ a with sessions := a.sessions.erase id }.reap r.again).answer reply (.closed (.ok ()))

/-- The slot gets its work back. -/
def restore (file : String) (work : Work) (page : Option LogPage) (a : Actor) : Actor :=
  { a with slots := a.slots.modify file fun slot =>
    { slot with task := none, work := some work, page := page.getD slot.page } }

/-- An index that is still behind its file is refreshed again. -/
def handleDone (r : Readings) (file : String) (result : Outcome) (reply : Option Port) (a : Actor) :
    Option Actor :=
  if (a.slots.lookup file).isNone then some (a.reap r.again)
  else match result with
    | .error error =>
        let a := a.restore file (.new r.generation) (some emptyPage)
        some ((a.answerIf reply (.page (.error error))).reap r.again)
    | .ok (work, .error error) =>
        let a := a.restore file work none
        some (a.answerIf reply (.page (.error error)))
    | .ok (work, .ok page) =>
        let a := a.restore file work (some { page with rows := [] })
        let a := a.answerIf reply (.page (.ok page))
        (if page.building && hosts a.sessions file then a.launch file (latestQuery "") none
          else some a).map (reap r.again)

def dispatch (r : Readings) (message : Message) (a : Actor) : Option Actor :=
  match message with
  | .openLogs owner request reply => a.handleOpen r owner request reply
  | .query owner request reply => a.handleQuery r owner request reply
  | .close owner id reply => some (a.handleClose r owner id reply)
  | .done file result reply => a.handleDone r file result reply
  | .tick => some a

/-- Nothing is returned only where the source panics. -/
def handle (r : Readings) (message : Message) (a : Actor) : Option Actor :=
  ((a.reap r.reap).dispatch r message).map (schedule r.schedule)

/-! ## The actor and its tasks -/

inductive Event where
  | message (r : Readings) (message : Message)
  /-- A task ends and its result is handled. -/
  | finished (r : Readings) (task : Task) (result : Outcome)

def Event.readings : Event → Readings
  | message r _ | finished r _ _ => r

/-- The message that the actor handles. -/
def Event.handled : Event → Message
  | message _ m => m
  | finished _ task result => .done task.file result task.reply

/-- The task that ends. -/
def Event.ends : Event → Option Nat
  | message .. => none
  | finished _ task _ => some task.handle

/-- A result comes from a task that is on its way, once; new identifiers are new. -/
def Event.Possible (event : Event) (a : Actor) : Prop :=
  a.sessions.lookup event.readings.sessionId = none ∧
    match event with
    | message _ m => m.owner.isSome ∨ m = .tick
    | finished _ task _ => task ∈ a.tasks

def step (event : Event) (a : Actor) : Option Actor :=
  match event with
  | .message r m => a.handle r m
  | .finished r task result =>
      { a with tasks := a.tasks.filter (·.handle ≠ task.handle) }.handle r
        (.done task.file result task.reply)

inductive Reachable : Actor → Prop where
  | start : Reachable preStart
  | step {a after : Actor} (event : Event) : Reachable a → event.Possible a →
      a.step event = some after → Reachable after

end Actor

end Logging

end Nyanpasu
