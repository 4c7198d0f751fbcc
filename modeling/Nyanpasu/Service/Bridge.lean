import Nyanpasu.Service.Status
import Nyanpasu.Feed

/-! # From the manager's status to the websocket clients

`status_bridge` of `manager_bridge.rs`, the hub of `events.rs` and `handle_socket` of
`routing/ws.rs`.  The manager and the echo are watched cells; one task turns their
changes into frames on a ring, and every connection has a task that sends a snapshot
first and then what the ring gives it.

A state holds where each task stands between two accesses to what they share, and every
access is one step.  The manager may publish any status at any time.
-/

namespace Nyanpasu

open Wire

/-- `EVENT_CHANNEL_CAPACITY`. -/
def eventChannelCapacity : Nat := 256

/-- Where the task of `status_bridge` stands. -/
inductive BridgePhase where
  /-- Not polled yet. -/
  | spawned
  /-- Waiting for a change of either cell. -/
  | waiting
  /-- Woken by the status, about to read it. -/
  | statusChanged
  /-- About to read the echo. -/
  | statusRead (raw : CoreStatus)
  /-- About to send the snapshot. -/
  | statusReady (raw : CoreStatus) (infos : CoreInfos)
  /-- About to send the two-valued state, or not. -/
  | legacy (raw : CoreStatus)
  /-- Woken by the echo, about to read the status. -/
  | echoChanged
  | echoRead (raw : CoreStatus)
  | echoReady (infos : CoreInfos)
  deriving DecidableEq

/-- The task of `status_bridge` with the versions its receivers have marked as seen. -/
structure StatusBridge where
  phase : BridgePhase
  seenStatus : Nat
  seenEcho : Nat
  last : Wire.CoreState

/-- Where the task of a connection stands. -/
inductive ClientPhase where
  /-- Subscribed, about to read the status for a snapshot. -/
  | subscribed
  /-- About to read the echo. -/
  | statusRead (raw : CoreStatus)
  /-- About to send the snapshot. -/
  | sending (infos : CoreInfos)
  /-- Waiting for the ring. -/
  | listening
  | closed
  deriving DecidableEq

/-- A connection: where its receiver stands in the ring, and the frames it was sent. -/
structure Client where
  position : Nat
  phase : ClientPhase
  received : List Wire.Event

structure StatusService where
  states : Watch CoreStatus
  requestedCore : Watch (Option CoreType)
  hub : Ring Wire.Event
  bridge : StatusBridge
  clients : List Client

namespace StatusService

/-- `CoreManager::status`, were it read at once. -/
def status (format : Format) (s : StatusService) : CoreInfos :=
  projectCoreInfos format s.states.value s.requestedCore.value

/-- `EventHub::send`: without a subscriber nothing is stored. -/
def send (s : StatusService) (event : Wire.Event) : Ring Wire.Event :=
  if s.clients.any (·.phase ≠ .closed) then s.hub.send event else s.hub

def isStopped : Wire.CoreState → Bool
  | .stopped _ => true
  | _ => false

def isTransient : CoreState → Bool
  | .stopping _ | .switching _ _ => true
  | _ => false

/-- The legacy state after a snapshot, behind its guards. -/
def sendLegacy (s : StatusService) (raw : CoreStatus) : StatusService :=
  let next := mapCoreState raw.state
  if isTransient raw.state && isStopped s.bridge.last then
    { s with bridge := { s.bridge with phase := .waiting } }
  else if sameIpcState s.bridge.last next then
    { s with bridge := { s.bridge with phase := .waiting } }
  else
    { s with
      hub := s.send (.coreStateChanged next)
      bridge := { s.bridge with phase := .waiting, last := next } }

/-- The next access of `status_bridge`, outside its `select!`. -/
def advanceBridge (format : Format) (s : StatusService) : Option StatusService :=
  match s.bridge.phase with
  | .spawned =>
      some { s with bridge := { s.bridge with
        phase := .waiting
        seenStatus := s.states.version
        last := mapCoreState s.states.value.state } }
  | .waiting => none
  | .statusChanged =>
      some { s with bridge := { s.bridge with
        phase := .statusRead s.states.value, seenStatus := s.states.version } }
  | .statusRead raw =>
      some { s with bridge := { s.bridge with
        phase := .statusReady raw (projectCoreInfos format raw s.requestedCore.value)
        seenEcho := s.requestedCore.version } }
  | .statusReady raw infos =>
      some { s with
        hub := s.send (.coreStatusChanged infos)
        bridge := { s.bridge with phase := .legacy raw } }
  | .legacy raw => some (s.sendLegacy raw)
  | .echoChanged =>
      -- the status is read without marking it as seen
      some { s with bridge := { s.bridge with phase := .echoRead s.states.value } }
  | .echoRead raw =>
      some { s with bridge := { s.bridge with
        phase := .echoReady (projectCoreInfos format raw s.requestedCore.value)
        seenEcho := s.requestedCore.version } }
  | .echoReady infos =>
      some { s with
        hub := s.send (.coreStatusChanged infos)
        bridge := { s.bridge with phase := .waiting } }

/-- The next access of a connection's task. -/
def advanceClient (format : Format) (s : StatusService) (client : Client) : Option Client :=
  match client.phase with
  | .subscribed => some { client with phase := .statusRead s.states.value }
  | .statusRead raw =>
      some { client with phase := .sending (projectCoreInfos format raw s.requestedCore.value) }
  | .sending infos =>
      some { client with
        phase := .listening
        received := client.received ++ [.coreStatusChanged infos] }
  | .listening =>
      match s.hub.recv client.position with
      | none => none
      | some (.message event, position) =>
          some { client with position := position, received := client.received ++ [event] }
      | some (.lagged _, _) =>
          -- skip the backlog, and start with a snapshot again
          some { client with position := s.hub.tail, phase := .subscribed }
  | .closed => none

def setClient (s : StatusService) (index : Nat) (client : Client) : StatusService :=
  { s with clients := s.clients.set index client }

inductive Action where
  /-- The manager publishes a status. -/
  | publish (status : CoreStatus)
  /-- The echo is published, with a new core type or as it is. -/
  | publishRequestedCore (committed : Option CoreType)
  /-- `select!` takes the branch of the status. -/
  | wakeStatus
  /-- `select!` takes the branch of the echo. -/
  | wakeEcho
  | bridge
  | connect
  | client (index : Nat)
  /-- A connection is sent a record of the log ring. -/
  | log (index : Nat) (raw : String)
  | disconnect (index : Nat)

def step (format : Format) (s : StatusService) : Action → Option StatusService
  | .publish status => some { s with states := s.states.send status }
  | .publishRequestedCore committed =>
      some { s with
        requestedCore := s.requestedCore.send (committed <|> s.requestedCore.value) }
  | .wakeStatus =>
      if s.bridge.phase = .waiting ∧ s.bridge.seenStatus ≠ s.states.version then
        some { s with bridge := { s.bridge with
          phase := .statusChanged, seenStatus := s.states.version } }
      else none
  | .wakeEcho =>
      if s.bridge.phase = .waiting ∧ s.bridge.seenEcho ≠ s.requestedCore.version then
        some { s with bridge := { s.bridge with
          phase := .echoChanged, seenEcho := s.requestedCore.version } }
      else none
  | .bridge => s.advanceBridge format
  | .connect => some { s with clients := s.clients ++ [⟨s.hub.tail, .subscribed, []⟩] }
  | .client index =>
      s.clients[index]?.bind fun client =>
        (s.advanceClient format client).map (s.setClient index)
  | .log index raw =>
      s.clients[index]?.bind fun client =>
        if client.phase = .listening then
          some (s.setClient index { client with received := client.received ++ [.coreLog raw] })
        else none
  | .disconnect index =>
      s.clients[index]?.map fun client =>
        s.setClient index { client with phase := .closed }

/-- After `spawn_bridges`: both cells are watched, nothing was sent, nobody is connected.
    What `last` is at first does not matter, since the task sets it before it is read. -/
def Initial (s : StatusService) : Prop :=
  s.hub = .new Wire.Event eventChannelCapacity ∧ s.clients = [] ∧ s.bridge.phase = .spawned ∧
    s.bridge.seenStatus = s.states.version ∧ s.bridge.seenEcho = s.requestedCore.version

end StatusService

end Nyanpasu
