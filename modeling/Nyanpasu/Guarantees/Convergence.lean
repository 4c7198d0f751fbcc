import Nyanpasu.Service.Bridge

/-! # A client ends with the current status

While a change is unseen or a frame is on its way the bridge has work to do.  Otherwise
every connection has, in what it was sent, in the snapshot it is about to send and in what
the ring still holds for it, the current status last.  Reading from the ring and sending a
snapshot only move frames along this sequence.
-/

namespace Nyanpasu

open Wire

/-- The bridge is between a change and its frame. -/
def BridgePhase.busy : BridgePhase → Bool
  | spawned | waiting | legacy _ => false
  | _ => true

namespace StatusService

variable {format : Format} {s s' : StatusService} {client : Client}

structure Calm (s : StatusService) : Prop where
  status : s.bridge.seenStatus = s.states.version
  echo : s.bridge.seenEcho = s.requestedCore.version
  idle : s.bridge.phase.busy = false

/-- The snapshot a connection is about to send, if nothing changes until then. -/
def snapshot (format : Format) (s : StatusService) (client : Client) : List Wire.Event :=
  match client.phase with
  | .subscribed => [.coreStatusChanged (s.status format)]
  | .statusRead raw => [.coreStatusChanged (projectCoreInfos format raw s.requestedCore.value)]
  | .sending infos => [.coreStatusChanged infos]
  | .listening | .closed => []

/-- Everything a connection was sent or has before it. -/
def outlook (format : Format) (s : StatusService) (client : Client) : List Wire.Event :=
  client.received ++ s.snapshot format client ++ s.hub.unread client.position

/-- What the bridge has read is current, unless there is a change it has not seen. -/
def Truthful (format : Format) (s : StatusService) : Prop :=
  match s.bridge.phase with
  | .statusRead raw | .echoRead raw =>
      s.bridge.seenStatus = s.states.version → raw = s.states.value
  | .statusReady _ infos | .echoReady infos =>
      s.bridge.seenStatus = s.states.version → s.bridge.seenEcho = s.requestedCore.version →
        infos = s.status format
  | _ => True

/-- Where a connection stands when the bridge has nothing to do. -/
def Informed (format : Format) (s : StatusService) (client : Client) : Prop :=
  client.phase ≠ .closed → lastStatus (s.outlook format client) = some (s.status format)

structure Converging (format : Format) (s : StatusService) : Prop where
  seenStatus : s.bridge.seenStatus ≤ s.states.version
  seenEcho : s.bridge.seenEcho ≤ s.requestedCore.version
  truthful : s.Truthful format
  silent : s.bridge.phase = .spawned → s.hub.sent = []
  positions : ∀ client ∈ s.clients, client.position ≤ s.hub.tail
  informed : s.Calm → ∀ client ∈ s.clients, s.Informed format client

theorem converging_initial (initial : Initial s) : s.Converging format := by
  obtain ⟨hub, clients, phase, status, echo⟩ := initial
  refine ⟨status.le, echo.le, ?_, ?_, ?_, ?_⟩
  · simp [Truthful, phase]
  · intro _
    rw [hub]
    rfl
  · rw [clients]
    exact fun _ none => by cases none
  · rw [clients]
    exact fun _ _ none => by cases none

variable {bridge : StatusBridge}

/-! ## The ring -/

/-- A frame reaches every connection that is open. -/
theorem outlook_send {event : Wire.Event} (member : client ∈ s.clients)
    (opened : client.phase ≠ .closed) (inside : client.position ≤ s.hub.tail) :
    { s with hub := s.send event, bridge := bridge }.outlook format client =
      s.outlook format client ++ [event] := by
  have heard : s.clients.any (fun client => client.phase ≠ .closed) = true :=
    List.any_eq_true.mpr ⟨client, member, decide_eq_true opened⟩
  have stored : s.send event = s.hub.send event := if_pos heard
  simp only [outlook, stored, Ring.unread_send inside, List.append_assoc]
  rfl

theorem tail_le_send (s : StatusService) (event : Wire.Event) :
    s.hub.tail ≤ (s.send event).tail := by
  rw [send]
  split
  · rw [Ring.tail_send]
    exact Nat.le_succ _
  · exact le_rfl

variable {index : Nat}

/-! ## Changes -/

section

variable (converging : s.Converging format)

include converging

theorem Converging.publish (status : CoreStatus) :
    { s with states := s.states.send status }.Converging format := by
  have seen := converging.seenStatus
  refine ⟨Nat.le_succ_of_le seen, converging.seenEcho, ?_, converging.silent,
    converging.positions, ?_⟩
  · simp only [Truthful, Watch.send]
    split
    all_goals first | trivial | (intro same; omega)
  · intro calm
    have same := calm.status
    simp only [Watch.send] at same
    omega

theorem Converging.publishRequestedCore (committed : Option CoreType) :
    { s with requestedCore := s.requestedCore.send committed }.Converging format := by
  have seen := converging.seenEcho
  refine ⟨converging.seenStatus, Nat.le_succ_of_le seen, ?_, converging.silent,
    converging.positions, ?_⟩
  · have truthful := converging.truthful
    simp only [Truthful, Watch.send] at truthful ⊢
    split at truthful
    · exact truthful
    · exact truthful
    · intro _ same
      omega
    · intro _ same
      omega
    · trivial
  · intro calm
    have same := calm.echo
    simp only [Watch.send] at same
    omega

/-! ## The bridge -/

/-- While the bridge is between a change and its frame, only what it read matters. -/
theorem Converging.busy (busy : bridge.phase.busy = true)
    (seenStatus : bridge.seenStatus ≤ s.states.version)
    (seenEcho : bridge.seenEcho ≤ s.requestedCore.version)
    (truthful : { s with bridge := bridge }.Truthful format) :
    { s with bridge := bridge }.Converging format where
  seenStatus := seenStatus
  seenEcho := seenEcho
  truthful := truthful
  silent := fun spawned => by
    simp only at spawned
    rw [spawned] at busy
    cases busy
  positions := converging.positions
  informed := fun calm => by
    have idle := calm.idle
    rw [busy] at idle
    cases idle

/-- A snapshot goes out.  It is current, unless there is more to come. -/
theorem Converging.sendStatus {infos : CoreInfos} {phase : BridgePhase} (started : phase ≠ .spawned)
    (idle : phase = .waiting ∨ ∃ raw, phase = .legacy raw)
    (current : s.bridge.seenStatus = s.states.version → s.bridge.seenEcho = s.requestedCore.version → infos = s.status format) :
    { s with
      hub := s.send (.coreStatusChanged infos)
      bridge := { s.bridge with phase := phase } }.Converging format := by
  refine ⟨converging.seenStatus, converging.seenEcho, ?_, fun spawned => absurd spawned started,
    fun client member => (converging.positions client member).trans (s.tail_le_send _), ?_⟩
  · rcases idle with rfl | ⟨raw, rfl⟩ <;> trivial
  · intro calm client member opened
    have same := current calm.status calm.echo
    rw [outlook_send (s := s) member opened (converging.positions client member), lastStatus_append_status,
      same]
    rfl

theorem Converging.sendLegacy {raw : CoreStatus} (phase : s.bridge.phase = .legacy raw)
    : (s.sendLegacy raw).Converging format := by
  have idle : s.bridge.phase.busy = false := by
    rw [phase]
    rfl
  have quiet : { s with bridge := { s.bridge with phase := .waiting } }.Converging format :=
    ⟨converging.seenStatus, converging.seenEcho, trivial, fun spawned => (by cases spawned),
      converging.positions, fun calm => converging.informed ⟨calm.status, calm.echo, idle⟩⟩
  unfold StatusService.sendLegacy
  simp only
  split
  · exact quiet
  · split
    · exact quiet
    · refine ⟨converging.seenStatus, converging.seenEcho, trivial, fun spawned => (by cases spawned),
        fun client member => (converging.positions client member).trans (s.tail_le_send _), ?_⟩
      intro calm client member opened
      rw [outlook_send (s := s) member opened (converging.positions client member),
        lastStatus_append_other rfl]
      exact converging.informed ⟨calm.status, calm.echo, idle⟩ client member opened

/-- At its first poll the bridge takes the status as seen.  A status published since it
    subscribed is then sent to nobody, and a connected client has it in no snapshot. -/
def Swallows (format : Format) (s : StatusService) (action : Action) : Prop :=
  action = .bridge ∧ s.bridge.phase = .spawned ∧ s.bridge.seenStatus ≠ s.states.version ∧
    s.bridge.seenEcho = s.requestedCore.version ∧
    ∃ client ∈ s.clients, client.phase ≠ .closed ∧
      lastStatus (client.received ++ s.snapshot format client) ≠ some (s.status format)

theorem Converging.firstPoll (phase : s.bridge.phase = .spawned)
    (keeps : ¬ s.Swallows format .bridge) {last : Wire.CoreState} :
    { s with bridge := { s.bridge with
      phase := .waiting, seenStatus := s.states.version, last := last } }.Converging format := by
  refine ⟨le_rfl, converging.seenEcho, trivial, fun spawned => (by cases spawned),
    converging.positions, ?_⟩
  intro calm client member opened
  by_cases seen : s.bridge.seenStatus = s.states.version
  · have idle : s.bridge.phase.busy = false := by
      rw [phase]
      rfl
    exact converging.informed ⟨seen, calm.echo, idle⟩ client member opened
  · -- the ring is still empty, so the snapshot is all there is
    have nothing : s.hub.unread client.position = [] := by
      rw [Ring.unread, converging.silent phase, List.drop_nil]
    by_contra stale
    refine keeps ⟨rfl, phase, seen, calm.echo, client, member, opened, ?_⟩
    intro shown
    apply stale
    simp only [outlook, nothing, List.append_nil]
    exact shown

theorem Converging.advanceBridge (advances : s.advanceBridge format = some s')
    (keeps : ¬ s.Swallows format .bridge) : s'.Converging format := by
  have truthful := converging.truthful
  unfold Truthful at truthful
  cases phase : s.bridge.phase with
  | spawned =>
      simp only [StatusService.advanceBridge, phase, Option.some.injEq] at advances
      subst advances
      exact converging.firstPoll phase keeps
  | waiting =>
      simp only [StatusService.advanceBridge, phase] at advances
      cases advances
  | statusChanged =>
      simp only [StatusService.advanceBridge, phase, Option.some.injEq] at advances
      subst advances
      exact converging.busy rfl le_rfl converging.seenEcho fun _ => rfl
  | statusRead raw | echoRead raw =>
      simp only [StatusService.advanceBridge, phase, Option.some.injEq] at advances
      simp only [phase] at truthful
      subst advances
      refine converging.busy rfl converging.seenStatus le_rfl ?_
      intro seen _
      rw [truthful seen]
      rfl
  | statusReady raw infos =>
      simp only [StatusService.advanceBridge, phase, Option.some.injEq] at advances
      simp only [phase] at truthful
      subst advances
      exact converging.sendStatus (by simp) (.inr ⟨raw, rfl⟩) truthful
  | legacy raw =>
      simp only [StatusService.advanceBridge, phase, Option.some.injEq] at advances
      subst advances
      exact converging.sendLegacy phase
  | echoChanged =>
      simp only [StatusService.advanceBridge, phase, Option.some.injEq] at advances
      subst advances
      exact converging.busy rfl converging.seenStatus converging.seenEcho fun _ => rfl
  | echoReady infos =>
      simp only [StatusService.advanceBridge, phase, Option.some.injEq] at advances
      simp only [phase] at truthful
      subst advances
      exact converging.sendStatus (by simp) (.inl rfl) truthful

/-! ## The connections -/

theorem Converging.setClient (inside : client.position ≤ s.hub.tail)
    (informed : s.Calm → s.Informed format client) :
    (s.setClient index client).Converging format where
  __ := converging
  positions := fun other member => by
    rcases List.mem_or_eq_of_mem_set member with before | rfl
    · exact converging.positions other before
    · exact inside
  informed := fun calm other member => by
    have before : s.Calm := { calm with }
    rcases List.mem_or_eq_of_mem_set member with known | rfl
    · exact converging.informed before other known
    · exact informed before

theorem Converging.connect :
    StatusService.Converging format
      { s with clients := s.clients ++ [⟨s.hub.tail, .subscribed, []⟩] } where
  __ := converging
  positions := fun client member => by
    rcases List.mem_append.mp member with before | new
    · exact converging.positions client before
    · obtain rfl := List.mem_singleton.mp new
      exact le_rfl
  informed := fun calm client member => by
    have before : s.Calm := { calm with }
    rcases List.mem_append.mp member with known | new
    · exact converging.informed before client known
    · obtain rfl := List.mem_singleton.mp new
      intro _
      simp [outlook, snapshot, lastStatus, Event.status]

/-- A connection moves its frames on, or starts over with a snapshot. -/
theorem Converging.advanceClient {next : Client} (member : client ∈ s.clients)
    (advances : s.advanceClient format client = some next) :
    next.position ≤ s.hub.tail ∧ (s.Calm → s.Informed format next) := by
  have inside := converging.positions client member
  have moves : client.phase ≠ .closed → s.outlook format next = s.outlook format client →
      s.Calm → s.Informed format next := by
    intro opened same calm _
    rw [same]
    exact converging.informed calm client member opened
  cases phase : client.phase with
  | subscribed =>
      simp only [StatusService.advanceClient, phase, Option.some.injEq] at advances
      subst advances
      refine ⟨inside, moves (by simp [phase]) ?_⟩
      simp only [outlook, snapshot, phase]
      rfl
  | statusRead | sending =>
      simp only [StatusService.advanceClient, phase, Option.some.injEq] at advances
      subst advances
      refine ⟨inside, moves (by simp [phase]) ?_⟩
      simp only [outlook, snapshot, phase, List.append_nil]
  | listening =>
      simp only [StatusService.advanceClient, phase] at advances
      cases receives : s.hub.recv client.position with
      | none =>
          rw [receives] at advances
          cases advances
      | some got =>
          obtain ⟨received, position⟩ := got
          rw [receives] at advances
          cases received with
          | message event =>
              obtain ⟨_, unread, within⟩ := Ring.recv_message receives
              cases advances
              refine ⟨within, moves (by simp [phase]) ?_⟩
              simp only [outlook, snapshot, phase, unread, List.append_nil, List.append_assoc,
                List.singleton_append]
          | lagged skipped =>
              cases advances
              refine ⟨le_rfl, fun _ _ => ?_⟩
              simp only [outlook, snapshot, Ring.unread_tail, List.append_nil]
              exact lastStatus_append_status _ _
  | closed =>
      simp only [StatusService.advanceClient, phase] at advances
      cases advances

theorem Converging.log (member : client ∈ s.clients) (phase : client.phase = .listening)
    (raw : String) :
    s.Calm → s.Informed format { client with received := client.received ++ [.coreLog raw] } := by
  intro calm _
  have before := converging.informed calm client member (by simp [phase])
  simp only [outlook, snapshot, phase, List.append_nil, lastStatus, List.filterMap_append]
    at before ⊢
  simpa [Event.status] using before

end

/-! ## Every run -/

theorem step_converging {action : Action} (steps : s.step format action = some s')
    (keeps : ¬ s.Swallows format action) (converging : s.Converging format) :
    s'.Converging format := by
  cases action with
  | publish status =>
      cases steps
      exact converging.publish status
  | publishRequestedCore committed =>
      cases steps
      exact converging.publishRequestedCore _
  | wakeStatus =>
      simp only [step] at steps
      split at steps <;> cases steps
      exact converging.busy rfl le_rfl converging.seenEcho trivial
  | wakeEcho =>
      simp only [step] at steps
      split at steps <;> cases steps
      exact converging.busy rfl converging.seenStatus le_rfl trivial
  | bridge => exact converging.advanceBridge steps keeps
  | connect =>
      cases steps
      exact converging.connect
  | client index =>
      obtain ⟨client, present, advances⟩ := Option.bind_eq_some_iff.mp steps
      obtain ⟨next, moves, rfl⟩ := Option.map_eq_some_iff.mp advances
      obtain ⟨inside, informed⟩ := converging.advanceClient (List.mem_of_getElem? present) moves
      exact converging.setClient inside informed
  | log index raw =>
      obtain ⟨client, present, sends⟩ := Option.bind_eq_some_iff.mp steps
      have member := List.mem_of_getElem? present
      split at sends <;> cases sends
      rename_i phase
      exact converging.setClient (converging.positions client member)
        (converging.log member phase raw)
  | disconnect index =>
      obtain ⟨client, present, rfl⟩ := Option.map_eq_some_iff.mp steps
      exact converging.setClient (converging.positions client (List.mem_of_getElem? present))
        fun _ opened => absurd rfl opened

theorem converging_of_reaches
    (reaches : Reaches (step format) Initial (fun s action => ¬ s.Swallows format action) s) :
    s.Converging format := by
  induction reaches with
  | initial initial => exact converging_initial initial
  | step _ keeps steps ih => exact step_converging steps keeps ih

/-! ## Quiescence -/

/-- The updates have stopped and everything they caused has happened: neither the bridge nor
    the connection has anything left to do. -/
structure Quiet (format : Format) (s : StatusService) (index : Nat) : Prop where
  status : s.step format .wakeStatus = none
  echo : s.step format .wakeEcho = none
  bridge : s.step format .bridge = none
  client : s.step format (.client index) = none

theorem Quiet.calm (quiet : s.Quiet format index) : s.Calm := by
  have waiting : s.bridge.phase = .waiting := by
    have bridge := quiet.bridge
    simp only [step, advanceBridge] at bridge
    split at bridge
    case h_2 phase => exact phase
    all_goals cases bridge
  have status := quiet.status
  have echo := quiet.echo
  simp only [step, waiting, true_and] at status echo
  refine ⟨?_, ?_, ?_⟩
  · by_contra unseen
    simp [unseen] at status
  · by_contra unseen
    simp [unseen] at echo
  · rw [waiting]
    rfl

/-- A connection with nothing left to do has been sent all there is. -/
theorem Quiet.outlook_eq (quiet : s.Quiet format index) (present : s.clients[index]? = some client)
    (opened : client.phase ≠ .closed) : s.outlook format client = client.received := by
  have idle := quiet.client
  simp only [step, present, Option.bind_some, Option.map_eq_none_iff] at idle
  cases phase : client.phase with
  | listening =>
      simp only [advanceClient, phase] at idle
      have nothing : s.hub.recv client.position = none := by
        cases receives : s.hub.recv client.position with
        | none => rfl
        | some got =>
            obtain ⟨received, position⟩ := got
            rw [receives] at idle
            cases received <;> cases idle
      simp only [outlook, snapshot, phase, Ring.unread_of_recv_none nothing, List.append_nil]
  | closed => exact absurd phase opened
  | subscribed | statusRead _ | sending _ =>
      simp only [advanceClient, phase] at idle
      cases idle

/-- In every interleaving in which the bridge's first poll swallows no status: once there is
    nothing left to do, the last status frame a client was sent is the projection of the
    manager's status and the echo. -/
theorem client_ends_with_current_status (index : Nat)
    (reaches : Reaches (step format) Initial (fun s action => ¬ s.Swallows format action) s)
    (present : s.clients[index]? = some client) (opened : client.phase ≠ .closed)
    (quiet : s.Quiet format index) :
    lastStatus client.received =
      some (projectCoreInfos format s.states.value s.requestedCore.value) := by
  have informed := (converging_of_reaches reaches).informed quiet.calm client
    (List.mem_of_getElem? present) opened
  rw [quiet.outlook_eq present opened] at informed
  exact informed

/-! ## A connection that is faster than the bridge -/

/-- A service on which nothing has happened. -/
def idle : StatusService where
  states := ⟨.initial 0, 0⟩
  requestedCore := ⟨none, 0⟩
  hub := .new Wire.Event eventChannelCapacity
  bridge := ⟨.spawned, 0, 0, .stopped none⟩
  clients := []

theorem initial_idle : idle.Initial := ⟨rfl, rfl, rfl, rfl, rfl⟩

def plain : Format := ⟨fun _ => "", fun url => url⟩

def stoppedByUser : CoreStatus := { CoreStatus.initial 0 with state := .stopped (some .user) }

/-- A client connects and takes its snapshot. -/
def connecting : List Action := [.connect, .client 0, .client 0, .client 0]

/-- The bridge has been polled before the manager publishes, and its frames are delivered. -/
def delivered : List Action :=
  connecting ++ [.bridge, .publish stoppedByUser, .wakeStatus, .bridge, .bridge, .bridge, .bridge,
    .client 0, .client 0]

theorem client_ends_with_current_status_delivered :
    ((replayed (step plain) idle delivered).clients.map fun client => lastStatus client.received) =
      [some (projectCoreInfos plain stoppedByUser none)] := by
  have connects : ∀ s action, action ≠ .bridge → ¬ Swallows plain s action :=
    fun _ _ other swallows => other swallows.1
  have reaches : Reaches (step plain) Initial (fun s action => ¬ s.Swallows plain action)
      (replayed (step plain) idle delivered) := by
    apply (Reaches.initial initial_idle).replayed
    refine ⟨connects _ _ (by simp), connects _ _ (by simp), connects _ _ (by simp),
      connects _ _ (by simp), fun swallows => swallows.2.2.1 rfl, connects _ _ (by simp),
      connects _ _ (by simp), fun swallows => ?_, fun swallows => ?_, fun swallows => ?_,
      fun swallows => ?_, connects _ _ (by simp), connects _ _ (by simp), trivial⟩ <;>
    cases swallows.2.1
  have ends := client_ends_with_current_status 0 reaches rfl (by decide) ⟨rfl, rfl, rfl, rfl⟩
  exact congrArg (fun shown => [shown]) ends

/-- The client has its snapshot when the manager publishes, and only then is the bridge
    polled for the first time: the status is taken as seen and never sent. -/
def overtaken : StatusService :=
  replayed (step plain) idle (connecting ++ [.publish stoppedByUser, .bridge])

theorem status_swallowed_at_first_poll :
    Reaches (step plain) Initial (fun _ _ => True) overtaken ∧ overtaken.Quiet plain 0 ∧
      overtaken.states.value = stoppedByUser ∧ overtaken.clients.map (·.phase) = [.listening] ∧
      (overtaken.clients.map fun client => lastStatus client.received) =
        [some (projectCoreInfos plain (.initial 0) none)] ∧
      projectCoreInfos plain (.initial 0) none ≠ projectCoreInfos plain stoppedByUser none :=
  ⟨(Reaches.initial initial_idle).replayed (allAllowed_of_forall (fun _ _ => trivial) _),
    ⟨rfl, rfl, rfl, rfl⟩, rfl, rfl, rfl, by decide⟩

end StatusService

end Nyanpasu
