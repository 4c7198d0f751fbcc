import Nyanpasu.Monitor.Turn
import Mathlib.Logic.Relation

/-! # The monitor and a stop request on one channel

`monitor_loop` and `stop_and_confirm_dead` run as two tasks.  Both read and write the
watch channel of the instance, one access at a time and with no lock over a pair of
them.  A scene is a moment of such a run and an action one access of either task.

The reads of the health, the identity and the lifecycle that go into one value are
accesses of their own, as in the source; an acknowledgement is answered while its turn
is under way.  The events are those of a supervisor that keeps to its protocol.
-/

namespace Nyanpasu

/-- What the monitor holds between two accesses. -/
inductive Hand where
  | free
  | health (write : Write) (health : Option HealthStatus)
  | identity (write : Write) (health : Option HealthStatus) (instanceId : Option InstanceId)
  | draft (write : Write) (status : InstanceStatus)

def Hand.writes : Hand → List Write
  | free => []
  | health write _ | identity write _ _ | draft write _ => [write]

/-- How far `stop_and_confirm_dead` has come. -/
inductive StopPhase where
  | idle
  /-- The instance had stopped by itself; the request returned. -/
  | alreadyStopped
  | checked
  | flagged
  | stopping
  /-- The monitor has returned or was aborted. -/
  | joined
  | done
  deriving Repr, DecidableEq

/-- `Stopping` has been published. -/
def StopPhase.published : StopPhase → Bool
  | stopping | joined | done => true
  | _ => false

/-- `incidents` is bookkeeping the source does not keep. -/
structure Scene where
  inst : Instance
  hand : Hand
  pending : List Write
  aborted : Bool
  stop : StopPhase
  incidents : List Incident

inductive Action where
  /-- `select!` picks an event and the monitor handles it up to its writes. -/
  | take (event : MonitorEvent)
  /-- The monitor makes its next access to the channel. -/
  | advance
  | check
  | flag
  | publishStopping
  | join
  | abort
  | confirm
  | conclude

def MonitorEvent.isProbeCancelled : MonitorEvent → Bool
  | .probeCancelled => true
  | _ => false

namespace Scene

def launched (epoch : Epoch) (options : InstanceOptions) (controller : ResolvedController)
    (now : Nat) (nowMs : Int) : Scene :=
  ⟨Instance.launched epoch options controller now nowMs, .free, [], false, .idle, []⟩

/-- The values the monitor has still to send, the next one first. -/
def writes (s : Scene) : List Write := s.hand.writes ++ s.pending

/-- The monitor is at its `select!`. -/
def selecting (s : Scene) : Bool :=
  s.writes.isEmpty && !s.aborted && !s.inst.monitor.finished

/-- The `select!` is biased: a cancellation it has not seen yet comes first. -/
def selects (s : Scene) (event : MonitorEvent) : Bool :=
  event.isProbeCancelled || !s.inst.probeCancel || s.inst.monitor.probesCancelled

def take (s : Scene) (event : MonitorEvent) : Scene :=
  let turn := s.inst.turn event
  { s with inst := turn.inst, pending := turn.writes, incidents := turn.incidents ++ s.incidents }

def advance (s : Scene) : Option Scene :=
  match s.hand with
  | .free =>
      match s.pending with
      | [] => none
      | write :: rest => some { s with hand := .health write s.inst.status.health, pending := rest }
  | .health write health =>
      some { s with hand := .identity write health s.inst.status.instanceId }
  | .identity write health instanceId =>
      some { s with hand := .draft write (write.compose health instanceId s.inst) }
  | .draft _ status => some { s with inst := s.inst.publishStatus status, hand := .free }

def act (s : Scene) : Action → Option Scene
  | .take event =>
      if s.selecting && s.selects event && s.inst.supervised event then some (s.take event)
      else none
  | .advance => s.advance
  | .check =>
      if s.stop = .idle then
        some { s with
          stop := if s.inst.status.state.isTerminal then .alreadyStopped else .checked }
      else none
  | .flag =>
      if s.stop = .checked then
        some { s with inst := { s.inst with userStop := true, probeCancel := true }, stop := .flagged }
      else none
  | .publishStopping =>
      if s.stop = .flagged then
        some { s with inst := s.inst.publish .stopping, stop := .stopping }
      else none
  | .join =>
      if s.stop = .stopping ∧ s.writes.isEmpty ∧ s.inst.monitor.finished then
        some { s with stop := .joined }
      else none
  | .abort =>
      -- what the monitor has not sent is lost
      if s.stop = .stopping then
        some { s with hand := .free, pending := [], aborted := true, stop := .joined }
      else none
  | .confirm =>
      if s.stop = .joined ∧ s.inst.status.state.isTerminal = false then
        some { s with inst := s.inst.publish (.stopped .user), stop := .done }
      else none
  | .conclude => if s.stop = .joined then some { s with stop := .done } else none

def Step (s s' : Scene) : Prop := ∃ action, s.act action = some s'

def Runs : Scene → Scene → Prop := Relation.ReflTransGen Step

def Reachable (s : Scene) : Prop :=
  ∃ epoch options controller now nowMs, Runs (launched epoch options controller now nowMs) s

/-- What an action did. -/
inductive Acts (s : Scene) : Action → Scene → Prop where
  | take (event : MonitorEvent) : s.writes = [] → s.aborted = false →
      s.inst.monitor.finished = false → s.selects event = true → s.inst.supervised event = true →
      Acts s (.take event) (s.take event)
  | readHealth (write : Write) (rest : List Write) : s.hand = .free → s.pending = write :: rest →
      Acts s .advance { s with hand := .health write s.inst.status.health, pending := rest }
  | readIdentity (write : Write) (health : Option HealthStatus) : s.hand = .health write health →
      Acts s .advance { s with hand := .identity write health s.inst.status.instanceId }
  | compose (write : Write) (health : Option HealthStatus) (instanceId : Option InstanceId) :
      s.hand = .identity write health instanceId →
      Acts s .advance { s with hand := .draft write (write.compose health instanceId s.inst) }
  | send (write : Write) (status : InstanceStatus) : s.hand = .draft write status →
      Acts s .advance { s with inst := s.inst.publishStatus status, hand := .free }
  | found : s.stop = .idle → s.inst.status.state.isTerminal = true →
      Acts s .check { s with stop := .alreadyStopped }
  | check : s.stop = .idle → s.inst.status.state.isTerminal = false →
      Acts s .check { s with stop := .checked }
  | flag : s.stop = .checked → Acts s .flag
      { s with inst := { s.inst with userStop := true, probeCancel := true }, stop := .flagged }
  | publishStopping : s.stop = .flagged → Acts s .publishStopping
      { s with inst := s.inst.publishStatus ⟨none, .stopping, none⟩, stop := .stopping }
  | join : s.stop = .stopping → s.writes = [] → s.inst.monitor.finished = true →
      Acts s .join { s with stop := .joined }
  | abort : s.stop = .stopping → Acts s .abort
      { s with hand := .free, pending := [], aborted := true, stop := .joined }
  | confirm : s.stop = .joined → s.inst.status.state.isTerminal = false → Acts s .confirm
      { s with inst := s.inst.publishStatus ⟨none, .stopped .user, none⟩, stop := .done }
  | conclude : s.stop = .joined → Acts s .conclude { s with stop := .done }

variable {s s' : Scene} {action : Action}

theorem acts_advance (advances : s.advance = some s') : Acts s .advance s' := by
  unfold advance at advances
  cases hand : s.hand with
  | free =>
      cases pending : s.pending with
      | nil => simp [hand, pending] at advances
      | cons write rest =>
          simp only [hand, pending, Option.some.injEq] at advances
          exact advances ▸ .readHealth write rest hand pending
  | health write health =>
      simp only [hand, Option.some.injEq] at advances
      exact advances ▸ .readIdentity write health hand
  | identity write health instanceId =>
      simp only [hand, Option.some.injEq] at advances
      exact advances ▸ .compose write health instanceId hand
  | draft write status =>
      simp only [hand, Option.some.injEq] at advances
      exact advances ▸ .send write status hand

theorem acts_of_act (acts : s.act action = some s') : Acts s action s' := by
  cases action with
  | take event =>
      obtain ⟨guard, ⟨⟩⟩ := Option.ite_none_right_eq_some.mp acts
      simp only [selecting, Bool.and_eq_true, List.isEmpty_iff, Bool.not_eq_true'] at guard
      obtain ⟨⟨⟨⟨empty, alive⟩, active⟩, selects⟩, supervised⟩ := guard
      exact .take event empty alive active selects supervised
  | advance => exact acts_advance acts
  | check =>
      obtain ⟨idle, ⟨⟩⟩ := Option.ite_none_right_eq_some.mp acts
      cases terminal : s.inst.status.state.isTerminal with
      | true => exact .found idle terminal
      | false => exact .check idle terminal
  | flag =>
      obtain ⟨checked, ⟨⟩⟩ := Option.ite_none_right_eq_some.mp acts
      exact .flag checked
  | publishStopping =>
      obtain ⟨flagged, ⟨⟩⟩ := Option.ite_none_right_eq_some.mp acts
      exact .publishStopping flagged
  | join =>
      obtain ⟨⟨stopping, empty, finished⟩, ⟨⟩⟩ := Option.ite_none_right_eq_some.mp acts
      exact .join stopping (List.isEmpty_iff.mp empty) finished
  | abort =>
      obtain ⟨stopping, ⟨⟩⟩ := Option.ite_none_right_eq_some.mp acts
      exact .abort stopping
  | confirm =>
      obtain ⟨⟨joined, serving⟩, ⟨⟩⟩ := Option.ite_none_right_eq_some.mp acts
      exact .confirm joined serving
  | conclude =>
      obtain ⟨joined, ⟨⟩⟩ := Option.ite_none_right_eq_some.mp acts
      exact .conclude joined

/-- A monitor with nothing to send holds nothing. -/
theorem hand_free (empty : s.writes = []) : s.hand = .free := by
  cases hand : s.hand with
  | free => rfl
  | health | identity | draft => simp [writes, hand, Hand.writes] at empty

theorem writes_take (empty : s.writes = []) (event : MonitorEvent) :
    (s.take event).writes = (s.inst.turn event).writes := by
  simp [writes, take, hand_free empty, Hand.writes]

/-! ## Runs given by their actions -/

/-- An action that is not possible is left out. -/
def replay (s : Scene) (actions : List Action) : Scene :=
  actions.foldl (fun s action => (s.act action).getD s) s

theorem runs_replay (s : Scene) (actions : List Action) : Runs s (s.replay actions) := by
  induction actions generalizing s with
  | nil => exact .refl
  | cons action rest ih =>
      cases acts : s.act action with
      | none =>
          simp only [replay, List.foldl_cons, acts, Option.getD_none]
          exact ih s
      | some next =>
          simp only [replay, List.foldl_cons, acts, Option.getD_some]
          exact .head ⟨action, acts⟩ (ih next)

/-! ## Iterations that nobody gets between -/

end Scene

end Nyanpasu
