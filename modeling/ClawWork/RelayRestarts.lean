import ClawWork.AdapterStream
import ClawWork.StatusFrames
import ClawWork.Transition

/-!
# A relay that crashes and starts again

One adapter process, and one relay at a time of the task `t`. The process of the
relay may crash at any `await`: the relay is lost with what it has read, while the
database, the history of the adapter and the listeners of old responses stay.
Everybody else may run transactions in between.
-/

namespace RelayRestarts

open SharedTypes TaskStore TasksService AdapterRelay TaskEventBroker AdapterStream

structure State where
  db : Database
  relay : Option Relay
  broker : Broker
  /-- The response that the relay reads. -/
  response : Option Response
  /-- The number of responses so far. -/
  responses : Nat
  /-- What the broker has published for the task. -/
  published : List BrokerEvent

def State.init (maxEventsPerTask : Nat) : State := ⟨.empty, none, .new maxEventsPerTask, none, 0, []⟩

inductive Label where
  | publish (taskId : String) (event : TaskStreamEvent)
  /-- The cleanup timer of a task. -/
  | cleanup (taskId : String)
  /-- `startAdapterRelay`, from `dispatchTask` or when the process starts. -/
  | start
  | crash
  /-- The relay moves on. -/
  | relay (l : AdapterRelay.Label)
  /-- The adapter notices that the client of a response is gone. -/
  | closed (taskId : String) (listener : Nat)
  | transaction (tx : Transaction)

/-- The event reaches the response if its listener is among those called. -/
def deliver (settings : StreamSettings) (taskId : String) (called : List Nat) (item : BrokerEvent)
    (response : Response) : Response :=
  if response.taskId = taskId ∧ response.listener ∈ called then listen settings response item
  else response

def State.publish (settings : StreamSettings) (t : String) (s : State) (taskId : String)
    (event : TaskStreamEvent) : State :=
  let (item, broker) := s.broker.publish taskId event
  { s with
    broker
    response := s.response.map (deliver settings taskId (s.broker.listenersOf taskId) item)
    published := if taskId = t then s.published ++ [item] else s.published }

/-- The relay is not running: there is none, or it has returned. -/
def idle : Option Relay → Bool
  | none => true
  | some relay => relay.phase.isReturned

/-- A step of the relay; a request that succeeds opens a response, and what is read comes from it. -/
def State.stepRelay (settings : StreamSettings) (s : State) (relay : Relay) :
    AdapterRelay.Label → Option State
  | .other _ => none
  | .fetched status hasBody => do
    let next ← AdapterRelay.step settings.toRelaySettings ⟨s.db, relay⟩ (.fetched status hasBody)
    match relay.phase, next.relay.phase with
    | .fetching lastEventId, .reading =>
      let (response, broker) := openEvents settings s.broker relay.taskId lastEventId s.responses
      some { s with
        relay := some next.relay, broker, response := some response, responses := s.responses + 1 }
    | _, _ => some { s with relay := some next.relay }
  | .chunk text => do
    let response ← s.response
    if text <+: response.text then do
      let next ← AdapterRelay.step settings.toRelaySettings ⟨s.db, relay⟩ (.chunk text)
      let unread := response.text.drop text.length
      some { s with relay := some next.relay, response := some { response with text := unread } }
    else none
  | l => do
    let next ← AdapterRelay.step settings.toRelaySettings ⟨s.db, relay⟩ l
    some { s with db := next.db, relay := some next.relay }

/-- The transitions, for the task `t`. -/
def step (settings : StreamSettings) (t : String) (s : State) : Label → Option State
  | .publish taskId event => some (s.publish settings t taskId event)
  | .cleanup taskId =>
    if (s.broker.cleanupTimers.get taskId).isSome then
      some { s with broker := s.broker.cleanup taskId }
    else none
  | .start =>
    if idle s.relay ∧ (s.db.status t).isSome then
      some { s with relay := some (.start t), response := none }
    else none
  | .crash => some { s with relay := none, response := none }
  | .relay l => do
    let relay ← s.relay
    s.stepRelay settings relay l
  | .closed taskId listener => some { s with broker := s.broker.unsubscribe taskId listener }
  | .transaction tx => do
    let db ← tx.apply settings.toSettings s.db
    some { s with db }

/-- The source event ids of a task, in the order of its events. -/
def sourceIds (db : Database) (t : String) : List String :=
  (db.eventsOf t).filterMap TaskEvent.sourceEventId

/-- No source event id is given to an event of the task. -/
def Sourceless (t : String) : Transaction → Prop
  | .persist event _ sourceEventId _ _ => event.taskId = t → sourceEventId = none
  | .single _ | .failTask _ _ _ _ _ | .cancelTask _ _ _ _ => True

/-- What is assumed of the others: the adapter publishes events of the schema under their own task, and
nobody else persists events of the adapter. -/
def Admissible (settings : StreamSettings) (t : String) : Label → Prop
  | .publish taskId event => taskId = t → event.taskId = t ∧ Transmissible settings event
  | .transaction tx => Sourceless t tx
  | .cleanup _ | .start | .crash | .relay _ | .closed _ _ => True

/-- When the relay connects, at most `maxEventsPerTask` events have been numbered since the last
persisted one. -/
def ConnectsInTime (t : String) (s : State) : Label → Prop
  | .relay (.fetched _ _) =>
    s.broker.nextId t ≤ (sourceIds s.db t).length + 1 + s.broker.maxEventsPerTask
  | _ => True

instance (t : String) (s : State) (l : Label) : Decidable (ConnectsInTime t s l) := by
  unfold ConnectsInTime
  split <;> infer_instance

end RelayRestarts
