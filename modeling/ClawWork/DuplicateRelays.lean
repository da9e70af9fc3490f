import ClawWork.EventIds
import ClawWork.PersistWrites
import ClawWork.ResultVersions
import ClawWork.SingleRelay

/-!
# Several relays of one adapter stream

Every API instance starts a relay for every running task, so that relays of several
processes read the same event sequence. Each of them goes from one `await` to the
next and moves its calls of `persistTaskEvent` by one statement at a time. They
agree with a single relay as long as no insertion comes after a commit, or beside an
insertion, that the checks before it have not seen.
-/

namespace DuplicateRelays

open JavaScript SharedTypes TaskStore TasksService AdapterRelay SingleRelay Transition

/-- The event sequence that the adapter streams for a task, under distinct source event ids. -/
structure Stream where
  taskId : String
  entries : List Parsed
  own : ∀ parsed ∈ entries, parsed.event.taskId = taskId
  named : ∀ parsed ∈ entries, (truthy parsed.sourceEventId).isSome = true
  distinct : (entries.map Parsed.sourceEventId).Nodup

/-- What a response sends to a client that has seen the events up to an id. -/
def Stream.after (stream : Stream) : Option String → List Parsed
  | none => stream.entries
  | some source =>
    match stream.entries.dropWhile fun parsed => parsed.sourceEventId ≠ some source with
    | _ :: rest => rest
    | [] => stream.entries

structure Party where
  relay : Relay
  /-- What the response has still to send. -/
  unread : List Parsed
  /-- The call of `persistTaskEvent` that the relay waits for. -/
  call : Option Nat

structure System where
  service : PersistCalls.System
  relays : OrderedMap Nat Party
  /-- The stream of a relay has ended early, or its time was up. -/
  interrupted : Bool

def System.init : System := ⟨.init, .empty, false⟩

def System.db (s : System) : Database := s.service.db

def System.callOf (s : System) (party : Party) : Option PersistCalls.Call := party.call.bind s.service.calls

inductive Label where
  /-- `onModuleInit`, or `dispatchTask`, starts a relay of the task. -/
  | start (r : Nat)
  /-- The process of the relay ends. -/
  | crash (r : Nat)
  /-- A step of the relay outside `persistTaskEvent`. -/
  | relay (r : Nat) (l : AdapterRelay.Label)
  /-- The next events of the response. -/
  | receive (r count : Nat)
  | call (r c : Nat) (archived : Option Archived) (now resultId : String)
  | advance (r : Nat) (message : String)
  /-- The database ends the transaction of the relay. -/
  | abort (r : Nat) (message : String)
  | single (tx : Single)

/-- The steps that are not part of `persistTaskEvent`. -/
def isOwn (phase : Phase) : AdapterRelay.Label → Bool
  | .database _ _ _ =>
    match phase with
    | .cursor | .failing _ _ _ => true
    | _ => false
  | .prepared _ _ | .chunk _ | .other _ => false
  | .fetched _ _ | .fetchFailed _ | .ended | .readFailed _ | .cancellationAnswered | .timer | .stop => true

/-- The stream ends early or breaks off, or the time is up. -/
def interrupts (relay : Relay) : AdapterRelay.Label → Bool
  | .fetched status hasBody => !(200 ≤ status && status < 300 && hasBody)
  | .fetchFailed _ | .readFailed _ => !relay.aborted
  | .ended | .timer => true
  | .database _ _ _ | .prepared _ _ | .chunk _ | .cancellationAnswered | .stop | .other _ => false

/-- What the relay has to read after a step: all that follows its cursor once it is connected. -/
def unreadAfter (stream : Stream) (old new : Phase) (unread : List Parsed) : List Parsed :=
  match old, new with
  | .fetching lastEventId, .reading => stream.after lastEventId
  | _, _ => unread

/-- The event, and its source event id, that the relay hands to `persistTaskEvent`. -/
def persisting : Phase → Option (TaskStreamEvent × Option String)
  | .persisting parsed _ => some (parsed.event, parsed.sourceEventId)
  | .failPersist _ event => some (event, none)
  | _ => none

/-- `persistTaskEvent` has returned. -/
def returns (relay : Relay) : Relay :=
  match relay.phase with
  | .persisting parsed _ => relay.afterPersist parsed
  | _ => { relay with phase := .returned }

/-- `persistTaskEvent` has thrown; nothing catches what is thrown in the `catch` block. -/
def throws (relay : Relay) (message : String) : Relay :=
  match relay.phase with
  | .failPersist true _ => { relay with phase := .returned }
  | _ => relay.catchError message

/-- The next statement of a call throws. -/
def threw (settings : Settings) (s : PersistCalls.System) (c : Nat) (call : PersistCalls.Call) : Bool :=
  match call.phase with
  | .prepare => (prepareTaskEvent call.archived call.event).isNone
  | .create prepared _ _ => (s.server.view c).violatesSource prepared.stored.taskId call.sourceEventId
  | .project _ task _ (.findEvents :: _) =>
    (((s.server.view c).eventsOf task.id).mapM fun row => parsePersistedEvent settings row.payload).isNone
  | .project _ _ _ (.createResult row :: _) => (s.server.view c).violatesVersion row
  | _ => false

def isDone : PersistCalls.Phase → Bool
  | .done => true
  | _ => false

/-- The next statement of the call of a relay, which goes on when the call is done. -/
def System.advance (settings : Settings) (s : System) (r : Nat) (party : Party) (c : Nat)
    (call : PersistCalls.Call) (message : String) : Option System := do
  let service ← PersistCalls.step settings s.service (.advance c)
  if (service.calls c).any fun next => isDone next.phase then
    let relay := if threw settings s.service c call then throws party.relay message else returns party.relay
    some { s with service, relays := s.relays.set r { party with relay, call := none } }
  else some { s with service }

def step (settings : RelaySettings) (stream : Stream) (s : System) : Label → Option System
  | .start r =>
    if (s.relays.get r).isNone ∧
        (s.db.tasks.get stream.taskId).any (fun task => task.adapterStreamUrl.isSome) then
      some { s with relays := s.relays.set r ⟨.start stream.taskId, stream.entries, none⟩ }
    else none
  | .crash r => do
    let party ← s.relays.get r
    let service := (party.call.bind fun c =>
      PersistCalls.step settings.toSettings s.service (.abort c)).getD s.service
    some { s with service, relays := s.relays.delete r }
  | .relay r l => do
    let party ← s.relays.get r
    if isOwn party.relay.phase l then do
      let next ← AdapterRelay.step settings ⟨s.db, party.relay⟩ l
      let unread := unreadAfter stream party.relay.phase next.relay.phase party.unread
      some { s with
        relays := s.relays.set r { party with relay := next.relay, unread }
        interrupted := s.interrupted || interrupts party.relay l }
    else none
  | .receive r count => do
    let party ← s.relays.get r
    match party.relay.phase with
    | .reading =>
      if party.relay.aborted then none
      else
        let relay := party.relay.resume (party.unread.take count)
        some { s with relays := s.relays.set r { party with relay, unread := party.unread.drop count } }
    | _ => none
  | .call r c archived now resultId => do
    let party ← s.relays.get r
    if party.call.isSome then none
    else do
      let (event, source) ← persisting party.relay.phase
      let service ← PersistCalls.step settings.toSettings s.service
        (.call c event archived source now resultId)
      some { s with service, relays := s.relays.set r { party with call := some c } }
  | .advance r message => do
    let party ← s.relays.get r
    let c ← party.call
    let call ← s.service.calls c
    s.advance settings.toSettings r party c call message
  | .abort r message => do
    let party ← s.relays.get r
    let c ← party.call
    let service ← PersistCalls.step settings.toSettings s.service (.abort c)
    let relay := throws party.relay message
    some { s with service, relays := s.relays.set r { party with relay, call := none } }
  | .single tx => do
    let service ← PersistCalls.step settings.toSettings s.service (.single tx)
    some { s with service }

/-- The log and the status of the task are those of a single relay, and a relay that has not been
aborted returns when the task has ended. -/
structure AsSingle (stream : Stream) (s : System) : Prop where
  log : ∃ n status failed, Relayed stream.entries n (s.db.eventsOf stream.taskId) status failed ∧
    Shows (s.db.status stream.taskId) status ∧ (failed = true → s.interrupted = true)
  failed : s.db.status stream.taskId = some .failed →
    s.interrupted = true ∨ ∃ parsed ∈ stream.entries, parsed.event.detail.literal = "task.failed"
  ended : ∀ r party, s.relays.get r = some party → party.relay.phase = .returned →
    party.relay.aborted = true ∨ RelayExit.Ended s.db stream.taskId

/-- The row of the event is inserted and not yet committed. -/
def inserted : PersistCalls.Phase → Bool
  | .project _ _ _ _ => true
  | _ => false

/-- Nothing has come between the checks of a call and the insertion of its event: no row with its source
event id, no end of the task, no row with a higher id, and no insertion that is still open. -/
def Undisturbed (stream : Stream) (s : System) (source : Option String) (id : Nat) : Prop :=
  s.db.violatesSource stream.taskId source = false ∧
    (s.db.status stream.taskId).any TaskStatus.isTerminal = false ∧
    (∀ row ∈ s.db.eventsOf stream.taskId, row.id < id) ∧
    ∀ party ∈ s.relays.values, (s.callOf party).any (fun call => inserted call.phase) = false

/-- What the next statement of a call has to find. -/
def CallInTurn (stream : Stream) (s : System) (call : PersistCalls.Call) : Prop :=
  match call.phase with
  | .prepare => (prepareTaskEvent call.archived call.event).isSome = true
  | .create _ _ id => Undisturbed stream s call.sourceEventId id
  | _ => True

/-- The insertions are undisturbed, what is to be archived can be archived, and the database ends no
transaction of a relay. -/
def InTurn (stream : Stream) (s : System) : Label → Prop
  | .advance r _ => ∀ party ∈ s.relays.get r, ∀ call ∈ s.callOf party, CallInTurn stream s call
  | .abort _ _ => False
  | .start _ | .crash _ | .relay _ _ | .receive _ _ | .call _ _ _ _ _ | .single _ => True

end DuplicateRelays
