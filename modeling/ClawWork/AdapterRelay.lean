import ClawWork.TasksService

/-!
# The relay of an adapter stream

`relayAdapterEvents` as a party that moves from one `await` to the next. Between
two of them it runs on alone: the complete events of the buffer are handed on one
after the other, and the loop conditions are evaluated where the source has them.
The timer and an abort by another party may come in at any `await`.
-/

namespace AdapterRelay

open JavaScript SharedTypes TaskStore TasksService

/-- The settings of the service, with the JSON parser of the runtime. -/
structure RelaySettings extends Settings where
  jsonParse : String → Option Json

/-- The replacement of CRLF in one chunk. -/
def replaceCrlf : List Char → List Char
  | '\r' :: '\n' :: rest => '\n' :: replaceCrlf rest
  | c :: rest => c :: replaceCrlf rest
  | [] => []

/-- The texts before each blank line of the buffer, and what is left of it. -/
def splitEvents : List Char → List (List Char) × List Char
  | '\n' :: '\n' :: rest => ([] :: (splitEvents rest).1, (splitEvents rest).2)
  | c :: rest =>
    match splitEvents rest with
    | (raw :: raws, left) => ((c :: raw) :: raws, left)
    | ([], left) => ([], c :: left)
  | [] => ([], [])

/-- An event of the stream with its source event id. -/
structure Parsed where
  event : TaskStreamEvent
  sourceEventId : Option String

def parseAdapterEvent (settings : RelaySettings) (raw : List Char) : Option Parsed := do
  let lines := raw.splitOn '\n'
  let dataLine ← lines.find? fun line => "data: ".toList.isPrefixOf line
  let json ← settings.jsonParse (.ofList (dataLine.drop 6))
  let event ← parseTaskStreamEvent settings.isUrl json
  let idLine := lines.find? fun line => "id: ".toList.isPrefixOf line
  some ⟨event, idLine.map fun line => .ofList (line.drop 4)⟩

/-- The `await` inside `persistTaskEvent` that a call has come to. -/
inductive PersistPhase where
  | precheck
  | prepare
  | transaction (prepared : Prepared)

/-- The `await` that the relay has come to. -/
inductive Phase where
  | cursor
  | fetching (lastEventId : Option String)
  | reading
  | persisting (parsed : Parsed) (phase : PersistPhase)
  /-- `failTask`, called from the `try` block or from the `catch` block. -/
  | failing (inCatch : Bool) (code message : String)
  | failPersist (inCatch : Bool) (event : TaskStreamEvent)
  | requestingCancellation
  | returned

def Phase.isReturned : Phase → Bool
  | .returned => true
  | _ => false

structure Relay where
  taskId : String
  phase : Phase
  /-- The complete events of the buffer that are still to be handed on. -/
  pending : List Parsed
  /-- The rest of the buffer. -/
  buffer : List Char
  timedOut : Bool
  aborted : Bool
  /-- `cancelTask` or `onModuleDestroy` has aborted the controller. -/
  stopped : Bool

structure State where
  db : Database
  relay : Relay

def Relay.start (taskId : String) : Relay := ⟨taskId, .cursor, [], [], false, false, false⟩

/-- The inner loop goes on with the next event; without one the outer loop looks at the signal. -/
def Relay.resume (relay : Relay) : List Parsed → Relay
  | parsed :: rest => { relay with phase := .persisting parsed .precheck, pending := rest }
  | [] => { relay with phase := if relay.aborted then .returned else .reading, pending := [] }

/-- `persistTaskEvent` has resolved. -/
def Relay.afterPersist (relay : Relay) (parsed : Parsed) : Relay :=
  if parsed.event.isTerminal then { relay with phase := .returned } else relay.resume relay.pending

/-- The `catch` block. -/
def Relay.catchError (relay : Relay) (message : String) : Relay :=
  if relay.timedOut then { relay with phase := .requestingCancellation }
  else if relay.aborted then { relay with phase := .returned }
  else { relay with phase := .failing true "GATEWAY_STREAM_ERROR" message }

/-- A chunk of the response body, decoded. -/
def Relay.receive (settings : RelaySettings) (relay : Relay) (text : List Char) : Relay :=
  let (raws, left) := splitEvents (relay.buffer ++ replaceCrlf text)
  { relay with buffer := left }.resume (raws.filterMap (parseAdapterEvent settings))

@[simp] theorem resume_taskId (relay : Relay) (parsed : List Parsed) :
    (relay.resume parsed).taskId = relay.taskId := by
  cases parsed <;> rfl

@[simp] theorem afterPersist_taskId (relay : Relay) (parsed : Parsed) :
    (relay.afterPersist parsed).taskId = relay.taskId := by
  unfold Relay.afterPersist
  split
  · rfl
  · exact resume_taskId relay relay.pending

@[simp] theorem catchError_taskId (relay : Relay) (message : String) :
    (relay.catchError message).taskId = relay.taskId := by
  unfold Relay.catchError
  split
  · rfl
  · split <;> rfl

theorem catchError_phase (relay : Relay) (message : String) :
    (relay.catchError message).phase ≠ .reading := by
  unfold Relay.catchError
  split
  · simp
  · split <;> simp

/-- The source event id that the relay resumes after. -/
def lastSourceEventId (db : Database) (taskId : String) : Option String :=
  (db.eventsOf taskId).reverse.findSome? TaskEvent.sourceEventId

inductive Label where
  /-- The database answers the pending call. -/
  | database (now resultId message : String)
  /-- `prepareTaskEvent` settles, with what was archived. -/
  | prepared (archived : Option Archived) (message : String)
  | fetched (status : Nat) (hasBody : Bool)
  | fetchFailed (message : String)
  | chunk (text : List Char)
  | ended
  | readFailed (message : String)
  | cancellationAnswered
  | timer
  | stop
  /-- A transaction of another party. -/
  | other (tx : Transaction)

/-- The database answers the call that the relay waits for. -/
def State.answer (settings : Settings) (s : State) (now resultId message : String) : Option State :=
  match s.relay.phase with
  | .cursor =>
    let lastEventId := truthy (lastSourceEventId s.db s.relay.taskId)
    some { s with relay := { s.relay with phase := .fetching lastEventId } }
  | .persisting parsed .precheck =>
    if (truthy parsed.sourceEventId).any fun id => s.db.hasSourceEvent parsed.event.taskId id then
      some { s with relay := s.relay.afterPersist parsed }
    else some { s with relay := { s.relay with phase := .persisting parsed .prepare } }
  | .persisting parsed (.transaction prepared) =>
    match persistTransaction settings now resultId prepared.stored parsed.sourceEventId s.db with
    | (.threw, db) => some ⟨db, s.relay.catchError message⟩
    | (_, db) => some ⟨db, s.relay.afterPersist parsed⟩
  | .failing inCatch code text =>
    match failTaskEvent s.db s.relay.taskId code text now with
    | none => some { s with relay := { s.relay with phase := .returned } }
    | some event => some { s with relay := { s.relay with phase := .failPersist inCatch event } }
  | .failPersist inCatch event =>
    match persistTransaction settings now resultId event none s.db with
    | (.threw, db) =>
      some ⟨db, if inCatch then { s.relay with phase := .returned } else s.relay.catchError message⟩
    | (_, db) => some ⟨db, { s.relay with phase := .returned }⟩
  | _ => none

/-- An aborted request or body rejects; while the signal is not aborted it answers or fails. -/
def step (settings : RelaySettings) (s : State) : Label → Option State
  | .database now resultId message => s.answer settings.toSettings now resultId message
  | .prepared archived message =>
    match s.relay.phase with
    | .persisting parsed .prepare =>
      match prepareTaskEvent archived parsed.event with
      | some prepared =>
        some { s with relay := { s.relay with phase := .persisting parsed (.transaction prepared) } }
      | none => some { s with relay := s.relay.catchError message }
    | _ => none
  | .fetched status hasBody =>
    match s.relay.phase with
    | .fetching _ =>
      if s.relay.aborted then none
      else if 200 ≤ status ∧ status < 300 ∧ hasBody then
        some { s with relay := { s.relay with phase := .reading } }
      else
        let message := "adapter stream unavailable (" ++ toString status ++ ")"
        some { s with relay := s.relay.catchError message }
    | _ => none
  | .fetchFailed message =>
    match s.relay.phase with
    | .fetching _ => some { s with relay := s.relay.catchError message }
    | _ => none
  | .chunk text =>
    match s.relay.phase with
    | .reading =>
      if s.relay.aborted then none else some { s with relay := s.relay.receive settings text }
    | _ => none
  | .ended =>
    match s.relay.phase with
    | .reading =>
      if s.relay.aborted then none
      else
        let phase := .failing false "GATEWAY_STREAM_CLOSED" "gateway stream closed early"
        some { s with relay := { s.relay with phase } }
    | _ => none
  | .readFailed message =>
    match s.relay.phase with
    | .reading => some { s with relay := s.relay.catchError message }
    | _ => none
  | .cancellationAnswered =>
    match s.relay.phase with
    | .requestingCancellation =>
      let phase := .failing true "TASK_TIMEOUT" "task execution timed out"
      some { s with relay := { s.relay with phase } }
    | _ => none
  | .timer =>
    match s.relay.phase with
    | .returned => none
    | _ => some { s with relay := { s.relay with timedOut := true, aborted := true } }
  | .stop =>
    match s.relay.phase with
    | .returned => none
    | _ => some { s with relay := { s.relay with aborted := true, stopped := true } }
  | .other tx => do
    let db ← tx.apply settings.toSettings s.db
    some { s with db }

end AdapterRelay
