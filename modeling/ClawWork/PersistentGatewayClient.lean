import ClawWork.GatewayClient
import ClawWork.OrderedMap
import ClawWork.Transition
import Mathlib.Logic.Function.Basic

/-!
# The persistent gateway client

All tasks share one socket. An `ActiveTask` object is identified by the number
of the `execute` call that made it, so that the two maps, which hold references
to the same mutable objects under different keys, hold call numbers here and the
objects live in `Registry.tasks`. `Client.step` is one callback or one resumed
await; the order of the labels of a run is the order the event loop chose. The
log collects, in order, what each call sent and what its handler received.
-/

namespace PersistentGatewayClient

open JavaScript SharedTypes GatewayProtocol GatewayClient

structure ActiveTask where
  input : ExecuteGatewayTaskInput
  sessionKey : String
  runId : String
  lastAssistantSnapshot : String
  settled : Bool
  /-- The promise that `resolve` and `reject` of the object settle. -/
  promise : Promise GatewayError Accepted
  /-- Whether the task timer is pending. -/
  timeout : Bool
  deriving Inhabited

structure Entry where
  call : Nat
  taskId : String
  effect : Effect

/-- The active tasks, the two maps that refer to them and what was emitted so far. -/
structure Registry where
  tasks : Nat → ActiveTask
  activeByTask : OrderedMap String Nat
  taskByRun : OrderedMap String Nat
  log : List Entry
  clock : String

namespace Registry

def modify (r : Registry) (x : Nat) (f : ActiveTask → ActiveTask) : Registry :=
  { r with tasks := Function.update r.tasks x (f (r.tasks x)) }

def write (r : Registry) (x : Nat) (taskId : String) (effect : Effect) : Registry :=
  { r with log := r.log ++ [⟨x, taskId, effect⟩] }

def taskId (r : Registry) (x : Nat) : String := (r.tasks x).input.taskId

def event (r : Registry) (x : Nat) (detail : TaskEventDetail) : TaskStreamEvent :=
  let active := r.tasks x
  ⟨detail, active.input.taskId, active.input.sessionId,
    orElse active.runId active.input.taskId, r.clock⟩

/-- `active.handlers.onEvent(this.event(active, detail))`. -/
def emit (r : Registry) (x : Nat) (detail : TaskEventDetail) : Registry :=
  r.write x (r.taskId x) (.event (r.event x detail))

def emitFailure (r : Registry) (x : Nat) (error : GatewayError) : Registry :=
  r.emit x (.failed error.code error.message)

def removeTask (r : Registry) (x : Nat) : Registry :=
  let active := r.tasks x
  { r.modify x fun a => { a with timeout := false } with
    activeByTask := r.activeByTask.delete active.input.taskId
    taskByRun := if active.runId = "" then r.taskByRun else r.taskByRun.delete active.runId }

def reject (r : Registry) (x : Nat) (error : GatewayError) : Registry :=
  r.modify x fun a => { a with settled := true, promise := a.promise.reject error }

/-- The two endings of a task whose connection or timer gives up on it. -/
def fail (r : Registry) (x : Nat) (error : GatewayError) : Registry :=
  if (r.tasks x).settled then r.emitFailure x error else r.reject x error

/-- The tasks fail in the order of the map; then both maps are cleared. -/
def failAll (r : Registry) (error : GatewayError) : Registry :=
  let failed := r.activeByTask.values.foldl
    (fun r x => (r.fail x error).modify x fun a => { a with timeout := false }) r
  { failed with activeByTask := .empty, taskByRun := .empty }

/-- The entry of `taskByRun` for a run id; the empty id is not looked up. -/
def byRun (r : Registry) (runId : Option String) : Option Nat :=
  (runId.filter fun id => id ≠ "").bind r.taskByRun.get

/-- The first active task with the session key, or the only one when there is no key. -/
def fallbackActive (r : Registry) (sessionKey : Option String) : Option Nat :=
  match sessionKey.filter fun key => key ≠ "" with
  | some key => r.activeByTask.values.find? fun x => (r.tasks x).sessionKey = key
  | none => if r.activeByTask.size = 1 then r.activeByTask.values.head? else none

def findActive (r : Registry) (runId sessionKey : Option String) : Option Nat :=
  (r.byRun runId).or (r.fallbackActive sessionKey)

/-- An ok response: the task with that id is accepted, whether or not it already was. -/
def onOk (r : Registry) (id : String) (runId : Option String) : Registry :=
  match r.activeByTask.get id with
  | none => r
  | some x =>
    let input := (r.tasks x).input
    let runId := orElse (asNonEmptyString runId) input.taskId
    let r := r.modify x fun a => { a with runId }
    let r := { r with taskByRun := r.taskByRun.set runId x }
    let r := r.emit x .accepted
    r.modify x fun a => { a with
      settled := true
      promise := a.promise.resolve ⟨input.taskId, input.sessionId, runId, a.sessionKey⟩ }

/-- An error response: the task with that id is rejected and removed, with no event. -/
def onError (r : Registry) (id : String) (code message : Option String) : Registry :=
  match r.activeByTask.get id with
  | none => r
  | some x =>
    (r.reject x ⟨code.getD "GATEWAY_ERROR", message.getD "gateway task rejected"⟩).removeTask x

def emitArtifact (r : Registry) (x : Nat) (artifact : Option Artifact) : Registry :=
  match artifact with
  | some artifact => r.emit x (.resultCreated (.artifact artifact))
  | none => r

def frameArtifact (opts : Options) (payload : EventPayload) : Option Artifact :=
  extractArtifactResult opts.isUrl [payload.data.map Json.obj, payload.message]

def onAgent (opts : Options) (r : Registry) (x : Nat) (payload : EventPayload) : Registry :=
  let artifact := frameArtifact opts payload
  let r := r.emitArtifact x artifact
  if payload.stream = some "assistant" then
    let (delta, snapshot) := normalizeAssistantDelta (assistantSnapshot opts payload)
      (r.tasks x).lastAssistantSnapshot
    let r := r.modify x fun a => { a with lastAssistantSnapshot := snapshot }
    if delta = "" then r else r.emit x (.delta delta)
  else if artifact.isNone then r.emit x (.stageChanged (payload.stream.getD "agent"))
  else r

def onChat (opts : Options) (r : Registry) (x : Nat) (payload : EventPayload) : Registry :=
  let r := r.emitArtifact x (frameArtifact opts payload)
  match payload.state with
  | some "error" =>
    (r.emitFailure x ⟨"GATEWAY_ERROR", payload.errorMessage.getD "gateway task failed"⟩).removeTask x
  | some "aborted" =>
    (r.emitFailure x ⟨"GATEWAY_ABORTED", "gateway task was aborted"⟩).removeTask x
  | some "final" => (r.emit x .completed).removeTask x
  | _ => r

/-- The timer of call `x` looks its task up by id when it fires. -/
def onTimeout (r : Registry) (x : Nat) : Registry :=
  let r := r.modify x fun a => { a with timeout := false }
  match r.activeByTask.get (r.taskId x) with
  | none => r
  | some y => (r.fail y ⟨"TASK_TIMEOUT", "gateway task timed out"⟩).removeTask y

/-- The part of `executePersistent` after the connection is there. -/
def insert (opts : Options) (r : Registry) (x : Nat) (input : ExecuteGatewayTaskInput)
    (prepared : PreparedGatewayInput) : Registry :=
  let sessionKey := "agent:" ++ opts.agentId ++ ":session:" ++ opts.toLowerCase (trim input.sessionId)
  let active : ActiveTask :=
    { input, sessionKey, runId := "", lastAssistantSnapshot := "", settled := false,
      promise := .pending, timeout := true }
  let r := { r with
    tasks := Function.update r.tasks x active
    activeByTask := r.activeByTask.set input.taskId x }
  r.write x input.taskId (.send (.chatSend input.taskId sessionKey prepared.message
    prepared.attachments input.taskId opts.taskTimeoutMs))

/-- What `cancel` does to a task that is in `activeByTask`. -/
def cancelActive (r : Registry) (x : Nat) : Registry :=
  let active := r.tasks x
  let r := r.write x active.input.taskId (.send (.chatAbort ("abort:" ++ active.input.taskId)
    active.sessionKey (if active.runId = "" then none else some active.runId)))
  let r := r.emit x (.cancelled "task cancelled by user")
  let r := if active.settled then r
    else r.reject x ⟨"TASK_CANCELLED", "task cancelled by user"⟩
  r.removeTask x

end Registry

structure Connection where
  socket : Option Nat
  nextSocket : Nat
  readyState : Nat → ReadyState
  /-- Connection promises carry the number of the socket they were made for. -/
  connectionPromise : Option Nat
  promises : Nat → Promise GatewayError Unit
  connectTimer : Option Nat
  connectTimers : Nat → Bool
  connected : Bool
  closed : Bool
  lastPong : Bool
  heartbeat : Bool
  reconnectTimer : Bool
  /-- The sockets a connect request was written to, in order. -/
  connectRequests : List Nat

namespace Connection

def isOpen (c : Connection) : Bool :=
  match c.socket with
  | some s => c.readyState s = .opened
  | none => false

def setReady (c : Connection) (s : Nat) (state : ReadyState) : Connection :=
  { c with readyState := Function.update c.readyState s state }

/-- `this.socket?.close()`, and `terminate()`, which shuts the socket in the same way. -/
def shutSocket (c : Connection) : Connection :=
  match c.socket with
  | some s => c.setReady s (c.readyState s).shut
  | none => c

def clearConnectTimer (c : Connection) : Connection :=
  match c.connectTimer with
  | some s => { c with connectTimers := Function.update c.connectTimers s false }
  | none => c

/-- Settle the pending connection promise, if there is one, and forget it. -/
def settleConnection (c : Connection)
    (settle : Promise GatewayError Unit → Promise GatewayError Unit) : Connection :=
  match c.connectionPromise with
  | some p => { c with
      promises := Function.update c.promises p (settle (c.promises p))
      connectionPromise := none }
  | none => c

def rejectCurrentConnection (c : Connection) (error : GatewayError) : Connection :=
  c.clearConnectTimer.settleConnection fun p => p.reject error

/-- The connection to wait for; `none` when it is there already. -/
def ensureConnected (c : Connection) : Connection × Option Nat :=
  if c.connected && c.isOpen then (c, none)
  else match c.connectionPromise with
    | some p => (c, some p)
    | none =>
      let s := c.nextSocket
      ({ c with
          nextSocket := s + 1
          socket := some s
          readyState := Function.update c.readyState s .connecting
          connectionPromise := some s
          promises := Function.update c.promises s .pending
          connectTimer := some s
          connectTimers := Function.update c.connectTimers s true }, some s)

/-- The answer to a connect challenge: the connect request goes out on the current socket, when it is open. -/
def sendConnect (c : Connection) : Connection :=
  if c.isOpen then { c with connectRequests := c.connectRequests ++ c.socket.toList } else c

/-- The state that a connect response with `ok` leaves. -/
def onConnected (c : Connection) : Connection :=
  let c := { c with connected := true }
  let c := c.clearConnectTimer.settleConnection fun p => p.resolve ()
  { c with heartbeat := true, lastPong := true }

@[simp] theorem closed_shutSocket (c : Connection) : c.shutSocket.closed = c.closed := by
  unfold shutSocket
  split <;> rfl

@[simp] theorem closed_sendConnect (c : Connection) : c.sendConnect.closed = c.closed := by
  unfold sendConnect
  split <;> rfl

@[simp] theorem closed_clearConnectTimer (c : Connection) : c.clearConnectTimer.closed = c.closed := by
  unfold clearConnectTimer
  split <;> rfl

@[simp] theorem closed_settleConnection (c : Connection)
    (settle : Promise GatewayError Unit → Promise GatewayError Unit) :
    (c.settleConnection settle).closed = c.closed := by
  unfold settleConnection
  split <;> rfl

@[simp] theorem closed_rejectCurrentConnection (c : Connection) (e : GatewayError) :
    (c.rejectCurrentConnection e).closed = c.closed := by simp [rejectCurrentConnection]

@[simp] theorem closed_ensureConnected (c : Connection) : c.ensureConnected.1.closed = c.closed := by
  unfold ensureConnected
  split
  · rfl
  · split <;> rfl

@[simp] theorem closed_onConnected (c : Connection) : c.onConnected.closed = c.closed := by
  simp [onConnected]

end Connection

inductive Phase where
  /-- Awaiting `prepareGatewayInput` in `executePersistent`. -/
  | preparing
  /-- Awaiting `ensureConnected`; `none` is a promise that was resolved from the start. -/
  | connecting (promise : Option Nat)
  /-- Awaiting the promise of the inserted `ActiveTask`. -/
  | awaiting
  /-- Awaiting `prepareGatewayInput` in `executeGatewayTask`. -/
  | fallbackPreparing
  /-- Awaiting the promise of `executeGatewayTask`. -/
  | fallbackAwaiting
  | returned
  | threw (error : GatewayError)
  deriving DecidableEq, Repr

structure Call where
  input : ExecuteGatewayTaskInput
  prepared : PreparedGatewayInput
  phase : Phase
  oneShot : Option OneShot
  oneShotPromise : Promise GatewayError Accepted

structure Fallback where
  /-- The call whose control functions the entry holds. -/
  call : Nat
  sessionId : String
  runId : String
  deriving DecidableEq, Repr

structure Client where
  registry : Registry
  connection : Connection
  calls : Nat → Option Call
  nextCall : Nat
  fallbackByTask : OrderedMap String Fallback

def initialRegistry : Registry where
  tasks := fun _ => default
  activeByTask := .empty
  taskByRun := .empty
  log := []
  clock := ""

def initialConnection : Connection where
  socket := none
  nextSocket := 0
  readyState := fun _ => .closed
  connectionPromise := none
  promises := fun _ => .pending
  connectTimer := none
  connectTimers := fun _ => false
  connected := false
  closed := false
  lastPong := true
  heartbeat := false
  reconnectTimer := false
  connectRequests := []

def Client.init : Client where
  registry := initialRegistry
  connection := initialConnection
  calls := fun _ => none
  nextCall := 0
  fallbackByTask := .empty

structure CancelResult where
  taskId : String
  sessionId : String
  runId : String
  deriving DecidableEq, Repr

inductive Label where
  | tick (now : String)
  | execute (input : ExecuteGatewayTaskInput)
  | prepared (call : Nat) (result : Except GatewayError PreparedGatewayInput)
  | resume (call : Nat)
  | cancel (taskId : String)
  | close
  | opened (socket : Nat)
  | message (socket : Nat) (frame : GatewayFrame)
  | malformed (socket : Nat)
  | pong (socket : Nat)
  | socketError (socket : Nat) (message : String)
  | socketClosed (socket : Nat) (code : Nat) (reason : String)
  | connectTimeout (socket : Nat)
  | heartbeat
  | reconnect
  | taskTimeout (call : Nat)
  | oneShot (call : Nat) (stimulus : Stimulus)

namespace Client

def setCall (c : Client) (x : Nat) (call : Call) : Client :=
  { c with calls := Function.update c.calls x (some call) }

def setPhase (c : Client) (x : Nat) (call : Call) (phase : Phase) : Client :=
  c.setCall x { call with phase }

/-- The catch clause of `execute`: the one-shot client takes over unless the client is closed. -/
def catchError (c : Client) (x : Nat) (call : Call) (error : GatewayError) : Client :=
  c.setPhase x call (if c.connection.closed then .threw error else .fallbackPreparing)

/-- The end of a failed fallback: the `finally` clause, then the error leaves `execute`. -/
def failFallback (c : Client) (x : Nat) (call : Call) (error : GatewayError) : Client :=
  { c.setPhase x call (.threw error) with
    fallbackByTask := c.fallbackByTask.delete call.input.taskId }

/-- The `onEvent` that `execute` hands to `executeGatewayTask`. -/
def onFallbackEvent (c : Client) (x : Nat) (taskId : String) (event : TaskStreamEvent) : Client :=
  let fallbackByTask :=
    match c.fallbackByTask.get taskId with
    | some fallback =>
      if event.detail.isAccepted then
        c.fallbackByTask.set taskId { fallback with runId := event.runId }
      else c.fallbackByTask
    | none => c.fallbackByTask
  { c with
    registry := c.registry.write x taskId (.event event)
    fallbackByTask := if event.isTerminal then fallbackByTask.delete taskId else fallbackByTask }

def settleOneShot (c : Client) (x : Nat)
    (settle : Promise GatewayError Accepted → Promise GatewayError Accepted) : Client :=
  match c.calls x with
  | some call => c.setCall x { call with oneShotPromise := settle call.oneShotPromise }
  | none => c

/-- What an effect of the one-shot client of call `x` does to the client. -/
def onEffect (x : Nat) (taskId : String) (c : Client) : Effect → Client
  | .event event => c.onFallbackEvent x taskId event
  | .resolve accepted => c.settleOneShot x fun p => p.resolve accepted
  | .reject error => c.settleOneShot x fun p => p.reject error
  | effect => { c with registry := c.registry.write x taskId effect }

/-- One callback of the one-shot client of call `x`. -/
def stepOneShot (opts : Options) (c : Client) (x : Nat) (stimulus : Stimulus) : Option Client := do
  let call ← c.calls x
  let oneShot ← call.oneShot
  let (oneShot, effects) ← oneShot.step opts c.registry.clock stimulus
  let c := c.setCall x { call with oneShot := some oneShot }
  some (effects.foldl (onEffect x call.input.taskId) c)

def execute (c : Client) (input : ExecuteGatewayTaskInput) : Client :=
  { c.setCall c.nextCall
      { input, prepared := default, phase := .preparing, oneShot := none,
        oneShotPromise := .pending } with
    nextCall := c.nextCall + 1 }

/-- `prepareGatewayInput` has settled for call `x`. -/
def onPrepared (opts : Options) (c : Client) (x : Nat) (call : Call)
    (result : Except GatewayError PreparedGatewayInput) : Option Client :=
  match call.phase, result with
  | .preparing, .ok prepared =>
    let (connection, promise) := c.connection.ensureConnected
    some ({ c with connection }.setPhase x { call with prepared } (.connecting promise))
  | .preparing, .error error => some (c.catchError x call error)
  | .fallbackPreparing, .ok prepared =>
    let oneShot := OneShot.start opts call.input prepared
    some { c.setPhase x { call with prepared, oneShot := some oneShot } .fallbackAwaiting with
      fallbackByTask := c.fallbackByTask.set call.input.taskId
        ⟨x, call.input.sessionId, call.input.taskId⟩ }
  | .fallbackPreparing, .error error =>
    some (c.failFallback x call (toGatewayExecutionError "INVALID_REQUEST" error.message))
  | _, _ => none

/-- `executePersistent` after `ensureConnected` has resolved. -/
def insertActive (opts : Options) (c : Client) (x : Nat) (call : Call) : Client :=
  if c.connection.isOpen then
    { c.setPhase x call .awaiting with
      registry := c.registry.insert opts x call.input call.prepared }
  else c.catchError x call ⟨"GATEWAY_UNAVAILABLE", "gateway connection is unavailable"⟩

/-- Call `x` continues from an await whose promise has settled. -/
def resume (opts : Options) (c : Client) (x : Nat) (call : Call) : Option Client :=
  match call.phase with
  | .connecting none => some (c.insertActive opts x call)
  | .connecting (some p) =>
    match c.connection.promises p with
    | .pending => none
    | .fulfilled () => some (c.insertActive opts x call)
    | .rejected error => some (c.catchError x call error)
  | .awaiting =>
    match (c.registry.tasks x).promise with
    | .pending => none
    | .fulfilled _ => some (c.setPhase x call .returned)
    | .rejected error => some (c.catchError x call error)
  | .fallbackAwaiting =>
    match call.oneShotPromise with
    | .pending => none
    | .fulfilled _ => some (c.setPhase x call .returned)
    | .rejected error => some (c.failFallback x call error)
  | _ => none

/-- The fallback branch of `cancel`. -/
def cancelFallback (opts : Options) (c : Client) (taskId : String) (fallback : Fallback) : Client :=
  let c := (c.stepOneShot opts fallback.call .cancel).getD c
  { c with fallbackByTask := c.fallbackByTask.delete taskId }

/-- `cancel`: the value it returns or the error it throws, and the state it leaves. -/
def cancel (opts : Options) (c : Client) (taskId : String) :
    Except GatewayError (Option CancelResult) × Client :=
  match c.registry.activeByTask.get taskId with
  | none =>
    match c.fallbackByTask.get taskId with
    | none => (.ok none, c)
    | some fallback =>
      (.ok (some ⟨taskId, fallback.sessionId, fallback.runId⟩), c.cancelFallback opts taskId fallback)
  | some x =>
    if c.connection.isOpen then
      let active := c.registry.tasks x
      (.ok (some ⟨taskId, active.input.sessionId, orElse active.runId taskId⟩),
        { c with registry := c.registry.cancelActive x })
    else (.error ⟨"GATEWAY_UNAVAILABLE", "gateway connection is unavailable"⟩, c)

def handleDisconnect (c : Client) (error : GatewayError) : Client :=
  let wasConnected := c.connection.connected
  let connection := { c.connection with connected := false, heartbeat := false }
  let connection := connection.rejectCurrentConnection error
  { c with
    connection := { connection with
      reconnectTimer := connection.reconnectTimer || !connection.closed }
    registry := if wasConnected then c.registry.failAll error else c.registry }

def connectRequestId : String := "persistent-connect"

/-- `handleMessage` on a frame that parses; it does not look at the socket it came from. -/
def handleMessage (opts : Options) (c : Client) : GatewayFrame → Client
  | .challenge => { c with connection := c.connection.sendConnect }
  | .ok id runId _ =>
    if id = connectRequestId then { c with connection := c.connection.onConnected }
    else { c with registry := c.registry.onOk id runId }
  | .error id code message =>
    if id = connectRequestId then
      { c with connection := (c.connection.rejectCurrentConnection
          ⟨code.getD "GATEWAY_AUTH_ERROR", message.getD "gateway rejected connect"⟩).shutSocket }
    else { c with registry := c.registry.onError id code message }
  | .agent payload =>
    match c.registry.findActive payload.runId payload.sessionKey with
    | some x => { c with registry := c.registry.onAgent opts x payload }
    | none => c
  | .chat payload =>
    match c.registry.findActive payload.runId payload.sessionKey with
    | some x => { c with registry := c.registry.onChat opts x payload }
    | none => c
  | .other => c

/-- A message that is not JSON. -/
def onMalformed (c : Client) : Client :=
  let c := c.handleDisconnect ⟨"GATEWAY_PROTOCOL_ERROR", "invalid gateway frame"⟩
  { c with connection := c.connection.shutSocket }

def closeDetail (code : Nat) (reason : String) : String :=
  "gateway closed (" ++ toString code ++ ")" ++ if trim reason = "" then "" else ": " ++ trim reason

def onHeartbeat (c : Connection) : Connection :=
  if c.isOpen then if c.lastPong then { c with lastPong := false } else c.shutSocket else c

/-- The synchronous part of `close`; the rest only waits for the socket. -/
def close (opts : Options) (c : Client) : Client :=
  let connection := { c.connection with closed := true, connected := false }.clearConnectTimer
  let connection := { connection with heartbeat := false, reconnectTimer := false }
  let c := { c with
    connection
    registry := c.registry.failAll ⟨"GATEWAY_SHUTDOWN", "gateway client is shutting down"⟩ }
  let c := c.fallbackByTask.values.foldl
    (fun c fallback => (c.stepOneShot opts fallback.call .shutdown).getD c) c
  { c with
    fallbackByTask := .empty
    connection := { c.connection.shutSocket with socket := none } }

/-- A socket whose callbacks can still run. -/
def live (c : Client) (socket : Nat) : Bool :=
  decide (socket < c.connection.nextSocket) && decide (c.connection.readyState socket ≠ .closed)

def step (opts : Options) (c : Client) : Label → Option Client
  | .tick now => some { c with registry := { c.registry with clock := now } }
  | .execute input => some (c.execute input)
  | .prepared x result => do c.onPrepared opts x (← c.calls x) result
  | .resume x => do c.resume opts x (← c.calls x)
  | .cancel taskId => some (c.cancel opts taskId).2
  | .close => some (c.close opts)
  | .opened s =>
    if c.live s && decide (c.connection.readyState s = .connecting) then
      some { c with connection := c.connection.setReady s .opened }
    else none
  | .message s frame => if c.live s then some (c.handleMessage opts frame) else none
  | .malformed s => if c.live s then some c.onMalformed else none
  | .pong s =>
    if c.live s then some { c with connection := { c.connection with lastPong := true } } else none
  | .socketError s message =>
    if c.live s then
      if c.connection.connected then some c
      else
        let error := ⟨"GATEWAY_UNAVAILABLE", orElse message "gateway connection failed"⟩
        some { c with connection := c.connection.rejectCurrentConnection error }
    else none
  | .socketClosed s code reason =>
    if c.live s then
      some ({ c with connection := c.connection.setReady s .closed }.handleDisconnect
        ⟨"GATEWAY_UNAVAILABLE", closeDetail code reason⟩)
    else none
  | .connectTimeout s =>
    if c.connection.connectTimers s then
      let connection := { c.connection with
        connectTimers := Function.update c.connection.connectTimers s false }
      let connection := connection.rejectCurrentConnection
        ⟨"GATEWAY_TIMEOUT", "gateway connect timed out"⟩
      some { c with connection := connection.setReady s (connection.readyState s).shut }
    else none
  | .heartbeat =>
    if c.connection.heartbeat then some { c with connection := onHeartbeat c.connection } else none
  | .reconnect =>
    if c.connection.reconnectTimer then
      let connection := { c.connection with reconnectTimer := false }
      some { c with connection := connection.ensureConnected.1 }
    else none
  | .taskTimeout x =>
    if (c.registry.tasks x).timeout then some { c with registry := c.registry.onTimeout x } else none
  | .oneShot x stimulus =>
    match stimulus with
    | .cancel | .shutdown => none
    | stimulus => c.stepOneShot opts x stimulus

/-! ### What a call does between two awaits -/

section Call

variable {opts : Options} {c c' : Client} {x : Nat} {call : Call}

/-- What a call goes on to when its input is prepared, or is not. -/
inductive Proceeds (opts : Options) (c : Client) (x : Nat) (call : Call) :
    Except GatewayError PreparedGatewayInput → Client → Prop where
  | connects (prepared : PreparedGatewayInput) (hphase : call.phase = .preparing) :
      Proceeds opts c x call (.ok prepared)
        ({ c with connection := c.connection.ensureConnected.1 }.setPhase x { call with prepared }
          (.connecting c.connection.ensureConnected.2))
  | unprepared (error : GatewayError) (hphase : call.phase = .preparing) :
      Proceeds opts c x call (.error error) (c.catchError x call error)
  | startsOneShot (prepared : PreparedGatewayInput) (hphase : call.phase = .fallbackPreparing) :
      Proceeds opts c x call (.ok prepared)
        { c.setPhase x { call with prepared, oneShot := some (OneShot.start opts call.input prepared) }
            .fallbackAwaiting with
          fallbackByTask := c.fallbackByTask.set call.input.taskId
            ⟨x, call.input.sessionId, call.input.taskId⟩ }
  | oneShotUnprepared (error : GatewayError) (hphase : call.phase = .fallbackPreparing) :
      Proceeds opts c x call (.error error)
        (c.failFallback x call (toGatewayExecutionError "INVALID_REQUEST" error.message))

theorem proceeds_of_onPrepared {result : Except GatewayError PreparedGatewayInput}
    (h : c.onPrepared opts x call result = some c') : Proceeds opts c x call result c' := by
  unfold onPrepared at h
  split at h
  · rename_i prepared hphase
    obtain rfl := Option.some.inj h
    exact .connects prepared hphase
  · rename_i error hphase
    cases h
    exact .unprepared error hphase
  · rename_i prepared hphase
    cases h
    exact .startsOneShot prepared hphase
  · rename_i error hphase
    cases h
    exact .oneShotUnprepared error hphase
  · cases h

/-- What a call goes on to when the promise that it awaits has settled. -/
inductive Resumes (opts : Options) (c : Client) (x : Nat) (call : Call) : Client → Prop where
  | connected (promise : Option Nat) (hphase : call.phase = .connecting promise)
      (hfulfilled : ∀ p ∈ promise, c.connection.promises p = .fulfilled ()) :
      Resumes opts c x call (c.insertActive opts x call)
  | unconnected (p : Nat) (error : GatewayError) (hphase : call.phase = .connecting (some p))
      (hrejected : c.connection.promises p = .rejected error) :
      Resumes opts c x call (c.catchError x call error)
  | returns (accepted : Accepted) (hphase : call.phase = .awaiting)
      (hfulfilled : (c.registry.tasks x).promise = .fulfilled accepted) :
      Resumes opts c x call (c.setPhase x call .returned)
  | fails (error : GatewayError) (hphase : call.phase = .awaiting)
      (hrejected : (c.registry.tasks x).promise = .rejected error) :
      Resumes opts c x call (c.catchError x call error)
  | oneShotReturns (accepted : Accepted) (hphase : call.phase = .fallbackAwaiting)
      (hfulfilled : call.oneShotPromise = .fulfilled accepted) :
      Resumes opts c x call (c.setPhase x call .returned)
  | oneShotFails (error : GatewayError) (hphase : call.phase = .fallbackAwaiting)
      (hrejected : call.oneShotPromise = .rejected error) :
      Resumes opts c x call (c.failFallback x call error)

theorem resumes_of_resume (h : c.resume opts x call = some c') : Resumes opts c x call c' := by
  unfold resume at h
  split at h
  · rename_i hphase
    cases h
    exact .connected none hphase fun p hp => by cases hp
  · rename_i p hphase
    split at h <;> cases h
    · rename_i hfulfilled
      refine .connected (some p) hphase fun q hq => ?_
      cases hq
      exact hfulfilled
    · rename_i error hrejected
      exact .unconnected p error hphase hrejected
  · rename_i hphase
    split at h <;> cases h
    · rename_i accepted hfulfilled
      exact .returns accepted hphase hfulfilled
    · rename_i error hrejected
      exact .fails error hphase hrejected
  · rename_i hphase
    split at h <;> cases h
    · rename_i accepted hfulfilled
      exact .oneShotReturns accepted hphase hfulfilled
    · rename_i error hrejected
      exact .oneShotFails error hphase hrejected
  · cases h

end Call

end Client

/-- A task is executed over the shared socket until the gateway has accepted it. -/
def acceptedRun : List Label :=
  [.execute ⟨"t", "s", "hello"⟩, .prepared 0 (.ok ⟨"hello", []⟩), .opened 0,
    .message 0 (.ok Client.connectRequestId none none), .resume 0,
    .message 0 (.ok "t" (some "r") none)]

end PersistentGatewayClient
