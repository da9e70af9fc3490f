import ClawWork.PersistentGatewayClient

/-!
# Frames as they arrive

A frame is any JSON value that is cast to the frame type without a check. The two message
handlers are embedded here over that value, with every read that can throw: a member of
`null` or `undefined`, the text of an object that hides `toString`, a send on a socket that
is still connecting, and text that is not JSON. On a frame of the declared type they agree
with the typed handlers.
-/

namespace FrameHandling

open JavaScript SharedTypes GatewayProtocol GatewayClient PersistentGatewayClient

inductive Thrown where
  | syntaxError
  /-- A member was read from `null` or `undefined`. -/
  | noMember (key : String)
  /-- A value that has no primitive form was converted to a text. -/
  | noText
  /-- `send` was called on a connecting socket. -/
  | notOpen
  deriving DecidableEq, Repr

/-- `value.key`. -/
def read (value : Option Json) (key : String) : Except Thrown (Option Json) :=
  match value with
  | none | some .null => .error (.noMember key)
  | some json => .ok (memberOf (some json) key)

/-- `value === text`. -/
def isText (value : Option Json) (text : String) : Bool := parseString value = some text

/-- `value ?? fallback`. -/
def orText (value : Option Json) (fallback : String) : Json :=
  match value with
  | none | some .null => .str fallback
  | some json => json

mutual

/-- Whether `String(value)` returns: an own `toString` member from JSON is no function. -/
def printable : Json → Bool
  | .arr items => printableItems items
  | .obj fields => (member fields "toString").isNone
  | _ => true

/-- The elements of an array are converted one by one. -/
def printableItems : List Json → Bool
  | [] => true
  | item :: items => printable item && printableItems items

end

/-- `String(value)`, also the conversion that `new Error(value)` makes. -/
def toText (opts : Options) (value : Json) : Except Thrown String :=
  match value with
  | .str text => .ok text
  | value => if printable value then .ok (opts.display value) else .error .noText

/-- A value that is only passed on. Events and errors hold texts here, so one that is no
text is recorded by the text it displays as. -/
def passed (opts : Options) : Json → String
  | .str text => text
  | value => opts.display value

/-- The code that `mapGatewayError` compares with its texts. -/
def mapCode : Json → String
  | .str code => mapGatewayError code
  | _ => "GATEWAY_ERROR"

/-! ## `PersistentGatewayClient.handleMessage` -/

def isConnecting (k : Connection) : Bool :=
  match k.socket with
  | some s => k.readyState s = .connecting
  | none => false

def sendConnect (k : Connection) : Except Thrown Connection :=
  if isConnecting k then .error .notOpen else .ok k.sendConnect

/-- Only a text can be a key of the two maps or equal a session key. -/
def fallbackActive (r : Registry) (sessionKey : Option Json) : Option Nat :=
  match parseString sessionKey with
  | some key => r.fallbackActive (some key)
  | none => if isTruthy sessionKey then none else r.fallbackActive none

def findActive (r : Registry) (runId sessionKey : Option Json) : Option Nat :=
  (r.byRun (parseString runId)).or (fallbackActive r sessionKey)

def onResponse (opts : Options) (r : Registry) (frame : Option Json) : Except Thrown Registry := do
  let id := parseString (memberOf frame "id")
  match id.bind r.activeByTask.get with
  | none => return r
  | some _ =>
    if isTruthy (memberOf frame "ok") then
      let runId ← read (memberOf frame "payload") "runId"
      return r.onOk (id.getD "") (parseString runId)
    else
      let error := memberOf frame "error"
      let message ← toText opts (orText (memberOf error "message") "gateway task rejected")
      return r.onError (id.getD "") (some (passed opts (orText (memberOf error "code") "GATEWAY_ERROR")))
        (some message)

def onAgent (opts : Options) (r : Registry) (x : Nat) (payload : Option Json) : Except Thrown Registry := do
  let artifact := extractArtifactResult opts.isUrl [memberOf payload "data", memberOf payload "message"]
  let r := r.emitArtifact x artifact
  let stream := memberOf payload "stream"
  if isText stream "assistant" then
    let text ← toText opts (orText (memberOf (memberOf payload "data") "text") "")
    let (delta, snapshot) := normalizeAssistantDelta text (r.tasks x).lastAssistantSnapshot
    let r := r.modify x fun a => { a with lastAssistantSnapshot := snapshot }
    return if delta = "" then r else r.emit x (.delta delta)
  else if artifact.isNone then return r.emit x (.stageChanged (passed opts (orText stream "agent")))
  else return r

def onChat (opts : Options) (r : Registry) (x : Nat) (payload : Option Json) : Except Thrown Registry := do
  let r := r.emitArtifact x
    (extractArtifactResult opts.isUrl [memberOf payload "data", memberOf payload "message"])
  let state := memberOf payload "state"
  if isText state "error" then
    let message ← toText opts (orText (memberOf payload "errorMessage") "gateway task failed")
    return (r.emitFailure x ⟨"GATEWAY_ERROR", message⟩).removeTask x
  else if isText state "aborted" then
    return (r.emitFailure x ⟨"GATEWAY_ABORTED", "gateway task was aborted"⟩).removeTask x
  else if isText state "final" then return (r.emit x .completed).removeTask x
  else return r

def onEvent (r : Registry) (frame : Option Json)
    (handle : Registry → Nat → Option Json → Except Thrown Registry) : Except Thrown Registry := do
  let payload := memberOf frame "payload"
  let runId ← read payload "runId"
  let sessionKey ← read payload "sessionKey"
  match findActive r runId sessionKey with
  | none => return r
  | some x => handle r x payload

/-- The part of `handleMessage` after `JSON.parse`. -/
def onFrame (opts : Options) (c : Client) (frame : Json) : Except Thrown Client := do
  let type ← read (some frame) "type"
  let event := memberOf (some frame) "event"
  if isText type "event" && isText event "connect.challenge" then
    let connection ← sendConnect c.connection
    return { c with connection }
  else if isText type "res" && isText (memberOf (some frame) "id") Client.connectRequestId then
    if isTruthy (memberOf (some frame) "ok") then return { c with connection := c.connection.onConnected }
    else
      let error := memberOf (some frame) "error"
      let message ← toText opts (orText (memberOf error "message") "gateway rejected connect")
      let code := passed opts (orText (memberOf error "code") "GATEWAY_AUTH_ERROR")
      return { c with connection := (c.connection.rejectCurrentConnection ⟨code, message⟩).shutSocket }
  else if isText type "res" then
    let registry ← onResponse opts c.registry (some frame)
    return { c with registry }
  else if isText type "event" && isText event "agent" then
    let registry ← onEvent c.registry (some frame) (onAgent opts)
    return { c with registry }
  else if isText type "event" && isText event "chat" then
    let registry ← onEvent c.registry (some frame) (onChat opts)
    return { c with registry }
  else return c

/-- `PersistentGatewayClient.handleMessage`. -/
def handleMessage (opts : Options) (jsonParse : String → Option Json) (c : Client) (raw : String) :
    Except Thrown Client :=
  match jsonParse raw with
  | none => .ok c.onMalformed
  | some frame => onFrame opts c frame

/-! ## The listener of `executeGatewayTask` -/

def send (o : OneShot) (request : GatewayRequest) : Except Thrown (OneShot × List Effect) :=
  if o.readyState = .connecting then .error .notOpen else .ok (o, [.send request])

def onConnectOk (opts : Options) (o : OneShot) (payload : Option Json) : Except Thrown
    (OneShot × List Effect) := do
  let snapshot ← read payload "snapshot"
  let fallback := orText (memberOf (memberOf snapshot "sessionDefaults") "mainSessionKey") defaultSessionKey
  let o := { o with sessionKey := resolveGatewaySessionKey opts o.input.sessionId (passed opts fallback) }
  send o (.chatSend o.input.taskId o.sessionKey o.prepared.message o.prepared.attachments o.input.taskId
    opts.taskTimeoutMs)

def onTaskOk (o : OneShot) (now : String) (payload : Option Json) : Except Thrown (OneShot × List Effect) := do
  let runId ← read payload "runId"
  let o := { o with resolvedRunId := orElse (asNonEmptyString (parseString runId)) o.input.taskId }
  let (o', effects) := o.resolveAccepted o.resolvedRunId
  return (o', .event (o.event now o.resolvedRunId .accepted) :: effects)

def gatewayExecutionError (opts : Options) (error : Option Json) (fallback : String) :
    Except Thrown GatewayError := do
  let code := mapCode (orText (memberOf error "code") "UNKNOWN")
  let message ← toText opts (orText (memberOf error "message") fallback)
  return ⟨code, message⟩

def onTaskError (opts : Options) (o : OneShot) (now : String) (error : Option Json) :
    Except Thrown (OneShot × List Effect) := do
  let error ← gatewayExecutionError opts error "gateway task rejected"
  return if o.promiseSettled then o.failAfterAccepted now error else o.rejectExecution error

/-- The run id of the events; unlike the persistent client, this one passes on what the frame holds. -/
def eventRunId (opts : Options) (o : OneShot) (runId : Option Json) : String :=
  passed opts (orText runId o.resolvedRunId)

def onAgentEvent (opts : Options) (o : OneShot) (now : String) (payload : Option Json) :
    Except Thrown (OneShot × List Effect) := do
  let runId := eventRunId opts o (← read payload "runId")
  match extractArtifactResult opts.isUrl [memberOf payload "data", memberOf payload "message"] with
  | some artifact => return (o, [.event (o.event now runId (.resultCreated (.artifact artifact)))])
  | none =>
    let stream := memberOf payload "stream"
    if isText stream "assistant" then
      let text ← toText opts (orText (memberOf (memberOf payload "data") "text") "")
      let (delta, snapshot) := normalizeAssistantDelta text o.lastAssistantSnapshot
      let o := { o with lastAssistantSnapshot := snapshot }
      return (o, if delta = "" then [] else [.event (o.event now runId (.delta delta))])
    else return (o, [.event (o.event now runId (.stageChanged (passed opts (orText stream "agent"))))])

def onChatEvent (opts : Options) (o : OneShot) (now : String) (payload : Option Json) :
    Except Thrown (OneShot × List Effect) := do
  let runId := eventRunId opts o (← read payload "runId")
  let state ← read payload "state"
  let created :=
    match extractArtifactResult opts.isUrl [memberOf payload "message", memberOf payload "data"] with
    | some artifact => [Effect.event (o.event now runId (.resultCreated (.artifact artifact)))]
    | none => []
  if isText state "error" then
    let message ← toText opts (orText (memberOf payload "errorMessage") "gateway task failed")
    let (o, effects) := o.failAfterAccepted now (toGatewayExecutionError "GATEWAY_ERROR" message)
    return (o, created ++ effects)
  else if isText state "aborted" then
    let (o, effects) := o.failAfterAccepted now (toGatewayExecutionError "ABORTED" "gateway task was aborted")
    return (o, created ++ effects)
  else if isText state "final" then return (o.cleanup, created ++ [.event (o.event now runId .completed)])
  else return (o, created)

/-- The part of the listener after `JSON.parse`; the conditions are tested in this order. -/
def onOneShotFrame (opts : Options) (o : OneShot) (now : String) (frame : Json) :
    Except Thrown (OneShot × List Effect) := do
  let type ← read (some frame) "type"
  let event := memberOf (some frame) "event"
  let id := memberOf (some frame) "id"
  let accepted := isTruthy (memberOf (some frame) "ok")
  if isText type "event" && isText event "connect.challenge" then send o (.connect connectRequestId)
  else if isText type "res" && isText id connectRequestId && accepted then
    onConnectOk opts o (memberOf (some frame) "payload")
  else if isText type "res" && isText id connectRequestId && !accepted then
    let error ← gatewayExecutionError opts (memberOf (some frame) "error") "gateway connect rejected"
    return o.failBeforeAccepted now error
  else if isText type "res" && isText id o.input.taskId && accepted then
    onTaskOk o now (memberOf (some frame) "payload")
  else if isText type "res" && isText id o.input.taskId && !accepted then
    onTaskError opts o now (memberOf (some frame) "error")
  else if isText type "event" && isText event "agent" then
    onAgentEvent opts o now (memberOf (some frame) "payload")
  else if isText type "event" && isText event "chat" then
    onChatEvent opts o now (memberOf (some frame) "payload")
  else return (o, [])

/-- The `message` listener of `executeGatewayTask`; its `JSON.parse` is in no `try`. -/
def onMessage (opts : Options) (jsonParse : String → Option Json) (o : OneShot) (now raw : String) :
    Except Thrown (OneShot × List Effect) :=
  match jsonParse raw with
  | none => .error .syntaxError
  | some frame => onOneShotFrame opts o now frame

end FrameHandling
