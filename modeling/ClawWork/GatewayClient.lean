import ClawWork.GatewayProtocol

/-!
# The one-shot gateway client

`executeGatewayTask` opens a socket of its own for one task and falls back to an
HTTP completion when the socket fails before the task is accepted. `OneShot` is
the state its callbacks share, `OneShot.step` one callback: a socket frame, a
socket error or close, the connect timer, the settled HTTP request, or the
control functions that `onControl` hands out.
-/

namespace GatewayClient

open JavaScript SharedTypes GatewayProtocol

/-- `mapGatewayError`, without the retry flag that no client reads. -/
def mapGatewayError : String → String
  | "AGENT_TIMEOUT" => "GATEWAY_TIMEOUT"
  | "UNAVAILABLE" => "GATEWAY_UNAVAILABLE"
  | "NOT_PAIRED" | "DEVICE_IDENTITY_REQUIRED" => "GATEWAY_PAIRING_REQUIRED"
  | "INVALID_REQUEST" => "GATEWAY_INVALID_REQUEST"
  | "AUTH_REQUIRED" | "UNAUTHORIZED" => "GATEWAY_AUTH_REQUIRED"
  | "HTTP_CHAT_COMPLETIONS_DISABLED" => "GATEWAY_HTTP_ENDPOINT_DISABLED"
  | "EMPTY_RESPONSE" => "GATEWAY_EMPTY_RESPONSE"
  | "ABORTED" => "GATEWAY_ABORTED"
  | _ => "GATEWAY_ERROR"

def toGatewayExecutionError (rawCode message : String) : GatewayError :=
  ⟨mapGatewayError rawCode, message⟩

def combineGatewayErrors (wsError httpError : GatewayError) : GatewayError :=
  ⟨httpError.code,
    if httpError.message = wsError.message then httpError.message
    else wsError.message ++ " (HTTP fallback: " ++ httpError.message ++ ")"⟩

def asNonEmptyString (input : Option String) : String := (input.map trim).getD ""

def connectRequestId : String := "connect-1"

def defaultSessionKey : String := "main"

def resolveGatewaySessionKey (opts : Options) (sessionId fallback : String) : String :=
  let sessionId := opts.toLowerCase (trim sessionId)
  if sessionId ≠ "" then "agent:" ++ opts.agentId ++ ":session:" ++ sessionId else fallback

/-- The flat form of an artifact payload, the last one `normalizeArtifactPayload` tries. -/
def flatArtifact (fields : List (String × Json)) : Option Json := do
  let kind ← parseString (member fields "kind")
  let fileName ← parseString (member fields "fileName")
  let mimeType ← parseString (member fields "mimeType")
  let downloadUrl ← parseString (member fields "downloadUrl")
  let previewText ← parseString (member fields "previewText")
  let sizeBytes := match member fields "sizeBytes" with
    | some (.num q) => [("sizeBytes", Json.num q)]
    | _ => []
  some <| artifactResultJson <| .obj <|
    [("kind", .str kind), ("fileName", .str fileName), ("mimeType", .str mimeType),
      ("downloadUrl", .str downloadUrl), ("previewText", .str previewText)] ++ sizeBytes

/-- The embedded form: an object of type `artifact` whose `artifact` member is an object. -/
def embeddedArtifact (fields : List (String × Json)) : Option Json :=
  match member fields "artifact" with
  | some (.obj artifact) =>
    if isArtifactLiteral (member fields "type") then some (artifactResultJson (.obj artifact))
    else none
  | _ => none

mutual

/-- `none` is the `null` of the source: no artifact payload was recognised. -/
def normalizeArtifactPayload (isUrl : String → Bool) : Json → Option Json
  | .obj fields =>
    match parseArtifactResult isUrl (.obj fields) with
    | some artifact => some (artifactResultJson artifact.toJson)
    | none =>
      match embeddedArtifact fields with
      | some payload => some payload
      | none =>
        match normalizeNestedResult isUrl fields with
        | some payload => some payload
        | none => flatArtifact fields
  | _ => none
termination_by structural input => input

/-- `normalizeArtifactPayload(record.result)`; an absent member is not a payload. -/
def normalizeNestedResult (isUrl : String → Bool) : List (String × Json) → Option Json
  | [] => none
  | field :: rest =>
    if field.1 = "result" then normalizeMember isUrl field else normalizeNestedResult isUrl rest
termination_by structural fields => fields

def normalizeMember (isUrl : String → Bool) : String × Json → Option Json
  | (_, value) => normalizeArtifactPayload isUrl value
termination_by structural field => field

end

/-- The first candidate that normalises to an accepted artifact result. -/
def extractArtifactResult (isUrl : String → Bool) (candidates : List (Option Json)) :
    Option Artifact :=
  candidates.findSome? fun candidate =>
    (candidate.bind (normalizeArtifactPayload isUrl)).bind (parseArtifactResult isUrl)

/-- The new text of a cumulative assistant snapshot and the snapshot to keep. -/
def normalizeAssistantDelta (nextSnapshot previousSnapshot : String) : String × String :=
  if nextSnapshot = "" then ("", nextSnapshot)
  else if previousSnapshot ≠ "" ∧ startsWith nextSnapshot previousSnapshot then
    (sliceFrom nextSnapshot previousSnapshot.length, nextSnapshot)
  else (nextSnapshot, nextSnapshot)

theorem normalizeAssistantDelta_snd (next previous : String) : (normalizeAssistantDelta next previous).2 = next := by
  unfold normalizeAssistantDelta
  split
  · rfl
  · split <;> rfl

/-- `String(frame.payload.data?.text ?? "")`. -/
def assistantSnapshot (opts : Options) (payload : EventPayload) : String :=
  match payload.data.bind fun fields => member fields "text" with
  | none | some .null => ""
  | some (.str s) => s
  | some value => opts.display value

inductive Effect where
  | event (event : TaskStreamEvent)
  | send (request : GatewayRequest)
  /-- The completion request of `executeGatewayTaskViaHttp` is issued. -/
  | httpRequest
  | resolve (accepted : Accepted)
  | reject (error : GatewayError)

/-- What the HTTP completion request comes back with: an error thrown by the request, typed
as the catch clause types it, an error status, or a body with its extracted content. -/
inductive HttpOutcome where
  | failed (error : GatewayError)
  | rejected (status : Nat) (message : String)
  | reply (id : Option String) (reply : String)

def httpRejection (status : Nat) (message : String) : GatewayError :=
  if status = 401 then
    toGatewayExecutionError "AUTH_REQUIRED" (orElse message "gateway token/password invalid")
  else if status = 404 then
    toGatewayExecutionError "HTTP_CHAT_COMPLETIONS_DISABLED" (orElse message
      "OpenClaw HTTP chat completions endpoint is disabled. Enable gateway.http.endpoints.chatCompletions.enabled.")
  else if 500 ≤ status then
    toGatewayExecutionError "UNAVAILABLE"
      (orElse message "gateway http chat completions request failed")
  else
    toGatewayExecutionError "GATEWAY_ERROR"
      (orElse message ("gateway http fallback failed: " ++ toString status))

/-- The state shared by the callbacks of one `executeGatewayTask` call. -/
structure OneShot where
  input : ExecuteGatewayTaskInput
  prepared : PreparedGatewayInput
  sessionKey : String
  resolvedRunId : String
  lastAssistantSnapshot : String
  promiseSettled : Bool
  fallbackInFlight : Bool
  /-- The socket error that the pending HTTP request will be combined with. -/
  httpPending : Option GatewayError
  connectTimer : Bool
  listening : Bool
  readyState : ReadyState
  deriving Inhabited

inductive Stimulus where
  | opened
  | message (frame : GatewayFrame)
  | error (message : String)
  | close (code : Nat) (reason : String)
  | connectTimeout
  | http (outcome : HttpOutcome)
  | cancel
  | shutdown

namespace OneShot

/-- The state after the promise executor has run: a socket is connecting. -/
def start (opts : Options) (input : ExecuteGatewayTaskInput) (prepared : PreparedGatewayInput) :
    OneShot where
  input
  prepared
  sessionKey := resolveGatewaySessionKey opts input.sessionId defaultSessionKey
  resolvedRunId := ""
  lastAssistantSnapshot := ""
  promiseSettled := false
  fallbackInFlight := false
  httpPending := none
  connectTimer := true
  listening := true
  readyState := .connecting

def event (o : OneShot) (now runId : String) (detail : TaskEventDetail) : TaskStreamEvent :=
  ⟨detail, o.input.taskId, o.input.sessionId, runId, now⟩

def ownRunId (o : OneShot) : String := orElse o.resolvedRunId o.input.taskId

def accepted (o : OneShot) (runId : String) : Accepted :=
  ⟨o.input.taskId, o.input.sessionId, runId, o.sessionKey⟩

def cleanup (o : OneShot) : OneShot :=
  { o with connectTimer := false, listening := false, readyState := o.readyState.shut }

def failAfterAccepted (o : OneShot) (now : String) (error : GatewayError) : OneShot × List Effect :=
  (o.cleanup, [.event (o.event now o.ownRunId (.failed error.code error.message))])

def rejectExecution (o : OneShot) (error : GatewayError) : OneShot × List Effect :=
  if o.promiseSettled then (o, [])
  else ({ o.cleanup with promiseSettled := true }, [.reject error])

def attachmentsUnsupported : GatewayError :=
  toGatewayExecutionError "HTTP_ATTACHMENTS_UNSUPPORTED"
    "gateway websocket image attachments are required for image-backed tasks"

/-- The start of `executeGatewayTaskViaHttp`: attachments are refused before any request. -/
def startHttp (o : OneShot) (error : GatewayError) : OneShot × List Effect :=
  if o.prepared.attachments = [] then ({ o with httpPending := some error }, [.httpRequest])
  else o.rejectExecution (combineGatewayErrors error attachmentsUnsupported)

def failBeforeAccepted (o : OneShot) (now : String) (error : GatewayError) :
    OneShot × List Effect :=
  if o.promiseSettled then o.failAfterAccepted now error
  else if o.fallbackInFlight then (o, [])
  else { o.cleanup with fallbackInFlight := true }.startHttp error

def resolveAccepted (o : OneShot) (runId : String) : OneShot × List Effect :=
  if o.promiseSettled then (o, [])
  else ({ o with promiseSettled := true, connectTimer := false }, [.resolve (o.accepted runId)])

/-- The run id that an agent or chat frame's events are labelled with. -/
def frameRunId (o : OneShot) (payload : EventPayload) : String :=
  payload.runId.getD o.resolvedRunId

def onAgent (o : OneShot) (opts : Options) (now : String) (payload : EventPayload) :
    OneShot × List Effect :=
  let runId := o.frameRunId payload
  match extractArtifactResult opts.isUrl [payload.data.map Json.obj, payload.message] with
  | some artifact => (o, [.event (o.event now runId (.resultCreated (.artifact artifact)))])
  | none =>
    if payload.stream = some "assistant" then
      let (delta, snapshot) :=
        normalizeAssistantDelta (assistantSnapshot opts payload) o.lastAssistantSnapshot
      let o := { o with lastAssistantSnapshot := snapshot }
      (o, if delta = "" then [] else [.event (o.event now runId (.delta delta))])
    else (o, [.event (o.event now runId (.stageChanged (payload.stream.getD "agent")))])

def chatTerminal (o : OneShot) (now : String) (payload : EventPayload) : OneShot × List Effect :=
  match payload.state with
  | some "error" =>
    o.failAfterAccepted now (toGatewayExecutionError "GATEWAY_ERROR"
      (payload.errorMessage.getD "gateway task failed"))
  | some "aborted" =>
    o.failAfterAccepted now (toGatewayExecutionError "ABORTED" "gateway task was aborted")
  | some "final" => (o.cleanup, [.event (o.event now (o.frameRunId payload) .completed)])
  | _ => (o, [])

def onChat (o : OneShot) (opts : Options) (now : String) (payload : EventPayload) :
    OneShot × List Effect :=
  let created :=
    match extractArtifactResult opts.isUrl [payload.message, payload.data.map Json.obj] with
    | some artifact =>
      [Effect.event (o.event now (o.frameRunId payload) (.resultCreated (.artifact artifact)))]
    | none => []
  let (o, effects) := o.chatTerminal now payload
  (o, created ++ effects)

/-- The socket's `message` listener, branch by branch. -/
def onMessage (o : OneShot) (opts : Options) (now : String) : GatewayFrame → OneShot × List Effect
  | .challenge => (o, [.send (.connect connectRequestId)])
  | .ok id runId mainSessionKey =>
    if id = connectRequestId then
      let o := { o with
        sessionKey := resolveGatewaySessionKey opts o.input.sessionId
          (mainSessionKey.getD defaultSessionKey) }
      (o, [.send (.chatSend o.input.taskId o.sessionKey o.prepared.message o.prepared.attachments
        o.input.taskId opts.taskTimeoutMs)])
    else if id = o.input.taskId then
      let o := { o with resolvedRunId := orElse (asNonEmptyString runId) o.input.taskId }
      let (o', effects) := o.resolveAccepted o.resolvedRunId
      (o', .event (o.event now o.resolvedRunId .accepted) :: effects)
    else (o, [])
  | .error id code message =>
    if id = connectRequestId then
      o.failBeforeAccepted now (toGatewayExecutionError (code.getD "UNKNOWN")
        (message.getD "gateway connect rejected"))
    else if id = o.input.taskId then
      let error := toGatewayExecutionError (code.getD "UNKNOWN")
        (message.getD "gateway task rejected")
      if o.promiseSettled then o.failAfterAccepted now error else o.rejectExecution error
    else (o, [])
  | .agent payload => o.onAgent opts now payload
  | .chat payload => o.onChat opts now payload
  | .other => (o, [])

/-- The continuation of the HTTP request; nothing stops it once it is in flight. -/
def onHttp (o : OneShot) (now : String) (wsError : GatewayError) :
    HttpOutcome → OneShot × List Effect
  | .failed error =>
    { o with httpPending := none }.rejectExecution (combineGatewayErrors wsError error)
  | .rejected status message =>
    { o with httpPending := none }.rejectExecution
      (combineGatewayErrors wsError (httpRejection status message))
  | .reply id reply =>
    let o := { o with httpPending := none }
    if reply = "" then
      o.rejectExecution (combineGatewayErrors wsError
        (toGatewayExecutionError "EMPTY_RESPONSE" "gateway returned an empty reply"))
    else
      let runId := orElse (asNonEmptyString id) ("http-" ++ o.input.taskId)
      let events := [Effect.event (o.event now runId .accepted),
        .event (o.event now runId (.delta reply)), .event (o.event now runId .completed)]
      if o.promiseSettled then (o, events)
      else ({ o with promiseSettled := true }, events ++ [.resolve (o.accepted runId)])

def onClose (o : OneShot) (now : String) (code : Nat) (reason : String) : OneShot × List Effect :=
  let detail := trim reason
  let message := "gateway connection closed (" ++ toString code ++ ")" ++
    if detail = "" then "" else ": " ++ detail
  let error := toGatewayExecutionError "UNAVAILABLE" message
  if !o.promiseSettled then o.failBeforeAccepted now error
  else if code ≠ 1000 then o.failAfterAccepted now error
  else (o, [])

/-- `onControl`'s `cancel`: the abort frame needs an open socket, the event does not. -/
def cancel (o : OneShot) (now : String) : OneShot × List Effect :=
  let abort :=
    if o.readyState = .opened then
      [Effect.send (.chatAbort ("abort:" ++ o.input.taskId) o.sessionKey
        (if o.resolvedRunId = "" then none else some o.resolvedRunId))]
    else []
  (o.cleanup, abort ++ [.event (o.event now o.ownRunId (.cancelled "task cancelled by user"))])

/-- One callback; `none` when it cannot happen, because the socket's listeners are
removed, the timer is cleared or no HTTP request is in flight. -/
def step (opts : Options) (now : String) (o : OneShot) : Stimulus → Option (OneShot × List Effect)
  | .opened =>
    if o.readyState = .connecting then some ({ o with readyState := .opened }, []) else none
  | .message frame => if o.listening then some (o.onMessage opts now frame) else none
  | .error message =>
    if o.listening then
      some (o.failBeforeAccepted now (toGatewayExecutionError "UNAVAILABLE"
        (orElse message "gateway websocket request failed")))
    else none
  | .close code reason =>
    let o := { o with readyState := .closed }
    if o.listening then some (o.onClose now code reason) else some (o, [])
  | .connectTimeout =>
    if o.connectTimer then
      some ({ o with connectTimer := false }.failBeforeAccepted now
        (toGatewayExecutionError "AGENT_TIMEOUT" "gateway connect timed out"))
    else none
  | .http outcome => o.httpPending.map fun wsError => o.onHttp now wsError outcome
  | .cancel => some (o.cancel now)
  | .shutdown => some (o.cleanup, [])

end OneShot

end GatewayClient
