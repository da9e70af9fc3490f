import ClawWork.FrameTotality

/-!
# Frames of the declared type

`typedFrame` reads a JSON value the way the declared frame type describes it. Where it
succeeds and the frame is tolerated, the handlers do what the typed handlers do, so what is
known of the typed clients holds of the ones that parse their frames.
-/

namespace TypedFrames

open JavaScript SharedTypes GatewayProtocol GatewayClient PersistentGatewayClient FrameHandling FrameTotality

variable {opts : Options} {r : Registry} {x : Nat} {c : Client} {o : OneShot} {value : Option Json} {frame : Json}
  {text : Option String}

/-- An optional text. -/
def typedText : Option Json → Option (Option String) := parseOptionalString fun _ => true

def typedRecord : Option Json → Option (Option (List (String × Json)))
  | none => some none
  | some (.obj fields) => some (some fields)
  | _ => none

def typedPayload (payload : Option Json) : Option EventPayload :=
  match payload with
  | some (.obj fields) => do
    let runId ← typedText (member fields "runId")
    let sessionKey ← typedText (member fields "sessionKey")
    let state ← typedText (member fields "state")
    let errorMessage ← typedText (member fields "errorMessage")
    let stream ← typedText (member fields "stream")
    let data ← typedRecord (member fields "data")
    some { runId, sessionKey, state, errorMessage, stream, data, message := member fields "message" }
  | _ => none

def typedResponse (frame : Json) : Option GatewayFrame := do
  let id ← parseString (memberOf (some frame) "id")
  if isOk frame then
    match memberOf (some frame) "payload" with
    | some (.obj fields) =>
      let runId ← typedText (member fields "runId")
      let sessionDefaults := memberOf (member fields "snapshot") "sessionDefaults"
      let mainSessionKey ← typedText (memberOf sessionDefaults "mainSessionKey")
      some (.ok id runId mainSessionKey)
    | _ => none
  else
    let error := memberOf (some frame) "error"
    let code ← typedText (memberOf error "code")
    let message ← typedText (memberOf error "message")
    some (.error id code message)

/-- The frame, when its members have the declared types. -/
def typedFrame (frame : Json) : Option GatewayFrame :=
  if isResponse frame then typedResponse frame
  else if isEvent frame "connect.challenge" then some .challenge
  else if isEvent frame "agent" then (typedPayload (memberOf (some frame) "payload")).map .agent
  else if isEvent frame "chat" then (typedPayload (memberOf (some frame) "payload")).map .chat
  else some .other

/-! ## Texts of the declared type -/

theorem typedText_cases (h : typedText value = some text) :
    (value = none ∧ text = none) ∨ ∃ s, value = some (.str s) ∧ text = some s := by
  match value with
  | none =>
    simp only [typedText, parseOptionalString, Option.some.injEq] at h
    exact .inl ⟨rfl, h.symm⟩
  | some (.str s) =>
    simp only [typedText, parseOptionalString, if_true, Option.some.injEq] at h
    exact .inr ⟨s, rfl, h.symm⟩
  | some .null | some (.bool _) | some (.num _) | some (.arr _) | some (.obj _) => cases h

theorem parseString_typed (h : typedText value = some text) : parseString value = text := by
  rcases typedText_cases h with ⟨rfl, rfl⟩ | ⟨s, rfl, rfl⟩ <;> rfl

theorem passed_typed (fallback : String) (h : typedText value = some text) :
    passed opts (orText value fallback) = text.getD fallback := by
  rcases typedText_cases h with ⟨rfl, rfl⟩ | ⟨s, rfl, rfl⟩ <;> rfl

theorem mapCode_typed (fallback : String) (h : typedText value = some text) :
    mapCode (orText value fallback) = mapGatewayError (text.getD fallback) := by
  rcases typedText_cases h with ⟨rfl, rfl⟩ | ⟨s, rfl, rfl⟩ <;> rfl

theorem toText_typed (fallback : String) (h : typedText value = some text) :
    toText opts (orText value fallback) = .ok (text.getD fallback) := by
  rcases typedText_cases h with ⟨rfl, rfl⟩ | ⟨s, rfl, rfl⟩ <;> rfl

theorem isText_typed (s : String) (h : typedText value = some text) : isText value s = decide (text = some s) := by
  rw [isText, parseString_typed h]

theorem fallbackActive_typed (h : typedText value = some text) : fallbackActive r value =
    r.fallbackActive text := by
  rcases typedText_cases h with ⟨rfl, rfl⟩ | ⟨s, rfl, rfl⟩ <;> rfl

/-- What a payload of the declared type holds. -/
structure TypedPayload (value : Option Json) (payload : EventPayload) : Prop where
  present : Present value
  runId : typedText (memberOf value "runId") = some payload.runId
  sessionKey : typedText (memberOf value "sessionKey") = some payload.sessionKey
  state : typedText (memberOf value "state") = some payload.state
  errorMessage : typedText (memberOf value "errorMessage") = some payload.errorMessage
  stream : typedText (memberOf value "stream") = some payload.stream
  data : memberOf value "data" = payload.data.map Json.obj
  message : memberOf value "message" = payload.message

theorem typedRecord_eq {data : Option (List (String × Json))} (h : typedRecord value = some data) :
    value = data.map Json.obj := by
  match value with
  | none =>
    simp only [typedRecord, Option.some.injEq] at h
    rw [← h]
    rfl
  | some (.obj fields) =>
    simp only [typedRecord, Option.some.injEq] at h
    rw [← h]
    rfl
  | some .null | some (.bool _) | some (.num _) | some (.str _) | some (.arr _) => cases h

theorem typedPayload_spec {payload : EventPayload} (h : typedPayload value = some payload) :
    TypedPayload value payload := by
  match value with
  | none | some .null | some (.bool _) | some (.num _) | some (.str _) | some (.arr _) => cases h
  | some (.obj fields) =>
    simp only [typedPayload, Option.bind_eq_bind, Option.bind_eq_some_iff, Option.some.injEq] at h
    obtain ⟨runId, hrunId, sessionKey, hsessionKey, state, hstate, errorMessage, herrorMessage, stream, hstream,
      data, hdata, rfl⟩ := h
    exact ⟨⟨by simp, by simp⟩, hrunId, hsessionKey, hstate, herrorMessage, hstream, typedRecord_eq hdata, rfl⟩

variable {payload : EventPayload}

/-- The text of a snapshot that can be printed. -/
theorem toText_snapshot (h : TypedPayload value payload)
    (hprintable : Printable (memberOf (memberOf value "data") "text")) :
    toText opts (orText (memberOf (memberOf value "data") "text") "") = .ok (assistantSnapshot opts payload) := by
  have htext : memberOf (memberOf value "data") "text" = payload.data.bind fun fields => member fields "text" := by
    rw [h.data]
    cases payload.data <;> rfl
  rw [htext] at hprintable ⊢
  unfold assistantSnapshot
  match hmember : payload.data.bind fun fields => member fields "text" with
  | none | some .null | some (.str _) => rfl
  | some (.bool _) | some (.num _) => rfl
  | some (.arr _) | some (.obj _) => simp [orText, toText, hprintable _ hmember]

/-! ## The persistent client -/

theorem frameArtifact_typed (h : TypedPayload value payload) :
    extractArtifactResult opts.isUrl [memberOf value "data", memberOf value "message"] =
      Registry.frameArtifact opts payload := by
  rw [Registry.frameArtifact, h.data, h.message]

theorem onAgent_typed (h : TypedPayload value payload) (hprintable : payload.stream = some "assistant" →
    Printable (memberOf (memberOf value "data") "text")) :
    onAgent opts r x value = .ok (r.onAgent opts x payload) := by
  dsimp only [onAgent]
  rw [frameArtifact_typed h, isText_typed _ h.stream, passed_typed _ h.stream, Registry.onAgent]
  by_cases hstream : payload.stream = some "assistant"
  · simp only [hstream, decide_true, if_true, toText_snapshot h (hprintable hstream)]
    rfl
  · simp only [hstream, decide_false, Bool.false_eq_true, if_false]
    split <;> rfl

theorem onChat_typed (h : TypedPayload value payload) : onChat opts r x value = .ok (r.onChat opts x payload) := by
  dsimp only [onChat]
  rw [frameArtifact_typed h, isText_typed _ h.state, isText_typed _ h.state, isText_typed _ h.state,
    toText_typed _ h.errorMessage, Registry.onChat]
  by_cases herror : payload.state = some "error"
  · simp only [herror, decide_true, if_true]
    rfl
  by_cases haborted : payload.state = some "aborted"
  · simp only [haborted, Option.some.injEq, String.reduceEq, decide_false, decide_true, Bool.false_eq_true,
      if_false,
      if_true]
    rfl
  by_cases hfinal : payload.state = some "final"
  · simp only [hfinal, Option.some.injEq, String.reduceEq, decide_false, decide_true, Bool.false_eq_true, if_false,
      if_true]
    rfl
  · simp only [herror, haborted, hfinal, decide_false, Bool.false_eq_true, if_false]
    rfl

theorem findActive_typed (h : TypedPayload value payload) :
    findActive r (memberOf value "runId") (memberOf value "sessionKey") =
      r.findActive payload.runId payload.sessionKey := by
  rw [findActive, parseString_typed h.runId, fallbackActive_typed h.sessionKey, Registry.findActive]

theorem onEvent_typed (handle : Registry → Nat → Option Json → Except Thrown Registry)
    (typed : Registry → Nat → EventPayload → Registry) (h : TypedPayload (memberOf (some frame) "payload") payload)
    (hhandle : ∀ x, recipient c frame = some x →
      handle c.registry x (memberOf (some frame) "payload") = .ok (typed c.registry x payload)) :
    (onEvent c.registry (some frame) handle >>= fun registry => pure { c with registry }) = .ok
      (match c.registry.findActive payload.runId payload.sessionKey with
        | some x => { c with registry := typed c.registry x payload }
        | none => c) := by
  rw [onEvent, read_present _ h.present, read_present _ h.present]
  dsimp only [bind, Except.bind]
  rw [findActive_typed h]
  cases hactive : c.registry.findActive payload.runId payload.sessionKey with
  | none => rfl
  | some x =>
    have hrecipient : recipient c frame = some x := by
      rw [recipient, payloadOf, payloadOf, findActive_typed h, hactive]
    dsimp only
    rw [hhandle x hrecipient]
    rfl

/-- What a response of the declared type holds. -/
theorem typedResponse_cases {f : GatewayFrame} (h : typedResponse frame = some f) :
    ∃ id, parseString (memberOf (some frame) "id") = some id ∧
      ((isOk frame = true ∧ Present (memberOf (some frame) "payload") ∧ ∃ runId mainSessionKey,
          typedText (payloadOf frame "runId") = some runId ∧
          typedText (memberOf (memberOf (payloadOf frame "snapshot") "sessionDefaults") "mainSessionKey") =
            some mainSessionKey ∧ f = .ok id runId mainSessionKey) ∨
        (isOk frame = false ∧ ∃ code message,
          typedText (memberOf (memberOf (some frame) "error") "code") = some code ∧
          typedText (errorMessage frame) = some message ∧ f = .error id code message)) := by
  simp only [typedResponse, Option.bind_eq_bind, Option.bind_eq_some_iff] at h
  obtain ⟨id, hid, h⟩ := h
  refine ⟨id, hid, ?_⟩
  cases hok : isOk frame with
  | true =>
    simp only [hok, if_true] at h
    split at h
    · rename_i fields hpayload
      simp only [Option.bind_eq_some_iff, Option.some.injEq] at h
      obtain ⟨runId, hrunId, mainSessionKey, hmain, rfl⟩ := h
      refine .inl ⟨rfl, by simp [hpayload, Present], runId, mainSessionKey, ?_, ?_, rfl⟩
      · rw [payloadOf, hpayload]
        exact hrunId
      · rw [payloadOf, hpayload]
        exact hmain
    · cases h
  | false =>
    simp only [hok, Bool.false_eq_true, if_false, Option.bind_eq_some_iff, Option.some.injEq] at h
    obtain ⟨code, hcode, message, hmessage, rfl⟩ := h
    exact .inr ⟨rfl, code, message, hcode, hmessage, rfl⟩

theorem hasId_of_parseString {id : String} (s : String) (h : parseString (memberOf (some frame) "id") = some id) :
    hasId frame s = decide (id = s) := by simp [hasId, isText, h]

theorem onResponse_ok {id : String} {runId : Option String}
    (hid : parseString (memberOf (some frame) "id") = some id)
    (hok : isOk frame = true) (hpayload : Present (memberOf (some frame) "payload"))
    (hrunId : typedText (payloadOf frame "runId") = some runId) :
    onResponse opts r (some frame) = .ok (r.onOk id runId) := by
  rw [isOk] at hok
  unfold onResponse
  rw [read_present _ hpayload, hid]
  simp only [Option.bind_some, Option.getD_some, hok, if_true]
  cases hactive : r.activeByTask.get id with
  | none =>
    rw [Registry.onOk, hactive]
    rfl
  | some x =>
    rw [payloadOf] at hrunId
    dsimp only [bind, Except.bind]
    rw [parseString_typed hrunId]
    rfl

theorem onResponse_error {id : String} {code message : Option String}
    (hid : parseString (memberOf (some frame) "id") = some id) (hok : isOk frame = false)
    (hcode : typedText (memberOf (memberOf (some frame) "error") "code") = some code)
    (hmessage : typedText (errorMessage frame) = some message) :
    onResponse opts r (some frame) = .ok (r.onError id code message) := by
  rw [isOk] at hok
  rw [errorMessage] at hmessage
  unfold onResponse
  rw [hid]
  simp only [Option.bind_some, Option.getD_some, hok, Bool.false_eq_true, if_false]
  cases hactive : r.activeByTask.get id with
  | none =>
    rw [Registry.onError, hactive]
    rfl
  | some x =>
    dsimp only [bind, Except.bind]
    rw [toText_typed _ hmessage, passed_typed _ hcode]
    dsimp only [Registry.onError]
    rw [hactive]
    rfl

/-- On a tolerated frame of the declared type the handler is the typed handler. -/
theorem onFrame_typed {f : GatewayFrame} (hnull : frame ≠ .null) (hf : typedFrame frame = some f)
    (ht : Tolerated c frame) : onFrame opts c frame = .ok (c.handleMessage opts f) := by
  rw [onFrame_eq hnull]
  unfold typedFrame at hf
  rcases shape_cases frame with h | h | h | h | h
  · rw [if_pos h] at hf
    rw [if_neg (by simp [isEvent_of_isResponse _ h])]
    obtain ⟨id, hid, ⟨hok, hpayload, runId, mainSessionKey, hrunId, -, rfl⟩ |
      ⟨hok, code, message, hcode, hmessage, rfl⟩⟩ := typedResponse_cases hf
    · simp only [h, hasId_of_parseString _ hid, Bool.true_and, decide_eq_true_eq, hok, if_true,
        Client.handleMessage, onResponse_ok hid hok hpayload hrunId]
      split <;> rfl
    · simp only [h, hasId_of_parseString _ hid, Bool.true_and, decide_eq_true_eq, hok, Bool.false_eq_true,
        if_false,
        if_true, Client.handleMessage, onResponse_error hid hok hcode hmessage, toText_typed _ hmessage,
        passed_typed _ hcode]
      split <;> rfl
  · obtain ⟨hresponse, -⟩ := not_others_of_isEvent h
    rw [if_neg (by simp [hresponse]), if_pos h, Option.some.injEq] at hf
    rw [if_pos h, sendConnect, if_neg (by simp [ht.challenge h]), ← hf]
    rfl
  · obtain ⟨hresponse, hevents⟩ := not_others_of_isEvent h
    have hchallenge := hevents "connect.challenge" (by decide)
    simp only [hresponse, hchallenge, h, Bool.false_eq_true, if_false, if_true, Option.map_eq_some_iff] at hf
    obtain ⟨payload, hpayload, rfl⟩ := hf
    have hspec := typedPayload_spec hpayload
    have hevent := onEvent_typed (onAgent opts) (Registry.onAgent opts) hspec fun x hx =>
      onAgent_typed hspec fun hstream =>
        ht.assistant h x hx (by rw [payloadOf, isText_typed _ hspec.stream]; simpa using hstream)
    simp only [hchallenge, hresponse, h, Bool.false_and, Bool.false_eq_true, if_false, if_true, hevent]
    rfl
  · obtain ⟨hresponse, hevents⟩ := not_others_of_isEvent h
    have hchallenge := hevents "connect.challenge" (by decide)
    have hagent := hevents "agent" (by decide)
    simp only [hresponse, hchallenge, hagent, h, Bool.false_eq_true, if_false, if_true,
      Option.map_eq_some_iff] at hf
    obtain ⟨payload, hpayload, rfl⟩ := hf
    have hspec := typedPayload_spec hpayload
    have hevent := onEvent_typed (c := c) (onChat opts) (Registry.onChat opts) hspec fun x _ => onChat_typed hspec
    simp only [hchallenge, hresponse, hagent, h, Bool.false_and, Bool.false_eq_true, if_false, if_true, hevent]
    rfl
  · obtain ⟨hresponse, hchallenge, hagent, hchat⟩ := h
    simp only [hresponse, hchallenge, hagent, hchat, Bool.false_eq_true, if_false, Option.some.injEq] at hf
    rw [← onFrame_eq hnull, onFrame_other hnull ⟨hresponse, hchallenge, hagent, hchat⟩, ← hf]
    rfl

/-! ## The one-shot client -/

section
variable {now : String}

theorem onConnectOk_typed {mainSessionKey : Option String} (hpayload : Present value)
    (hopen : o.readyState ≠ .connecting)
    (hmain : typedText (memberOf (memberOf (memberOf value "snapshot") "sessionDefaults") "mainSessionKey") =
      some mainSessionKey) (runId : Option String) :
    onConnectOk opts o value = .ok (o.onMessage opts now (.ok connectRequestId runId mainSessionKey)) := by
  rw [onConnectOk, read_present _ hpayload]
  dsimp only [bind, Except.bind]
  rw [passed_typed _ hmain, send, if_neg hopen, OneShot.onMessage, if_pos rfl]

theorem onTaskOk_typed {runId mainSessionKey : Option String} (hpayload : Present value)
    (hrunId : typedText (memberOf value "runId") = some runId) (hid : o.input.taskId ≠ connectRequestId) :
    onTaskOk o now value = .ok (o.onMessage opts now (.ok o.input.taskId runId mainSessionKey)) := by
  rw [onTaskOk, read_present _ hpayload]
  dsimp only [bind, Except.bind]
  rw [parseString_typed hrunId, OneShot.onMessage, if_neg hid, if_pos rfl]
  rfl

theorem gatewayExecutionError_typed {code message : Option String} (fallback : String)
    (hcode : typedText (memberOf value "code") = some code)
    (hmessage : typedText (memberOf value "message") = some message) :
    gatewayExecutionError opts value fallback =
      .ok (toGatewayExecutionError (code.getD "UNKNOWN") (message.getD fallback)) := by
  rw [gatewayExecutionError, mapCode_typed _ hcode, toText_typed _ hmessage]
  rfl

theorem onAgentEvent_typed (h : TypedPayload value payload)
    (hprintable : extractArtifactResult opts.isUrl [memberOf value "data", memberOf value "message"] = none →
      payload.stream = some "assistant" → Printable (memberOf (memberOf value "data") "text")) :
    onAgentEvent opts o now value = .ok (o.onAgent opts now payload) := by
  dsimp only [onAgentEvent]
  rw [read_present _ h.present]
  dsimp only [bind, Except.bind]
  rw [eventRunId, passed_typed _ h.runId, isText_typed _ h.stream, passed_typed _ h.stream, OneShot.onAgent,
    OneShot.frameRunId, ← h.message, ← h.data]
  cases hartifact : extractArtifactResult opts.isUrl [memberOf value "data", memberOf value "message"] with
  | some artifact => rfl
  | none =>
    by_cases hstream : payload.stream = some "assistant"
    · simp only [hstream, decide_true, if_true, toText_snapshot h (hprintable hartifact hstream)]
      rfl
    · simp only [hstream, decide_false, Bool.false_eq_true, if_false]
      rfl

theorem onChatEvent_typed (h : TypedPayload value payload) :
    onChatEvent opts o now value = .ok (o.onChat opts now payload) := by
  dsimp only [onChatEvent]
  rw [read_present _ h.present, read_present _ h.present]
  dsimp only [bind, Except.bind]
  rw [eventRunId, passed_typed _ h.runId, isText_typed _ h.state, isText_typed _ h.state, isText_typed _ h.state,
    toText_typed _ h.errorMessage, OneShot.onChat, OneShot.frameRunId, OneShot.chatTerminal, ← h.message, ← h.data]
  by_cases herror : payload.state = some "error"
  · simp only [herror, decide_true, if_true]
    rfl
  by_cases haborted : payload.state = some "aborted"
  · simp only [haborted, Option.some.injEq, String.reduceEq, decide_false, decide_true, Bool.false_eq_true,
      if_false,
      if_true]
    rfl
  by_cases hfinal : payload.state = some "final"
  · simp only [hfinal, Option.some.injEq, String.reduceEq, decide_false, decide_true, Bool.false_eq_true, if_false,
      if_true]
    rfl
  · simp only [herror, haborted, hfinal, decide_false, Bool.false_eq_true, if_false, List.append_nil]
    rfl

/-- On a tolerated frame of the declared type the listener is the typed listener. -/
theorem onOneShotFrame_typed {f : GatewayFrame} (hnull : frame ≠ .null) (hf : typedFrame frame = some f)
    (ht : OneShotTolerated opts o frame) : onOneShotFrame opts o now frame = .ok (o.onMessage opts now f) := by
  rw [onOneShotFrame_eq hnull]
  unfold typedFrame at hf
  rcases shape_cases frame with h | h | h | h | h
  · rw [if_pos h] at hf
    rw [if_neg (by simp [isEvent_of_isResponse _ h])]
    obtain ⟨id, hid, ⟨hok, hpayload, runId, mainSessionKey, hrunId, hmain, rfl⟩ |
      ⟨hok, code, message, hcode, hmessage, rfl⟩⟩ := typedResponse_cases hf
    · simp only [h, hasId_of_parseString _ hid, hok, Bool.true_and, Bool.and_true, Bool.not_true, Bool.and_false,
        decide_eq_true_eq, Bool.false_eq_true, if_false, isEvent_of_isResponse _ h]
      by_cases hconnect : id = connectRequestId
      · subst hconnect
        have hopen := (ht.connect h (by rw [hasId_of_parseString _ hid]; simp)).2 hok
        rw [if_pos rfl]
        exact onConnectOk_typed hpayload hopen hmain runId
      · rw [if_neg hconnect]
        by_cases htask : id = o.input.taskId
        · subst htask
          rw [if_pos rfl]
          exact onTaskOk_typed hpayload hrunId hconnect
        · rw [if_neg htask, OneShot.onMessage, if_neg hconnect, if_neg htask]
          rfl
    · have hmessage' : typedText (memberOf (memberOf (some frame) "error") "message") = some message := hmessage
      simp only [h, hasId_of_parseString _ hid, hok, Bool.true_and, Bool.and_true, Bool.not_false, Bool.and_false,
        decide_eq_true_eq, Bool.false_eq_true, if_false, isEvent_of_isResponse _ h, OneShot.onMessage, onTaskError,
        gatewayExecutionError_typed _ hcode hmessage']
      split
      · rfl
      · split <;> rfl
  · obtain ⟨hresponse, -⟩ := not_others_of_isEvent h
    rw [if_neg (by simp [hresponse]), if_pos h, Option.some.injEq] at hf
    rw [if_pos h, send, if_neg (ht.challenge h), ← hf]
    rfl
  · obtain ⟨hresponse, hevents⟩ := not_others_of_isEvent h
    have hchallenge := hevents "connect.challenge" (by decide)
    simp only [hresponse, hchallenge, h, Bool.false_eq_true, if_false, if_true, Option.map_eq_some_iff] at hf
    obtain ⟨payload, hpayload, rfl⟩ := hf
    have hspec := typedPayload_spec hpayload
    simp only [hchallenge, hresponse, h, Bool.false_and, Bool.false_eq_true, if_false, if_true]
    exact onAgentEvent_typed hspec fun hartifact hstream => ht.assistant h hartifact (by
      rw [payloadOf, isText_typed _ hspec.stream]
      simpa using hstream)
  · obtain ⟨hresponse, hevents⟩ := not_others_of_isEvent h
    have hchallenge := hevents "connect.challenge" (by decide)
    have hagent := hevents "agent" (by decide)
    simp only [hresponse, hchallenge, hagent, h, Bool.false_eq_true, if_false, if_true,
      Option.map_eq_some_iff] at hf
    obtain ⟨payload, hpayload, rfl⟩ := hf
    simp only [hchallenge, hresponse, hagent, h, Bool.false_and, Bool.false_eq_true, if_false, if_true]
    exact onChatEvent_typed (typedPayload_spec hpayload)
  · obtain ⟨hresponse, hchallenge, hagent, hchat⟩ := h
    simp only [hresponse, hchallenge, hagent, hchat, Bool.false_eq_true, if_false, Option.some.injEq] at hf
    rw [← onOneShotFrame_eq hnull, onOneShotFrame_other hnull ⟨hresponse, hchallenge, hagent, hchat⟩, ← hf]
    rfl

end

end TypedFrames
