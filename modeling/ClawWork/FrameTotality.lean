import ClawWork.FrameHandling
import ClawWork.StaleSockets

/-!
# Which frames the two clients survive

`Tolerated` lists what a frame must hold for `handleMessage` to return, given the socket and
the task it meets; `OneShotTolerated` does the same for the listener of `executeGatewayTask`.
Both conditions are exact. The persistent client survives a text that is not JSON, the other
one does not, and neither survives `null`.
-/

namespace FrameTotality

open JavaScript SharedTypes GatewayProtocol GatewayClient PersistentGatewayClient FrameHandling StaleSockets

variable {α β : Type} {opts : Options} {r : Registry} {x : Nat} {payload value : Option Json}

def Returns (result : Except Thrown α) : Prop := ∃ a, result = .ok a

/-- The value has members. -/
def Present (value : Option Json) : Prop := value ≠ none ∧ value ≠ some .null

/-- The value is absent or has a text. -/
def Printable (value : Option Json) : Prop := ∀ json, value = some json → printable json = true

def isResponse (frame : Json) : Bool := isText (memberOf (some frame) "type") "res"

def isEvent (frame : Json) (event : String) : Bool :=
  isText (memberOf (some frame) "type") "event" && isText (memberOf (some frame) "event") event

def hasId (frame : Json) (id : String) : Bool := isText (memberOf (some frame) "id") id

def isOk (frame : Json) : Bool := isTruthy (memberOf (some frame) "ok")

def payloadOf (frame : Json) (key : String) : Option Json := memberOf (memberOf (some frame) "payload") key

def errorMessage (frame : Json) : Option Json := memberOf (memberOf (some frame) "error") "message"

/-- What a response must hold: a payload when it accepts, a message with a text when it does not. -/
def Answers (frame : Json) : Prop :=
  if isOk frame then Present (memberOf (some frame) "payload") else Printable (errorMessage frame)

/-- The active task that a response is for. -/
def respondent (c : Client) (frame : Json) : Option Nat :=
  (parseString (memberOf (some frame) "id")).bind c.registry.activeByTask.get

/-- The active task that an event is for. -/
def recipient (c : Client) (frame : Json) : Option Nat :=
  findActive c.registry (payloadOf frame "runId") (payloadOf frame "sessionKey")

structure Tolerated (c : Client) (frame : Json) : Prop where
  notNull : frame ≠ .null
  challenge : isEvent frame "connect.challenge" = true → isConnecting c.connection = false
  connect : isResponse frame = true → hasId frame Client.connectRequestId = true → isOk frame = false →
    Printable (errorMessage frame)
  response : isResponse frame = true → hasId frame Client.connectRequestId = false →
    ∀ x, respondent c frame = some x → Answers frame
  payload : isEvent frame "agent" = true ∨ isEvent frame "chat" = true → Present (memberOf (some frame) "payload")
  assistant : isEvent frame "agent" = true → ∀ x, recipient c frame = some x →
    isText (payloadOf frame "stream") "assistant" = true → Printable (memberOf (payloadOf frame "data") "text")
  failure : isEvent frame "chat" = true → ∀ x, recipient c frame = some x →
    isText (payloadOf frame "state") "error" = true → Printable (payloadOf frame "errorMessage")

structure OneShotTolerated (opts : Options) (o : OneShot) (frame : Json) : Prop where
  notNull : frame ≠ .null
  challenge : isEvent frame "connect.challenge" = true → o.readyState ≠ .connecting
  connect : isResponse frame = true → hasId frame connectRequestId = true →
    Answers frame ∧ (isOk frame = true → o.readyState ≠ .connecting)
  response : isResponse frame = true → hasId frame o.input.taskId = true → Answers frame
  payload : isEvent frame "agent" = true ∨ isEvent frame "chat" = true → Present (memberOf (some frame) "payload")
  assistant : isEvent frame "agent" = true →
    extractArtifactResult opts.isUrl [payloadOf frame "data", payloadOf frame "message"] = none →
    isText (payloadOf frame "stream") "assistant" = true → Printable (memberOf (payloadOf frame "data") "text")
  failure : isEvent frame "chat" = true → isText (payloadOf frame "state") "error" = true →
    Printable (payloadOf frame "errorMessage")

/-- The text is a frame that a handler has a branch for. -/
def Interpreted (jsonParse : String → Option Json) (raw : String) : Prop :=
  ∃ frame, jsonParse raw = some frame ∧ (isResponse frame = true ∨
    isEvent frame "connect.challenge" = true ∨ isEvent frame "agent" = true ∨ isEvent frame "chat" = true)

/-- `handleMessage` returns, and a text it has no branch for is ignored or closes the connection. -/
def Handled (opts : Options) (jsonParse : String → Option Json) (c : Client) (raw : String) : Prop :=
  ∃ c', handleMessage opts jsonParse c raw = .ok c' ∧
    (Interpreted jsonParse raw ∨ c' = c ∨ c'.connection.connected = false ∧ c'.connection.isOpen = false)

/-- The same of the listener of `executeGatewayTask`. -/
def OneShotHandled (opts : Options) (jsonParse : String → Option Json) (o : OneShot) (now raw : String) : Prop :=
  ∃ o' effects, onMessage opts jsonParse o now raw = .ok (o', effects) ∧
    (Interpreted jsonParse raw ∨ (o', effects) = (o, []) ∨ o'.listening = false)

/-! ## Steps that may throw -/

@[simp] theorem returns_ok (a : α) : Returns (.ok a : Except Thrown α) := ⟨a, rfl⟩

@[simp] theorem returns_pure (a : α) : Returns (pure a : Except Thrown α) := ⟨a, rfl⟩

@[simp] theorem not_returns_error (e : Thrown) : ¬ Returns (.error e : Except Thrown α) := by
  rintro ⟨a, h⟩
  cases h

theorem returns_bind {result : Except Thrown α} {next : α → Except Thrown β} :
    Returns (result >>= next) ↔ ∃ a, result = .ok a ∧ Returns (next a) := by
  cases result with
  | error e => exact ⟨fun h => absurd h (not_returns_error e), fun ⟨a, ha, _⟩ => by cases ha⟩
  | ok a => exact ⟨fun h => ⟨a, rfl, h⟩, fun ⟨b, hb, h⟩ => by cases hb; exact h⟩

/-- Only the first step may throw. -/
theorem returns_bind_of_forall {result : Except Thrown α} {next : α → Except Thrown β}
    (h : ∀ a, Returns (next a)) : Returns (result >>= next) ↔ Returns result := by
  rw [returns_bind]
  exact ⟨fun ⟨a, ha, _⟩ => ⟨a, ha⟩, fun ⟨a, ha⟩ => ⟨a, ha, h a⟩⟩

theorem read_present (key : String) (h : Present value) : read value key = .ok (memberOf value key) := by
  match value with
  | none => exact absurd rfl h.1
  | some .null => exact absurd rfl h.2
  | some (.bool _) | some (.num _) | some (.str _) | some (.arr _) | some (.obj _) => rfl

theorem returns_read_bind {key : String} {next : Option Json → Except Thrown β} :
    Returns (read value key >>= next) ↔ Present value ∧ Returns (next (memberOf value key)) := by
  rw [returns_bind]
  constructor
  · rintro ⟨member, hread, hnext⟩
    have hpresent : Present value := by
      constructor <;> rintro rfl <;> cases hread
    rw [read_present key hpresent, Except.ok.injEq] at hread
    exact ⟨hpresent, hread ▸ hnext⟩
  · rintro ⟨hpresent, hnext⟩
    exact ⟨_, read_present key hpresent, hnext⟩

theorem returns_toText {json : Json} : Returns (toText opts json) ↔ printable json = true := by
  match json with
  | .str _ => simp [toText, printable]
  | .null | .bool _ | .num _ => simp [toText, printable]
  | .arr _ | .obj _ =>
    rw [toText]
    · cases hprintable : printable _ <;> simp
    · intro text h
      cases h

theorem printable_orText (fallback : String) : printable (orText value fallback) = true ↔ Printable value := by
  match value with
  | none => simp [orText, printable, Printable]
  | some .null => simp [orText, printable, Printable]
  | some (.bool _) | some (.num _) | some (.str _) | some (.arr _) | some (.obj _) => simp [orText, Printable]

theorem returns_text_bind {fallback : String} {next : String → Except Thrown β} (h : ∀ text, Returns (next text)) :
    Returns (toText opts (orText value fallback) >>= next) ↔ Printable value := by
  rw [returns_bind_of_forall h, returns_toText, printable_orText]

/-! ## The persistent client -/

theorem returns_onResponse {frame : Json} :
    Returns (onResponse opts r (some frame)) ↔
      ∀ x, (parseString (memberOf (some frame) "id")).bind r.activeByTask.get = some x → Answers frame := by
  unfold onResponse Answers isOk errorMessage
  cases hactive : (parseString (memberOf (some frame) "id")).bind r.activeByTask.get with
  | none => simp [hactive]
  | some x =>
    simp only [hactive, Option.some.injEq, forall_eq']
    cases isTruthy (memberOf (some frame) "ok") with
    | true =>
      simp only [if_true]
      rw [returns_read_bind, and_iff_left (returns_pure _)]
    | false =>
      simp only [Bool.false_eq_true, if_false]
      rw [returns_text_bind fun text => returns_pure _]

theorem returns_onAgent :
    Returns (onAgent opts r x payload) ↔ (isText (memberOf payload "stream") "assistant" = true →
      Printable (memberOf (memberOf payload "data") "text")) := by
  dsimp only [onAgent]
  cases isText (memberOf payload "stream") "assistant" with
  | true =>
    simp only [if_true, forall_const]
    rw [returns_text_bind fun text => returns_pure _]
  | false =>
    simp only [Bool.false_eq_true, if_false, false_implies, iff_true]
    split <;> exact returns_pure _

theorem returns_onChat :
    Returns (onChat opts r x payload) ↔ (isText (memberOf payload "state") "error" = true →
      Printable (memberOf payload "errorMessage")) := by
  dsimp only [onChat]
  cases isText (memberOf payload "state") "error" with
  | true =>
    simp only [if_true, forall_const]
    rw [returns_text_bind fun text => returns_pure _]
  | false =>
    simp only [Bool.false_eq_true, if_false, false_implies, iff_true]
    split
    · exact returns_pure _
    · split <;> exact returns_pure _

theorem returns_onEvent {frame : Json} {handle : Registry → Nat → Option Json → Except Thrown Registry} :
    Returns (onEvent r (some frame) handle) ↔ Present (memberOf (some frame) "payload") ∧
      ∀ x, findActive r (payloadOf frame "runId") (payloadOf frame "sessionKey") = some x →
        Returns (handle r x (memberOf (some frame) "payload")) := by
  unfold onEvent payloadOf
  simp only [returns_read_bind, and_self_left]
  refine and_congr_right fun _ => ?_
  split <;> rename_i hactive <;> simp [hactive]

theorem isConnecting_iff_returns {k : Connection} : Returns (sendConnect k) ↔ isConnecting k = false := by
  unfold sendConnect
  cases isConnecting k <;> simp

/-- A text value equals one text only. -/
theorem eq_of_isText {a b : String} (ha : isText value a = true) (hb : isText value b = true) : a = b := by
  simp only [isText, decide_eq_true_eq] at ha hb
  rw [ha, Option.some.injEq] at hb
  exact hb

theorem isEvent_of_isResponse {frame : Json} (event : String) (h : isResponse frame = true) :
    isEvent frame event = false := by
  rw [isEvent, Bool.and_eq_false_iff]
  left
  by_contra hevent
  exact absurd (eq_of_isText h (by simpa using hevent)) (by decide)

/-- The event names of a frame exclude each other. -/
theorem isEvent_unique {frame : Json} {a b : String} (ha : isEvent frame a = true) (hne : a ≠ b) :
    isEvent frame b = false := by
  rw [isEvent, Bool.and_eq_true] at ha
  rw [isEvent, Bool.and_eq_false_iff]
  right
  by_contra hb
  exact hne (eq_of_isText ha.2 (by simpa using hb))

theorem present_some {frame : Json} : Present (some frame) ↔ frame ≠ .null := by simp [Present]

/-- After the read of `type` the handler is a chain of tests on the shape of the frame. -/
theorem onFrame_eq {c : Client} {frame : Json} (h : frame ≠ .null) : onFrame opts c frame =
    if isEvent frame "connect.challenge" then (sendConnect c.connection) >>= fun k => pure
    { c with connection := k }
    else if isResponse frame && hasId frame Client.connectRequestId then
      if isOk frame then pure { c with connection := c.connection.onConnected }
      else toText opts (orText (errorMessage frame) "gateway rejected connect") >>= fun message =>
        pure { c with connection := (c.connection.rejectCurrentConnection ⟨passed opts (orText
          (memberOf (memberOf (some frame) "error") "code") "GATEWAY_AUTH_ERROR"), message⟩).shutSocket }
    else if isResponse frame then
      onResponse opts c.registry (some frame) >>= fun registry => pure { c with registry }
    else if isEvent frame "agent" then
      onEvent c.registry (some frame) (onAgent opts) >>= fun registry => pure { c with registry }
    else if isEvent frame "chat" then
      onEvent c.registry (some frame) (onChat opts) >>= fun registry => pure { c with registry }
    else pure c := by
  rw [onFrame, read_present "type" (present_some.mpr h)]
  rfl

/-- Neither a response nor an event that the clients know. -/
def IsOther (frame : Json) : Prop :=
  isResponse frame = false ∧ isEvent frame "connect.challenge" = false ∧ isEvent frame "agent" = false ∧
    isEvent frame "chat" = false

theorem shape_cases (frame : Json) : isResponse frame = true ∨ isEvent frame "connect.challenge" = true ∨
    isEvent frame "agent" = true ∨ isEvent frame "chat" = true ∨ IsOther frame := by
  unfold IsOther
  cases isResponse frame <;> cases isEvent frame "connect.challenge" <;> cases isEvent frame "agent" <;>
    cases isEvent frame "chat" <;> decide

theorem interpreted_of_not_other {frame : Json} (h : ¬ IsOther frame) : isResponse frame = true ∨
    isEvent frame "connect.challenge" = true ∨ isEvent frame "agent" = true ∨ isEvent frame "chat" = true := by
  rcases shape_cases frame with hshape | hshape | hshape | hshape | hshape
  · exact .inl hshape
  · exact .inr (.inl hshape)
  · exact .inr (.inr (.inl hshape))
  · exact .inr (.inr (.inr hshape))
  · exact absurd hshape h

/-- What an event of one name is not. -/
theorem not_others_of_isEvent {frame : Json} {event : String} (h : isEvent frame event = true) :
    isResponse frame = false ∧ ∀ other, event ≠ other → isEvent frame other = false := by
  refine ⟨?_, fun other => isEvent_unique h⟩
  by_contra hresponse
  rw [Bool.not_eq_false] at hresponse
  rw [isEvent_of_isResponse event hresponse] at h
  cases h

section
variable {c : Client} {frame : Json} (hnull : frame ≠ .null)
include hnull

theorem returns_of_challenge (h : isEvent frame "connect.challenge" = true) :
    Returns (onFrame opts c frame) ↔ isConnecting c.connection = false := by
  rw [onFrame_eq hnull, if_pos h, returns_bind_of_forall fun _ => returns_pure _, isConnecting_iff_returns]

theorem returns_of_connect (h : isResponse frame = true) (hid : hasId frame Client.connectRequestId = true) :
    Returns (onFrame opts c frame) ↔ (isOk frame = false → Printable (errorMessage frame)) := by
  rw [onFrame_eq hnull, if_neg (by simp [isEvent_of_isResponse _ h]), if_pos (by simp [h, hid])]
  cases isOk frame with
  | true => simp
  | false =>
    simp only [Bool.false_eq_true, if_false, forall_const]
    rw [returns_text_bind fun text => returns_pure _]

theorem returns_of_response (h : isResponse frame = true) (hid : hasId frame Client.connectRequestId = false) :
    Returns (onFrame opts c frame) ↔ ∀ x, respondent c frame = some x → Answers frame := by
  rw [onFrame_eq hnull, if_neg (by simp [isEvent_of_isResponse _ h]), if_neg (by simp [hid]), if_pos h,
    returns_bind_of_forall fun _ => returns_pure _, returns_onResponse, respondent]

theorem returns_of_agent (h : isEvent frame "agent" = true) :
    Returns (onFrame opts c frame) ↔ Present (memberOf (some frame) "payload") ∧
      ∀ x, recipient c frame = some x → isText (payloadOf frame "stream") "assistant" = true →
        Printable (memberOf (payloadOf frame "data") "text") := by
  obtain ⟨hresponse, hevents⟩ := not_others_of_isEvent h
  rw [onFrame_eq hnull, if_neg (by simp [hevents "connect.challenge" (by decide)]), if_neg (by simp [hresponse]),
    if_neg (by simp [hresponse]), if_pos h, returns_bind_of_forall fun _ => returns_pure _, returns_onEvent]
  simp only [returns_onAgent, recipient, payloadOf]

theorem returns_of_chat (h : isEvent frame "chat" = true) :
    Returns (onFrame opts c frame) ↔ Present (memberOf (some frame) "payload") ∧
      ∀ x, recipient c frame = some x → isText (payloadOf frame "state") "error" = true →
        Printable (payloadOf frame "errorMessage") := by
  obtain ⟨hresponse, hevents⟩ := not_others_of_isEvent h
  rw [onFrame_eq hnull, if_neg (by simp [hevents "connect.challenge" (by decide)]), if_neg (by simp [hresponse]),
    if_neg (by simp [hresponse]), if_neg (by simp [hevents "agent" (by decide)]), if_pos h,
    returns_bind_of_forall fun _ => returns_pure _, returns_onEvent]
  simp only [returns_onChat, recipient, payloadOf]

theorem onFrame_other (h : IsOther frame) : onFrame opts c frame = .ok c := by
  obtain ⟨hresponse, hchallenge, hagent, hchat⟩ := h
  rw [onFrame_eq hnull, if_neg (by simp [hchallenge]), if_neg (by simp [hresponse]), if_neg (by simp [hresponse]),
    if_neg (by simp [hagent]), if_neg (by simp [hchat])]
  rfl

theorem returns_iff_tolerated : Returns (onFrame opts c frame) ↔ Tolerated c frame := by
  rcases shape_cases frame with h | h | h | h | h
  · have hevent : ∀ event, isEvent frame event = false := fun event => isEvent_of_isResponse event h
    cases hid : hasId frame Client.connectRequestId with
    | true =>
      rw [returns_of_connect hnull h hid]
      refine ⟨fun hconnect => ?_, fun ht => ht.connect h hid⟩
      exact ⟨hnull, by simp [hevent], fun _ _ => hconnect, by simp [hid], by simp [hevent], by simp [hevent],
        by simp [hevent]⟩
    | false =>
      rw [returns_of_response hnull h hid]
      refine ⟨fun hanswers => ?_, fun ht => ht.response h hid⟩
      exact ⟨hnull, by simp [hevent], by simp [hid], fun _ _ => hanswers, by simp [hevent], by simp [hevent],
        by simp [hevent]⟩
  · obtain ⟨hresponse, hevents⟩ := not_others_of_isEvent h
    rw [returns_of_challenge hnull h]
    refine ⟨fun hopen => ?_, fun ht => ht.challenge h⟩
    exact ⟨hnull, fun _ => hopen, by simp [hresponse], by simp [hresponse], by simp [hevents], by simp [hevents],
      by simp [hevents]⟩
  · obtain ⟨hresponse, hevents⟩ := not_others_of_isEvent h
    rw [returns_of_agent hnull h]
    refine ⟨fun ⟨hpayload, hassistant⟩ => ?_, fun ht => ⟨ht.payload (.inl h), ht.assistant h⟩⟩
    exact ⟨hnull, by simp [hevents], by simp [hresponse], by simp [hresponse], fun _ => hpayload,
      fun _ => hassistant, by simp [hevents]⟩
  · obtain ⟨hresponse, hevents⟩ := not_others_of_isEvent h
    rw [returns_of_chat hnull h]
    refine ⟨fun ⟨hpayload, hfailure⟩ => ?_, fun ht => ⟨ht.payload (.inr h), ht.failure h⟩⟩
    exact ⟨hnull, by simp [hevents], by simp [hresponse], by simp [hresponse], fun _ => hpayload,
      by simp [hevents], fun _ => hfailure⟩
  · obtain ⟨hresponse, hchallenge, hagent, hchat⟩ := h
    rw [onFrame_other hnull ⟨hresponse, hchallenge, hagent, hchat⟩]
    refine ⟨fun _ => ?_, fun _ => returns_ok c⟩
    exact ⟨hnull, by simp [hchallenge], by simp [hresponse], by simp [hresponse], by simp [hagent, hchat],
      by simp [hagent], by simp [hchat]⟩

end

theorem isOpen_shutSocket (k : Connection) : k.shutSocket.isOpen = false := by
  unfold Connection.shutSocket
  cases hsocket : k.socket with
  | none => simp [Connection.isOpen, hsocket]
  | some s => cases hstate : k.readyState s <;> simp [Connection.isOpen, Connection.setReady, hsocket, hstate,
      ReadyState.shut]

theorem disconnected_onMalformed (c : Client) :
    c.onMalformed.connection.connected = false ∧ c.onMalformed.connection.isOpen = false := by
  refine ⟨?_, isOpen_shutSocket _⟩
  simp [Client.onMalformed, Client.handleDisconnect, Connection.rejectCurrentConnection]

/-- Exactly the tolerated frames, and every text that is not JSON, are handled. -/
theorem handled_iff_tolerated {jsonParse : String → Option Json} {c : Client} {raw : String} :
    Handled opts jsonParse c raw ↔ ∀ frame, jsonParse raw = some frame → Tolerated c frame := by
  unfold Handled handleMessage
  cases hparse : jsonParse raw with
  | none =>
    simp only [Except.ok.injEq, exists_eq_left', reduceCtorEq, false_implies, implies_true, iff_true]
    exact .inr (.inr (disconnected_onMalformed c))
  | some frame =>
    simp only [Option.some.injEq, forall_eq']
    by_cases hnull : frame = .null
    · subst hnull
      refine ⟨fun ⟨c', hc, _⟩ => ?_, fun ht => absurd rfl ht.notNull⟩
      cases hc
    · rw [← returns_iff_tolerated hnull]
      refine ⟨fun ⟨c', hc, _⟩ => ⟨c', hc⟩, fun ⟨c', hc⟩ => ⟨c', hc, ?_⟩⟩
      by_cases hother : IsOther frame
      · rw [onFrame_other hnull hother] at hc
        exact .inr (.inl (Except.ok.inj hc).symm)
      · exact .inl ⟨frame, hparse, interpreted_of_not_other hother⟩

/-! ## The one-shot client -/

section
variable {o : OneShot} {now : String}

theorem returns_send {request : GatewayRequest} : Returns (send o request) ↔ o.readyState ≠ .connecting := by
  unfold send
  split <;> simp [*]

theorem returns_onConnectOk :
    Returns (onConnectOk opts o payload) ↔ Present payload ∧ o.readyState ≠ .connecting := by
  unfold onConnectOk
  rw [returns_read_bind, returns_send]

theorem returns_onTaskOk : Returns (onTaskOk o now payload) ↔ Present payload := by
  unfold onTaskOk
  rw [returns_read_bind, and_iff_left (returns_pure _)]

theorem returns_gatewayExecutionError {fallback : String} {next : GatewayError → Except Thrown β}
    (h : ∀ error, Returns (next error)) :
    Returns (gatewayExecutionError opts value fallback >>= next) ↔ Printable (memberOf value "message") := by
  rw [returns_bind_of_forall h, gatewayExecutionError, returns_text_bind fun text => returns_pure _]

theorem returns_onAgentEvent : Returns (onAgentEvent opts o now payload) ↔ Present payload ∧
    (extractArtifactResult opts.isUrl [memberOf payload "data", memberOf payload "message"] = none →
      isText (memberOf payload "stream") "assistant" = true → Printable (memberOf
      (memberOf payload "data") "text")) := by
  dsimp only [onAgentEvent]
  rw [returns_read_bind]
  refine and_congr_right fun _ => ?_
  cases extractArtifactResult opts.isUrl [memberOf payload "data", memberOf payload "message"] with
  | some artifact => simp
  | none =>
    cases isText (memberOf payload "stream") "assistant" with
    | true =>
      simp only [if_true, forall_const]
      rw [returns_text_bind fun text => returns_pure _]
    | false => simp

theorem returns_onChatEvent : Returns (onChatEvent opts o now payload) ↔ Present payload ∧
    (isText (memberOf payload "state") "error" = true → Printable (memberOf payload "errorMessage")) := by
  dsimp only [onChatEvent]
  simp only [returns_read_bind, and_self_left]
  refine and_congr_right fun _ => ?_
  cases isText (memberOf payload "state") "error" with
  | true =>
    simp only [if_true, forall_const]
    rw [returns_text_bind fun text => returns_pure _]
  | false =>
    simp only [Bool.false_eq_true, if_false, false_implies, iff_true]
    split
    · exact returns_pure _
    · split <;> exact returns_pure _

theorem onOneShotFrame_eq {frame : Json} (h : frame ≠ .null) : onOneShotFrame opts o now frame =
    if isEvent frame "connect.challenge" then send o (.connect connectRequestId)
    else if isResponse frame && hasId frame connectRequestId && isOk frame then
      onConnectOk opts o (memberOf (some frame) "payload")
    else if isResponse frame && hasId frame connectRequestId && !isOk frame then
      gatewayExecutionError opts (memberOf (some frame) "error") "gateway connect rejected" >>= fun error =>
        pure (o.failBeforeAccepted now error)
    else if isResponse frame && hasId frame o.input.taskId && isOk frame then
      onTaskOk o now (memberOf (some frame) "payload")
    else if isResponse frame && hasId frame o.input.taskId && !isOk frame then
      onTaskError opts o now (memberOf (some frame) "error")
    else if isEvent frame "agent" then onAgentEvent opts o now (memberOf (some frame) "payload")
    else if isEvent frame "chat" then onChatEvent opts o now (memberOf (some frame) "payload")
    else pure (o, []) := by
  rw [onOneShotFrame, read_present "type" (present_some.mpr h)]
  rfl

theorem onOneShotFrame_other {frame : Json} (hnull : frame ≠ .null) (h : IsOther frame) :
    onOneShotFrame opts o now frame = .ok (o, []) := by
  obtain ⟨hresponse, hchallenge, hagent, hchat⟩ := h
  rw [onOneShotFrame_eq hnull]
  simp only [hresponse, hchallenge, hagent, hchat, Bool.false_and, Bool.false_eq_true, if_false]
  rfl

/-- A response that is for the connection or for the task. -/
theorem returns_oneShot_response {frame : Json} (hnull : frame ≠ .null) (h : isResponse frame = true) :
    Returns (onOneShotFrame opts o now frame) ↔
      (hasId frame connectRequestId = true → Answers frame ∧ (isOk frame = true → o.readyState ≠ .connecting)) ∧
      (hasId frame o.input.taskId = true → Answers frame) := by
  rw [onOneShotFrame_eq hnull, Answers]
  simp only [isEvent_of_isResponse _ h, h, Bool.true_and, Bool.false_eq_true, if_false]
  cases isOk frame with
  | true =>
    simp only [Bool.and_true, Bool.not_true, Bool.and_false, Bool.false_eq_true, if_false, if_true, forall_const]
    cases hasId frame connectRequestId with
    | true =>
      simp only [if_true, forall_const, returns_onConnectOk]
      exact ⟨fun hboth => ⟨hboth, fun _ => hboth.1⟩, fun hboth => hboth.1⟩
    | false => cases hasId frame o.input.taskId <;> simp [returns_onTaskOk]
  | false =>
    simp only [Bool.and_false, Bool.not_false, Bool.and_true, Bool.false_eq_true, if_false, false_implies,
      and_true]
    cases hasId frame connectRequestId with
    | true =>
      simp only [if_true, forall_const]
      rw [returns_gatewayExecutionError fun error => returns_pure _]
      exact ⟨fun hmessage => ⟨hmessage, fun _ => hmessage⟩, fun hboth => hboth.1⟩
    | false =>
      cases hasId frame o.input.taskId with
      | true =>
        simp only [Bool.false_eq_true, if_false, if_true, false_implies, true_and, forall_const, onTaskError]
        rw [returns_gatewayExecutionError fun error => returns_pure _]
        rfl
      | false => simp

theorem oneShot_returns_iff_tolerated (now : String) {frame : Json} (hnull : frame ≠ .null) :
    Returns (onOneShotFrame opts o now frame) ↔ OneShotTolerated opts o frame := by
  rcases shape_cases frame with h | h | h | h | h
  · have hevent : ∀ event, isEvent frame event = false := fun event => isEvent_of_isResponse event h
    rw [returns_oneShot_response hnull h]
    refine ⟨fun ⟨hconnect, hresponse⟩ => ?_, fun ht => ⟨ht.connect h, ht.response h⟩⟩
    exact ⟨hnull, by simp [hevent], fun _ => hconnect, fun _ => hresponse, by simp [hevent], by simp [hevent],
      by simp [hevent]⟩
  · obtain ⟨hresponse, hevents⟩ := not_others_of_isEvent h
    rw [onOneShotFrame_eq hnull, if_pos h, returns_send]
    refine ⟨fun hopen => ?_, fun ht => ht.challenge h⟩
    exact ⟨hnull, fun _ => hopen, by simp [hresponse], by simp [hresponse], by simp [hevents], by simp [hevents],
      by simp [hevents]⟩
  · obtain ⟨hresponse, hevents⟩ := not_others_of_isEvent h
    have hchallenge := hevents "connect.challenge" (by decide)
    have hframe : onOneShotFrame opts o now frame = onAgentEvent opts o now (memberOf (some frame) "payload") := by
      rw [onOneShotFrame_eq hnull]
      simp only [hchallenge, hresponse, h, Bool.false_and, Bool.false_eq_true, if_false, if_true]
    rw [hframe, returns_onAgentEvent]
    refine ⟨fun ⟨hpayload, hassistant⟩ => ?_, fun ht => ⟨ht.payload (.inl h), ht.assistant h⟩⟩
    exact ⟨hnull, by simp [hchallenge], by simp [hresponse], by simp [hresponse], fun _ => hpayload,
      fun _ => hassistant, by simp [hevents]⟩
  · obtain ⟨hresponse, hevents⟩ := not_others_of_isEvent h
    have hchallenge := hevents "connect.challenge" (by decide)
    have hagent := hevents "agent" (by decide)
    have hframe : onOneShotFrame opts o now frame = onChatEvent opts o now (memberOf (some frame) "payload") := by
      rw [onOneShotFrame_eq hnull]
      simp only [hchallenge, hresponse, hagent, h, Bool.false_and, Bool.false_eq_true, if_false, if_true]
    rw [hframe, returns_onChatEvent]
    refine ⟨fun ⟨hpayload, hfailure⟩ => ?_, fun ht => ⟨ht.payload (.inr h), ht.failure h⟩⟩
    exact ⟨hnull, by simp [hchallenge], by simp [hresponse], by simp [hresponse], fun _ => hpayload,
      by simp [hagent], fun _ => hfailure⟩
  · obtain ⟨hresponse, hchallenge, hagent, hchat⟩ := h
    rw [onOneShotFrame_other hnull ⟨hresponse, hchallenge, hagent, hchat⟩]
    refine ⟨fun _ => ?_, fun _ => returns_ok (o, [])⟩
    exact ⟨hnull, by simp [hchallenge], by simp [hresponse], by simp [hresponse], by simp [hagent, hchat],
      by simp [hagent], by simp [hchat]⟩

/-- Exactly the texts that hold a tolerated frame are handled. -/
theorem oneShotHandled_iff_tolerated {jsonParse : String → Option Json} {raw : String} :
    OneShotHandled opts jsonParse o now raw ↔ ∃ frame, jsonParse raw = some frame ∧
    OneShotTolerated opts o frame := by
  unfold OneShotHandled onMessage
  cases hparse : jsonParse raw with
  | none => simp
  | some frame =>
    simp only [Option.some.injEq, exists_eq_left']
    by_cases hnull : frame = .null
    · subst hnull
      refine ⟨fun ⟨o', effects, ho, _⟩ => ?_, fun ht => absurd rfl ht.notNull⟩
      cases ho
    · rw [← oneShot_returns_iff_tolerated now hnull]
      refine ⟨fun ⟨o', effects, ho, _⟩ => ⟨(o', effects), ho⟩, fun ⟨(o', effects), ho⟩ => ⟨o', effects, ho, ?_⟩⟩
      by_cases hother : IsOther frame
      · rw [onOneShotFrame_other hnull hother] at ho
        exact .inr (.inl (Except.ok.inj ho).symm)
      · exact .inl ⟨frame, hparse, interpreted_of_not_other hother⟩

end

/-- In whatever state the clients are, they survive a text exactly when it is tolerated there; the client that
shares its socket also survives every text that is not JSON. -/
theorem handled_iff (opts : Options) (jsonParse : String → Option Json) :
    (∀ c raw, Handled opts jsonParse c raw ↔ ∀ frame, jsonParse raw = some frame → Tolerated c frame) ∧
      ∀ o now raw, OneShotHandled opts jsonParse o now raw ↔
        ∃ frame, jsonParse raw = some frame ∧ OneShotTolerated opts o frame :=
  ⟨fun _ _ => handled_iff_tolerated, fun _ _ _ => oneShotHandled_iff_tolerated⟩

/-- The reading of a text that is `null`, and of one that is no JSON. -/
def readNull (raw : String) : Option Json := if raw = "null" then some .null else none

theorem isSome_acceptedRun : (Transition.run (Client.step defaultOptions) .init acceptedRun).isSome = true := by
  decide +kernel

/-- The first task is accepted, over the open socket. -/
def acceptedClient : Client := (Transition.run (Client.step defaultOptions) .init acceptedRun).get isSome_acceptedRun

/-- A rejected socket is still closing while the next one connects for the second task. -/
def connectingClient : Client :=
  (Transition.run (Client.step defaultOptions) .init (replacedRun.take 7)).get (by decide +kernel)

/-- `null` escapes on the open socket, and so does a challenge that a closing socket delivers. -/
theorem escapes_handler :
    Transition.Reachable (Client.step defaultOptions) .init acceptedClient ∧ acceptedClient.live 0 = true ∧
      ¬ Handled defaultOptions readNull acceptedClient "null" ∧
      Transition.Reachable (Client.step defaultOptions) .init connectingClient ∧ connectingClient.live 0 = true ∧
      onFrame defaultOptions connectingClient
        (.obj [("type", .str "event"), ("event", .str "connect.challenge")]) = .error .notOpen := by
  refine ⟨⟨acceptedRun, (Option.some_get _).symm⟩, by decide +kernel, ?_,
    ⟨replacedRun.take 7, (Option.some_get _).symm⟩, by decide +kernel, ?_⟩
  · rintro ⟨c', hc, _⟩
    cases hc
  · have hconnecting : isConnecting connectingClient.connection = true := by decide +kernel
    rw [onFrame_eq (by simp), if_pos (by decide), sendConnect, if_pos hconnecting]
    rfl

end FrameTotality
