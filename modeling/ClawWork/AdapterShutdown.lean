import ClawWork.Cancellation

/-!
# The shutdown of the adapter

What may still happen after `close`: which steps of a closed client open a socket, send
a task to the gateway or register one. The closed flag is read where an execution has
failed and where the socket is gone; an execution that goes on with success does not
look at it.
-/

namespace AdapterShutdown

open JavaScript SharedTypes GatewayProtocol GatewayClient PersistentGatewayClient Transition

/-- A request that has the gateway work on a task. -/
def isRequest : Effect → Bool
  | .send (.chatSend _ _ _ _ _ _) | .httpRequest => true
  | _ => false

def requests (log : List Entry) : List Entry := log.filter fun entry => isRequest entry.effect

/-- The call awaits `executeGatewayTask`, which has opened a socket of its own. -/
def inOneShot (c : Client) (x : Nat) : Bool := (c.calls x).any fun call => call.phase = .fallbackAwaiting

/-- No request and no new active task. -/
structure Idle (r r' : Registry) : Prop where
  requests : requests r'.log = requests r.log
  active : ∀ taskId x, r'.activeByTask.get taskId = some x → r.activeByTask.get taskId = some x

/-- A step that leaves a client shut down: no socket, no request, no reconnect timer, no new active task. -/
structure Quiet (c c' : Client) : Prop where
  socket : c'.connection.nextSocket = c.connection.nextSocket
  oneShots : ∀ x, inOneShot c' x = true → inOneShot c x = true
  idle : Idle c.registry c'.registry
  reconnectTimer : c'.connection.reconnectTimer = false

/-- Once the client is closed, the step is quiet. -/
def StaysShut (opts : Options) (c : Client) (l : Label) : Prop :=
  c.connection.closed = true → ∀ c' ∈ Client.step opts c l, Quiet c c'

/-- The HTTP completion takes over when the socket fails. -/
def fallsBack (o : OneShot) : Bool :=
  !o.promiseSettled && !o.fallbackInFlight && o.prepared.attachments.isEmpty

/-- The callback sends the task over its socket or by HTTP. -/
def issues (o : OneShot) : Stimulus → Bool
  | .message (.ok id _ _) => o.listening && id = connectRequestId
  | .message (.error id _ _) => o.listening && id = connectRequestId && fallsBack o
  | .error _ | .close _ _ => o.listening && fallsBack o
  | .connectTimeout => o.connectTimer && fallsBack o
  | _ => false

/-- The executions that a closed client lets go on: an input that is prepared when no connection is awaited, or for
the one-shot client, and a one-shot client whose callbacks were not removed. -/
def Heeds (c : Client) : Label → Prop
  | .prepared x (.ok _) => ∀ call, c.calls x = some call →
    call.phase ≠ .fallbackPreparing ∧ (call.phase = .preparing → c.connection.connectionPromise ≠ none)
  | .oneShot x stimulus => ∀ call o, c.calls x = some call → call.oneShot = some o → issues o stimulus = false
  | _ => True

/-! ## The registry -/

section Registry

variable {r r' r'' : Registry} {x : Nat}

theorem requests_append (log log' : List Entry) : requests (log ++ log') = requests log ++ requests log' :=
  List.filter_append ..

theorem Idle.refl (r : Registry) : Idle r r := ⟨rfl, fun _ _ h => h⟩

theorem Idle.trans (h : Idle r r') (h' : Idle r' r'') : Idle r r'' :=
  ⟨h'.requests.trans h.requests, fun t x hx => h.active t x (h'.active t x hx)⟩

theorem idle_write (r : Registry) (x : Nat) (t : String) {e : Effect} (h : isRequest e = false) :
    Idle r (r.write x t e) where
  requests := by simp [Registry.write, requests, h]
  active _ _ h := h

theorem idle_modify (r : Registry) (x : Nat) (f : ActiveTask → ActiveTask) : Idle r (r.modify x f) :=
  ⟨rfl, fun _ _ h => h⟩

theorem idle_emit (r : Registry) (x : Nat) (d : TaskEventDetail) : Idle r (r.emit x d) :=
  idle_write r x _ rfl

theorem idle_reject (r : Registry) (x : Nat) (e : GatewayError) : Idle r (r.reject x e) := idle_modify r x _

theorem idle_removeTask (r : Registry) (x : Nat) : Idle r (r.removeTask x) where
  requests := rfl
  active := by
    have hconfined : Registry.Confined (fun _ => True) r (r.removeTask x) := Registry.confined_removeTask r x
    exact hconfined.active

theorem idle_fail (r : Registry) (x : Nat) (e : GatewayError) : Idle r (r.fail x e) := by
  unfold Registry.fail
  split
  · exact idle_emit r x _
  · exact idle_reject r x e

theorem idle_failAll (r : Registry) (e : GatewayError) : Idle r (r.failAll e) := by
  have hloop : ∀ (xs : List Nat) (r : Registry), Idle r (xs.foldl
      (fun r x => (r.fail x e).modify x fun a => { a with timeout := false }) r) := by
    intro xs
    induction xs with
    | nil => exact Idle.refl
    | cons x xs ih => exact fun r => ((idle_fail r x e).trans (idle_modify _ x _)).trans (ih _)
  refine ⟨(hloop _ r).requests, fun t x h => ?_⟩
  cases h

theorem idle_onOk (r : Registry) (id : String) (runId : Option String) : Idle r (r.onOk id runId) := by
  unfold Registry.onOk
  split
  · exact .refl r
  · rename_i x _
    refine ⟨?_, fun _ _ h => h⟩
    exact (idle_write _ x _ rfl).requests.trans rfl

theorem idle_onError (r : Registry) (id : String) (code message : Option String) :
    Idle r (r.onError id code message) := by
  unfold Registry.onError
  split
  · exact .refl r
  · exact (idle_reject r _ _).trans (idle_removeTask _ _)

theorem idle_emitArtifact (r : Registry) (x : Nat) (artifact : Option Artifact) :
    Idle r (r.emitArtifact x artifact) := by
  cases artifact with
  | none => exact .refl r
  | some artifact => exact idle_emit r x _

theorem idle_onAgent (opts : Options) (r : Registry) (x : Nat) (payload : EventPayload) :
    Idle r (r.onAgent opts x payload) := by
  refine (idle_emitArtifact r x (Registry.frameArtifact opts payload)).trans ?_
  unfold Registry.onAgent
  dsimp only
  split
  · split
    · exact idle_modify _ x _
    · exact (idle_modify _ x _).trans (idle_emit _ x _)
  · split
    · exact idle_emit _ x _
    · exact .refl _

theorem idle_onChat (opts : Options) (r : Registry) (x : Nat) (payload : EventPayload) :
    Idle r (r.onChat opts x payload) := by
  refine (idle_emitArtifact r x (Registry.frameArtifact opts payload)).trans ?_
  unfold Registry.onChat
  dsimp only
  split
  · exact (idle_emit _ x _).trans (idle_removeTask _ x)
  · exact (idle_emit _ x _).trans (idle_removeTask _ x)
  · exact (idle_emit _ x _).trans (idle_removeTask _ x)
  · exact .refl _

theorem idle_onTimeout (r : Registry) (x : Nat) : Idle r (r.onTimeout x) := by
  unfold Registry.onTimeout
  dsimp only
  split
  · exact idle_modify r x _
  · exact ((idle_modify r x _).trans (idle_fail _ _ _)).trans (idle_removeTask _ _)

end Registry

/-! ## The connection -/

/-- The connection of a closed client that has opened no socket since. -/
structure Shut (k : Connection) : Prop where
  closed : k.closed = true
  socket : k.socket = none
  reconnectTimer : k.reconnectTimer = false

/-- It stays like that, and no socket is opened. -/
structure Rests (k k' : Connection) : Prop where
  shut : Shut k'
  nextSocket : k'.nextSocket = k.nextSocket

section Connection

variable {k k' k'' : Connection}

theorem Rests.refl (h : Shut k) : Rests k k := ⟨h, rfl⟩

theorem Rests.trans (h : Rests k k') (h' : Rests k' k'') : Rests k k'' :=
  ⟨h'.shut, h'.nextSocket.trans h.nextSocket⟩

theorem Shut.isOpen (h : Shut k) : k.isOpen = false := by rw [Connection.isOpen, h.socket]

theorem rests_shutSocket (h : Shut k) : Rests k k.shutSocket := by
  rw [Connection.shutSocket, h.socket]
  exact .refl h

theorem rests_sendConnect (h : Shut k) : Rests k k.sendConnect := by
  rw [Connection.sendConnect, h.isOpen]
  exact .refl h

theorem rests_clearConnectTimer (h : Shut k) : Rests k k.clearConnectTimer := by
  unfold Connection.clearConnectTimer
  split
  · exact ⟨⟨h.closed, h.socket, h.reconnectTimer⟩, rfl⟩
  · exact .refl h

theorem rests_settleConnection (h : Shut k) (settle : Promise GatewayError Unit → Promise GatewayError Unit) :
    Rests k (k.settleConnection settle) := by
  unfold Connection.settleConnection
  split
  · exact ⟨⟨h.closed, h.socket, h.reconnectTimer⟩, rfl⟩
  · exact .refl h

theorem rests_rejectCurrentConnection (h : Shut k) (e : GatewayError) :
    Rests k (k.rejectCurrentConnection e) :=
  (rests_clearConnectTimer h).trans (rests_settleConnection (rests_clearConnectTimer h).shut _)

theorem rests_onConnected (h : Shut k) : Rests k k.onConnected := by
  have hconnected : Rests k { k with connected := true } := ⟨⟨h.closed, h.socket, h.reconnectTimer⟩, rfl⟩
  have hcleared := hconnected.trans (rests_clearConnectTimer hconnected.shut)
  have hsettled := hcleared.trans (rests_settleConnection hcleared.shut fun p => p.resolve ())
  exact ⟨⟨hsettled.shut.closed, hsettled.shut.socket, hsettled.shut.reconnectTimer⟩, hsettled.nextSocket⟩

theorem rests_onHeartbeat (h : Shut k) : Rests k (Client.onHeartbeat k) := by
  rw [Client.onHeartbeat, h.isOpen]
  exact .refl h

/-- A connection that is awaited is awaited on; any other call opens a socket. -/
theorem rests_ensureConnected_iff (h : Shut k) : Rests k k.ensureConnected.1 ↔ k.connectionPromise ≠ none := by
  rw [Connection.ensureConnected, h.isOpen, Bool.and_false, if_neg Bool.false_ne_true]
  cases hpromise : k.connectionPromise with
  | none => exact iff_of_false (fun hrests => by simpa using hrests.nextSocket) (by simp)
  | some p => exact iff_of_true (.refl h) (by simp)

end Connection

/-! ## The one-shot clients -/

section OneShot

variable {o o' : OneShot} {now : String} {es : List Effect}

theorem requests_rejectExecution (o : OneShot) (e : GatewayError) :
    (o.rejectExecution e).2.any isRequest = false := by
  unfold OneShot.rejectExecution
  split <;> rfl

theorem requests_startHttp (o : OneShot) (e : GatewayError) :
    (o.startHttp e).2.any isRequest = o.prepared.attachments.isEmpty := by
  unfold OneShot.startHttp
  split
  · rename_i hempty
    rw [hempty]
    rfl
  · rename_i hne
    rw [requests_rejectExecution, List.isEmpty_eq_false_iff.mpr hne]

theorem requests_failBeforeAccepted (o : OneShot) (now : String) (e : GatewayError) :
    (o.failBeforeAccepted now e).2.any isRequest = fallsBack o := by
  unfold OneShot.failBeforeAccepted fallsBack
  split
  · rename_i hsettled
    rw [hsettled]
    rfl
  · rename_i hsettled
    split
    · rename_i hflight
      rw [hflight, Bool.not_true, Bool.and_false, Bool.false_and]
      rfl
    · rename_i hflight
      simp only [hsettled, hflight, Bool.not_false, Bool.true_and]
      exact requests_startHttp _ e

theorem requests_onAgent (o : OneShot) (opts : Options) (now : String) (payload : EventPayload) :
    (o.onAgent opts now payload).2.any isRequest = false := by
  unfold OneShot.onAgent
  dsimp only
  split
  · rfl
  · split
    · split <;> rfl
    · rfl

theorem requests_onChat (o : OneShot) (opts : Options) (now : String) (payload : EventPayload) :
    (o.onChat opts now payload).2.any isRequest = false := by
  have hterminal : (o.chatTerminal now payload).2.any isRequest = false := by
    unfold OneShot.chatTerminal
    split <;> rfl
  unfold OneShot.onChat
  dsimp only
  rw [List.any_append, hterminal, Bool.or_false]
  split <;> rfl

theorem requests_onHttp (o : OneShot) (now : String) (e : GatewayError) (outcome : HttpOutcome) :
    (o.onHttp now e outcome).2.any isRequest = false := by
  cases outcome with
  | failed error => exact requests_rejectExecution _ _
  | rejected status message => exact requests_rejectExecution _ _
  | reply id reply =>
    unfold OneShot.onHttp
    dsimp only
    split
    · exact requests_rejectExecution _ _
    · split <;> rfl

theorem requests_onMessage (o : OneShot) (opts : Options) (now : String) (frame : GatewayFrame)
    (hlistening : o.listening = true) :
    (o.onMessage opts now frame).2.any isRequest = issues o (.message frame) := by
  cases frame with
  | challenge => rfl
  | other => rfl
  | agent payload => exact requests_onAgent o opts now payload
  | chat payload => exact requests_onChat o opts now payload
  | ok id runId mainSessionKey =>
    by_cases hid : id = connectRequestId
    · simp [OneShot.onMessage, issues, hid, hlistening, isRequest]
    · rw [issues, decide_eq_false hid, Bool.and_false, OneShot.onMessage, if_neg hid]
      split
      · unfold OneShot.resolveAccepted
        dsimp only
        split <;> rfl
      · rfl
  | error id code message =>
    by_cases hid : id = connectRequestId
    · rw [issues, decide_eq_true hid, hlistening, OneShot.onMessage, if_pos hid]
      exact requests_failBeforeAccepted o now _
    · rw [issues, decide_eq_false hid, Bool.and_false, Bool.false_and, OneShot.onMessage, if_neg hid]
      split
      · dsimp only
        split
        · rfl
        · exact requests_rejectExecution _ _
      · rfl

theorem requests_onClose (o : OneShot) (now : String) (code : Nat) (reason : String) :
    (o.onClose now code reason).2.any isRequest = fallsBack o := by
  unfold OneShot.onClose
  dsimp only
  split
  · exact requests_failBeforeAccepted o now _
  · rename_i hsettled
    have hback : fallsBack o = false := by
      have hsettled : o.promiseSettled = true := by simpa using hsettled
      rw [fallsBack, hsettled]
      rfl
    rw [hback]
    split <;> rfl

/-- A callback requests work exactly where it is said to issue the task. -/
theorem requests_step {opts : Options} {stimulus : Stimulus} (h : o.step opts now stimulus = some (o', es)) :
    es.any isRequest = issues o stimulus := by
  cases stimulus with
  | opened =>
    simp only [OneShot.step] at h
    split at h
    · cases h
      rfl
    · cases h
  | message frame =>
    simp only [OneShot.step] at h
    split at h
    · rename_i hlistening
      rw [← requests_onMessage o opts now frame hlistening, Option.some.inj h]
    · cases h
  | error message =>
    simp only [OneShot.step] at h
    split at h
    · rename_i hlistening
      rw [issues, hlistening, Bool.true_and, ← requests_failBeforeAccepted, Option.some.inj h]
    · cases h
  | close code reason =>
    simp only [OneShot.step] at h
    split at h
    · rename_i hlistening
      have hback := requests_onClose { o with readyState := .closed } now code reason
      rw [Option.some.inj h] at hback
      rw [issues, hlistening, Bool.true_and, hback]
      rfl
    · rename_i hlistening
      cases h
      rw [issues, Bool.eq_false_iff.mpr hlistening]
      rfl
  | connectTimeout =>
    simp only [OneShot.step] at h
    split at h
    · rename_i htimer
      have hback := requests_failBeforeAccepted { o with connectTimer := false } now
        (toGatewayExecutionError "AGENT_TIMEOUT" "gateway connect timed out")
      rw [Option.some.inj h] at hback
      rw [issues, htimer, Bool.true_and, hback]
      rfl
    · cases h
  | http outcome =>
    obtain ⟨e, -, hresult⟩ := Option.map_eq_some_iff.mp h
    have hhttp := requests_onHttp o now e outcome
    rw [hresult] at hhttp
    exact hhttp
  | cancel =>
    cases h
    rw [List.any_append]
    split <;> rfl
  | shutdown =>
    cases h
    rfl

end OneShot

/-! ## Steps of a closed client -/

/-- A quiet step after which the client is still shut. -/
structure Stays (c c' : Client) : Prop where
  quiet : Quiet c c'
  shut : Shut c'.connection

section Steps

variable {opts : Options} {c c' c'' : Client} {x : Nat} {call : Call}

theorem stays_of (hrests : Rests c.connection c'.connection)
    (hcalls : ∀ y, inOneShot c' y = true → inOneShot c y = true) (hidle : Idle c.registry c'.registry) :
    Stays c c' :=
  ⟨⟨hrests.nextSocket, hcalls, hidle, hrests.shut.reconnectTimer⟩, hrests.shut⟩

theorem Stays.refl (h : Shut c.connection) : Stays c c := stays_of (.refl h) (fun _ hy => hy) (.refl _)

theorem Stays.trans (h : Stays c c') (h' : Stays c' c'') : Stays c c'' where
  quiet :=
    { socket := h'.quiet.socket.trans h.quiet.socket
      oneShots := fun y hy => h.quiet.oneShots y (h'.quiet.oneShots y hy)
      idle := h.quiet.idle.trans h'.quiet.idle
      reconnectTimer := h'.quiet.reconnectTimer }
  shut := h'.shut

theorem stays_connection {k : Connection} (hrests : Rests c.connection k) : Stays c { c with connection := k } :=
  stays_of hrests (fun _ hy => hy) (.refl _)

theorem stays_registry (h : Shut c.connection) {r : Registry} (hidle : Idle c.registry r) :
    Stays c { c with registry := r } :=
  stays_of (.refl h) (fun _ hy => hy) hidle

/-- A call comes to a phase other than the await of its one-shot client. -/
theorem inOneShot_setCall (call' : Call) (hphase : call'.phase ≠ .fallbackAwaiting) {y : Nat}
    (hy : inOneShot (c.setCall x call') y = true) : inOneShot c y = true := by
  unfold inOneShot Client.setCall at hy
  dsimp only at hy
  by_cases hxy : y = x
  · subst hxy
    rw [Function.update_self] at hy
    exact absurd (of_decide_eq_true hy) hphase
  · rwa [Function.update_of_ne hxy] at hy

theorem stays_setPhase (h : Shut c.connection) {phase : Phase} (hphase : phase ≠ .fallbackAwaiting) :
    Stays c (c.setPhase x call phase) :=
  stays_of (.refl h) (fun _ hy => inOneShot_setCall { call with phase } hphase hy) (.refl _)

/-- The error of an execution leaves a closed client. -/
theorem stays_catchError (h : Shut c.connection) (e : GatewayError) : Stays c (c.catchError x call e) := by
  rw [Client.catchError, h.closed]
  exact stays_setPhase h (by simp)

theorem stays_failFallback (h : Shut c.connection) (e : GatewayError) : Stays c (c.failFallback x call e) :=
  stays_of (.refl h) (fun _ hy => inOneShot_setCall { call with phase := .threw e } (by simp) hy) (.refl _)

theorem stays_insertActive (h : Shut c.connection) : Stays c (c.insertActive opts x call) := by
  rw [Client.insertActive, h.isOpen]
  exact stays_catchError h _

theorem stays_handleDisconnect (h : Shut c.connection) (e : GatewayError) : Stays c (c.handleDisconnect e) := by
  have hstopped : Rests c.connection { c.connection with connected := false, heartbeat := false } :=
    ⟨⟨h.closed, h.socket, h.reconnectTimer⟩, rfl⟩
  have hrests := hstopped.trans (rests_rejectCurrentConnection hstopped.shut e)
  refine stays_of ?_ (fun _ hy => hy) ?_
  · refine ⟨⟨hrests.shut.closed, hrests.shut.socket, ?_⟩, hrests.nextSocket⟩
    unfold Client.handleDisconnect
    dsimp only
    rw [hrests.shut.reconnectTimer, hrests.shut.closed]
    rfl
  · unfold Client.handleDisconnect
    dsimp only
    split
    · exact idle_failAll _ e
    · exact .refl _

theorem stays_handleMessage (h : Shut c.connection) (frame : GatewayFrame) :
    Stays c (c.handleMessage opts frame) := by
  cases frame with
  | challenge => exact stays_connection (rests_sendConnect h)
  | other => exact .refl h
  | ok id runId mainSessionKey =>
    simp only [Client.handleMessage]
    split
    · exact stays_connection (rests_onConnected h)
    · exact stays_registry h (idle_onOk _ _ _)
  | error id code message =>
    simp only [Client.handleMessage]
    split
    · have hrests := rests_rejectCurrentConnection h
        ⟨code.getD "GATEWAY_AUTH_ERROR", message.getD "gateway rejected connect"⟩
      exact stays_connection (hrests.trans (rests_shutSocket hrests.shut))
    · exact stays_registry h (idle_onError _ _ _ _)
  | agent payload =>
    simp only [Client.handleMessage]
    split
    · exact stays_registry h (idle_onAgent opts _ _ _)
    · exact .refl h
  | chat payload =>
    simp only [Client.handleMessage]
    split
    · exact stays_registry h (idle_onChat opts _ _ _)
    · exact .refl h

/-! ### One-shot clients -/

theorem requests_write (r : Registry) (x : Nat) (t : String) (e : Effect) :
    requests (r.write x t e).log = requests r.log ++ if isRequest e then [⟨x, t, e⟩] else [] := by
  rw [Registry.write, requests_append]
  congr 1
  rw [requests, List.filter_cons, List.filter_nil]

theorem registry_settleOneShot (c : Client) (x : Nat)
    (settle : Promise GatewayError Accepted → Promise GatewayError Accepted) :
    (c.settleOneShot x settle).registry = c.registry := by
  unfold Client.settleOneShot
  split <;> rfl

theorem requests_onEffect (x : Nat) (t : String) (c : Client) (e : Effect) :
    requests (Client.onEffect x t c e).registry.log =
      requests c.registry.log ++ if isRequest e then [⟨x, t, e⟩] else [] := by
  cases e with
  | event event => exact requests_write c.registry x t (.event event)
  | httpRequest => exact requests_write c.registry x t .httpRequest
  | send request => exact requests_write c.registry x t (.send request)
  | resolve accepted => simp [Client.onEffect, registry_settleOneShot, isRequest]
  | reject error => simp [Client.onEffect, registry_settleOneShot, isRequest]

theorem requests_effects (x : Nat) (t : String) (es : List Effect) (c : Client) :
    requests (es.foldl (Client.onEffect x t) c).registry.log =
      requests c.registry.log ++ (es.filter isRequest).map (Entry.mk x t) := by
  induction es generalizing c with
  | nil => simp
  | cons e es ih =>
    rw [List.foldl_cons, ih, requests_onEffect, List.append_assoc, List.filter_cons]
    split <;> rfl

theorem stepOneShot_cases {stimulus : Stimulus} (h : c.stepOneShot opts x stimulus = some c') :
    ∃ call o o' es, c.calls x = some call ∧ call.oneShot = some o ∧
      o.step opts c.registry.clock stimulus = some (o', es) ∧
      c' = es.foldl (Client.onEffect x call.input.taskId) (c.setCall x { call with oneShot := some o' }) := by
  unfold Client.stepOneShot at h
  obtain ⟨call, hcall, h⟩ := Option.bind_eq_some_iff.mp h
  obtain ⟨o, ho, h⟩ := Option.bind_eq_some_iff.mp h
  obtain ⟨⟨o', es⟩, hstep, h⟩ := Option.bind_eq_some_iff.mp h
  exact ⟨call, o, o', es, hcall, ho, hstep, (Option.some.inj h).symm⟩

theorem inOneShot_of_callFrame {f : OneShot → OneShot} (h : Cancellation.CallFrame f c c' x) {y : Nat}
    (hy : inOneShot c' y = true) : inOneShot c y = true := by
  unfold inOneShot at hy ⊢
  by_cases hxy : y = x
  · subst hxy
    cases hcall : c'.calls y with
    | none =>
      rw [hcall] at hy
      cases hy
    | some call' =>
      obtain ⟨call, hc, hphase, -, -⟩ := h.own call' hcall
      rw [hcall] at hy
      rw [hc]
      exact decide_eq_true (hphase ▸ of_decide_eq_true hy)
  · rwa [h.others y hxy] at hy

/-- A callback of a one-shot client is quiet exactly when it does not issue the task. -/
theorem stepOneShot_quiet_iff (h : Shut c.connection) {stimulus : Stimulus} {o : OneShot}
    (hcall : c.calls x = some call) (hone : call.oneShot = some o)
    (hstep : c.stepOneShot opts x stimulus = some c') :
    (Quiet c c' ↔ issues o stimulus = false) ∧ Shut c'.connection := by
  obtain ⟨call₁, o₁, o', es, hcall₁, hone₁, hresult, rfl⟩ := stepOneShot_cases hstep
  rw [hcall] at hcall₁
  cases hcall₁
  rw [hone] at hone₁
  cases hone₁
  have hset : Cancellation.CallFrame (fun _ => o') c (c.setCall x { call with oneShot := some o' }) x :=
    Cancellation.callFrame_setCall hcall rfl rfl (by rw [hone]; rfl)
  have hframe := hset.trans (Cancellation.callFrame_effects x call.input.taskId es _)
  have hrequests := requests_effects x call.input.taskId es (c.setCall x { call with oneShot := some o' })
  have hissues := requests_step hresult
  have hshut := hframe.connection ▸ h
  refine ⟨?_, hshut⟩
  rw [← hissues, ← Bool.not_eq_true]
  constructor
  · intro hquiet hany
    have hempty : (es.filter isRequest).map (Entry.mk x call.input.taskId) = [] :=
      List.self_eq_append_right.mp (hquiet.idle.requests.symm.trans hrequests)
    obtain ⟨e, he, hrequest⟩ := List.any_eq_true.mp hany
    have hnone := List.filter_eq_nil_iff.mp (List.map_eq_nil_iff.mp hempty) e he
    exact hnone hrequest
  · intro hnone
    have hempty : es.filter isRequest = [] := by
      apply List.filter_eq_nil_iff.mpr
      exact fun e he hrequest => hnone (List.any_eq_true.mpr ⟨e, he, hrequest⟩)
    refine ⟨by rw [hframe.connection], fun y hy => inOneShot_of_callFrame hframe hy, ⟨?_, ?_⟩,
      hshut.reconnectTimer⟩
    · rw [hrequests, hempty, List.map_nil, List.append_nil]
      rfl
    · rw [hframe.active]
      exact fun _ _ hx => hx

theorem issues_cancel (o : OneShot) : issues o .cancel = false := rfl

theorem issues_shutdown (o : OneShot) : issues o .shutdown = false := rfl

/-- The control functions of a one-shot client are quiet. -/
theorem stays_control (opts : Options) (x : Nat) (h : Shut c.connection) {stimulus : Stimulus}
    (hquiet : ∀ o, issues o stimulus = false) :
    Stays c ((c.stepOneShot opts x stimulus).getD c) := by
  cases hstep : c.stepOneShot opts x stimulus with
  | none => exact .refl h
  | some c' =>
    obtain ⟨call, o, -, -, hcall, hone, -, -⟩ := stepOneShot_cases hstep
    obtain ⟨hiff, hshut⟩ := stepOneShot_quiet_iff h hcall hone hstep
    exact ⟨hiff.mpr (hquiet o), hshut⟩

theorem stays_fallbacks (h : Shut c.connection) (fallbackByTask : OrderedMap String Fallback) :
    Stays c { c with fallbackByTask } :=
  stays_of (.refl h) (fun _ hy => hy) (.refl _)

theorem stays_cancel (h : Shut c.connection) (taskId : String) : Stays c (c.cancel opts taskId).2 := by
  unfold Client.cancel
  split
  · split
    · exact .refl h
    · rename_i fallback _
      have hcontrol := stays_control opts fallback.call h issues_cancel
      exact hcontrol.trans (stays_fallbacks hcontrol.shut _)
  · rw [h.isOpen]
    exact .refl h

theorem stays_shutdown (opts : Options) (fallbacks : List Fallback) (h : Shut c.connection) :
    Stays c (fallbacks.foldl (fun c fallback => (c.stepOneShot opts fallback.call .shutdown).getD c) c) := by
  induction fallbacks generalizing c with
  | nil => exact .refl h
  | cons fallback fallbacks ih =>
    have hcontrol := stays_control opts fallback.call h issues_shutdown
    exact hcontrol.trans (ih hcontrol.shut)

theorem stays_resume (h : Shut c.connection) (hstep : c.resume opts x call = some c') : Stays c c' := by
  cases Client.resumes_of_resume hstep with
  | connected promise hphase hfulfilled => exact stays_insertActive h
  | unconnected p error hphase hrejected => exact stays_catchError h _
  | returns accepted hphase hfulfilled => exact stays_setPhase h (by simp)
  | fails error hphase hrejected => exact stays_catchError h _
  | oneShotReturns accepted hphase hfulfilled => exact stays_setPhase h (by simp)
  | oneShotFails error hphase hrejected => exact stays_failFallback h _

/-! ### `close` -/

theorem connection_control (opts : Options) (c : Client) (x : Nat) (stimulus : Stimulus) :
    ((c.stepOneShot opts x stimulus).getD c).connection = c.connection := by
  cases hstep : c.stepOneShot opts x stimulus with
  | none => rfl
  | some c' =>
    obtain ⟨call, o, o', es, hcall, hone, -, rfl⟩ := stepOneShot_cases hstep
    exact (Cancellation.callFrame_effects x call.input.taskId es _).connection

theorem connection_shutdown (fallbacks : List Fallback) (c : Client) :
    (fallbacks.foldl (fun c fallback => (c.stepOneShot opts fallback.call .shutdown).getD c) c).connection =
      c.connection := by
  induction fallbacks generalizing c with
  | nil => rfl
  | cons fallback fallbacks ih => exact (ih _).trans (connection_control opts c fallback.call .shutdown)

theorem reconnectTimer_shutSocket (k : Connection) : k.shutSocket.reconnectTimer = k.reconnectTimer := by
  unfold Connection.shutSocket
  split <;> rfl

theorem shut_close (opts : Options) (c : Client) : Shut (c.close opts).connection where
  closed := by simp [Client.close, connection_shutdown]
  socket := rfl
  reconnectTimer := by simp [Client.close, connection_shutdown, reconnectTimer_shutSocket]

theorem stays_close (h : Shut c.connection) : Stays c (c.close opts) := by
  have hclosed : Rests c.connection { c.connection with closed := true, connected := false } :=
    ⟨⟨rfl, h.socket, h.reconnectTimer⟩, rfl⟩
  have hcleared := hclosed.trans (rests_clearConnectTimer hclosed.shut)
  have hstopped : Rests c.connection
      { ({ c.connection with closed := true, connected := false } : Connection).clearConnectTimer with
        heartbeat := false, reconnectTimer := false } :=
    ⟨⟨hcleared.shut.closed, hcleared.shut.socket, rfl⟩, hcleared.nextSocket⟩
  have hfailed : Stays c { c with
      connection := { ({ c.connection with closed := true, connected := false } :
      Connection).clearConnectTimer with
        heartbeat := false, reconnectTimer := false }
      registry := c.registry.failAll ⟨"GATEWAY_SHUTDOWN", "gateway client is shutting down"⟩ } :=
    stays_of hstopped (fun _ hy => hy) (idle_failAll _ _)
  have hshutdown := hfailed.trans (stays_shutdown opts c.fallbackByTask.values hfailed.shut)
  have hlast := rests_shutSocket hshutdown.shut
  refine hshutdown.trans (stays_of ⟨shut_close opts c, ?_⟩ (fun _ hy => hy) (.refl _))
  exact hlast.nextSocket

/-! ### The step lemma -/

/-- An input is prepared: the execution goes on to the connection, or to a one-shot client. -/
theorem prepared_quiet_iff {result : Except GatewayError PreparedGatewayInput} (h : Shut c.connection)
    (hcall : c.calls x = some call) (hstep : c.onPrepared opts x call result = some c') :
    (Quiet c c' ↔ Heeds c (.prepared x result)) ∧ (Heeds c (.prepared x result) → Shut c'.connection) := by
  have hstays : Stays c c' → ∀ e, (Quiet c c' ↔ Heeds c (.prepared x (.error e))) ∧
      (Heeds c (.prepared x (.error e)) → Shut c'.connection) :=
    fun hstays e => ⟨iff_of_true hstays.quiet trivial, fun _ => hstays.shut⟩
  cases Client.proceeds_of_onPrepared hstep with
  | connects prepared hphase =>
    have hheeds : Heeds c (.prepared x (.ok prepared)) ↔ c.connection.connectionPromise ≠ none := by
      constructor
      · exact fun hheeds => (hheeds call hcall).2 hphase
      · intro hpromise call' hcall'
        rw [hcall] at hcall'
        cases hcall'
        exact ⟨by simp [hphase], fun _ => hpromise⟩
    rw [hheeds, ← rests_ensureConnected_iff h]
    refine ⟨⟨fun hquiet => ?_, fun hrests => ?_⟩, fun hrests => hrests.shut⟩
    · apply (rests_ensureConnected_iff h).mpr
      intro hnone
      have hsocket : c.connection.ensureConnected.1.nextSocket = c.connection.nextSocket := hquiet.socket
      rw [Connection.ensureConnected, h.isOpen, Bool.and_false, if_neg Bool.false_ne_true, hnone] at hsocket
      simp at hsocket
    · refine ⟨hrests.nextSocket, fun y hy => ?_, .refl _, hrests.shut.reconnectTimer⟩
      exact inOneShot_setCall { call with prepared, phase := .connecting _ } (by simp) hy
  | unprepared error hphase => exact hstays (stays_catchError h _) _
  | startsOneShot prepared hphase =>
    have hheeds : ¬ Heeds c (.prepared x (.ok prepared)) := fun hheeds => (hheeds call hcall).1 hphase
    refine ⟨iff_of_false (fun hquiet => ?_) hheeds, fun h => absurd h hheeds⟩
    have hopened := hquiet.oneShots x (by simp [inOneShot, Client.setPhase, Client.setCall])
    rw [inOneShot, hcall, Option.any_some, hphase] at hopened
    cases hopened
  | oneShotUnprepared error hphase => exact hstays (stays_failFallback h _) _

/-- A step of a closed client is quiet exactly when it heeds the shutdown, and the client is then still shut. -/
theorem quiet_iff_heeds {l : Label} (h : Shut c.connection) (hstep : Client.step opts c l = some c') :
    (Quiet c c' ↔ Heeds c l) ∧ (Heeds c l → Shut c'.connection) := by
  have hstays : Stays c c' → (Quiet c c' ↔ True) ∧ (True → Shut c'.connection) :=
    fun hstays => ⟨iff_true_intro hstays.quiet, fun _ => hstays.shut⟩
  cases l with
  | tick now =>
    cases hstep
    exact hstays (stays_registry h ⟨rfl, fun _ _ hx => hx⟩)
  | execute input =>
    cases hstep
    refine hstays (stays_of (.refl h) (fun y hy => ?_) (.refl _))
    exact inOneShot_setCall ⟨input, default, .preparing, none, .pending⟩ (by simp) hy
  | prepared x result =>
    obtain ⟨call, hcall, hprepared⟩ := Option.bind_eq_some_iff.mp hstep
    exact prepared_quiet_iff h hcall hprepared
  | resume x =>
    obtain ⟨call, -, hresume⟩ := Option.bind_eq_some_iff.mp hstep
    exact hstays (stays_resume h hresume)
  | cancel taskId =>
    cases hstep
    exact hstays (stays_cancel h taskId)
  | close =>
    cases hstep
    exact hstays (stays_close h)
  | oneShot x stimulus =>
    have hcallback : c.stepOneShot opts x stimulus = some c' := by
      cases stimulus <;> first | exact hstep | cases hstep
    obtain ⟨call, o, -, -, hcall, hone, -, -⟩ := stepOneShot_cases hcallback
    have hheeds : Heeds c (.oneShot x stimulus) ↔ issues o stimulus = false := by
      constructor
      · exact fun hheeds => hheeds call o hcall hone
      · intro hissues call' o' hcall' hone'
        rw [hcall] at hcall'
        cases hcall'
        rw [hone] at hone'
        cases hone'
        exact hissues
    obtain ⟨hiff, hshut⟩ := stepOneShot_quiet_iff h hcall hone hcallback
    exact ⟨hiff.trans hheeds.symm, fun _ => hshut⟩
  | opened s =>
    simp only [Client.step] at hstep
    split at hstep
    · cases hstep
      exact hstays (stays_connection ⟨⟨h.closed, h.socket, h.reconnectTimer⟩, rfl⟩)
    · cases hstep
  | message s frame =>
    simp only [Client.step] at hstep
    split at hstep
    · cases hstep
      exact hstays (stays_handleMessage h frame)
    · cases hstep
  | malformed s =>
    simp only [Client.step] at hstep
    split at hstep
    · cases hstep
      have hgone := stays_handleDisconnect h ⟨"GATEWAY_PROTOCOL_ERROR", "invalid gateway frame"⟩
      exact hstays (hgone.trans (stays_connection (rests_shutSocket hgone.shut)))
    · cases hstep
  | pong s =>
    simp only [Client.step] at hstep
    split at hstep
    · cases hstep
      exact hstays (stays_connection ⟨⟨h.closed, h.socket, h.reconnectTimer⟩, rfl⟩)
    · cases hstep
  | socketError s message =>
    simp only [Client.step] at hstep
    split at hstep
    · split at hstep
      · cases hstep
        exact hstays (.refl h)
      · cases hstep
        exact hstays (stays_connection (rests_rejectCurrentConnection h _))
    · cases hstep
  | socketClosed s code reason =>
    simp only [Client.step] at hstep
    split at hstep
    · cases hstep
      have hset : Stays c { c with connection := c.connection.setReady s .closed } :=
        stays_connection ⟨⟨h.closed, h.socket, h.reconnectTimer⟩, rfl⟩
      exact hstays (hset.trans (stays_handleDisconnect hset.shut _))
    · cases hstep
  | connectTimeout s =>
    simp only [Client.step] at hstep
    split at hstep
    · cases hstep
      have htimer : Rests c.connection { c.connection with
          connectTimers := Function.update c.connection.connectTimers s false } :=
        ⟨⟨h.closed, h.socket, h.reconnectTimer⟩, rfl⟩
      have hrests := htimer.trans (rests_rejectCurrentConnection htimer.shut
        ⟨"GATEWAY_TIMEOUT", "gateway connect timed out"⟩)
      exact hstays (stays_connection ⟨⟨hrests.shut.closed, hrests.shut.socket, hrests.shut.reconnectTimer⟩,
        hrests.nextSocket⟩)
    · cases hstep
  | heartbeat =>
    simp only [Client.step] at hstep
    split at hstep
    · cases hstep
      exact hstays (stays_connection (rests_onHeartbeat h))
    · cases hstep
  | reconnect =>
    simp only [Client.step] at hstep
    rw [h.reconnectTimer] at hstep
    cases hstep
  | taskTimeout x =>
    simp only [Client.step] at hstep
    split at hstep
    · cases hstep
      exact hstays (stays_registry h (idle_onTimeout _ x))
    · cases hstep

/-! ## Runs -/

theorem closed_handleDisconnect (c : Client) (e : GatewayError) :
    (c.handleDisconnect e).connection.closed = c.connection.closed := by
  simp [Client.handleDisconnect]

theorem closed_onHeartbeat (k : Connection) : (Client.onHeartbeat k).closed = k.closed := by
  unfold Client.onHeartbeat
  split
  · split
    · rfl
    · exact Connection.closed_shutSocket k
  · rfl

theorem closed_handleMessage (c : Client) (frame : GatewayFrame) :
    (c.handleMessage opts frame).connection.closed = c.connection.closed := by
  cases frame with
  | challenge => simp [Client.handleMessage]
  | other => rfl
  | ok id runId mainSessionKey =>
    simp only [Client.handleMessage]
    split <;> simp
  | error id code message =>
    simp only [Client.handleMessage]
    split <;> simp
  | agent payload =>
    simp only [Client.handleMessage]
    split <;> rfl
  | chat payload =>
    simp only [Client.handleMessage]
    split <;> rfl

theorem closed_onPrepared {result : Except GatewayError PreparedGatewayInput}
    (h : c.onPrepared opts x call result = some c') : c'.connection.closed = c.connection.closed := by
  cases Client.proceeds_of_onPrepared h with
  | connects prepared hphase => exact Connection.closed_ensureConnected c.connection
  | unprepared error hphase => rfl
  | startsOneShot prepared hphase => rfl
  | oneShotUnprepared error hphase => rfl

theorem connection_insertActive (c : Client) : (c.insertActive opts x call).connection = c.connection := by
  unfold Client.insertActive
  split <;> rfl

theorem connection_resume (h : c.resume opts x call = some c') : c'.connection = c.connection := by
  cases Client.resumes_of_resume h with
  | connected promise hphase hfulfilled => exact connection_insertActive c
  | unconnected p error hphase hrejected => rfl
  | returns accepted hphase hfulfilled => rfl
  | fails error hphase hrejected => rfl
  | oneShotReturns accepted hphase hfulfilled => rfl
  | oneShotFails error hphase hrejected => rfl

theorem connection_cancel (c : Client) (taskId : String) : (c.cancel opts taskId).2.connection = c.connection := by
  unfold Client.cancel
  split
  · split
    · rfl
    · exact connection_control opts _ _ .cancel
  · split <;> rfl

/-- Only `close` closes the client. -/
theorem closed_step {l : Label} (hclose : l ≠ .close) (hstep : Client.step opts c l = some c') :
    c'.connection.closed = c.connection.closed := by
  cases l with
  | close => exact absurd rfl hclose
  | tick now =>
    cases hstep
    rfl
  | execute input =>
    cases hstep
    rfl
  | prepared x result =>
    obtain ⟨call, -, hprepared⟩ := Option.bind_eq_some_iff.mp hstep
    exact closed_onPrepared hprepared
  | resume x =>
    obtain ⟨call, -, hresume⟩ := Option.bind_eq_some_iff.mp hstep
    rw [connection_resume hresume]
  | cancel taskId =>
    cases hstep
    rw [connection_cancel]
  | oneShot x stimulus =>
    have hcallback : c.stepOneShot opts x stimulus = some c' := by
      cases stimulus <;> first | exact hstep | cases hstep
    have hconnection := connection_control opts c x stimulus
    rw [hcallback] at hconnection
    exact congrArg Connection.closed hconnection
  | taskTimeout x =>
    simp only [Client.step] at hstep
    split at hstep
    · cases hstep
      rfl
    · cases hstep
  | socketError s message =>
    simp only [Client.step] at hstep
    split at hstep
    · split at hstep
      · cases hstep
        rfl
      · cases hstep
        simp
    · cases hstep
  | _ =>
    simp only [Client.step] at hstep
    split at hstep
    · obtain rfl := Option.some.inj hstep
      simp [closed_handleMessage, closed_handleDisconnect, closed_onHeartbeat, Client.onMalformed,
        Connection.setReady]
    · cases hstep

/-- A closed client has opened no socket since. -/
def Inv (c : Client) : Prop := c.connection.closed = true → Shut c.connection

theorem inv_step {l : Label} (h : Inv c) (hok : StaysShut opts c l) (hstep : Client.step opts c l = some c') :
    Inv c' := by
  intro hclosed
  by_cases hclose : l = .close
  · subst hclose
    cases hstep
    exact shut_close opts c
  · have hbefore : c.connection.closed = true := by rw [← closed_step hclose hstep, hclosed]
    obtain ⟨hiff, hshut⟩ := quiet_iff_heeds (h hbefore) hstep
    exact hshut (hiff.mp (hok hbefore c' hstep))

end Steps

/-- In every run, the steps of the closed client open no socket, send no task, leave no reconnect timer and add no
active task exactly when all of them heed the shutdown. -/
theorem shutdown_final_iff {opts : Options} {ls : List Label} {c : Client}
    (hrun : run (Client.step opts) Client.init ls = some c) :
    Along (Client.step opts) (StaysShut opts) Client.init ls ↔
      Along (Client.step opts) (fun c l => c.connection.closed = true → Heeds c l) Client.init ls := by
  refine along_iff_along ?_ (fun c l c' (hinv : Inv c) hok hstep => inv_step hinv hok hstep) ?_ hrun
  · intro c l c' hinv hstep
    constructor
    · intro hstays hclosed
      exact (quiet_iff_heeds (hinv hclosed) hstep).1.mp (hstays hclosed c' hstep)
    · intro hheeds hclosed c'' hstep'
      rw [Option.mem_def, hstep, Option.some.injEq] at hstep'
      subst hstep'
      exact (quiet_iff_heeds (hinv hclosed) hstep).1.mpr (hheeds hclosed)
  · intro hclosed
    cases hclosed

/-- The client is closed while it connects; the execution ends with the socket. -/
def closedRun : List Label :=
  [.execute ⟨"t", "s", "hello"⟩, .prepared 0 (.ok ⟨"hello", []⟩), .close, .socketClosed 0 1000 "adapter shutdown",
    .resume 0]

theorem shutdown_final_iff_closedRun :
    Along (Client.step defaultOptions) (StaysShut defaultOptions) Client.init closedRun := by
  have hrun : run (Client.step defaultOptions) Client.init closedRun = some _ := rfl
  apply (shutdown_final_iff hrun).mpr
  refine ⟨fun h => (by cases h), fun c hc => ?_⟩
  cases hc
  refine ⟨fun h => (by cases h), fun c hc => ?_⟩
  cases hc
  refine ⟨fun _ => trivial, fun c hc => ?_⟩
  cases hc
  refine ⟨fun _ => trivial, fun c hc => ?_⟩
  cases hc
  exact ⟨fun _ => trivial, fun _ _ => trivial⟩

/-- The client is closed while the input is prepared. -/
def reopenedRun : List Label :=
  [.execute ⟨"t", "s", "hello"⟩, .close, .prepared 0 (.ok ⟨"hello", []⟩), .opened 0,
    .message 0 (.ok Client.connectRequestId none none), .resume 0]

/-- After `close`, the execution opens a socket, sends its task and registers it. -/
theorem reopened_after_close :
    ¬ Along (Client.step defaultOptions) (StaysShut defaultOptions) Client.init reopenedRun ∧
    ∃ c, run (Client.step defaultOptions) Client.init reopenedRun = some c ∧ c.connection.closed = true ∧
      c.connection.isOpen = true ∧ (requests c.registry.log).length = 1 ∧
      c.registry.activeByTask.get "t" = some 0 := by
  constructor
  · rintro ⟨-, h⟩
    obtain ⟨-, h⟩ := h _ rfl
    obtain ⟨h, -⟩ := h _ rfl
    have hsocket := (h rfl _ rfl).socket
    cases hsocket
  · exact ⟨_, rfl, rfl, rfl, rfl, rfl⟩

end AdapterShutdown
