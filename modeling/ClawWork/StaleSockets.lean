import ClawWork.RegistryFrames

/-!
# Events of sockets that were replaced

The handlers of a socket act on the client, whichever socket it uses by now. An event of a
socket that the client has given up leaves the connection and the tasks alone only where
the same event of the current socket would have found nothing to do.
-/

namespace StaleSockets

open JavaScript SharedTypes GatewayProtocol GatewayClient PersistentGatewayClient

variable {opts : Options} {c c' : Client} {r : Registry} {k : Connection} {x : Nat} {payload : EventPayload}

def isFailure (entry : Entry) : Bool :=
  match entry.effect with
  | .event ⟨.failed _ _, _, _, _, _⟩ => true
  | _ => false

def isSend (entry : Entry) : Bool :=
  match entry.effect with
  | .send _ => true
  | _ => false

/-- The maps are as before, no task has failed, and nothing was sent for a task. -/
structure TasksKept (r r' : Registry) : Prop where
  activeByTask : r'.activeByTask = r.activeByTask
  taskByRun : r'.taskByRun = r.taskByRun
  failures : r'.log.filter isFailure = r.log.filter isFailure
  rejections : ∀ x error, (r'.tasks x).promise = .rejected error → (r.tasks x).promise = .rejected error
  sends : r'.log.filter isSend = r.log.filter isSend

/-- The connection is as before, and no connect request was sent. -/
structure ConnectionKept (k k' : Connection) : Prop where
  connected : k'.connected = k.connected
  connectionPromise : k'.connectionPromise = k.connectionPromise
  connectRequests : k'.connectRequests = k.connectRequests

structure Inert (c c' : Client) : Prop where
  connection : ConnectionKept c.connection c'.connection
  tasks : TasksKept c.registry c'.registry

/-- The socket that an event comes from. -/
def socketOf : Label → Option Nat
  | .message s _ | .malformed s | .socketError s _ | .socketClosed s _ _ | .pong s => some s
  | _ => none

/-- The maps do not refer to the object any more. -/
def Forgotten (r : Registry) (x : Nat) : Prop :=
  r.activeByTask.get (r.taskId x) = none ∧ ((r.tasks x).runId = "" ∨ r.taskByRun.get (r.tasks x).runId = none)

/-- A response finds no connection attempt and no task to act on. -/
def HarmlessFrame (c : Client) : GatewayFrame → Prop
  | .challenge => c.connection.isOpen = false
  | .ok id runId _ =>
    if id = Client.connectRequestId then c.connection.connected = true ∧ c.connection.connectionPromise = none
    else ∀ x, c.registry.activeByTask.get id = some x →
      c.registry.taskByRun.get (orElse (asNonEmptyString runId) (c.registry.taskId x)) = some x
  | .error id _ _ =>
    if id = Client.connectRequestId then c.connection.connectionPromise = none
    else ∀ x, c.registry.activeByTask.get id = some x →
      Forgotten c.registry x ∧ (c.registry.tasks x).promise ≠ .pending
  | .agent _ => True
  | .chat payload => Registry.endsRun payload = true →
    ∀ x, c.registry.findActive payload.runId payload.sessionKey = some x →
      payload.state = some "final" ∧ Forgotten c.registry x
  | .other => True

def Harmless (c : Client) : Label → Prop
  | .message _ frame => HarmlessFrame c frame
  | .malformed _ | .socketClosed _ _ _ => c.connection.connected = false ∧ c.connection.connectionPromise = none
  | .socketError _ _ => c.connection.connected = true ∨ c.connection.connectionPromise = none
  | _ => True

/-! ## The connection -/

theorem connectionKept_refl (k : Connection) : ConnectionKept k k := ⟨rfl, rfl, rfl⟩

@[simp] theorem connected_settleConnection (settle : Promise GatewayError Unit → Promise GatewayError Unit) :
    (k.settleConnection settle).connected = k.connected := by
  unfold Connection.settleConnection
  split <;> rfl

@[simp] theorem connectRequests_settleConnection (settle : Promise GatewayError Unit → Promise GatewayError Unit) :
    (k.settleConnection settle).connectRequests = k.connectRequests := by
  unfold Connection.settleConnection
  split <;> rfl

@[simp] theorem connectionPromise_settleConnection (settle : Promise GatewayError Unit → Promise GatewayError Unit) :
    (k.settleConnection settle).connectionPromise = none := by
  unfold Connection.settleConnection
  split
  · rfl
  · assumption

@[simp] theorem connected_clearConnectTimer : k.clearConnectTimer.connected = k.connected := by
  unfold Connection.clearConnectTimer
  split <;> rfl

@[simp] theorem connectRequests_clearConnectTimer : k.clearConnectTimer.connectRequests = k.connectRequests := by
  unfold Connection.clearConnectTimer
  split <;> rfl

@[simp] theorem connected_shutSocket : k.shutSocket.connected = k.connected := by
  unfold Connection.shutSocket
  split <;> rfl

@[simp] theorem connectRequests_shutSocket : k.shutSocket.connectRequests = k.connectRequests := by
  unfold Connection.shutSocket
  split <;> rfl

@[simp] theorem connectionPromise_shutSocket : k.shutSocket.connectionPromise = k.connectionPromise := by
  unfold Connection.shutSocket
  split <;> rfl

/-- An attempt that is rejected is forgotten. -/
theorem rejectCurrentConnection_kept_iff (error : GatewayError) :
    ConnectionKept k (k.rejectCurrentConnection error) ↔ k.connectionPromise = none := by
  constructor
  · intro h
    have hpromise := h.connectionPromise
    rw [Connection.rejectCurrentConnection, connectionPromise_settleConnection] at hpromise
    exact hpromise.symm
  · intro h
    exact ⟨by simp [Connection.rejectCurrentConnection], by simp [Connection.rejectCurrentConnection, h],
      by simp [Connection.rejectCurrentConnection]⟩

theorem onConnected_kept_iff : ConnectionKept k k.onConnected ↔ k.connected = true ∧ k.connectionPromise = none := by
  constructor
  · intro h
    have hconnected := h.connected
    have hpromise := h.connectionPromise
    simp only [Connection.onConnected, connected_settleConnection, connected_clearConnectTimer,
      connectionPromise_settleConnection] at hconnected hpromise
    exact ⟨hconnected.symm, hpromise.symm⟩
  · rintro ⟨hconnected, hpromise⟩
    exact ⟨by simp [Connection.onConnected, hconnected], by simp [Connection.onConnected, hpromise],
      by simp [Connection.onConnected]⟩

theorem sendConnect_kept_iff : ConnectionKept k k.sendConnect ↔ k.isOpen = false := by
  unfold Connection.sendConnect
  cases hopen : k.isOpen with
  | false => simp [connectionKept_refl]
  | true =>
    rw [if_pos rfl]
    refine ⟨fun h => ?_, fun h => (by cases h)⟩
    -- an open connection has a socket, and the request is written to it
    have hrequests := congrArg List.length h.connectRequests
    unfold Connection.isOpen at hopen
    cases hsocket : k.socket with
    | none => simp [hsocket] at hopen
    | some s => simp [hsocket] at hrequests

/-! ## The tasks -/

theorem tasksKept_refl (r : Registry) : TasksKept r r := ⟨rfl, rfl, rfl, fun _ _ h => h, rfl⟩

theorem TasksKept.trans {r r' r'' : Registry} (h : TasksKept r r') (h' : TasksKept r' r'') : TasksKept r r'' :=
  ⟨h'.activeByTask.trans h.activeByTask, h'.taskByRun.trans h.taskByRun, h'.failures.trans h.failures,
    fun x error hx => h.rejections x error (h'.rejections x error hx), h'.sends.trans h.sends⟩

/-- An event that is no failure. -/
theorem tasksKept_emit {d : TaskEventDetail} (hd : ∀ code message, d ≠ .failed code message) :
    TasksKept r (r.emit x d) := by
  have hquiet : ∀ entry : Entry, entry.effect = .event (r.event x d) →
      isFailure entry = false ∧ isSend entry = false := by
    intro entry hentry
    unfold isFailure isSend
    rw [hentry]
    cases d <;> first | exact ⟨rfl, rfl⟩ | exact absurd rfl (hd _ _)
  have hentry := hquiet ⟨x, r.taskId x, .event (r.event x d)⟩ rfl
  refine ⟨rfl, rfl, ?_, fun _ _ h => h, ?_⟩
  · simp [Registry.emit, Registry.write, List.filter_append, hentry.1]
  · simp [Registry.emit, Registry.write, List.filter_append, hentry.2]

/-- A change of an object that leaves its promise. -/
theorem tasksKept_modify {f : ActiveTask → ActiveTask}
    (hf : ∀ a error, (f a).promise = .rejected error → a.promise = .rejected error) : TasksKept r (r.modify x f) := by
  refine ⟨rfl, rfl, rfl, fun y error hy => ?_, rfl⟩
  by_cases hyx : y = x
  · subst hyx
    rw [Registry.modify_tasks_same] at hy
    exact hf _ _ hy
  · rwa [Registry.modify_tasks_other _ _ hyx] at hy

theorem tasksKept_emitArtifact (artifact : Option Artifact) : TasksKept r (r.emitArtifact x artifact) := by
  cases artifact with
  | none => exact tasksKept_refl r
  | some a => exact tasksKept_emit (by simp)

theorem tasksKept_onAgent : TasksKept r (r.onAgent opts x payload) := by
  have hartifact := tasksKept_emitArtifact (r := r) (x := x) (Registry.frameArtifact opts payload)
  have hsnapshot : ∀ snapshot, TasksKept (r.emitArtifact x (Registry.frameArtifact opts payload))
      ((r.emitArtifact x (Registry.frameArtifact opts payload)).modify x
        fun a => { a with lastAssistantSnapshot := snapshot }) := fun _ => tasksKept_modify fun _ _ h => h
  unfold Registry.onAgent
  dsimp only
  split
  · split
    · exact hartifact.trans (hsnapshot _)
    · refine (hartifact.trans (hsnapshot _)).trans (tasksKept_emit ?_)
      simp
  · split
    · exact hartifact.trans (tasksKept_emit (by simp))
    · exact hartifact

/-- Removing an object is nothing new if and only if the maps do not refer to it. -/
theorem removeTask_kept_iff : TasksKept r (r.removeTask x) ↔ Forgotten r x := by
  unfold Registry.removeTask Forgotten
  dsimp only
  constructor
  · intro h
    have hactive := h.activeByTask
    have hruns := h.taskByRun
    dsimp only at hactive hruns
    refine ⟨(OrderedMap.delete_eq_self_iff _ _).mp hactive, ?_⟩
    by_cases hrun : (r.tasks x).runId = ""
    · exact .inl hrun
    · rw [if_neg hrun] at hruns
      exact .inr ((OrderedMap.delete_eq_self_iff _ _).mp hruns)
  · rintro ⟨hactive, hruns⟩
    have hmodify : TasksKept r (r.modify x fun a => { a with timeout := false }) := tasksKept_modify fun _ _ h => h
    refine ⟨(OrderedMap.delete_eq_self_iff _ _).mpr hactive, ?_, hmodify.failures, hmodify.rejections, hmodify.sends⟩
    dsimp only
    split
    · rfl
    · rename_i hrun
      rcases hruns with hruns | hruns
      · exact absurd hruns hrun
      · exact (OrderedMap.delete_eq_self_iff _ _).mpr hruns

theorem onOk_kept_iff {id : String} {runId : Option String} : TasksKept r (r.onOk id runId) ↔
    ∀ x, r.activeByTask.get id = some x → r.taskByRun.get (orElse (asNonEmptyString runId) (r.taskId x)) = some x := by
  unfold Registry.onOk
  cases hget : r.activeByTask.get id with
  | none => simp [tasksKept_refl]
  | some x =>
    dsimp only
    constructor
    · intro h y hy
      cases hy
      exact (OrderedMap.set_eq_self_iff _ _ _).mp h.taskByRun
    · intro h
      have hset : r.taskByRun.set (orElse (asNonEmptyString runId) (r.tasks x).input.taskId) x = r.taskByRun :=
        (OrderedMap.set_eq_self_iff _ _ x).mpr (h x rfl)
      change TasksKept r (Registry.modify (Registry.emit { r.modify x _ with taskByRun := r.taskByRun.set _ x } x
        .accepted) x _)
      rw [hset]
      have hrun : TasksKept r (r.modify x fun a =>
          { a with runId := orElse (asNonEmptyString runId) (r.tasks x).input.taskId }) :=
        tasksKept_modify fun _ _ h => h
      have haccepted := tasksKept_emit (r := r.modify x fun a =>
        { a with runId := orElse (asNonEmptyString runId) (r.tasks x).input.taskId }) (x := x) (d := .accepted)
        (by simp)
      refine (hrun.trans haccepted).trans (tasksKept_modify fun a error h => ?_)
      dsimp only at h
      cases hpromise : a.promise <;> rw [hpromise] at h <;> cases h
      rfl

/-- The promise of an object that is rejected. -/
theorem reject_kept_iff {error : GatewayError} : TasksKept r (r.reject x error) ↔ (r.tasks x).promise ≠ .pending := by
  unfold Registry.reject
  constructor
  · intro h hpending
    have hrejected := h.rejections x error
    rw [Registry.modify_tasks_same, hpending] at hrejected
    cases hrejected rfl
  · intro hsettled
    refine ⟨rfl, rfl, rfl, fun y error' hy => ?_, rfl⟩
    by_cases hyx : y = x
    · subst hyx
      rw [Registry.modify_tasks_same] at hy
      dsimp only at hy
      cases hpromise : (r.tasks y).promise with
      | pending => exact absurd hpromise hsettled
      | fulfilled value => rw [hpromise] at hy; cases hy
      | rejected e => rw [hpromise] at hy; cases hy; rfl
    · rwa [Registry.modify_tasks_other _ _ hyx] at hy

theorem forgotten_reject {error : GatewayError} : Forgotten (r.reject x error) x ↔ Forgotten r x := by
  unfold Forgotten
  rw [Registry.taskId_reject]
  simp [Registry.reject]

theorem onError_kept_iff {id : String} {code message : Option String} : TasksKept r (r.onError id code message) ↔
    ∀ x, r.activeByTask.get id = some x → Forgotten r x ∧ (r.tasks x).promise ≠ .pending := by
  unfold Registry.onError
  cases hget : r.activeByTask.get id with
  | none => simp [tasksKept_refl]
  | some x =>
    dsimp only
    constructor
    · intro h y hy
      cases hy
      have hreject : TasksKept r (r.reject x ⟨code.getD "GATEWAY_ERROR", message.getD "gateway task rejected"⟩) := by
        refine ⟨rfl, rfl, rfl, fun z e hz => h.rejections z e ?_, rfl⟩
        by_cases hzx : z = x
        · subst hzx
          rw [Registry.removeTask_tasks_same]
          exact hz
        · rwa [Registry.removeTask_tasks_other _ hzx]
      have hremove := (removeTask_kept_iff (r := r.reject x _) (x := x)).mp
        ⟨h.activeByTask.trans hreject.activeByTask.symm, h.taskByRun.trans hreject.taskByRun.symm, rfl,
          fun z e hz => ?_, rfl⟩
      · exact ⟨forgotten_reject.mp hremove, reject_kept_iff.mp hreject⟩
      · by_cases hzx : z = x
        · subst hzx
          rw [Registry.removeTask_tasks_same] at hz
          exact hz
        · rwa [Registry.removeTask_tasks_other _ hzx] at hz
    · intro h
      obtain ⟨hforgotten, hpromise⟩ := h x rfl
      exact (reject_kept_iff.mpr hpromise).trans (removeTask_kept_iff.mpr (forgotten_reject.mpr hforgotten))

/-- A failure that is emitted is an entry more. -/
theorem not_tasksKept_failure {r' : Registry} {error : GatewayError} (h : TasksKept r r') :
    ¬ TasksKept r ((r'.emitFailure x error).removeTask x) := by
  intro hfailed
  have hfailures := hfailed.failures
  rw [← h.failures] at hfailures
  simp only [Registry.removeTask_log, Registry.emitFailure, Registry.emit, Registry.write,
    List.filter_append] at hfailures
  have hlength := congrArg List.length hfailures
  rw [List.length_append] at hlength
  change _ + 1 = _ at hlength
  omega

/-- A change that is followed by a harmless one. -/
theorem tasksKept_iff_of_same {r' r'' : Registry} (h : TasksKept r r') (htasks : r'.tasks = r.tasks) :
    TasksKept r r'' ↔ TasksKept r' r'' := by
  refine ⟨fun hlast => ?_, h.trans⟩
  exact ⟨hlast.activeByTask.trans h.activeByTask.symm, hlast.taskByRun.trans h.taskByRun.symm,
    hlast.failures.trans h.failures.symm, fun y error hy => by rw [htasks]; exact hlast.rejections y error hy,
    hlast.sends.trans h.sends.symm⟩

theorem onChat_kept_iff : TasksKept r (r.onChat opts x payload) ↔
    (Registry.endsRun payload = true → payload.state = some "final" ∧ Forgotten r x) := by
  have hartifact := tasksKept_emitArtifact (r := r) (x := x) (Registry.frameArtifact opts payload)
  have htasks := Registry.emitArtifact_tasks r x (Registry.frameArtifact opts payload)
  unfold Registry.onChat
  dsimp only
  split
  · rename_i hstate
    refine ⟨fun h => absurd h (not_tasksKept_failure hartifact), fun h => ?_⟩
    have hfinal := (h (by simp [Registry.endsRun, hstate])).1
    simp [hstate] at hfinal
  · rename_i hstate
    refine ⟨fun h => absurd h (not_tasksKept_failure hartifact), fun h => ?_⟩
    have hfinal := (h (by simp [Registry.endsRun, hstate])).1
    simp [hstate] at hfinal
  · rename_i hstate
    have hcompleted : TasksKept r ((r.emitArtifact x (Registry.frameArtifact opts payload)).emit x .completed) :=
      hartifact.trans (tasksKept_emit (by simp))
    have hforgotten : Forgotten ((r.emitArtifact x (Registry.frameArtifact opts payload)).emit x .completed) x ↔
        Forgotten r x := by
      unfold Forgotten
      rw [hcompleted.activeByTask, hcompleted.taskByRun, Registry.taskId, Registry.emit_tasks, htasks]
      rfl
    rw [tasksKept_iff_of_same hcompleted htasks, removeTask_kept_iff, hforgotten]
    have hends : Registry.endsRun payload = true := by simp [Registry.endsRun, hstate]
    exact ⟨fun h _ => ⟨hstate, h⟩, fun h => (h hends).2⟩
  · rename_i herror haborted hfinal
    refine ⟨fun _ hends => ?_, fun _ => hartifact⟩
    simp only [Registry.endsRun, Bool.or_eq_true, decide_eq_true_eq] at hends
    rcases hends with (hstate | hstate) | hstate
    · exact absurd hstate herror
    · exact absurd hstate haborted
    · exact absurd hstate hfinal

/-! ## The events -/

/-- Only the connection can have changed. -/
theorem inert_connection_iff : Inert c { c with connection := k } ↔ ConnectionKept c.connection k :=
  ⟨fun hinert => hinert.connection, fun hkept => ⟨hkept, tasksKept_refl _⟩⟩

/-- Only the tasks can have changed. -/
theorem inert_registry_iff : Inert c { c with registry := r } ↔ TasksKept c.registry r :=
  ⟨fun hinert => hinert.tasks, fun hkept => ⟨connectionKept_refl _, hkept⟩⟩

theorem inert_refl (c : Client) : Inert c c := ⟨connectionKept_refl _, tasksKept_refl _⟩

/-- To shut the socket besides makes no difference. -/
theorem shutSocket_kept_iff {k' : Connection} : ConnectionKept k k'.shutSocket ↔ ConnectionKept k k' := by
  constructor
  · exact fun h => ⟨by simpa using h.connected, by simpa using h.connectionPromise, by simpa using h.connectRequests⟩
  · exact fun h => ⟨by simpa using h.connected, by simpa using h.connectionPromise, by simpa using h.connectRequests⟩

theorem handleMessage_inert_iff (frame : GatewayFrame) :
    Inert c (c.handleMessage opts frame) ↔ HarmlessFrame c frame := by
  unfold Client.handleMessage HarmlessFrame
  cases frame with
  | challenge => exact inert_connection_iff.trans sendConnect_kept_iff
  | ok id runId mainSessionKey =>
    dsimp only
    split
    · exact inert_connection_iff.trans onConnected_kept_iff
    · exact inert_registry_iff.trans onOk_kept_iff
  | error id code message =>
    dsimp only
    split
    · exact inert_connection_iff.trans (shutSocket_kept_iff.trans (rejectCurrentConnection_kept_iff _))
    · exact inert_registry_iff.trans onError_kept_iff
  | agent payload =>
    dsimp only
    refine iff_of_true ?_ trivial
    split
    · exact inert_registry_iff.mpr tasksKept_onAgent
    · exact inert_refl c
  | chat payload =>
    dsimp only
    cases hfound : c.registry.findActive payload.runId payload.sessionKey with
    | none => exact iff_of_true (inert_refl c) fun _ x hx => (by cases hx)
    | some x =>
      dsimp only
      rw [inert_registry_iff, onChat_kept_iff]
      simp
  | other => exact iff_of_true (inert_refl c) trivial

theorem handleDisconnect_inert_iff (error : GatewayError) : Inert c (c.handleDisconnect error) ↔
    c.connection.connected = false ∧ c.connection.connectionPromise = none := by
  unfold Client.handleDisconnect
  dsimp only
  constructor
  · intro h
    have hconnected := h.connection.connected
    have hpromise := h.connection.connectionPromise
    simp only [Connection.rejectCurrentConnection, connected_settleConnection, connected_clearConnectTimer,
      connectionPromise_settleConnection] at hconnected hpromise
    exact ⟨hconnected.symm, hpromise.symm⟩
  · rintro ⟨hconnected, hpromise⟩
    rw [if_neg (by simp [hconnected])]
    refine ⟨⟨?_, ?_, ?_⟩, tasksKept_refl _⟩
    · simp [Connection.rejectCurrentConnection, hconnected]
    · simp [Connection.rejectCurrentConnection, hpromise]
    · simp [Connection.rejectCurrentConnection]

/-- An event of a socket that the client does not use any more leaves the connection and the tasks as they are,
and sends nothing, if and only if it finds nothing to act on. -/
theorem inert_iff_harmless (opts : Options) {c c' : Client} {l : Label} {s : Nat} (hsocket : socketOf l = some s)
    (_hstale : c.connection.socket ≠ some s) (hstep : c.step opts l = some c') : Inert c c' ↔ Harmless c l := by
  cases l with
  | message s' frame =>
    simp only [Client.step, Option.ite_none_right_eq_some, Option.some.injEq] at hstep
    rw [← hstep.2]
    exact handleMessage_inert_iff frame
  | malformed s' =>
    simp only [Client.step, Option.ite_none_right_eq_some, Option.some.injEq] at hstep
    rw [← hstep.2]
    refine Iff.trans ?_ (handleDisconnect_inert_iff ⟨"GATEWAY_PROTOCOL_ERROR", "invalid gateway frame"⟩)
    exact ⟨fun h => ⟨shutSocket_kept_iff.mp h.connection, h.tasks⟩,
      fun h => ⟨shutSocket_kept_iff.mpr h.connection, h.tasks⟩⟩
  | socketError s' message =>
    simp only [Client.step, Option.ite_none_right_eq_some] at hstep
    obtain ⟨-, hstep⟩ := hstep
    split at hstep
    · rename_i hconnected
      cases hstep
      exact iff_of_true (inert_refl c) (.inl hconnected)
    · rename_i hconnected
      rw [← Option.some.inj hstep]
      refine inert_connection_iff.trans ((rejectCurrentConnection_kept_iff _).trans ?_)
      simp [Harmless, hconnected]
  | socketClosed s' code reason =>
    simp only [Client.step, Option.ite_none_right_eq_some, Option.some.injEq] at hstep
    rw [← hstep.2]
    refine Iff.trans ?_ (handleDisconnect_inert_iff (c := { c with connection := c.connection.setReady s' .closed })
      ⟨"GATEWAY_UNAVAILABLE", Client.closeDetail code reason⟩)
    exact ⟨fun h => ⟨⟨h.connection.1, h.connection.2, h.connection.3⟩, h.tasks⟩,
      fun h => ⟨⟨h.connection.1, h.connection.2, h.connection.3⟩, h.tasks⟩⟩
  | pong s' =>
    simp only [Client.step, Option.ite_none_right_eq_some, Option.some.injEq] at hstep
    rw [← hstep.2]
    exact iff_of_true ⟨⟨rfl, rfl, rfl⟩, tasksKept_refl _⟩ trivial
  | _ => cases hsocket

/-- The gateway has rejected the connect request of a socket, which is still closing while a task of the next one
is accepted. -/
def replacedRun : List Label :=
  [.execute ⟨"a", "s", "first"⟩, .prepared 0 (.ok ⟨"first", []⟩), .opened 0,
    .message 0 (.error Client.connectRequestId none none), .resume 0,
    .execute ⟨"b", "s", "second"⟩, .prepared 1 (.ok ⟨"second", []⟩), .opened 1,
    .message 1 (.ok Client.connectRequestId none none), .resume 1, .message 1 (.ok "b" (some "r") none)]

def replacedClient : Client :=
  (Transition.run (Client.step defaultOptions) .init replacedRun).get (by decide +kernel)

/-- An agent frame that the socket still delivers is harmless. -/
theorem inert_iff_harmless_agent :
    ∃ c', replacedClient.step defaultOptions (.message 0 (.agent {})) = some c' ∧ Inert replacedClient c' := by
  have hstep : (replacedClient.step defaultOptions (.message 0 (.agent {}))).isSome = true := by decide +kernel
  have hstale : replacedClient.connection.socket ≠ some 0 := by decide +kernel
  exact ⟨_, (Option.some_get hstep).symm,
    (inert_iff_harmless defaultOptions rfl hstale (Option.some_get hstep).symm).mpr trivial⟩

/-- What the close of the replaced socket makes of the client. -/
def afterClose : Client :=
  (replacedClient.step defaultOptions (.socketClosed 0 1000 "")).get (by decide +kernel)

/-- When the replaced socket has closed, the client gives up the connection in use and the task of it. -/
theorem replaced_socket_closes :
    Transition.Reachable (Client.step defaultOptions) .init replacedClient ∧
      replacedClient.connection.socket = some 1 ∧ replacedClient.registry.activeByTask.get "b" = some 1 ∧
      replacedClient.step defaultOptions (.socketClosed 0 1000 "") = some afterClose ∧
      afterClose.registry.activeByTask.get "b" = none ∧ ¬ Inert replacedClient afterClose := by
  refine ⟨⟨replacedRun, (Option.some_get _).symm⟩, by decide +kernel, by decide +kernel, (Option.some_get _).symm,
    by decide +kernel, fun h => ?_⟩
  have hbefore : replacedClient.connection.connected = true := by decide +kernel
  have hafter : afterClose.connection.connected = false := by decide +kernel
  have hconnected := h.connection.connected
  rw [hafter, hbefore] at hconnected
  cases hconnected

end StaleSockets
