import ClawWork.FrameTotality

/-!
# No active task on a dead connection

A task is entered into the maps when its call resumes from the wait for the connection, and
only a disconnect of a connected client fails the tasks. Between the connection being made
and the call resuming, the connection may be lost again: then the call finds a socket that is
not open, or it has resumed before. The invariant says so of every call that is about to
enter its task.
-/

namespace DeadConnections

open JavaScript SharedTypes GatewayProtocol GatewayClient PersistentGatewayClient FrameHandling FrameTotality
open StaleSockets

/-- A step of the client, or a text frame as it arrives. -/
inductive Event where
  | label (l : Label)
  | text (socket : Nat) (raw : String)

/-- A frame whose handler throws ends the process. -/
def step (opts : Options) (jsonParse : String → Option Json) (c : Client) : Event → Option Client
  | .label l => c.step opts l
  | .text s raw => if c.live s then (handleMessage opts jsonParse c raw).toOption else none

/-- Events of a shared socket and of the timers. -/
def isSocketOrTimer : Event → Bool
  | .text _ _ => true
  | .label l =>
    match l with
    | .opened _ | .message _ _ | .malformed _ | .pong _ | .socketError _ _ | .socketClosed _ _ _ | .connectTimeout _
    | .heartbeat | .reconnect | .taskTimeout _ => true
    | .tick _ | .execute _ | .prepared _ _ | .resume _ | .cancel _ | .close | .oneShot _ _ => false

/-- Every await whose promise has settled has resumed before the next event of a socket or a timer. -/
def Prompt (opts : Options) (c : Client) (e : Event) : Prop :=
  isSocketOrTimer e = true → ∀ x < c.nextCall, (c.step opts (.resume x)).isNone = true

instance (opts : Options) (c : Client) (e : Event) : Decidable (Prompt opts c e) :=
  inferInstanceAs (Decidable (_ → _))

def Idle (r : Registry) : Prop := r.activeByTask = .empty ∧ r.taskByRun = .empty

/-- The call enters its task when it resumes, if the socket is open then. -/
def Enters (c : Client) (call : Call) : Prop :=
  match call.phase with
  | .connecting none => True
  | .connecting (some p) => (c.connection.promises p).isFulfilled = true
  | _ => False

/-- The promise of the current attempt is not fulfilled yet. -/
def Attempting (k : Connection) : Prop := ∀ p, k.connectionPromise = some p → (k.promises p).isFulfilled = false

structure Inv (c : Client) : Prop where
  known : ∀ x call, c.calls x = some call → x < c.nextCall
  attempt : Attempting c.connection
  idle : c.connection.connected = false → Idle c.registry
  /-- A call enters its task only over a connection that is there. -/
  gap : ∀ x call, c.calls x = some call → Enters c call →
    c.connection.connected = true ∨ c.connection.isOpen = false

variable {opts : Options} {jsonParse : String → Option Json} {c c' : Client} {r r' : Registry} {k : Connection}
  {x : Nat} {payload : Option Json}

/-! ## Frames that find no task -/

theorem byRun_idle (h : Idle r) (runId : Option String) : r.byRun runId = none := by
  rw [Registry.byRun, h.2]
  cases runId.filter fun id => id ≠ "" <;> rfl

theorem fallbackActive_idle (h : Idle r) (sessionKey : Option String) : r.fallbackActive sessionKey = none := by
  rw [Registry.fallbackActive, h.1]
  cases sessionKey.filter fun key => key ≠ "" <;> rfl

theorem findActive_idle (h : Idle r) (runId sessionKey : Option String) : r.findActive runId sessionKey =
    none := by
  rw [Registry.findActive, byRun_idle h, fallbackActive_idle h]
  rfl

theorem findActive_idle_json (h : Idle r) (runId sessionKey : Option Json) :
    FrameHandling.findActive r runId sessionKey = none := by
  rw [FrameHandling.findActive, byRun_idle h, FrameHandling.fallbackActive]
  cases parseString sessionKey with
  | some key => simp [fallbackActive_idle h]
  | none => cases isTruthy sessionKey <;> simp [fallbackActive_idle h]

theorem bind_eq_ok {α β : Type} {result : Except Thrown α} {next : α → Except Thrown β} {b : β} :
    (result >>= next) = .ok b ↔ ∃ a, result = .ok a ∧ next a = .ok b := by
  cases result with
  | error e => exact ⟨fun h => (by cases h), fun ⟨a, ha, _⟩ => (by cases ha)⟩
  | ok a => exact ⟨fun h => ⟨a, rfl, h⟩, fun ⟨a', ha, h⟩ => (by cases ha; exact h)⟩

theorem onResponse_idle {frame : Option Json} (h : Idle r) : onResponse opts r frame = .ok r := by
  unfold onResponse
  have hnone : (parseString (memberOf frame "id")).bind r.activeByTask.get = none := by
    rw [h.1]
    cases parseString (memberOf frame "id") <;> rfl
  simp only [hnone]
  rfl

theorem onEvent_idle {frame : Option Json} {handle : Registry → Nat → Option Json → Except Thrown Registry}
    (h : Idle r) (hr : onEvent r frame handle = .ok r') : r' = r := by
  unfold onEvent at hr
  obtain ⟨runId, -, hr⟩ := bind_eq_ok.mp hr
  obtain ⟨sessionKey, -, hr⟩ := bind_eq_ok.mp hr
  rw [findActive_idle_json h] at hr
  exact (Except.ok.inj hr).symm

/-- What a frame can do to the client. -/
inductive Outcome (c : Client) : Client → Prop
  | answered : Outcome c { c with connection := c.connection.sendConnect }
  | connected : Outcome c { c with connection := c.connection.onConnected }
  | rejected (error : GatewayError) :
    Outcome c { c with connection := (c.connection.rejectCurrentConnection error).shutSocket }
  | handled (r : Registry) (h : Idle c.registry → Idle r) : Outcome c { c with registry := r }

theorem outcome_ignored (c : Client) : Outcome c c := .handled c.registry id

theorem outcome_handleMessage (frame : GatewayFrame) : Outcome c (c.handleMessage opts frame) := by
  cases frame with
  | challenge => exact .answered
  | ok id runId mainSessionKey =>
    rw [Client.handleMessage]
    split
    · exact .connected
    · refine .handled _ fun h => ?_
      rw [Registry.onOk, h.1]
      exact h
  | error id code message =>
    rw [Client.handleMessage]
    split
    · exact .rejected _
    · refine .handled _ fun h => ?_
      rw [Registry.onError, h.1]
      exact h
  | agent payload =>
    rw [Client.handleMessage]
    split
    · rename_i x hactive
      refine .handled _ fun h => ?_
      rw [findActive_idle h] at hactive
      cases hactive
    · exact outcome_ignored c
  | chat payload =>
    rw [Client.handleMessage]
    split
    · rename_i x hactive
      refine .handled _ fun h => ?_
      rw [findActive_idle h] at hactive
      cases hactive
    · exact outcome_ignored c
  | other => exact outcome_ignored c

theorem outcome_onFrame {frame : Json} (h : onFrame opts c frame = .ok c') : Outcome c c' := by
  by_cases hnull : frame = .null
  · subst hnull
    cases h
  rw [onFrame_eq hnull] at h
  split at h
  · obtain ⟨k, hk, h⟩ := bind_eq_ok.mp h
    cases h
    unfold sendConnect at hk
    split at hk <;> cases hk
    exact .answered
  split at h
  · split at h
    · cases h
      exact .connected
    · obtain ⟨message, -, h⟩ := bind_eq_ok.mp h
      cases h
      exact .rejected _
  split at h
  · obtain ⟨r, hr, h⟩ := bind_eq_ok.mp h
    cases h
    refine .handled r fun hidle => ?_
    rw [onResponse_idle hidle] at hr
    cases hr
    exact hidle
  split at h
  · obtain ⟨r, hr, h⟩ := bind_eq_ok.mp h
    cases h
    exact .handled r fun hidle => onEvent_idle hidle hr ▸ hidle
  split at h
  · obtain ⟨r, hr, h⟩ := bind_eq_ok.mp h
    cases h
    exact .handled r fun hidle => onEvent_idle hidle hr ▸ hidle
  · cases h
    exact outcome_ignored c

/-! ## Events of sockets and timers -/

@[simp] theorem isOpen_sendConnect : k.sendConnect.isOpen = k.isOpen := by
  unfold Connection.sendConnect
  split <;> rfl

@[simp] theorem connected_sendConnect : k.sendConnect.connected = k.connected := by
  unfold Connection.sendConnect
  split <;> rfl

@[simp] theorem promises_sendConnect : k.sendConnect.promises = k.promises := by
  unfold Connection.sendConnect
  split <;> rfl

@[simp] theorem connected_onConnected : k.onConnected.connected = true := by simp [Connection.onConnected]

@[simp] theorem connected_rejectCurrentConnection (error : GatewayError) :
    (k.rejectCurrentConnection error).connected = k.connected := by simp [Connection.rejectCurrentConnection]

@[simp] theorem promises_shutSocket : k.shutSocket.promises = k.promises := by
  unfold Connection.shutSocket
  split <;> rfl

@[simp] theorem promises_clearConnectTimer : k.clearConnectTimer.promises = k.promises := by
  unfold Connection.clearConnectTimer
  split <;> rfl

@[simp] theorem connectionPromise_clearConnectTimer : k.clearConnectTimer.connectionPromise =
k.connectionPromise := by
  unfold Connection.clearConnectTimer
  split <;> rfl

/-- A rejection fulfils no promise. -/
theorem isFulfilled_rejectCurrentConnection (error : GatewayError) (p : Nat) :
    ((k.rejectCurrentConnection error).promises p).isFulfilled = (k.promises p).isFulfilled := by
  unfold Connection.rejectCurrentConnection Connection.settleConnection
  split
  · rename_i q _
    by_cases hp : p = q <;> simp [hp]
  · simp

@[simp] theorem connected_ensureConnected : k.ensureConnected.1.connected = k.connected := by
  unfold Connection.ensureConnected
  split
  · rfl
  · split <;> rfl

theorem isFulfilled_ensureConnected {p : Nat} (h : (k.ensureConnected.1.promises p).isFulfilled = true) :
    (k.promises p).isFulfilled = true := by
  unfold Connection.ensureConnected at h
  split at h
  · exact h
  · split at h
    · exact h
    · by_cases hp : p = k.nextSocket
      · simp [hp, Promise.isFulfilled] at h
      · simpa [hp] using h

/-- A socket that has just been made is connecting. -/
theorem isOpen_ensureConnected (h : k.ensureConnected.1.isOpen = true) : k.isOpen = true := by
  unfold Connection.ensureConnected at h
  split at h
  · exact h
  · split at h
    · exact h
    · simp [Connection.isOpen] at h

theorem attempting_of_none (h : k.connectionPromise = none) : Attempting k := by
  intro p hp
  rw [h] at hp
  cases hp

theorem attempting_ensureConnected (h : Attempting k) : Attempting k.ensureConnected.1 := by
  unfold Connection.ensureConnected
  split
  · exact h
  · split
    · exact h
    · intro p hp
      cases hp
      simp [Promise.isFulfilled]

theorem attempting_sendConnect (h : Attempting k) : Attempting k.sendConnect := by
  unfold Connection.sendConnect
  split <;> exact h

theorem attempting_rejectCurrentConnection (error : GatewayError) : Attempting (k.rejectCurrentConnection error) :=
  attempting_of_none (by simp [Connection.rejectCurrentConnection])

/-- Between two events nothing is about to enter a task, so only what the event itself does counts. -/
theorem inv_of_event (hinv : Inv c) (hnone : ∀ x call, c.calls x = some call → ¬ Enters c call)
    (hcalls : c'.calls = c.calls) (hnext : c'.nextCall = c.nextCall) (hattempt : Attempting c'.connection)
    (hpromises : ∀ p, (c'.connection.promises p).isFulfilled = true →
      (c.connection.promises p).isFulfilled = true ∨ c'.connection.connected = true)
    (hidle : c'.connection.connected = false → Idle c'.registry) : Inv c' := by
  refine ⟨fun x call hcall => ?_, hattempt, hidle, fun x call hcall henters => ?_⟩
  · rw [hcalls] at hcall
    rw [hnext]
    exact hinv.known x call hcall
  · rw [hcalls] at hcall
    have hbefore := hnone x call hcall
    unfold Enters at henters hbefore
    split at henters
    · rename_i hphase
      simp only [hphase, not_true_eq_false] at hbefore
    · rename_i p hphase
      rw [hphase] at hbefore
      rcases hpromises p henters with hold | hnew
      · exact absurd hold hbefore
      · exact .inl hnew
    · exact henters.elim

/-- A call that would enter its task would have resumed. -/
theorem not_enters_of_prompt {e : Event} (hinv : Inv c) (hprompt : Prompt opts c e) (he : isSocketOrTimer e = true)
    {call : Call} (hcall : c.calls x = some call) : ¬ Enters c call := by
  intro henters
  have hnone := hprompt he x (hinv.known x call hcall)
  simp only [Client.step, hcall, Option.bind_eq_bind, Option.bind_some, Client.resume] at hnone
  unfold Enters at henters
  split at henters
  · rename_i hphase
    rw [hphase] at hnone
    cases hnone
  · rename_i p hphase
    rw [hphase] at hnone
    cases hpromise : c.connection.promises p with
    | pending =>
      rw [hpromise] at henters
      cases henters
    | fulfilled value =>
      dsimp only at hnone
      rw [hpromise] at hnone
      cases hnone
    | rejected error =>
      rw [hpromise] at henters
      cases henters
  · exact henters.elim

theorem idle_handleDisconnect (hinv : Inv c) (error : GatewayError) : Idle
    (c.handleDisconnect error).registry := by
  unfold Client.handleDisconnect
  cases hconnected : c.connection.connected with
  | true => exact ⟨rfl, rfl⟩
  | false => exact hinv.idle hconnected

theorem isFulfilled_handleDisconnect (error : GatewayError) (p : Nat) :
    ((c.handleDisconnect error).connection.promises p).isFulfilled = (c.connection.promises p).isFulfilled :=
  isFulfilled_rejectCurrentConnection (k := { c.connection with connected := false, heartbeat := false }) error p

theorem attempting_handleDisconnect (error : GatewayError) : Attempting (c.handleDisconnect error).connection :=
  attempting_of_none (by simp [Client.handleDisconnect, Connection.rejectCurrentConnection])

section
variable (hinv : Inv c) (hnone : ∀ x call, c.calls x = some call → ¬ Enters c call)
include hinv hnone

/-- The registry and the promises are as before. -/
theorem inv_of_connection (hattempt : Attempting k) (hconnected : k.connected = c.connection.connected)
    (hpromises : ∀ p, (k.promises p).isFulfilled = true → (c.connection.promises p).isFulfilled = true) :
    Inv { c with connection := k } :=
  inv_of_event hinv hnone rfl rfl hattempt (fun p hp => .inl (hpromises p hp)) fun h => hinv.idle (hconnected ▸ h)

theorem inv_of_registry (h : Idle c.registry → Idle r) : Inv { c with registry := r } :=
  inv_of_event hinv hnone rfl rfl hinv.attempt (fun _ hp => .inl hp) fun hconnected => h (hinv.idle hconnected)

theorem inv_handleDisconnect (error : GatewayError) : Inv (c.handleDisconnect error) :=
  inv_of_event hinv hnone rfl rfl (attempting_handleDisconnect error)
    (fun p hp => .inl (by rwa [isFulfilled_handleDisconnect] at hp)) fun _ => idle_handleDisconnect hinv error

theorem inv_onMalformed : Inv c.onMalformed := by
  refine inv_of_event hinv hnone rfl rfl ?_ (fun p hp => .inl ?_) fun _ => idle_handleDisconnect hinv _
  · exact attempting_of_none (by simp [Client.onMalformed, Client.handleDisconnect,
      Connection.rejectCurrentConnection])
  · rwa [Client.onMalformed, promises_shutSocket, isFulfilled_handleDisconnect] at hp

theorem inv_outcome (h : Outcome c c') : Inv c' := by
  cases h with
  | answered =>
    refine inv_of_connection hinv hnone (attempting_sendConnect hinv.attempt) (by simp) fun p hp => ?_
    simpa using hp
  | connected =>
    refine inv_of_event hinv hnone rfl rfl (attempting_of_none ?_) (fun _ _ => .inr (by simp)) fun h => ?_
    · simp [Connection.onConnected]
    · simp at h
  | rejected error =>
    refine inv_of_connection hinv hnone (attempting_of_none ?_) (by simp) fun p hp => ?_
    · simp [Connection.rejectCurrentConnection]
    rwa [promises_shutSocket, isFulfilled_rejectCurrentConnection] at hp
  | handled r h => exact inv_of_registry hinv hnone h

end

/-- Every event of a shared socket or a timer keeps the invariant, when nothing is about to enter a task. -/
theorem inv_step_event {e : Event} (hinv : Inv c) (hprompt : Prompt opts c e) (he : isSocketOrTimer e = true)
    (hstep : step opts jsonParse c e = some c') : Inv c' := by
  have hnone : ∀ x call, c.calls x = some call → ¬ Enters c call :=
    fun x call hcall => not_enters_of_prompt hinv hprompt he hcall
  cases e with
  | text s raw =>
    rw [step] at hstep
    split at hstep
    · unfold handleMessage at hstep
      split at hstep
      · cases hstep
        exact inv_onMalformed hinv hnone
      · rename_i frame _
        cases hframe : onFrame opts c frame with
        | error e =>
          rw [hframe] at hstep
          cases hstep
        | ok c'' =>
          rw [hframe] at hstep
          cases hstep
          exact inv_outcome hinv hnone (outcome_onFrame hframe)
    · cases hstep
  | label l =>
    rw [step] at hstep
    cases l with
    | tick now => cases he
    | execute input => cases he
    | prepared x result => cases he
    | resume x => cases he
    | cancel taskId => cases he
    | close => cases he
    | oneShot x stimulus => cases he
    | opened s =>
      simp only [Client.step, Option.ite_none_right_eq_some, Option.some.injEq] at hstep
      obtain ⟨-, rfl⟩ := hstep
      exact inv_of_connection hinv hnone hinv.attempt rfl fun p hp => hp
    | message s frame =>
      simp only [Client.step, Option.ite_none_right_eq_some, Option.some.injEq] at hstep
      obtain ⟨-, rfl⟩ := hstep
      exact inv_outcome hinv hnone (outcome_handleMessage frame)
    | malformed s =>
      simp only [Client.step, Option.ite_none_right_eq_some, Option.some.injEq] at hstep
      obtain ⟨-, rfl⟩ := hstep
      exact inv_onMalformed hinv hnone
    | pong s =>
      simp only [Client.step, Option.ite_none_right_eq_some, Option.some.injEq] at hstep
      obtain ⟨-, rfl⟩ := hstep
      exact inv_of_connection hinv hnone hinv.attempt rfl fun p hp => hp
    | socketError s message =>
      simp only [Client.step, Option.ite_none_right_eq_some] at hstep
      obtain ⟨-, hstep⟩ := hstep
      split at hstep
      · cases hstep
        exact hinv
      · cases hstep
        refine inv_of_connection hinv hnone (attempting_rejectCurrentConnection _) (by simp) fun p hp => ?_
        rwa [isFulfilled_rejectCurrentConnection] at hp
    | socketClosed s code reason =>
      simp only [Client.step, Option.ite_none_right_eq_some, Option.some.injEq] at hstep
      obtain ⟨-, rfl⟩ := hstep
      have hclosed : Inv { c with connection := c.connection.setReady s .closed } :=
        inv_of_connection hinv hnone hinv.attempt rfl fun p hp => hp
      exact inv_handleDisconnect hclosed hnone _
    | connectTimeout s =>
      simp only [Client.step, Option.ite_none_right_eq_some, Option.some.injEq] at hstep
      obtain ⟨-, rfl⟩ := hstep
      refine inv_of_connection hinv hnone (attempting_rejectCurrentConnection _) (by simp [Connection.setReady])
        fun p hp => ?_
      rwa [Connection.setReady, isFulfilled_rejectCurrentConnection] at hp
    | heartbeat =>
      simp only [Client.step, Option.ite_none_right_eq_some, Option.some.injEq] at hstep
      obtain ⟨-, rfl⟩ := hstep
      unfold Client.onHeartbeat
      refine inv_of_connection hinv hnone ?_ ?_ fun p hp => ?_
      · have hattempt := hinv.attempt
        split
        · split
          · exact hattempt
          · intro p hp
            rw [connectionPromise_shutSocket] at hp
            rw [promises_shutSocket]
            exact hattempt p hp
        · exact hattempt
      · split
        · split <;> simp
        · rfl
      · split at hp
        · split at hp <;> simpa using hp
        · exact hp
    | reconnect =>
      simp only [Client.step, Option.ite_none_right_eq_some, Option.some.injEq] at hstep
      obtain ⟨-, rfl⟩ := hstep
      have hattempt : Attempting { c.connection with reconnectTimer := false } := hinv.attempt
      exact inv_of_connection hinv hnone (attempting_ensureConnected hattempt) (by simp) fun p hp =>
        isFulfilled_ensureConnected (k := { c.connection with reconnectTimer := false }) hp
    | taskTimeout x =>
      simp only [Client.step, Option.ite_none_right_eq_some, Option.some.injEq] at hstep
      obtain ⟨-, rfl⟩ := hstep
      refine inv_of_registry hinv hnone fun hidle => ?_
      have hget : ∀ t, (c.registry.modify x fun a => { a with timeout := false }).activeByTask.get t = none := by
        intro t
        rw [Registry.modify_activeByTask, hidle.1]
        rfl
      rw [Registry.onTimeout]
      simp only [hget]
      exact hidle

/-! ## The one-shot clients -/

/-- The shared connection, the maps and the phases of the calls are as before. -/
structure Beside (c c' : Client) : Prop where
  connection : c'.connection = c.connection
  activeByTask : c'.registry.activeByTask = c.registry.activeByTask
  taskByRun : c'.registry.taskByRun = c.registry.taskByRun
  nextCall : c'.nextCall = c.nextCall
  calls : ∀ x call', c'.calls x = some call' → ∃ call, c.calls x = some call ∧ call'.phase = call.phase

theorem beside_refl (c : Client) : Beside c c := ⟨rfl, rfl, rfl, rfl, fun _ call' h => ⟨call', h, rfl⟩⟩

theorem Beside.trans {c'' : Client} (h : Beside c c') (h' : Beside c' c'') : Beside c c'' := by
  refine ⟨h'.connection.trans h.connection, h'.activeByTask.trans h.activeByTask, h'.taskByRun.trans h.taskByRun,
    h'.nextCall.trans h.nextCall, fun x call'' hcall => ?_⟩
  obtain ⟨call', hcall', hphase'⟩ := h'.calls x call'' hcall
  obtain ⟨call, hcall, hphase⟩ := h.calls x call' hcall'
  exact ⟨call, hcall, hphase'.trans hphase⟩

theorem beside_setCall {call call' : Call} (hcall : c.calls x = some call) (hphase : call'.phase = call.phase) :
    Beside c (c.setCall x call') := by
  refine ⟨rfl, rfl, rfl, rfl, fun y call'' h => ?_⟩
  by_cases hy : y = x
  · subst hy
    simp only [Client.setCall, Function.update_self, Option.some.injEq] at h
    exact ⟨call, hcall, h ▸ hphase⟩
  · simp only [Client.setCall, Function.update_of_ne hy] at h
    exact ⟨call'', h, rfl⟩

theorem beside_write (taskId : String) (effect : Effect) :
    Beside c { c with registry := c.registry.write x taskId effect } :=
  ⟨rfl, rfl, rfl, rfl, fun _ call' h => ⟨call', h, rfl⟩⟩

theorem beside_settleOneShot (settle : Promise GatewayError Accepted → Promise GatewayError Accepted) :
    Beside c (c.settleOneShot x settle) := by
  unfold Client.settleOneShot
  split
  · rename_i call hcall
    exact beside_setCall hcall rfl
  · exact beside_refl c

theorem beside_onEffect (taskId : String) (effect : Effect) : Beside c (Client.onEffect x taskId c effect) := by
  cases effect with
  | event event => exact ⟨rfl, rfl, rfl, rfl, fun _ call' h => ⟨call', h, rfl⟩⟩
  | resolve accepted => exact beside_settleOneShot fun p => p.resolve accepted
  | reject error => exact beside_settleOneShot fun p => p.reject error
  | send request => exact beside_write taskId _
  | httpRequest => exact beside_write taskId _

theorem beside_foldl (taskId : String) (effects : List Effect) (c : Client) :
    Beside c (effects.foldl (Client.onEffect x taskId) c) := by
  induction effects generalizing c with
  | nil => exact beside_refl c
  | cons effect effects ih => exact (beside_onEffect taskId effect).trans (ih _)

theorem beside_stepOneShot {stimulus : Stimulus} (h : c.stepOneShot opts x stimulus = some c') : Beside c c' := by
  simp only [Client.stepOneShot, Option.bind_eq_bind, Option.bind_eq_some_iff, Option.some.injEq] at h
  obtain ⟨call, hcall, oneShot, -, result, -, rfl⟩ := h
  have hset : Beside c (c.setCall x { call with oneShot := some result.1 }) := beside_setCall hcall rfl
  exact hset.trans (beside_foldl _ _ _)

theorem beside_getD_stepOneShot (stimulus : Stimulus) : Beside c ((c.stepOneShot opts x stimulus).getD c) := by
  cases h : c.stepOneShot opts x stimulus with
  | none => exact beside_refl c
  | some c' => exact beside_stepOneShot h

theorem enters_congr {call call' : Call} (hconnection : c'.connection = c.connection)
    (hphase : call'.phase = call.phase) : Enters c' call' ↔ Enters c call := by
  unfold Enters
  rw [hconnection, hphase]

theorem inv_beside (hinv : Inv c) (h : Beside c c') : Inv c' := by
  refine ⟨fun x call' hcall' => ?_, ?_, fun hconnected => ?_, fun x call' hcall' henters => ?_⟩
  · obtain ⟨call, hcall, -⟩ := h.calls x call' hcall'
    rw [h.nextCall]
    exact hinv.known x call hcall
  · rw [h.connection]
    exact hinv.attempt
  · rw [h.connection] at hconnected
    rw [Idle, h.activeByTask, h.taskByRun]
    exact hinv.idle hconnected
  · obtain ⟨call, hcall, hphase⟩ := h.calls x call' hcall'
    rw [h.connection]
    exact hinv.gap x call hcall ((enters_congr h.connection hphase).mp henters)

/-! ## Calls -/

/-- A call may go where it will not enter its task from. -/
theorem inv_setCall {call call' : Call} (hinv : Inv c) (hcall : c.calls x = some call)
    (henters : ¬ Enters c call') : Inv (c.setCall x call') := by
  refine ⟨fun y call'' h => ?_, hinv.attempt, hinv.idle, fun y call'' h h' => ?_⟩
  · by_cases hy : y = x
    · exact hy ▸ hinv.known x call hcall
    · simp only [Client.setCall, Function.update_of_ne hy] at h
      exact hinv.known y call'' h
  · by_cases hy : y = x
    · subst hy
      simp only [Client.setCall, Function.update_self, Option.some.injEq] at h
      exact absurd (h ▸ h') henters
    · simp only [Client.setCall, Function.update_of_ne hy] at h
      exact hinv.gap y call'' h h'

theorem inv_catchError {call : Call} (hinv : Inv c) (hcall : c.calls x = some call) (error : GatewayError) :
    Inv (c.catchError x call error) := by
  refine inv_setCall hinv hcall ?_
  unfold Enters
  cases c.connection.closed <;> exact id

/-- Over a connection that is there a call may enter its task. -/
theorem inv_insertActive {call : Call} (hinv : Inv c) (hcall : c.calls x = some call) (henters : Enters c call) :
    Inv (c.insertActive opts x call) := by
  unfold Client.insertActive
  split
  · rename_i hopen
    have hconnected : c.connection.connected = true := by
      rcases hinv.gap x call hcall henters with hconnected | hclosed
      · exact hconnected
      · rw [hopen] at hclosed
        cases hclosed
    have hmoved : Inv (c.setPhase x call .awaiting) := inv_setCall hinv hcall id
    refine ⟨hmoved.known, hmoved.attempt, fun h => ?_, hmoved.gap⟩
    exact absurd (h.symm.trans hconnected) (by decide)
  · exact inv_catchError hinv hcall _

theorem inv_fallbacks (hinv : Inv c) (fallbackByTask : OrderedMap String Fallback) : Inv
    { c with fallbackByTask } :=
  ⟨hinv.known, hinv.attempt, hinv.idle, hinv.gap⟩

theorem inv_resume {call : Call} (hinv : Inv c) (hcall : c.calls x = some call)
    (hstep : c.resume opts x call = some c') : Inv c' := by
  cases Client.resumes_of_resume hstep with
  | connected promise hphase hfulfilled =>
    refine inv_insertActive hinv hcall ?_
    cases promise with
    | none => simp [Enters, hphase]
    | some p => simp [Enters, hphase, hfulfilled p rfl, Promise.isFulfilled]
  | unconnected p error hphase hrejected => exact inv_catchError hinv hcall _
  | returns accepted hphase hfulfilled => exact inv_setCall hinv hcall id
  | fails error hphase hrejected => exact inv_catchError hinv hcall _
  | oneShotReturns accepted hphase hfulfilled => exact inv_setCall hinv hcall id
  | oneShotFails error hphase hrejected =>
    have hmoved : Inv (c.setPhase x call (.threw error)) := inv_setCall hinv hcall id
    exact inv_fallbacks hmoved _

theorem inv_execute (hinv : Inv c) (input : ExecuteGatewayTaskInput) : Inv (c.execute input) := by
  refine ⟨fun x call h => ?_, hinv.attempt, hinv.idle, fun x call h henters => ?_⟩
  · by_cases hx : x = c.nextCall
    · exact hx ▸ Nat.lt_succ_self x
    · simp only [Client.execute, Client.setCall, Function.update_of_ne hx] at h
      exact (hinv.known x call h).trans (Nat.lt_succ_self _)
  · by_cases hx : x = c.nextCall
    · simp only [Client.execute, Client.setCall, hx, Function.update_self, Option.some.injEq] at h
      rw [← h] at henters
      exact henters.elim
    · simp only [Client.execute, Client.setCall, Function.update_of_ne hx] at h
      exact hinv.gap x call h henters

/-- Either the connection is there, or there is an attempt to wait for. -/
theorem ensureConnected_cases (hattempt : Attempting k) :
    (k.ensureConnected.2 = none ∧ k.ensureConnected.1.connected = true) ∨
      ∃ p, k.ensureConnected.2 = some p ∧ (k.ensureConnected.1.promises p).isFulfilled = false := by
  unfold Connection.ensureConnected
  split
  · rename_i hready
    exact .inl ⟨rfl, (Bool.and_eq_true_iff.mp hready).1⟩
  · split
    · rename_i p hpromise
      exact .inr ⟨p, rfl, hattempt p hpromise⟩
    · exact .inr ⟨k.nextSocket, rfl, by simp [Promise.isFulfilled]⟩

/-- A call that need not wait for the connection finds it there. -/
theorem connected_of_entering {call : Call} (hattempt : Attempting k) (hk : c.connection = k.ensureConnected.1)
    (hphase : call.phase = .connecting k.ensureConnected.2) (henters : Enters c call) :
    k.ensureConnected.1.connected = true := by
  unfold Enters at henters
  rw [hphase, hk] at henters
  rcases ensureConnected_cases hattempt with ⟨-, hconnected⟩ | ⟨p, hp, hpending⟩
  · exact hconnected
  · rw [hp] at henters
    exact absurd (henters.symm.trans hpending) (by decide)

/-- The call waits for the connection, or need not wait because it is there. -/
theorem inv_awaitConnection {call : Call} (hinv : Inv c) (hcall : c.calls x = some call)
    (prepared : PreparedGatewayInput) :
    Inv ({ c with connection := c.connection.ensureConnected.1 }.setPhase x { call with prepared }
      (.connecting c.connection.ensureConnected.2)) := by
  have hopen : c.connection.ensureConnected.1.isOpen = true → c.connection.isOpen = true := isOpen_ensureConnected
  have hgap : ∀ y call', c.calls y = some call' → Enters c call' →
      c.connection.ensureConnected.1.connected = true ∨ c.connection.ensureConnected.1.isOpen = false := by
    intro y call' hcall' henters
    rw [connected_ensureConnected, ← Bool.not_eq_true]
    exact (hinv.gap y call' hcall' henters).imp_right fun hclosed h => by simp [hopen h] at hclosed
  refine ⟨fun y call' h => ?_, attempting_ensureConnected hinv.attempt, fun hconnected => ?_,
    fun y call' h henters => ?_⟩
  · by_cases hy : y = x
    · exact hy ▸ hinv.known x call hcall
    · simp only [Client.setPhase, Client.setCall, Function.update_of_ne hy] at h
      exact hinv.known y call' h
  · exact hinv.idle (by simpa [Client.setPhase, Client.setCall] using hconnected)
  · by_cases hy : y = x
    · subst hy
      simp only [Client.setPhase, Client.setCall, Function.update_self, Option.some.injEq] at h
      exact .inl (connected_of_entering hinv.attempt rfl (h ▸ rfl) henters)
    · simp only [Client.setPhase, Client.setCall, Function.update_of_ne hy] at h
      refine hgap y call' h ?_
      unfold Enters at henters ⊢
      split at henters
      · trivial
      · exact isFulfilled_ensureConnected henters
      · exact henters

theorem inv_onPrepared {call : Call} {result : Except GatewayError PreparedGatewayInput} (hinv : Inv c)
    (hcall : c.calls x = some call) (hstep : c.onPrepared opts x call result = some c') : Inv c' := by
  cases Client.proceeds_of_onPrepared hstep with
  | connects prepared hphase => exact inv_awaitConnection hinv hcall _
  | unprepared error hphase => exact inv_catchError hinv hcall _
  | startsOneShot prepared hphase =>
    have hmoved : Inv (c.setPhase x { call with
        prepared, oneShot := some (OneShot.start opts call.input prepared) } .fallbackAwaiting) :=
      inv_setCall hinv hcall id
    exact inv_fallbacks hmoved _
  | oneShotUnprepared error hphase =>
    have hmoved : Inv (c.setPhase x call (.threw (toGatewayExecutionError "INVALID_REQUEST" error.message))) :=
      inv_setCall hinv hcall id
    exact inv_fallbacks hmoved _

theorem inv_cancel (hinv : Inv c) (taskId : String) : Inv (c.cancel opts taskId).2 := by
  unfold Client.cancel
  split
  · split
    · exact hinv
    · exact inv_fallbacks (inv_beside hinv (beside_getD_stepOneShot _)) _
  · rename_i x hactive
    split
    · refine ⟨hinv.known, hinv.attempt, fun hconnected => ?_, hinv.gap⟩
      rw [(hinv.idle hconnected).1] at hactive
      cases hactive
    · exact hinv

theorem beside_shutdown (opts : Options) (fallbacks : List Fallback) (c : Client) :
    Beside c (fallbacks.foldl (fun c fallback => (c.stepOneShot opts fallback.call .shutdown).getD c) c) := by
  induction fallbacks generalizing c with
  | nil => exact beside_refl c
  | cons fallback fallbacks ih => exact (beside_getD_stepOneShot _).trans (ih _)

/-- A closed client has no task and no socket that a call could enter one over. -/
theorem inv_close (hinv : Inv c) : Inv (c.close opts) := by
  unfold Client.close
  dsimp only
  generalize hfailed : ({ c with connection := _, registry := _ } : Client) = failed
  have hcalls : failed.calls = c.calls ∧ failed.nextCall = c.nextCall := by
    rw [← hfailed]
    exact ⟨rfl, rfl⟩
  have hattempt : Attempting failed.connection := by
    rw [← hfailed]
    intro p hp
    simp only [connectionPromise_clearConnectTimer] at hp
    simpa using hinv.attempt p hp
  have hidle : Idle failed.registry := by
    rw [← hfailed]
    exact ⟨rfl, rfl⟩
  have hbeside : Beside failed (c.fallbackByTask.values.foldl
      (fun c fallback => (c.stepOneShot opts fallback.call .shutdown).getD c) failed) :=
      beside_shutdown opts _ failed
  generalize (c.fallbackByTask.values.foldl
    (fun c fallback => (c.stepOneShot opts fallback.call .shutdown).getD c) failed) = closed at hbeside ⊢
  refine ⟨fun x call' hcall' => ?_, fun p hp => ?_, fun _ => ?_, fun _ _ _ _ => .inr rfl⟩
  · obtain ⟨call, hcall, -⟩ := hbeside.calls x call' hcall'
    rw [hcalls.1] at hcall
    have hknown := hinv.known x call hcall
    rwa [← hcalls.2, ← hbeside.nextCall] at hknown
  · rw [promises_shutSocket, hbeside.connection]
    rw [connectionPromise_shutSocket, hbeside.connection] at hp
    exact hattempt p hp
  · rw [Idle, hbeside.activeByTask, hbeside.taskByRun]
    exact hidle

theorem inv_step {e : Event} (hinv : Inv c) (hprompt : Prompt opts c e)
    (hstep : step opts jsonParse c e = some c') : Inv c' := by
  cases he : isSocketOrTimer e with
  | true => exact inv_step_event hinv hprompt he hstep
  | false =>
    cases e with
    | text s raw => cases he
    | label l =>
      rw [step] at hstep
      cases l with
      | tick now =>
        cases hstep
        exact inv_beside hinv ⟨rfl, rfl, rfl, rfl, fun _ call' h => ⟨call', h, rfl⟩⟩
      | execute input =>
        cases hstep
        exact inv_execute hinv input
      | prepared x result =>
        simp only [Client.step, Option.bind_eq_bind, Option.bind_eq_some_iff] at hstep
        obtain ⟨call, hcall, hstep⟩ := hstep
        exact inv_onPrepared hinv hcall hstep
      | resume x =>
        simp only [Client.step, Option.bind_eq_bind, Option.bind_eq_some_iff] at hstep
        obtain ⟨call, hcall, hstep⟩ := hstep
        exact inv_resume hinv hcall hstep
      | cancel taskId =>
        cases hstep
        exact inv_cancel hinv taskId
      | close =>
        cases hstep
        exact inv_close hinv
      | oneShot x stimulus =>
        simp only [Client.step] at hstep
        split at hstep
        · cases hstep
        · cases hstep
        · exact inv_beside hinv (beside_stepOneShot hstep)
      | _ => cases he

theorem inv_init : Inv .init :=
  ⟨fun x call h => (by cases h), fun p h => (by cases h), fun _ => ⟨rfl, rfl⟩, fun x call h => (by cases h)⟩

/-- Without a connection no task is active, in every state that a run ends in whose settled awaits resume before
the next event of a socket or a timer. -/
theorem idle_of_not_connected (opts : Options) (jsonParse : String → Option Json) {events : List Event}
    {c : Client} (hprompt : Transition.Along (step opts jsonParse) (Prompt opts) .init events)
    (hrun : Transition.run (step opts jsonParse) .init events = some c) (h : c.connection.connected = false) :
    c.registry.activeByTask = .empty ∧ c.registry.taskByRun = .empty :=
  (Transition.invariant_along (fun _ _ _ => inv_step) inv_init hprompt hrun).idle h

/-- A task is accepted and its call returns; then a frame arrives that is no JSON. -/
def brokenRun : List Event := acceptedRun.map .label ++ [.label (.resume 0), .text 0 "?"]

def brokenClient : Client :=
  (Transition.run (step defaultOptions readNull) .init brokenRun).get (by decide +kernel)

/-- The accepted task is gone with the connection. -/
theorem idle_of_brokenRun : brokenClient.registry.activeByTask = .empty ∧ brokenClient.registry.taskByRun =
    .empty := by
  have hprompt : Transition.Along (step defaultOptions readNull) (Prompt defaultOptions) .init brokenRun := by
    decide +kernel
  have hrun : Transition.run (step defaultOptions readNull) .init brokenRun = some brokenClient :=
    (Option.some_get _).symm
  exact idle_of_not_connected defaultOptions readNull hprompt hrun (by decide +kernel)

end DeadConnections
