import ClawWork.AdapterShutdown
import ClawWork.SingleRun

/-!
# Acknowledged executions

Which callback of the adapter acknowledges an execution of a task, and which gives its
handler new text; every other callback tells the handlers neither of an acceptance nor
of a delta.
-/

namespace Acknowledgements

open JavaScript SharedTypes GatewayProtocol GatewayClient PersistentGatewayClient
open PersistentGatewayClient.Registry Cancellation

def isDelta : TaskEventDetail → Bool
  | .delta _ => true
  | _ => false

def eventOf : Effect → Option TaskStreamEvent
  | .event event => some event
  | _ => none

/-- The event tells the handler that the execution is accepted. -/
def accepts (e : Effect) : Bool := (eventOf e).any fun event => event.detail.isAccepted

def tells (e : Effect) : Bool := (eventOf e).any fun event => isDelta event.detail

/-- The text that an assistant frame adds to a snapshot. -/
def newText (opts : Options) (payload : EventPayload) (snapshot : String) : String :=
  if payload.stream = some "assistant" then
    (normalizeAssistantDelta (assistantSnapshot opts payload) snapshot).1
  else ""

/-- The callback brings the ok response to the request, or the reply to the HTTP request. -/
def acknowledges (o : OneShot) : Stimulus → Bool
  | .message (.ok id _ _) => o.listening && id ≠ GatewayClient.connectRequestId && id = o.input.taskId
  | .http (.reply _ reply) => o.httpPending.isSome && reply ≠ ""
  | _ => false

/-- The callback brings a frame with new text. -/
def addsText (opts : Options) (o : OneShot) : Stimulus → Bool
  | .message (.agent payload) =>
    o.listening && (extractArtifactResult opts.isUrl [payload.data.map Json.obj, payload.message]).isNone &&
      newText opts payload o.lastAssistantSnapshot ≠ ""
  | _ => false

/-- The task of an execution that the label acknowledges. -/
def acknowledgedTask (c : Client) : Label → Option String
  | .message _ (.ok id _ _) =>
    if id = Client.connectRequestId then none else (c.registry.activeByTask.get id).map fun _ => id
  | .oneShot x stimulus => do
    let call ← c.calls x
    let o ← call.oneShot
    if acknowledges o stimulus then some call.input.taskId else none
  | _ => none

/-- The task to whose handler the label gives the new text of a frame. -/
def deltaTask (opts : Options) (c : Client) : Label → Option String
  | .message _ (.agent payload) => do
    let y ← c.registry.findActive payload.runId payload.sessionKey
    if newText opts payload (c.registry.tasks y).lastAssistantSnapshot = "" then none
    else some (c.registry.taskId y)
  | .oneShot x stimulus => do
    let call ← c.calls x
    let o ← call.oneShot
    if addsText opts o stimulus then some call.input.taskId else none
  | _ => none

/-- Neither an acceptance nor a delta, nor what lets a call return. -/
def Plain (e : Effect) : Prop := accepts e = false ∧ tells e = false ∧ ∀ accepted, e ≠ .resolve accepted

def AllPlain (es : List Effect) : Prop := ∀ e ∈ es, Plain e

/-- What one callback of a one-shot client has for its handler and its call. -/
structure Says (opts : Options) (o : OneShot) (stimulus : Stimulus) (es : List Effect) : Prop where
  acceptance : ∀ e ∈ es, accepts e = true → acknowledges o stimulus = true
  once : es.countP accepts ≤ 1
  /-- A delta is the new text of a frame, or the reply that is accepted with it. -/
  delta : ∀ e ∈ es, tells e = true → addsText opts o stimulus = true ∨ acknowledges o stimulus = true
  resolve : ∀ accepted, Effect.resolve accepted ∈ es → ∃ e ∈ es, accepts e = true

variable {opts : Options} {o o' : OneShot} {now : String} {stimulus : Stimulus} {es : List Effect}

theorem says_of_plain (h : AllPlain es) : Says opts o stimulus es where
  acceptance e he hacc := by
    rw [(h e he).1] at hacc
    cases hacc
  once := by
    rw [List.countP_eq_zero.mpr fun e he => by simp [(h e he).1]]
    exact Nat.zero_le _
  delta e he htells := by
    rw [(h e he).2.1] at htells
    cases htells
  resolve accepted he := absurd rfl ((h _ he).2.2 accepted)

theorem allPlain_nil : AllPlain [] := fun _ he => by cases he

theorem plain_event (event : TaskStreamEvent) (haccepted : event.detail.isAccepted = false)
    (hdelta : isDelta event.detail = false) : Plain (.event event) :=
  ⟨haccepted, hdelta, fun _ he => by cases he⟩

theorem allPlain_singleton {e : Effect} (h : Plain e) : AllPlain [e] := fun e' he => by
  rw [List.mem_singleton.mp he]
  exact h

theorem plain_failAfterAccepted (o : OneShot) (now : String) (error : GatewayError) :
    AllPlain (o.failAfterAccepted now error).2 :=
  allPlain_singleton (plain_event _ rfl rfl)

theorem plain_rejectExecution (o : OneShot) (error : GatewayError) : AllPlain (o.rejectExecution error).2 := by
  unfold OneShot.rejectExecution
  split
  · exact allPlain_nil
  · exact allPlain_singleton ⟨rfl, rfl, fun _ he => by cases he⟩

theorem plain_failBeforeAccepted (o : OneShot) (now : String) (error : GatewayError) :
    AllPlain (o.failBeforeAccepted now error).2 := by
  unfold OneShot.failBeforeAccepted
  split
  · exact plain_failAfterAccepted o now error
  · split
    · exact allPlain_nil
    · unfold OneShot.startHttp
      split
      · exact allPlain_singleton ⟨rfl, rfl, fun _ he => by cases he⟩
      · exact plain_rejectExecution _ _

theorem plain_chatTerminal (payload : EventPayload) : AllPlain (o.chatTerminal now payload).2 := by
  unfold OneShot.chatTerminal
  split
  · exact plain_failAfterAccepted _ _ _
  · exact plain_failAfterAccepted _ _ _
  · exact allPlain_singleton (plain_event _ rfl rfl)
  · exact allPlain_nil

theorem plain_onChat (payload : EventPayload) : AllPlain (o.onChat opts now payload).2 := by
  intro e he
  rcases List.mem_append.mp he with hcreated | hend
  · split at hcreated
    · exact allPlain_singleton (plain_event _ rfl rfl) e hcreated
    · cases hcreated
  · exact plain_chatTerminal payload e hend

theorem plain_onClose (o : OneShot) (now : String) (code : Nat) (reason : String) :
    AllPlain (o.onClose now code reason).2 := by
  unfold OneShot.onClose
  dsimp only
  split
  · exact plain_failBeforeAccepted _ _ _
  · split
    · exact plain_failAfterAccepted _ _ _
    · exact allPlain_nil

theorem plain_cancel (o : OneShot) (now : String) : AllPlain (o.cancel now).2 := by
  intro e he
  rcases List.mem_append.mp he with habort | hevent
  · split at habort
    · exact allPlain_singleton ⟨rfl, rfl, fun _ he => by cases he⟩ e habort
    · cases habort
  · exact allPlain_singleton (plain_event _ rfl rfl) e hevent

theorem says_onAgent (opts : Options) (now : String) (hlistening : o.listening = true) (payload : EventPayload) :
    Says opts o (.message (.agent payload)) (o.onAgent opts now payload).2 := by
  unfold OneShot.onAgent
  dsimp only
  split
  · exact says_of_plain (allPlain_singleton (plain_event _ rfl rfl))
  · rename_i hartifact
    split
    · rename_i hstream
      split
      · exact says_of_plain allPlain_nil
      · rename_i hdelta
        have htext : addsText opts o (.message (.agent payload)) = true := by
          simp [addsText, newText, hlistening, hartifact, hstream, hdelta]
        refine ⟨fun e he hacc => ?_, List.countP_le_length, fun e _ _ => .inl htext, fun accepted he => ?_⟩
        · rw [List.mem_singleton.mp he] at hacc
          cases hacc
        · cases List.mem_singleton.mp he
    · exact says_of_plain (allPlain_singleton (plain_event _ rfl rfl))

/-- The acceptance comes first. -/
theorem says_accepting {e : Effect} {rest : List Effect} (hack : acknowledges o stimulus = true)
    (haccepts : accepts e = true) (hrest : ∀ e ∈ rest, accepts e = false) :
    Says opts o stimulus (e :: rest) where
  acceptance _ _ _ := hack
  once := by
    rw [List.countP_cons_of_pos haccepts, List.countP_eq_zero.mpr fun e he => by simp [hrest e he]]
  delta _ _ _ := .inr hack
  resolve _ _ := ⟨e, List.mem_cons_self, haccepts⟩

theorem says_onMessage (opts : Options) (now : String) (hlistening : o.listening = true) (frame : GatewayFrame) :
    Says opts o (.message frame) (o.onMessage opts now frame).2 := by
  cases frame with
  | challenge => exact says_of_plain (allPlain_singleton ⟨rfl, rfl, fun _ he => by cases he⟩)
  | ok id runId mainSessionKey =>
    simp only [OneShot.onMessage]
    split
    · exact says_of_plain (allPlain_singleton ⟨rfl, rfl, fun _ he => by cases he⟩)
    · rename_i hconnect
      split
      · rename_i hid
        have hack : acknowledges o (.message (.ok id runId mainSessionKey)) = true := by
          simp [acknowledges, hlistening, hconnect, ← hid]
        refine says_accepting hack rfl fun e he => ?_
        unfold OneShot.resolveAccepted at he
        split at he
        · cases he
        · rw [List.mem_singleton.mp he]
          rfl
      · exact says_of_plain allPlain_nil
  | error id code message =>
    simp only [OneShot.onMessage]
    split
    · exact says_of_plain (plain_failBeforeAccepted _ _ _)
    · split
      · split
        · exact says_of_plain (plain_failAfterAccepted _ _ _)
        · exact says_of_plain (plain_rejectExecution _ _)
      · exact says_of_plain allPlain_nil
  | agent payload => exact says_onAgent opts now hlistening payload
  | chat payload => exact says_of_plain (plain_onChat payload)
  | other => exact says_of_plain allPlain_nil

theorem says_onHttp (opts : Options) (now : String) (hpending : o.httpPending.isSome = true)
    (wsError : GatewayError) (outcome : HttpOutcome) :
    Says opts o (.http outcome) (o.onHttp now wsError outcome).2 := by
  cases outcome with
  | failed error => exact says_of_plain (plain_rejectExecution _ _)
  | rejected status message => exact says_of_plain (plain_rejectExecution _ _)
  | reply id reply =>
    simp only [OneShot.onHttp]
    split
    · exact says_of_plain (plain_rejectExecution _ _)
    · rename_i hreply
      have hack : acknowledges o (.http (.reply id reply)) = true := by simp [acknowledges, hpending, hreply]
      split
      · refine says_accepting hack rfl fun e he => ?_
        simp only [List.mem_cons, List.not_mem_nil, or_false] at he
        rcases he with rfl | rfl <;> rfl
      · rw [List.cons_append]
        refine says_accepting hack rfl fun e he => ?_
        simp only [List.cons_append, List.nil_append, List.mem_cons, List.not_mem_nil, or_false] at he
        rcases he with rfl | rfl | rfl <;> rfl

theorem says_step (hstep : o.step opts now stimulus = some (o', es)) : Says opts o stimulus es := by
  cases stimulus with
  | opened =>
    simp only [OneShot.step] at hstep
    split at hstep <;> cases hstep
    exact says_of_plain allPlain_nil
  | message frame =>
    simp only [OneShot.step, Option.ite_none_right_eq_some, Option.some.injEq] at hstep
    have hsaid := says_onMessage opts now hstep.1 frame
    rwa [hstep.2] at hsaid
  | error message =>
    simp only [OneShot.step, Option.ite_none_right_eq_some, Option.some.injEq] at hstep
    have hplain := plain_failBeforeAccepted o now (toGatewayExecutionError "UNAVAILABLE"
      (orElse message "gateway websocket request failed"))
    rw [hstep.2] at hplain
    exact says_of_plain hplain
  | close code reason =>
    simp only [OneShot.step] at hstep
    split at hstep
    · have hplain := plain_onClose { o with readyState := .closed } now code reason
      rw [Option.some.inj hstep] at hplain
      exact says_of_plain hplain
    · cases hstep
      exact says_of_plain allPlain_nil
  | connectTimeout =>
    simp only [OneShot.step, Option.ite_none_right_eq_some, Option.some.injEq] at hstep
    have hplain := plain_failBeforeAccepted { o with connectTimer := false } now
      (toGatewayExecutionError "AGENT_TIMEOUT" "gateway connect timed out")
    rw [hstep.2] at hplain
    exact says_of_plain hplain
  | http outcome =>
    obtain ⟨wsError, hpending, hhttp⟩ := Option.map_eq_some_iff.mp hstep
    have hsaid := says_onHttp opts now (o := o) (by rw [hpending]; rfl) wsError outcome
    rwa [hhttp] at hsaid
  | cancel =>
    have hplain := plain_cancel o now
    rw [Option.some.inj hstep] at hplain
    exact says_of_plain hplain
  | shutdown =>
    cases hstep
    exact says_of_plain allPlain_nil

theorem accepts_of_acknowledges (hstep : o.step opts now stimulus = some (o', es))
    (hack : acknowledges o stimulus = true) : ∃ e ∈ es, accepts e = true := by
  cases stimulus with
  | message frame =>
    cases frame with
    | ok id runId mainSessionKey =>
      simp only [acknowledges, Bool.and_eq_true, decide_eq_true_eq] at hack
      obtain ⟨⟨hlistening, hconnect⟩, hid⟩ := hack
      simp only [OneShot.step, hlistening, if_true, OneShot.onMessage, if_neg hconnect, if_pos hid] at hstep
      cases hstep
      exact ⟨_, List.mem_cons_self, rfl⟩
    | _ => cases hack
  | http outcome =>
    cases outcome with
    | reply id reply =>
      simp only [acknowledges, Bool.and_eq_true, decide_eq_true_eq] at hack
      obtain ⟨wsError, -, hhttp⟩ := Option.map_eq_some_iff.mp hstep
      simp only [OneShot.onHttp, if_neg hack.2] at hhttp
      split at hhttp <;> cases hhttp
      · exact ⟨_, List.mem_cons_self, rfl⟩
      · exact ⟨_, List.mem_cons_self, rfl⟩
    | _ => cases hack
  | _ => cases hack

theorem tells_of_addsText (hstep : o.step opts now stimulus = some (o', es))
    (htext : addsText opts o stimulus = true) : ∃ e ∈ es, tells e = true := by
  cases stimulus with
  | message frame =>
    cases frame with
    | agent payload =>
      simp only [addsText, Bool.and_eq_true, Option.isNone_iff_eq_none] at htext
      obtain ⟨⟨hlistening, hartifact⟩, hnew⟩ := htext
      have hdelta := of_decide_eq_true hnew
      unfold newText at hdelta
      split at hdelta
      · rename_i hstream
        simp only [OneShot.step, hlistening, if_true, OneShot.onMessage, OneShot.onAgent, hartifact, if_pos hstream,
          if_neg hdelta] at hstep
        cases hstep
        exact ⟨_, List.mem_cons_self, rfl⟩
      · exact absurd rfl hdelta
    | _ => cases htext
  | _ => cases htext

/-! ## The registry -/

/-- The entry tells its handler neither of an acceptance nor of new text. -/
def Muted (e : Entry) : Prop := accepts e.effect = false ∧ tells e.effect = false

/-- A step of the registry that appends muted entries only and fulfils no promise. -/
structure Mute (r r' : Registry) : Prop where
  log : ∃ es, r'.log = r.log ++ es ∧ ∀ e ∈ es, Muted e
  promised : ∀ x, r'.accepted x = true → r.accepted x = true ∧ r'.taskId x = r.taskId x

section Registry

variable {r r' r'' : Registry} {x : Nat}

theorem Mute.refl (r : Registry) : Mute r r :=
  ⟨⟨[], (List.append_nil _).symm, fun _ he => by cases he⟩, fun _ h => ⟨h, rfl⟩⟩

theorem Mute.trans (h : Mute r r') (h' : Mute r' r'') : Mute r r'' where
  log := by
    obtain ⟨es, hes, hmuted⟩ := h.log
    obtain ⟨fs, hfs, hmuted'⟩ := h'.log
    refine ⟨es ++ fs, by rw [hfs, hes, List.append_assoc], fun e he => ?_⟩
    rcases List.mem_append.mp he with he | he
    · exact hmuted e he
    · exact hmuted' e he
  promised y hy := by
    obtain ⟨hy', htask'⟩ := h'.promised y hy
    obtain ⟨hy'', htask⟩ := h.promised y hy'
    exact ⟨hy'', htask'.trans htask⟩

theorem mute_of_tasks (htasks : r'.tasks = r.tasks) {es : List Entry} (hlog : r'.log = r.log ++ es)
    (hmuted : ∀ e ∈ es, Muted e) : Mute r r' where
  log := ⟨es, hlog, hmuted⟩
  promised y hy := by
    rw [accepted, htasks] at hy
    exact ⟨hy, by rw [taskId, taskId, htasks]⟩

theorem mute_write (r : Registry) (x : Nat) (t : String) {e : Effect} (haccepts : accepts e = false)
    (htells : tells e = false) : Mute r (r.write x t e) := by
  have hmuted : ∀ e' ∈ [(⟨x, t, e⟩ : Entry)], Muted e' := by
    intro e' he
    rw [List.mem_singleton.mp he]
    exact ⟨haccepts, htells⟩
  exact mute_of_tasks rfl rfl hmuted

theorem mute_modify (r : Registry) (x : Nat) {f : ActiveTask → ActiveTask} (hinput : ∀ a, (f a).input = a.input)
    (hpromise : ∀ a, (f a).promise.isFulfilled = a.promise.isFulfilled) : Mute r (r.modify x f) where
  log := ⟨[], (List.append_nil _).symm, fun _ he => by cases he⟩
  promised y hy := by
    refine ⟨?_, taskId_modify r hinput x y⟩
    by_cases hyx : y = x
    · subst hyx
      rwa [accepted, modify_tasks_same, hpromise] at hy
    · rwa [accepted, modify_tasks_other r f hyx] at hy

/-- The timer of the task is cleared. -/
theorem mute_clear (r : Registry) (x : Nat) : Mute r (r.modify x fun a => { a with timeout := false }) :=
  mute_modify r x (fun _ => rfl) fun _ => rfl

theorem mute_emit (r : Registry) (x : Nat) {d : TaskEventDetail} (haccepted : d.isAccepted = false)
    (hdelta : isDelta d = false) : Mute r (r.emit x d) := mute_write r x _ haccepted hdelta

theorem mute_reject (r : Registry) (x : Nat) (e : GatewayError) : Mute r (r.reject x e) :=
  mute_modify r x (fun _ => rfl) fun a => Promise.isFulfilled_reject a.promise e

theorem mute_removeTask (r : Registry) (x : Nat) : Mute r (r.removeTask x) := by
  have hcleared := mute_clear r x
  exact ⟨hcleared.log, hcleared.promised⟩

theorem mute_fail (r : Registry) (x : Nat) (e : GatewayError) : Mute r (r.fail x e) := by
  unfold fail
  split
  · exact mute_emit r x rfl rfl
  · exact mute_reject r x e

theorem mute_failAll (r : Registry) (e : GatewayError) : Mute r (r.failAll e) := by
  have hloop : ∀ (xs : List Nat) (r : Registry), Mute r (xs.foldl
      (fun r x => (r.fail x e).modify x fun a => { a with timeout := false }) r) := by
    intro xs
    induction xs with
    | nil => exact Mute.refl
    | cons x xs ih => exact fun r => ((mute_fail r x e).trans (mute_clear _ x)).trans (ih _)
  have hfold := hloop r.activeByTask.values r
  exact ⟨hfold.log, hfold.promised⟩

theorem mute_onError (r : Registry) (id : String) (code message : Option String) :
    Mute r (r.onError id code message) := by
  unfold onError
  split
  · exact .refl r
  · exact (mute_reject r _ _).trans (mute_removeTask _ _)

theorem mute_emitArtifact (r : Registry) (x : Nat) (artifact : Option Artifact) :
    Mute r (r.emitArtifact x artifact) := by
  cases artifact with
  | none => exact .refl r
  | some artifact => exact mute_emit r x rfl rfl

theorem mute_onChat (opts : Options) (r : Registry) (x : Nat) (payload : EventPayload) :
    Mute r (r.onChat opts x payload) := by
  refine (mute_emitArtifact r x (frameArtifact opts payload)).trans ?_
  unfold onChat
  dsimp only
  split
  · exact (mute_emit _ x rfl rfl).trans (mute_removeTask _ x)
  · exact (mute_emit _ x rfl rfl).trans (mute_removeTask _ x)
  · exact (mute_emit _ x rfl rfl).trans (mute_removeTask _ x)
  · exact .refl _

theorem mute_onTimeout (r : Registry) (x : Nat) : Mute r (r.onTimeout x) := by
  unfold onTimeout
  dsimp only
  split
  · exact mute_clear r x
  · exact ((mute_clear r x).trans (mute_fail _ _ _)).trans (mute_removeTask _ _)

theorem mute_cancelActive (r : Registry) (x : Nat) : Mute r (r.cancelActive x) := by
  unfold cancelActive
  dsimp only
  refine Mute.trans ?_ (mute_removeTask _ x)
  have hsent := (mute_write r x (r.taskId x) (e := .send (.chatAbort ("abort:" ++ (r.tasks x).input.taskId)
    (r.tasks x).sessionKey (if (r.tasks x).runId = "" then none else some (r.tasks x).runId))) rfl rfl).trans
    (mute_emit _ x (d := .cancelled "task cancelled by user") rfl rfl)
  split
  · exact hsent
  · exact hsent.trans (mute_reject _ x _)

theorem mute_insert (opts : Options) (r : Registry) (x : Nat) (input : ExecuteGatewayTaskInput)
    (prepared : PreparedGatewayInput) : Mute r (r.insert opts x input prepared) where
  log := ⟨_, rfl, fun e he => by
    rw [List.mem_singleton.mp he]
    exact ⟨rfl, rfl⟩⟩
  promised y hy := by
    by_cases hyx : y = x
    · subst hyx
      simp [Registry.insert, accepted, Promise.isFulfilled] at hy
    · have htasks : (r.insert opts x input prepared).tasks y = r.tasks y := by simp [Registry.insert, hyx]
      rw [accepted, htasks] at hy
      exact ⟨hy, by rw [taskId, taskId, htasks]⟩

/-- An ok response tells the handler of the task's object of the acceptance, and nobody else of anything. -/
theorem onOk_log {id : String} (runId : Option String) (hget : r.activeByTask.get id = some x) :
    ∃ event : TaskStreamEvent, event.detail.isAccepted = true ∧ isDelta event.detail = false ∧
      (r.onOk id runId).log = r.log ++ [⟨x, r.taskId x, .event event⟩] := by
  let run := orElse (asNonEmptyString runId) (r.tasks x).input.taskId
  let labelled := r.modify x fun a => { a with runId := run }
  have htask : labelled.taskId x = r.taskId x := taskId_modify r (by intro a; rfl) x x
  refine ⟨{ labelled with taskByRun := labelled.taskByRun.set run x }.event x .accepted, rfl, rfl, ?_⟩
  rw [← htask, onOk, hget]
  rfl

theorem onOk_tasks_other {id : String} (runId : Option String) (hget : r.activeByTask.get id = some x) {y : Nat}
    (hy : y ≠ x) : (r.onOk id runId).tasks y = r.tasks y := by
  simp [onOk, hget, hy]

theorem onOk_taskId (r : Registry) (id : String) (runId : Option String) (y : Nat) :
    (r.onOk id runId).taskId y = r.taskId y := by
  have hconfined : Confined (fun _ => True) r (r.onOk id runId) := confined_onOk id runId fun _ _ => trivial
  exact hconfined.taskId y

/-- A frame for the object of call `x` adds a delta only if it brings new text. -/
theorem mem_agentDetails {opts : Options} {payload : EventPayload} {d : TaskEventDetail}
    (h : d ∈ agentDetails opts r x payload) : d.isAccepted = false ∧
      (isDelta d = true → newText opts payload (r.tasks x).lastAssistantSnapshot ≠ "") := by
  unfold agentDetails at h
  rcases List.mem_append.mp h with hartifact | hrest
  · cases hframe : frameArtifact opts payload with
    | none =>
      rw [hframe] at hartifact
      cases hartifact
    | some artifact =>
      rw [hframe] at hartifact
      cases List.mem_singleton.mp hartifact
      exact ⟨rfl, fun hdelta => by cases hdelta⟩
  · split at hrest
    · rename_i hstream
      split at hrest
      · cases hrest
      · rename_i hdelta
        rw [List.mem_singleton.mp hrest, newText, if_pos hstream]
        exact ⟨rfl, fun _ => hdelta⟩
    · split at hrest
      · cases List.mem_singleton.mp hrest
        exact ⟨rfl, fun hdelta => by cases hdelta⟩
      · cases hrest

theorem mem_agentDetails_of_newText {opts : Options} {payload : EventPayload}
    (h : newText opts payload (r.tasks x).lastAssistantSnapshot ≠ "") :
    ∃ d ∈ agentDetails opts r x payload, isDelta d = true := by
  unfold newText at h
  split at h
  · rename_i hstream
    let delta := (normalizeAssistantDelta (assistantSnapshot opts payload) (r.tasks x).lastAssistantSnapshot).1
    refine ⟨.delta delta, List.mem_append_right _ ?_, rfl⟩
    rw [if_pos hstream, if_neg h]
    exact List.mem_cons_self
  · exact absurd rfl h

end Registry

end Acknowledgements
