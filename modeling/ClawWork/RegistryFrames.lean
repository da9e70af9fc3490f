import ClawWork.PersistentGatewayClient

/-!
# What the operations of the registry leave unchanged

`received` is what the handler of a call has got so far. A `Frame` for a call
says that an operation aimed at another call changed neither its object, nor
what its handler received, nor whether the map still refers to it.
-/

namespace PersistentGatewayClient

open JavaScript SharedTypes GatewayProtocol GatewayClient

/-- The event details that the log records for the handler of call `x`. -/
def details (x : Nat) (log : List Entry) : List TaskEventDetail :=
  log.filterMap fun e =>
    match e.effect with
    | .event event => if e.call = x then some event.detail else none
    | _ => none

namespace Registry

variable {r r' r'' : Registry} {x y : Nat}

def received (r : Registry) (x : Nat) : List TaskEventDetail := details x r.log

/-- The map of active tasks still refers to the object of call `x`. -/
def Registered (r : Registry) (x : Nat) : Prop := r.activeByTask.get (r.taskId x) = some x

instance (r : Registry) (x : Nat) : Decidable (r.Registered x) :=
  inferInstanceAs (Decidable (_ = _))

/-- The promise of the object was resolved by an ok response. -/
def accepted (r : Registry) (x : Nat) : Bool := (r.tasks x).promise.isFulfilled

theorem registered_unique (hx : r.Registered x) (hy : r.Registered y)
    (h : r.taskId x = r.taskId y) : x = y := by
  have hget : r.activeByTask.get (r.taskId x) = some y := h ▸ hy
  exact Option.some.inj (hx.symm.trans hget)

@[simp] theorem modify_tasks_same (r : Registry) (x : Nat) (f : ActiveTask → ActiveTask) :
    (r.modify x f).tasks x = f (r.tasks x) := by simp [modify]

@[simp] theorem modify_tasks_other (r : Registry) (f : ActiveTask → ActiveTask) (h : y ≠ x) :
    (r.modify x f).tasks y = r.tasks y := by simp [modify, h]

@[simp] theorem modify_activeByTask (r : Registry) (x : Nat) (f : ActiveTask → ActiveTask) :
    (r.modify x f).activeByTask = r.activeByTask := rfl

@[simp] theorem modify_taskByRun (r : Registry) (x : Nat) (f : ActiveTask → ActiveTask) :
    (r.modify x f).taskByRun = r.taskByRun := rfl

@[simp] theorem modify_log (r : Registry) (x : Nat) (f : ActiveTask → ActiveTask) :
    (r.modify x f).log = r.log := rfl

@[simp] theorem write_tasks (r : Registry) (x : Nat) (t : String) (e : Effect) :
    (r.write x t e).tasks = r.tasks := rfl

@[simp] theorem write_activeByTask (r : Registry) (x : Nat) (t : String) (e : Effect) :
    (r.write x t e).activeByTask = r.activeByTask := rfl

@[simp] theorem write_taskByRun (r : Registry) (x : Nat) (t : String) (e : Effect) :
    (r.write x t e).taskByRun = r.taskByRun := rfl

@[simp] theorem emit_tasks (r : Registry) (x : Nat) (d : TaskEventDetail) :
    (r.emit x d).tasks = r.tasks := rfl

@[simp] theorem emit_activeByTask (r : Registry) (x : Nat) (d : TaskEventDetail) :
    (r.emit x d).activeByTask = r.activeByTask := rfl

@[simp] theorem emit_taskByRun (r : Registry) (x : Nat) (d : TaskEventDetail) :
    (r.emit x d).taskByRun = r.taskByRun := rfl

@[simp] theorem event_detail (r : Registry) (x : Nat) (d : TaskEventDetail) :
    (r.event x d).detail = d := rfl

@[simp] theorem removeTask_log (r : Registry) (x : Nat) : (r.removeTask x).log = r.log := rfl

@[simp] theorem removeTask_activeByTask (r : Registry) (x : Nat) :
    (r.removeTask x).activeByTask = r.activeByTask.delete (r.taskId x) := rfl

@[simp] theorem removeTask_tasks_same (r : Registry) (x : Nat) :
    (r.removeTask x).tasks x = { r.tasks x with timeout := false } := by simp [removeTask]

@[simp] theorem removeTask_tasks_other (r : Registry) (h : y ≠ x) :
    (r.removeTask x).tasks y = r.tasks y := by simp [removeTask, h]

theorem received_write_event (r : Registry) (x y : Nat) (t : String) (e : TaskStreamEvent) :
    (r.write x t (.event e)).received y = r.received y ++ if x = y then [e.detail] else [] := by
  by_cases h : x = y <;> simp [received, write, details, List.filterMap_append, h]

theorem received_write_silent (r : Registry) (x y : Nat) (t : String) {e : Effect}
    (h : ∀ event, e ≠ .event event) : (r.write x t e).received y = r.received y := by
  cases e with
  | event event => exact absurd rfl (h event)
  | _ => simp [received, write, details, List.filterMap_append]

@[simp] theorem received_modify (r : Registry) (x y : Nat) (f : ActiveTask → ActiveTask) :
    (r.modify x f).received y = r.received y := rfl

@[simp] theorem received_removeTask (r : Registry) (x y : Nat) :
    (r.removeTask x).received y = r.received y := rfl

theorem received_emit (r : Registry) (x y : Nat) (d : TaskEventDetail) :
    (r.emit x d).received y = r.received y ++ if x = y then [d] else [] :=
  r.received_write_event x y _ _

@[simp] theorem received_emit_same (r : Registry) (x : Nat) (d : TaskEventDetail) :
    (r.emit x d).received x = r.received x ++ [d] := by simp [received_emit]

@[simp] theorem received_emit_other (r : Registry) (d : TaskEventDetail) (h : y ≠ x) :
    (r.emit x d).received y = r.received y := by simp [received_emit, h.symm]

theorem taskId_modify (r : Registry) {f : ActiveTask → ActiveTask}
    (hf : ∀ a, (f a).input = a.input) (x y : Nat) : (r.modify x f).taskId y = r.taskId y := by
  by_cases h : y = x
  · subst h; simp [taskId, hf]
  · simp [taskId, h]

@[simp] theorem taskId_emit (r : Registry) (x y : Nat) (d : TaskEventDetail) :
    (r.emit x d).taskId y = r.taskId y := rfl

@[simp] theorem taskId_removeTask (r : Registry) (x y : Nat) :
    (r.removeTask x).taskId y = r.taskId y := by
  by_cases h : y = x
  · subst h; simp [taskId]
  · simp [taskId, h]

@[simp] theorem taskId_reject (r : Registry) (x y : Nat) (e : GatewayError) :
    (r.reject x e).taskId y = r.taskId y := by
  unfold reject
  exact taskId_modify r (by intro a; rfl) x y

/-- An operation that was not aimed at call `x`. -/
structure Frame (r r' : Registry) (x : Nat) : Prop where
  tasks : r'.tasks x = r.tasks x
  received : r'.received x = r.received x
  registered : r'.Registered x ↔ r.Registered x

namespace Frame

theorem refl (r : Registry) (x : Nat) : Frame r r x := ⟨rfl, rfl, Iff.rfl⟩

theorem trans (h : Frame r r' x) (h' : Frame r' r'' x) : Frame r r'' x :=
  ⟨h'.tasks.trans h.tasks, h'.received.trans h.received, h'.registered.trans h.registered⟩

theorem accepted (h : Frame r r' x) : r'.accepted x = r.accepted x := by
  simp only [Registry.accepted, h.tasks]

end Frame

theorem frame_modify (r : Registry) (f : ActiveTask → ActiveTask) (h : x ≠ y) :
    Frame r (r.modify y f) x where
  tasks := by simp [h]
  received := rfl
  registered := by simp [Registered, taskId, h]

theorem frame_emit (r : Registry) (d : TaskEventDetail) (h : x ≠ y) : Frame r (r.emit y d) x where
  tasks := rfl
  received := received_emit_other r d h
  registered := Iff.rfl

/-- Removing the object of a registered call leaves the other registered calls in the map. -/
theorem frame_removeTask (hy : r.Registered y) (h : x ≠ y) : Frame r (r.removeTask y) x where
  tasks := removeTask_tasks_other r h
  received := rfl
  registered := by
    simp only [Registered, taskId_removeTask, removeTask_activeByTask]
    by_cases hid : r.taskId x = r.taskId y
    · have hx : ¬ r.activeByTask.get (r.taskId x) = some x := fun hx =>
        h (registered_unique hx hy hid)
      simp only [hid, OrderedMap.get_delete_same] at hx ⊢
      simpa using hx
    · rw [OrderedMap.get_delete_other _ hid]

theorem not_registered_removeTask (r : Registry) (x : Nat) : ¬ (r.removeTask x).Registered x := by
  simp [Registered]

/-- The chat states that close a run. -/
def endsRun (payload : EventPayload) : Bool :=
  payload.state = some "error" || payload.state = some "aborted" || payload.state = some "final"

/-- A chat frame that leads to no event and closes nothing. -/
def ChatSilent (opts : Options) (payload : EventPayload) : Prop :=
  frameArtifact opts payload = none ∧ endsRun payload = false

/-- An agent frame that leads to no event: an assistant snapshot without new text. -/
def AgentSilent (opts : Options) (r : Registry) (x : Nat) (payload : EventPayload) : Prop :=
  frameArtifact opts payload = none ∧ payload.stream = some "assistant" ∧
    (normalizeAssistantDelta (assistantSnapshot opts payload)
      (r.tasks x).lastAssistantSnapshot).1 = ""

theorem onAgent_silent {opts : Options} {payload : EventPayload}
    (h : AgentSilent opts r x payload) :
    r.onAgent opts x payload = r.modify x fun a => { a with
      lastAssistantSnapshot := (normalizeAssistantDelta (assistantSnapshot opts payload)
        (r.tasks x).lastAssistantSnapshot).2 } := by
  obtain ⟨hart, hstream, hdelta⟩ := h
  simp [onAgent, emitArtifact, hart, hstream, hdelta]

/-- The details that an agent frame adds for the handler of its task. -/
def agentDetails (opts : Options) (r : Registry) (x : Nat) (payload : EventPayload) :
    List TaskEventDetail :=
  let artifact := frameArtifact opts payload
  let delta := (normalizeAssistantDelta (assistantSnapshot opts payload)
    (r.tasks x).lastAssistantSnapshot).1
  (artifact.map fun a => TaskEventDetail.resultCreated (.artifact a)).toList ++
    if payload.stream = some "assistant" then if delta = "" then [] else [.delta delta]
    else if artifact.isNone then [.stageChanged (payload.stream.getD "agent")] else []

theorem agentDetails_eq_nil_iff {opts : Options} {payload : EventPayload} :
    agentDetails opts r x payload = [] ↔ AgentSilent opts r x payload := by
  unfold agentDetails AgentSilent
  cases frameArtifact opts payload <;> by_cases hs : payload.stream = some "assistant" <;> simp [hs]

theorem received_emitArtifact (r : Registry) (x : Nat) (artifact : Option Artifact) :
    (r.emitArtifact x artifact).received x =
      r.received x ++ (artifact.map fun a => TaskEventDetail.resultCreated (.artifact a)).toList := by
  cases artifact <;> simp [emitArtifact]

theorem received_emitArtifact_other (r : Registry) (artifact : Option Artifact) (h : y ≠ x) :
    (r.emitArtifact x artifact).received y = r.received y := by
  cases artifact with
  | none => rfl
  | some a => exact received_emit_other r _ h

theorem emitArtifact_tasks (r : Registry) (x : Nat) (artifact : Option Artifact) :
    (r.emitArtifact x artifact).tasks = r.tasks := by cases artifact <;> rfl

theorem received_onAgent (opts : Options) (r : Registry) (x : Nat) (payload : EventPayload) :
    (r.onAgent opts x payload).received x = r.received x ++ agentDetails opts r x payload := by
  simp only [onAgent, agentDetails, emitArtifact_tasks]
  split
  · split
    · simp [received_emitArtifact, *]
    · simp [received_emitArtifact, *]
  · split <;> simp [received_emitArtifact]

theorem registered_emitArtifact {artifact : Option Artifact} :
    (r.emitArtifact x artifact).Registered y ↔ r.Registered y := by cases artifact <;> exact Iff.rfl

theorem registered_modify {f : ActiveTask → ActiveTask} (hf : ∀ a, (f a).input = a.input) :
    (r.modify x f).Registered y ↔ r.Registered y := by
  rw [Registered, Registered, taskId_modify r hf, modify_activeByTask]

theorem onAgent_promise (opts : Options) (r : Registry) (x y : Nat) (payload : EventPayload) :
    ((r.onAgent opts x payload).tasks y).promise = (r.tasks y).promise := by
  simp only [onAgent]
  split
  · by_cases h : y = x
    · subst h
      split <;> simp [emitArtifact_tasks]
    · split <;> simp [emitArtifact_tasks, h]
  · split <;> simp [emitArtifact_tasks]

theorem registered_onAgent {opts : Options} {payload : EventPayload} :
    (r.onAgent opts x payload).Registered y ↔ r.Registered y := by
  have hmod : ∀ snapshot, ((r.emitArtifact x (frameArtifact opts payload)).modify x
      fun a => { a with lastAssistantSnapshot := snapshot }).Registered y ↔ r.Registered y := by
    intro snapshot
    rw [registered_modify (by intro a; rfl)]
    exact registered_emitArtifact
  simp only [onAgent]
  split
  · split
    · exact hmod _
    · exact hmod _
  · split
    · exact registered_emitArtifact
    · exact registered_emitArtifact

theorem onChat_promise (opts : Options) (r : Registry) (x y : Nat) (payload : EventPayload) :
    ((r.onChat opts x payload).tasks y).promise = (r.tasks y).promise := by
  have hremove : ∀ r' : Registry, r'.tasks = r.tasks →
      ((r'.removeTask x).tasks y).promise = (r.tasks y).promise := by
    intro r' h
    by_cases hy : y = x
    · subst hy; simp [h]
    · simp [hy, h]
  simp only [onChat]
  split
  · exact hremove _ (emitArtifact_tasks _ _ _)
  · exact hremove _ (emitArtifact_tasks _ _ _)
  · exact hremove _ (emitArtifact_tasks _ _ _)
  · rw [emitArtifact_tasks]

theorem not_registered_onChat {opts : Options} {payload : EventPayload} (h : ¬ r.Registered x) :
    ¬ (r.onChat opts x payload).Registered x := by
  simp only [onChat]
  split
  · exact not_registered_removeTask _ x
  · exact not_registered_removeTask _ x
  · exact not_registered_removeTask _ x
  · rwa [registered_emitArtifact]

theorem received_onAgent_other (opts : Options) (r : Registry) (payload : EventPayload)
    (h : y ≠ x) : (r.onAgent opts x payload).received y = r.received y := by
  simp only [onAgent]
  split
  · split <;> simp [received_emitArtifact_other, h]
  · split <;> simp [received_emitArtifact_other, h]

/-- The details that a chat frame adds, the closing one last. -/
def chatDetails (opts : Options) (payload : EventPayload) : List TaskEventDetail :=
  ((frameArtifact opts payload).map fun a => TaskEventDetail.resultCreated (.artifact a)).toList ++
    match payload.state with
    | some "error" => [.failed "GATEWAY_ERROR" (payload.errorMessage.getD "gateway task failed")]
    | some "aborted" => [.failed "GATEWAY_ABORTED" "gateway task was aborted"]
    | some "final" => [.completed]
    | _ => []

theorem chatDetails_eq_nil_iff {opts : Options} {payload : EventPayload} :
    chatDetails opts payload = [] ↔ ChatSilent opts payload := by
  unfold chatDetails ChatSilent endsRun
  cases frameArtifact opts payload with
  | some a => simp
  | none =>
    split
    · simp [*]
    · simp [*]
    · simp [*]
    · simp_all

theorem received_onChat (opts : Options) (r : Registry) (x : Nat) (payload : EventPayload) :
    (r.onChat opts x payload).received x = r.received x ++ chatDetails opts payload := by
  simp only [onChat, chatDetails]
  split <;> simp [emitFailure, received_emitArtifact, *]

theorem received_onChat_other (opts : Options) (r : Registry) (payload : EventPayload)
    (h : y ≠ x) : (r.onChat opts x payload).received y = r.received y := by
  simp only [onChat]
  split <;> simp [emitFailure, received_emitArtifact_other, h]

theorem onChat_silent {payload : EventPayload} (h : ChatSilent opts payload) :
    r.onChat opts x payload = r := by
  obtain ⟨hart, hends⟩ := h
  simp only [endsRun, Bool.or_eq_false_iff, decide_eq_false_iff_not] at hends
  unfold onChat
  rw [hart]
  split <;> simp_all [emitArtifact]

theorem findActive_of_byRun {runId sessionKey : Option String} (h : r.byRun runId = some x) :
    r.findActive runId sessionKey = some x := by
  rw [findActive, h, Option.some_or]

/-- The run id of a frame decides, whatever its session key. -/
theorem findActive_named {runId : String} {sessionKey : Option String} (hne : runId ≠ "")
    (h : r.taskByRun.get runId = some x) : r.findActive (some runId) sessionKey = some x := by
  apply findActive_of_byRun
  have hfilter : (some runId).filter (fun id : String => id ≠ "") = some runId := by simp [hne]
  rw [byRun, hfilter, Option.bind_some, h]

theorem mem_values_of_fallbackActive {sessionKey : Option String}
    (h : r.fallbackActive sessionKey = some x) : x ∈ r.activeByTask.values := by
  unfold fallbackActive at h
  split at h
  · exact List.mem_of_find?_eq_some h
  · split at h
    · exact List.mem_of_mem_head? h
    · cases h

end Registry

end PersistentGatewayClient
