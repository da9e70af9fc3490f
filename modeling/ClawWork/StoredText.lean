import ClawWork.AssistantDeltas
import ClawWork.DeliveredText

/-!
# From the gateway to the database

The persistent gateway client and the relay of one task run side by side: what the client emits
while it handles a frame goes to the broker at once, and reaches the database when the relay
comes to it. A task that is completed in the database has all of the text that the gateway has
sent for its run, whatever the relay went through and whatever else the client did meanwhile.
-/

namespace StoredText

open JavaScript SharedTypes GatewayProtocol GatewayClient PersistentGatewayClient TaskStore TasksService AdapterRelay
  TaskEventBroker AdapterStream RelayRestarts SingleRun Snapshots AssistantDeltas DeliveredText Transition

structure System where
  client : Client
  api : RelayRestarts.State

inductive Label where
  /-- A frame of the gateway arrives. -/
  | frame (arrival : Arrival)
  | other (l : RelayRestarts.Label)

/-- `onEvent` of the handlers. -/
def onEvent (entry : Entry) : Option RelayRestarts.Label :=
  match entry.effect with
  | .event event => some (.publish entry.taskId event)
  | _ => none

/-- What the client emits while it handles a frame. -/
def news (opts : Options) (c : Client) (arrival : Arrival) : List Entry :=
  (receive opts c arrival).registry.log.drop c.registry.log.length

def publishAll (settings : StreamSettings) (t : String) (api : RelayRestarts.State) (entries : List Entry) :
    RelayRestarts.State :=
  entries.foldl (fun api entry =>
    match entry.effect with
    | .event event => api.publish settings t entry.taskId event
    | _ => api) api

def step (opts : Options) (settings : StreamSettings) (t : String) (s : System) : Label → Option System
  | .frame arrival =>
    some ⟨receive opts s.client arrival, publishAll settings t s.api (news opts s.client arrival)⟩
  | .other l => (RelayRestarts.step settings t s.api l).map fun api => { s with api }

variable {opts : Options} {settings : StreamSettings} {t r : String} {x : Nat} {c : Client} {s s' : System}

/-! ## The run of the relay -/

/-- What the relay and the broker see of a run. -/
def seen (opts : Options) : Client → List Label → List RelayRestarts.Label
  | _, [] => []
  | c, .frame arrival :: ls => (news opts c arrival).filterMap onEvent ++ seen opts (receive opts c arrival) ls
  | c, .other l :: ls => l :: seen opts c ls

/-- The event that a label publishes for the task. -/
def publishedFor (t : String) : RelayRestarts.Label → Option TaskStreamEvent
  | .publish taskId event => if taskId = t then some event else none
  | _ => none

/-- A frame about something else: it emits nothing for the task, and leaves its object and the two maps alone. -/
structure Elsewhere (opts : Options) (t r : String) (x : Nat) (c : Client) (arrival : Arrival) : Prop where
  silent : ∀ entry ∈ news opts c arrival, entry.taskId ≠ t
  object : (receive opts c arrival).registry.tasks x = c.registry.tasks x
  run : (receive opts c arrival).registry.taskByRun.get r = c.registry.taskByRun.get r
  active : (receive opts c arrival).registry.activeByTask.get t = c.registry.activeByTask.get t

/-- Call `x` has sent the request of the task and waits for the answer. -/
structure Waits (c : Client) (x : Nat) (t : String) : Prop where
  active : c.registry.activeByTask.get t = some x
  task : c.registry.taskId x = t
  snapshot : (c.registry.tasks x).lastAssistantSnapshot = ""

/-- The answer has come, and this is the text of the last frame. -/
structure Follows (c : Client) (x : Nat) (r t : String) (text : List Char) : Prop extends Following c x r text where
  task : c.registry.taskId x = t

theorem waits_insert (c : Client) (x : Nat) (input : ExecuteGatewayTaskInput) (prepared : PreparedGatewayInput) :
    Waits { c with registry := c.registry.insert opts x input prepared } x input.taskId where
  active := by simp [Registry.insert, Registry.write]
  task := by simp [Registry.insert, Registry.write, Registry.taskId]
  snapshot := by simp [Registry.insert, Registry.write]

theorem Waits.elsewhere {arrival : Arrival} (h : Waits c x t) (helse : Elsewhere opts t r x c arrival) :
    Waits (receive opts c arrival) x t where
  active := helse.active.trans h.active
  task := by
    rw [Registry.taskId, helse.object]
    exact h.task
  snapshot := by
    rw [helse.object]
    exact h.snapshot

theorem Follows.elsewhere {text : List Char} {arrival : Arrival} (h : Follows c x r t text)
    (helse : Elsewhere opts t r x c arrival) : Follows (receive opts c arrival) x r t text where
  named := h.named
  run := helse.run.trans h.run
  snapshot := by
    rw [helse.object]
    exact h.snapshot
  task := by
    rw [Registry.taskId, helse.object]
    exact h.task

theorem onAgent_apart (opts : Options) (reg : Registry) {y : Nat} (payload : EventPayload) (hother : x ≠ y) :
    (reg.onAgent opts y payload).tasks x = reg.tasks x ∧
      (reg.onAgent opts y payload).taskByRun = reg.taskByRun ∧
      (reg.onAgent opts y payload).activeByTask = reg.activeByTask := by
  unfold Registry.onAgent
  cases Registry.frameArtifact opts payload <;> dsimp only [Registry.emitArtifact] <;> split <;> split <;>
    simp [Registry.emit, Registry.write, Registry.modify, hother]

theorem onChat_apart (opts : Options) (reg : Registry) {y : Nat} (payload : EventPayload) (hother : x ≠ y)
    (hrun : (reg.tasks y).runId ≠ r) (htask : reg.taskId y ≠ t) :
    (reg.onChat opts y payload).tasks x = reg.tasks x ∧
      (reg.onChat opts y payload).taskByRun.get r = reg.taskByRun.get r ∧
      (reg.onChat opts y payload).activeByTask.get t = reg.activeByTask.get t := by
  have htask' : t ≠ (reg.tasks y).input.taskId := Ne.symm htask
  have hdelete : (if (reg.tasks y).runId = "" then reg.taskByRun else reg.taskByRun.delete (reg.tasks y).runId).get r =
      reg.taskByRun.get r := by
    split
    · rfl
    · rw [OrderedMap.get_delete, if_neg hrun.symm]
  unfold Registry.onChat
  cases Registry.frameArtifact opts payload <;> dsimp only [Registry.emitArtifact] <;> split <;>
    simp [Registry.emitFailure, Registry.emit, Registry.write, Registry.removeTask, Registry.modify, hother, htask']
  all_goals exact hdelete

/-- A frame that names another run of the client is about something else. -/
theorem elsewhere_of_named {y : Nat} {r' now : String} {payload : EventPayload} (hnamed : r' ≠ "")
    (hget : c.registry.taskByRun.get r' = some y) (hrunId : payload.runId = some r') (hother : x ≠ y)
    (hrun : (c.registry.tasks y).runId ≠ r) (htask : c.registry.taskId y ≠ t) :
    Elsewhere opts t r x c ⟨now, .agent payload⟩ ∧ Elsewhere opts t r x c ⟨now, .chat payload⟩ := by
  have hactive : (tick c now).registry.findActive payload.runId payload.sessionKey = some y := by
    rw [hrunId]
    exact Registry.findActive_named hnamed hget
  have hsilent : ∀ {arrival : Arrival} {ds : List TaskEventDetail},
      (receive opts c arrival).registry.log = c.registry.log ++ ds.map (entry (tick c now).registry y) →
      ∀ entry' ∈ news opts c arrival, entry'.taskId ≠ t := by
    intro arrival ds hlog entry' hentry
    rw [news, hlog, List.drop_left] at hentry
    obtain ⟨d, -, rfl⟩ := List.mem_map.mp hentry
    exact htask
  constructor
  · have hreceive : (receive opts c ⟨now, .agent payload⟩).registry =
        (tick c now).registry.onAgent opts y payload := by
      rw [receive, Client.handleMessage, hactive]
    obtain ⟨hobject, hrun', hactive'⟩ := onAgent_apart opts (tick c now).registry payload hother
    refine ⟨hsilent (hreceive ▸ log_onAgent), ?_, ?_, ?_⟩
    · rw [hreceive, hobject]
      rfl
    · rw [hreceive, hrun']
      rfl
    · rw [hreceive, hactive']
      rfl
  · have hreceive : (receive opts c ⟨now, .chat payload⟩).registry =
        (tick c now).registry.onChat opts y payload := by
      rw [receive, Client.handleMessage, hactive]
    obtain ⟨hobject, hrun', hactive'⟩ := onChat_apart opts (tick c now).registry payload hother hrun htask
    refine ⟨hsilent (hreceive ▸ log_onChat), ?_, ?_, ?_⟩
    · rw [hreceive, hobject]
      rfl
    · rw [hreceive, hrun']
      rfl
    · rw [hreceive, hactive']
      rfl

/-- The events that are published for the task during a run. -/
def publications (opts : Options) (t : String) (c : Client) (ls : List Label) : List TaskStreamEvent :=
  (seen opts c ls).filterMap (publishedFor t)

/-- The events of a run say the text of the frames; only the last of them may be terminal. -/
structure Says (text : List Char) (ended : Prop) (events : List TaskStreamEvent) : Prop where
  text : (outputText events).toList = text
  once : ∀ event ∈ events.dropLast, event.isTerminal = false
  open_ : ¬ ended → ∀ event ∈ events, event.isTerminal = false

theorem Says.cons {text text' : List Char} {ended : Prop} {events news : List TaskStreamEvent}
    (h : Says text ended events) (htext : (outputText news).toList = text')
    (hopen : ∀ event ∈ news, event.isTerminal = false) : Says (text' ++ text) ended (news ++ events) where
  text := by rw [outputText_append, String.toList_append, htext, h.text]
  once := by
    intro event hevent
    cases events with
    | nil =>
      rw [List.append_nil] at hevent
      exact hopen event (List.dropLast_subset _ hevent)
    | cons first rest =>
      rw [List.dropLast_append_of_ne_nil (List.cons_ne_nil first rest), List.mem_append] at hevent
      exact hevent.elim (hopen event) (h.once event)
  open_ := fun hended => List.forall_mem_append.mpr ⟨hopen, h.open_ hended⟩

/-- The part of the assumptions that is about the moments at which the relay connects. -/
def InTime (t : String) (s : System) : Label → Prop
  | .frame _ => True
  | .other l => ConnectsInTime t s.api l

instance (t : String) (s : System) (l : Label) : Decidable (InTime t s l) := by
  unfold InTime
  split <;> infer_instance

def eventText (fields : String) : String :=
  "\x7b" ++ fields ++ ",\"taskId\":\"t\",\"sessionId\":\"s\",\"runId\":\"r\",\"timestamp\":\"\"\x7d"

/-- The JSON texts of the events of the run. -/
def eventTexts : List (TaskStreamEvent × String) :=
  [(⟨.accepted, "t", "s", "r", ""⟩, eventText "\"type\":\"task.accepted\""),
    (⟨.delta "hello", "t", "s", "r", ""⟩, eventText "\"type\":\"task.delta\",\"delta\":\"hello\""),
    (⟨.delta " there", "t", "s", "r", ""⟩, eventText "\"type\":\"task.delta\",\"delta\":\" there\""),
    (⟨.completed, "t", "s", "r", ""⟩, eventText "\"type\":\"task.completed\"")]

/-- The JSON functions, on these events. -/
def demoSettings : StreamSettings where
  concurrentLimit := 1
  isUrl := fun _ => true
  jsonParse text := (eventTexts.find? fun pair => pair.2 = text).map fun pair => pair.1.toJson
  jsonStringify json :=
    match parseTaskStreamEvent (fun _ => true) json with
    | some event => ((eventTexts.find? fun pair =>
        pair.1.detail.literal = event.detail.literal ∧ deltaOf pair.1 = deltaOf event).map Prod.snd).getD "null"
    | none => "null"

def connects : List Label :=
  [.other .start, .other (.relay (.database "T" "r0" "")), .other (.relay (.fetched 200 true))]

end StoredText
