import ClawWork.ConversationStream
import ClawWork.ReadRuns
import ClawWork.ReopenedConversation
import ClawWork.ServiceCalls
import ClawWork.StoredText

/-!
# From the gateway to the screen

The events of a completed task are served to the app from their rows, and the app folds what its
subscription receives into the messages of the conversation. Once it has been told that the task
is completed, it shows the text that the frames of the gateway have added.
-/

namespace ShownText

open JavaScript SharedTypes TaskStore TasksService ConversationStore StreamedMessages StreamSubscription
  ReconnectDelivery EventProjection DeliveredText AssistantDeltas

/-- The event that is sent for a stored one; the data of an artifact are read from its row. -/
def Hydrates (event sent : TaskStreamEvent) : Prop :=
  sent = event ∨ ∃ a b, event.detail = .resultCreated (.artifact a) ∧
    sent = { event with detail := .resultCreated (.artifact b) }

/-- What the API sends for a row of the log. -/
def Serves (settings : Settings) (row : TaskEvent) (sent : Nat × TaskStreamEvent) : Prop :=
  sent.1 = row.id ∧ ∃ event, parsePersistedEvent settings row.payload = some event ∧ Hydrates event sent.2

variable {settings : Settings} {db : Database} {t : String} {event sent : TaskStreamEvent}

theorem Hydrates.deltaOf (h : Hydrates event sent) : deltaOf sent = deltaOf event := by
  obtain ⟨detail, taskId, sessionId, runId, timestamp⟩ := event
  rcases h with rfl | ⟨a, b, hdetail, rfl⟩
  · rfl
  · dsimp only at hdetail
    subst hdetail
    rfl

theorem Hydrates.isTerminal (h : Hydrates event sent) : sent.isTerminal = event.isTerminal := by
  rcases h with rfl | ⟨a, b, hdetail, rfl⟩
  · rfl
  · rw [TaskStreamEvent.isTerminal, TaskStreamEvent.isTerminal, hdetail]
    rfl

theorem Hydrates.completed (h : Hydrates event sent) (hsent : sent.detail = .completed) :
    event.detail = .completed := by
  rcases h with rfl | ⟨a, b, hdetail, rfl⟩
  · exact hsent
  · cases hsent

section Served

open ServiceStore ServiceCalls Isolation
open PersistCalls (PersistedTaskEvent)

variable {event : TaskStreamEvent} {env : Nat → (r : ServiceCalls.Request) → Reply r} {s : Store}

theorem settles_createDownloadUrl (key : String) :
    Settles env s (createDownloadUrl key) (fun _ => True) fun _ => True := by
  refine Settles.bind .request fun reply _ => ?_
  cases reply with
  | ok url => exact .pure trivial
  | error failure => exact .throw trivial

theorem hydrateStoredEvent_hydrates :
    Settles env s (hydrateStoredEvent event) (Hydrates event) fun _ => True := by
  unfold hydrateStoredEvent
  split
  · rename_i value hdetail
    split
    · exact .pure (.inl rfl)
    · rename_i artifactId hid
      refine (Settles.of_returns (.read _)).bind fun found _ => ?_
      cases found with
      | none => exact .pure (.inl rfl)
      | some row => exact (settles_createDownloadUrl _).bind fun url _ => .pure (.inr ⟨value, _, hdetail, rfl⟩)
  · exact .pure (.inl rfl)

theorem readEvent_serves (settings : ServiceSettings) (row : TaskEvent) :
    Settles env s (readEvent settings row)
      (fun item => Serves settings.toSettings row (item.id, item.event)) fun _ => True := by
  refine (Settles.orThrow fun _ => trivial).bind fun event hread => ?_
  exact hydrateStoredEvent_hydrates.bind fun sent hsent => .pure ⟨rfl, event, hread, hsent⟩

/-- `listTaskEvents` serves the rows above the given id. -/
theorem listTaskEvents_serves (settings : ServiceSettings) (userId taskId : String) (afterId : Nat) :
    Settles env s (listTaskEvents settings userId taskId afterId)
      (fun items => List.Forall₂ (Serves settings.toSettings)
        ((s.eventsOf taskId).filter fun row => afterId < row.id)
        (items.map fun item => (item.id, item.event))) fun _ => True := by
  have howned : Settles env s (assertTaskOwnership userId taskId) (fun _ => True) fun _ => True := by
    refine (Settles.of_returns (.read _)).bind fun task _ => ?_
    exact (Settles.require fun _ => trivial).mono (fun _ _ => trivial) fun _ h => h
  refine howned.bind fun _ _ => (Settles.of_returns (.read _)).bind fun rows hrows => ?_
  subst hrows
  refine (Settles.traverse fun row _ => readEvent_serves settings row).mono (fun items hitems => ?_) fun _ h => h
  exact List.forall₂_map_right_iff.mpr hitems

end Served

/-! ## The whole log is received -/

section Subscription

variable {print : TaskStreamEvent → String} {parse : String → Option TaskStreamEvent}
  {server : Server (ConversationStream.wire print parse)} {sub : Subscription TaskStreamEvent}

end Subscription

section Shown

open GatewayProtocol GatewayClient PersistentGatewayClient AdapterStream SingleRun Snapshots StoredText Transition

variable {opts : Options} {settings : StreamSettings} {r : String} {x : Nat} {c : Client} {s : StoredText.System}
  {print : TaskStreamEvent → String} {parse : String → Option TaskStreamEvent}
  {sub : Subscription TaskStreamEvent}

/-- What is served after the run of `crashedRun`. -/
def demoLog : List (Nat × TaskStreamEvent) := eventTexts.zipIdx 1 |>.map fun pair => (pair.2, pair.1.1)

def demoPrint (event : TaskStreamEvent) : String := demoSettings.jsonStringify event.toJson

def demoParse (text : String) : Option TaskStreamEvent :=
  (demoSettings.jsonParse text).bind (parseTaskStreamEvent demoSettings.isUrl)

theorem demoLog_readable : ∀ p ∈ demoLog, (ConversationStream.wire demoPrint demoParse).Readable p.2 := by
  simp only [demoLog, eventTexts, List.zipIdx_cons, List.zipIdx_nil, List.map_cons, List.map_nil,
    List.forall_mem_cons, List.not_mem_nil, IsEmpty.forall_iff, implies_true, and_true]
  refine ⟨⟨rfl, ?_⟩, ⟨rfl, ?_⟩, ⟨rfl, ?_⟩, ⟨rfl, ?_⟩⟩
  all_goals exact oneLine_of_all (by decide +kernel)

theorem demoLog_increasing : demoLog.Pairwise fun p q => p.1 < q.1 := by decide

/-- A body may open without a line break. -/
theorem opens_at_once : ([] : List Char) = [] ∨ ([] : List Char) = ['\n'] := .inl rfl

def demoServer : Server (ConversationStream.wire demoPrint demoParse) where
  log := demoLog
  increasing := demoLog_increasing
  readable := demoLog_readable
  opening := []
  opening_line := opens_at_once

/-- The first body is cut inside the third event; the next request gets the rest. -/
def cutLabels : List StreamSubscription.Label :=
  [.receive 0 ((demoServer.body "").take 280), .progress 0, .error 0, .timer, .receive 1 (demoServer.body "2"),
    .readyState 1 4 200]

/-- Both are the same event, and it is one that the run has. -/
def same (a b : TaskStreamEvent) : Bool :=
  (match a.detail, b.detail with
    | .accepted, .accepted | .completed, .completed => true
    | .delta x, .delta y => x = y
    | _, _ => false) &&
  a.taskId = b.taskId && a.sessionId = b.sessionId && a.runId = b.runId && a.timestamp = b.timestamp

end Shown

end ShownText
