import ClawWork.TaskStore

/-!
# The task service

The database transactions of the service, each as one function of the database,
and the events that its calls persist. A call is a sequence of such transactions
with reads between them; `Transaction.apply` is one of them, so that every
schedule of calls is a list of transactions.
-/

namespace TasksService

open JavaScript SharedTypes TaskStore

/-- The settings of the process that the service reads. -/
structure Settings where
  concurrentLimit : Nat
  /-- The URL check of the schema library. -/
  isUrl : String → Bool

/-- `if (sourceEventId)`: the empty string counts as absent. -/
def truthy (sourceEventId : Option String) : Option String := sourceEventId.filter fun s => s ≠ ""

def parsePersistedEvent (settings : Settings) (payload : Json) : Option TaskStreamEvent :=
  parseTaskStreamEvent settings.isUrl payload

/-- What `archiveResultArtifact` has stored of a downloaded artifact, and the URL signed for it. -/
structure Archived where
  artifactId : String
  fileName : String
  sizeBytes : Nat
  storageKey : String
  signedUrl : String
  deriving DecidableEq

/-- The two forms of an event that `prepareTaskEvent` returns. -/
structure Prepared where
  stored : TaskStreamEvent
  published : TaskStreamEvent

/-- `prepareTaskEvent`; `none` when it throws. -/
def prepareTaskEvent (archived : Option Archived) (event : TaskStreamEvent) : Option Prepared :=
  match event.detail with
  | .resultCreated (.artifact a) =>
    if a.downloadUrl.getD "" = "" then none
    else archived.map fun r =>
      let artifact := { a with
        artifactId := some r.artifactId, fileName := r.fileName, sizeBytes := some r.sizeBytes,
        downloadUrl := none }
      { stored := { event with detail := .resultCreated (.artifact artifact) }
        published := { event with detail := .resultCreated (.artifact
          { artifact with downloadUrl := some r.signedUrl }) } }
  | .resultCreated (.record _) => none
  | _ => some ⟨event, event⟩

def deltaOf : TaskStreamEvent → Option String
  | ⟨.delta delta, _, _, _, _⟩ => some delta
  | _ => none

def resultOf : TaskStreamEvent → Option ResultPayload
  | ⟨.resultCreated result, _, _, _, _⟩ => some result
  | _ => none

/-- The deltas of a list of events, joined. -/
def outputText (events : List TaskStreamEvent) : String := String.join (events.filterMap deltaOf)

/-- The last structured result, or the text itself. -/
def outputJson (events : List TaskStreamEvent) : Json :=
  match events.reverse.findSome? resultOf with
  | some result => result.toJson
  | none => .obj [("type", .str "text"), ("text", .str (outputText events))]

/-- The `data` of the `task.update` that goes with an event; `task` is the row as the transaction
has read it. -/
def taskUpdate (now : String) (task : Task) (stored : TaskStreamEvent) (row : Task) : Task :=
  match stored.detail with
  | .accepted => { row with
      status := .running, runId := some stored.runId, startedAt := task.startedAt.or (some now) }
  | .failed code message => { row with
      status := .failed, errorCode := some code, errorMessage := some message,
      completedAt := some now }
  | .cancelled message => { row with
      status := .cancelled, errorCode := some "TASK_CANCELLED", errorMessage := some message,
      completedAt := some now }
  | .completed => { row with
      status := .completed, completedAt := some now, errorCode := none, errorMessage := none }
  | .stageChanged _ | .delta _ | .resultCreated _ => row

/-- The status that an event of a type leads to. -/
def newStatus : TaskEventDetail → Option TaskStatus
  | .accepted => some .running
  | .failed _ _ => some .failed
  | .cancelled _ => some .cancelled
  | .completed => some .completed
  | .stageChanged _ | .delta _ | .resultCreated _ => none

theorem taskUpdate_status (now : String) (task : Task) (stored : TaskStreamEvent) (row : Task) :
    (taskUpdate now task stored row).status = (newStatus stored.detail).getD row.status := by
  cases h : stored.detail <;> simp [taskUpdate, newStatus, h]

@[simp] theorem taskUpdate_id (now : String) (task : Task) (stored : TaskStreamEvent) (row : Task) :
    (taskUpdate now task stored row).id = row.id := by
  unfold taskUpdate
  split <;> rfl

/-- The `data` of the `appSession.update` that goes with an event. -/
def sessionUpdate (task : Task) (stored : TaskStreamEvent) (row : AppSession) : AppSession :=
  match stored.detail with
  | .failed _ _ => { row with status := .failed }
  | .cancelled _ => { row with status := .cancelled }
  | .completed => { row with status := .completed, currentTaskId := some task.id }
  | .accepted | .stageChanged _ | .delta _ | .resultCreated _ => row

/-- The artifacts of a task that belong to no result yet. -/
def linkArtifacts (taskId resultId : String) (db : Database) : Database :=
  { db with
    resultArtifacts := db.resultArtifacts.map fun row : ResultArtifact =>
      if row.taskId = taskId ∧ row.resultId = none then { row with resultId := some resultId }
      else row }

/-- The result of a task, with the version that follows the latest one. -/
def newResult (resultId : String) (task : Task) (text : String) (json : Json) (version : Nat) :
    TaskResult :=
  { id := resultId, taskId := task.id, sessionId := task.sessionId, versionNo := version + 1,
    outputText := text, outputJson := json }

/-- The `task.completed` branch of the transaction; `none` when a statement throws. -/
def completeTask (settings : Settings) (now resultId : String) (task : Task)
    (stored : TaskStreamEvent) (db : Database) : Option Database := do
  let events ← (db.eventsOf task.id).mapM fun row => parsePersistedEvent settings row.payload
  let result := newResult resultId task (outputText events) (outputJson events)
    (db.latestVersion task.sessionId)
  if db.violatesVersion result then none
  else
    let db := linkArtifacts task.id resultId { db with taskResults := db.taskResults ++ [result] }
    let db := db.updateTask task.id (taskUpdate now task stored)
    some (db.updateSession task.sessionId (sessionUpdate task stored))

/-- The statements that follow the insertion of the event, by its type. -/
def projectEvent (settings : Settings) (now resultId : String) (task : Task)
    (stored : TaskStreamEvent) (db : Database) : Option Database :=
  match stored.detail with
  | .accepted => some (db.updateTask task.id (taskUpdate now task stored))
  | .failed _ _ | .cancelled _ =>
    let db := db.updateTask task.id (taskUpdate now task stored)
    some (db.updateSession task.sessionId (sessionUpdate task stored))
  | .completed => completeTask settings now resultId task stored db
  | .stageChanged _ | .delta _ | .resultCreated _ => some db

/-- How a transaction ends: it returns the id of the inserted row, returns `null`, or throws. -/
inductive Outcome where
  | persisted (id : Nat)
  | skipped
  | threw
  deriving DecidableEq

/-- The id that a rolled back transaction has drawn is lost. -/
def rollback (db : Database) : Outcome × Database :=
  (.threw, { db with nextEventId := db.nextEventId + 1 })

/-- The `$transaction` of `persistTaskEvent`. -/
def persistTransaction (settings : Settings) (now resultId : String) (stored : TaskStreamEvent)
    (sourceEventId : Option String) (db : Database) : Outcome × Database :=
  match db.tasks.get stored.taskId with
  | none => (.skipped, db)
  | some task =>
    if task.status.isTerminal then (.skipped, db)
    else if (truthy sourceEventId).any fun source => db.hasSourceEvent stored.taskId source then
      (.skipped, db)
    else if db.violatesSource stored.taskId sourceEventId then rollback db
    else
      match projectEvent settings now resultId task stored
          (db.createEvent stored.taskId sourceEventId stored) with
      | some db' => (.persisted db.nextEventId, db')
      | none => rollback db

/-- The session and task that the transaction of `enqueueTask` creates. -/
structure NewTask where
  taskId : String
  userId : String
  parentTaskId : Option String
  inputText : String
  /-- The session to use, or the id and title of a new one. -/
  session : String ⊕ (String × String)

/-- The session of a new task: one of the user's, or a new one. -/
def sessionForTask (new : NewTask) (db : Database) : Option (Database × String) :=
  match new.session with
  | .inl sessionId => do
    let session ← db.sessions.get sessionId
    if session.userId = new.userId then some (db, sessionId) else none
  | .inr (sessionId, title) =>
    if (db.sessions.get sessionId).isSome then none
    else
      let session := ⟨sessionId, new.userId, title, .queued, none⟩
      some ({ db with sessions := db.sessions.set sessionId session }, sessionId)

/-- The `$transaction` of `enqueueTask`; the identifiers are those the database generates. -/
def enqueueTransaction (settings : Settings) (new : NewTask) (db : Database) : Option Database :=
  if settings.concurrentLimit ≤ db.activeTasks new.userId ∨ (db.tasks.get new.taskId).isSome then none
  else do
    let (db, sessionId) ← sessionForTask new db
    let created : Task :=
      { id := new.taskId, sessionId, userId := new.userId, parentTaskId := new.parentTaskId,
        status := .queued, inputText := trim new.inputText, runId := none, adapterStreamUrl := none,
        errorCode := none, errorMessage := none, startedAt := none, completedAt := none,
        queueJobId := none, attemptCount := 0 }
    let db := { db with tasks := db.tasks.set new.taskId created }
    some (db.updateSession sessionId fun row => { row with
      currentTaskId := some new.taskId, status := .queued })

/-- The conditional update of `dispatchTask`. -/
def dispatchUpdate (taskId runId streamUrl now : String) (db : Database) : Database :=
  db.updateTask taskId fun row =>
    if row.status = .queued then { row with
      status := .running, runId := some runId, adapterStreamUrl := some streamUrl,
      startedAt := some now, errorCode := none, errorMessage := none }
    else row

/-- The event that `failTask` goes on to persist after it has read the task. -/
def failTaskEvent (db : Database) (taskId code message now : String) : Option TaskStreamEvent :=
  match db.tasks.get taskId with
  | some task =>
    if task.status.isTerminal then none
    else some ⟨.failed code message, task.id, task.sessionId, task.runId.getD task.id, now⟩
  | none => none

/-- The event that `cancelTask` persists for the task it has read. -/
def cancelTaskEvent (task : Task) (now : String) : TaskStreamEvent :=
  ⟨.cancelled "task cancelled by user", task.id, task.sessionId, task.runId.getD task.id, now⟩

/-- The transactions of the service that touch no event. -/
inductive Single where
  | enqueue (new : NewTask)
  | setQueueJobId (taskId jobId : String)
  | incrementAttempt (taskId : String)
  | dispatch (taskId runId streamUrl now : String)
  | setSessionRunning (sessionId : String)
  | archive (row : ResultArtifact)

def Single.apply (settings : Settings) (db : Database) : Single → Option Database
  | .enqueue new => enqueueTransaction settings new db
  | .setQueueJobId taskId jobId =>
    some (db.updateTask taskId fun row => { row with queueJobId := some jobId })
  | .incrementAttempt taskId =>
    some (db.updateTask taskId fun row => { row with attemptCount := row.attemptCount + 1 })
  | .dispatch taskId runId streamUrl now => some (dispatchUpdate taskId runId streamUrl now db)
  | .setSessionRunning sessionId =>
    some (db.updateSession sessionId fun row => { row with status := .running })
  | .archive row => some { db with resultArtifacts := db.resultArtifacts ++ [row] }

/-- The database transactions of the service. -/
inductive Transaction where
  | single (tx : Single)
  | persist (event : TaskStreamEvent) (archived : Option Archived) (sourceEventId : Option String)
      (now resultId : String)
  /-- `failTask`, or `cancelTask`, whose read and transaction follow each other directly. -/
  | failTask (taskId code message now resultId : String)
  | cancelTask (userId taskId now resultId : String)

def Transaction.apply (settings : Settings) (db : Database) : Transaction → Option Database
  | .single tx => tx.apply settings db
  | .persist event archived sourceEventId now resultId => do
    let prepared ← prepareTaskEvent archived event
    some (persistTransaction settings now resultId prepared.stored sourceEventId db).2
  | .failTask taskId code message now resultId => do
    let event ← failTaskEvent db taskId code message now
    some (persistTransaction settings now resultId event none db).2
  | .cancelTask userId taskId now resultId => do
    let task ← db.tasks.get taskId
    if task.userId = userId ∧ task.status.isTerminal = false then
      some (persistTransaction settings now resultId (cancelTaskEvent task now) none db).2
    else none

/-- The event of a result has its artifact as it was archived; any other event stays as it is. -/
theorem prepareTaskEvent_eq_some {archived : Option Archived} {event : TaskStreamEvent} {prepared : Prepared}
    (h : prepareTaskEvent archived event = some prepared) :
    (∃ a r, event.detail = .resultCreated (.artifact a) ∧ a.downloadUrl.getD "" ≠ "" ∧ archived = some r ∧
      prepared =
        { stored := { event with detail := .resultCreated (.artifact { a with
            artifactId := some r.artifactId, fileName := r.fileName, sizeBytes := some r.sizeBytes,
            downloadUrl := none }) }
          published := { event with detail := .resultCreated (.artifact { a with
            artifactId := some r.artifactId, fileName := r.fileName, sizeBytes := some r.sizeBytes,
            downloadUrl := some r.signedUrl }) } }) ∨
      (∀ result, event.detail ≠ .resultCreated result) ∧ prepared = ⟨event, event⟩ := by
  unfold prepareTaskEvent at h
  split at h
  · rename_i a hdetail
    split at h
    · cases h
    · rename_i hurl
      obtain ⟨r, hr, rfl⟩ := Option.map_eq_some_iff.mp h
      exact .inl ⟨a, r, hdetail, hurl, hr, rfl⟩
  · cases h
  · rename_i hartifact hrecord
    refine .inr ⟨fun result hdetail => ?_, (Option.some.inj h).symm⟩
    cases result with
    | artifact a => exact hartifact a hdetail
    | record fields => exact hrecord fields hdetail

/-- Both forms are about the task of the event. -/
theorem prepareTaskEvent_taskId {archived : Option Archived} {event : TaskStreamEvent} {prepared : Prepared}
    (h : prepareTaskEvent archived event = some prepared) :
    prepared.stored.taskId = event.taskId ∧ prepared.published.taskId = event.taskId := by
  obtain ⟨a, r, -, -, -, rfl⟩ | ⟨-, rfl⟩ := prepareTaskEvent_eq_some h
  · exact ⟨rfl, rfl⟩
  · exact ⟨rfl, rfl⟩

theorem prepareTaskEvent_storable {archived : Option Archived} {event : TaskStreamEvent}
    {prepared : Prepared} (h : prepareTaskEvent archived event = some prepared) :
    prepared.stored.detail.Storable := by
  obtain ⟨a, r, -, -, -, rfl⟩ | ⟨hplain, rfl⟩ := prepareTaskEvent_eq_some h
  · exact rfl
  · cases hdetail : event.detail with
    | resultCreated result => exact absurd hdetail (hplain result)
    | _ => trivial

/-- `failTask` reports on a task that is there and not at its end. -/
theorem failTaskEvent_eq_some_iff {db : Database} {taskId code message now : String} {event : TaskStreamEvent} :
    failTaskEvent db taskId code message now = some event ↔
      ∃ task, db.tasks.get taskId = some task ∧ task.status.isTerminal = false ∧
        event = ⟨.failed code message, task.id, task.sessionId, task.runId.getD task.id, now⟩ := by
  constructor
  · intro h
    unfold failTaskEvent at h
    split at h
    · rename_i task htask
      split at h
      · cases h
      · rename_i hopen
        exact ⟨task, htask, Bool.eq_false_iff.mpr hopen, (Option.some.inj h).symm⟩
    · cases h
  · rintro ⟨task, htask, hopen, rfl⟩
    simp [failTaskEvent, htask, hopen]

theorem failTaskEvent_eq_none_iff {db : Database} {taskId code message now : String} :
    failTaskEvent db taskId code message now = none ↔
      ∀ task, db.tasks.get taskId = some task → task.status.isTerminal = true := by
  unfold failTaskEvent
  cases db.tasks.get taskId with
  | none => simp
  | some task => cases hterminal : task.status.isTerminal <;> simp [hterminal]

/-- The session of a new task is one of its user that is there, or a new one. -/
theorem sessionForTask_eq_some {new : NewTask} {db db' : Database} {sessionId : String}
    (h : sessionForTask new db = some (db', sessionId)) :
    (new.session = .inl sessionId ∧ (db.sessions.get sessionId).isSome = true ∧ db' = db) ∨
      ∃ title, new.session = .inr (sessionId, title) ∧
        db' = { db with sessions := db.sessions.set sessionId ⟨sessionId, new.userId, title, .queued, none⟩ } := by
  unfold sessionForTask at h
  split at h
  · rename_i hnew
    obtain ⟨session, hget, h⟩ := Option.bind_eq_some_iff.mp h
    split at h <;> cases h
    exact .inl ⟨hnew, by rw [hget]; rfl, rfl⟩
  · rename_i title hnew
    split at h <;> cases h
    exact .inr ⟨title, hnew, rfl⟩

theorem sessionForTask_tasks {new : NewTask} {db db' : Database} {sessionId : String}
    (h : sessionForTask new db = some (db', sessionId)) :
    db'.tasks = db.tasks ∧ db'.taskEvents = db.taskEvents ∧ db'.taskResults = db.taskResults ∧
      db'.nextEventId = db.nextEventId := by
  obtain ⟨-, -, rfl⟩ | ⟨title, -, rfl⟩ := sessionForTask_eq_some h
  · exact ⟨rfl, rfl, rfl, rfl⟩
  · exact ⟨rfl, rfl, rfl, rfl⟩

/-- The id of a new task is new; its row is inserted after its session was found or created. -/
theorem enqueueTransaction_eq_some {settings : Settings} {new : NewTask} {db db' : Database}
    (h : enqueueTransaction settings new db = some db') :
    db.tasks.get new.taskId = none ∧ ∃ db₁ sessionId, sessionForTask new db = some (db₁, sessionId) ∧
      db' = Database.updateSession
        { db₁ with
          tasks := db₁.tasks.set new.taskId
            { id := new.taskId, sessionId, userId := new.userId, parentTaskId := new.parentTaskId,
              status := .queued, inputText := trim new.inputText, runId := none, adapterStreamUrl := none,
              errorCode := none, errorMessage := none, startedAt := none, completedAt := none,
              queueJobId := none, attemptCount := 0 } }
        sessionId fun row => { row with currentTaskId := some new.taskId, status := .queued } := by
  unfold enqueueTransaction at h
  split at h
  · cases h
  · rename_i hguard
    obtain ⟨⟨db₁, sessionId⟩, hsession, h⟩ := Option.bind_eq_some_iff.mp h
    exact ⟨by simpa using (not_or.mp hguard).2, db₁, sessionId, hsession, (Option.some.inj h).symm⟩

end TasksService
