import ClawWork.ServiceStore
import ClawWork.TaskStream

/-!
# The calls of the task service

Every operation that the service offers to a user, as a program: its statements and
transactions are actions on the database, everything that comes from elsewhere (the
clock, new ids, the queue, the adapter and the object storage) is a request.
-/

namespace ServiceCalls

open JavaScript SharedTypes TaskStore TasksService ServiceTables DailyQuota EnqueueTask FileCalls StorageQuota
  Isolation ServiceStore
open PersistCalls (PersistedTaskEvent)
open TaskStream (Client sortById)

structure ServiceSettings extends QuotaSettings, StorageSettings where
  /-- `OPENCLAW_ADAPTER_URL` is set. -/
  adapterConfigured : Bool
  jsonParse : String → Option Json
  jsonStringify : Json → String
  base64urlEncode : String → String
  base64urlDecode : String → String
  /-- `new Date(text)`; `none` for an invalid date. -/
  parseDate : String → Option Nat
  /-- The order of texts in the database, and its comparison without regard to case. -/
  textLt : String → String → Bool
  containsInsensitive : String → String → Bool
  /-- The texts of the errors of the database client and of the schema library. -/
  prismaMessage : String → String
  zodMessage : String

/-! ## Requests -/

/-- What becomes of a script that is sent to the counters. -/
inductive ScriptReply where
  | ran
  /-- The script has run, but its answer is lost. -/
  | lost (failure : Failure)
  | failed (failure : Failure)

inductive CancelReply where
  | cancelled
  /-- The adapter answers with an error, and with a message perhaps. -/
  | refused (message : Option String)
  | failed (failure : Failure)

inductive Request where
  | now
  | newId
  | newEventId
  | evalScript (userId : String)
  | enqueueJob (taskId : String)
  | cancelJob (taskId : String)
  | cancelExecution (taskId : String)
  | createUploadUrl (key mimeType : String) (sizeBytes : Nat)
  | inspectObject (key : String)
  | createDownloadUrl (key : String)
  | deleteObject (key : String)
  deriving DecidableEq

def Reply : Request → Type
  | .now | .newEventId => Nat
  | .newId => String
  | .evalScript _ => ScriptReply
  | .cancelExecution _ => CancelReply
  | .enqueueJob _ | .createUploadUrl _ _ _ | .createDownloadUrl _ => Except Failure String
  | .inspectObject _ => Except Failure StoredObject
  | .cancelJob _ | .deleteObject _ => Except Failure Unit

abbrev Call (α : Type) : Type 1 := Program Reply Failure Store α

def now : Call Nat := Program.request Request.now

def newId : Call String := Program.request Request.newId

def newEventId : Call Nat := Program.request Request.newEventId

/-- An `await` that may be rejected. -/
def settle {α : Type} : Except Failure α → Call α
  | .ok a => pure a
  | .error failure => throw failure

def createDownloadUrl (key : String) : Call String := do
  settle (← Program.request (Request.createDownloadUrl key))

def inspectObject (key : String) : Call StoredObject := do
  settle (← Program.request (Request.inspectObject key))

def deleteObject (key : String) : Call Unit := do
  settle (← Program.request (Request.deleteObject key))

def signUpload (key mimeType : String) (sizeBytes : Nat) : Call String := do
  settle (← Program.request (Request.createUploadUrl key mimeType sizeBytes))

def enqueueJob (taskId : String) : Call String := do
  settle (← Program.request (Request.enqueueJob taskId))

def cancelJob (taskId : String) : Call Unit := do
  settle (← Program.request (Request.cancelJob taskId))

def query {α : Type} (q : Store → α) : Call α := Program.exec (.read q)

variable (settings : ServiceSettings)

/-- A script is sent; what it does is the action. -/
def evalScript {α : Type} (userId : String) (script : Statement α) : Call α := do
  match ← Program.request (Request.evalScript userId) with
  | .ran => Program.exec script
  | .lost failure => do
    let _ ← Program.exec script
    throw failure
  | .failed failure => throw failure

def reserveDailyTask (userId : String) : Call Unit := do
  let clock ← now
  let reserved ← evalScript userId (reserveScript settings.dailyLimit userId clock)
  Program.require reserved (.http 429 "daily task quota exceeded")

def releaseDailyTask (userId : String) : Call Unit := do
  let clock ← now
  evalScript userId (releaseScript userId clock)

def requestGatewayCancellation (taskId : String) : Call Unit := do
  Program.require settings.adapterConfigured
    (.http 409 "adapter is unavailable; running task was not cancelled")
  match ← Program.request (Request.cancelExecution taskId) with
  | .cancelled => pure ()
  | .refused message => throw (.http 409 (message.getD "running task could not be cancelled"))
  | .failed failure => throw failure

/-! ## Events -/

/-- The `task.completed` branch of the transaction. -/
def completeTask (now : Nat) (resultId : String) (task : TaskRow) (stored : TaskStreamEvent) : Statement Unit := do
  let rows ← .read fun s => s.eventsOf task.id
  let events ← .orThrow (rows.mapM fun row => parsePersistedEvent settings.toSettings row.payload) .zod
  let version ← .read fun s => s.latestVersion task.sessionId
  let result := newResult resultId task.toTask (outputText events) (outputJson events) version
  createResult { result with createdAt := now }
  linkArtifacts task.id resultId
  updateTask task.id now (taskUpdate (toISOString now) task.toTask stored)
  updateSession task.sessionId now (sessionUpdate task.toTask stored)

/-- The statements that follow the insertion of the event, by its type. -/
def projectEvent (now : Nat) (resultId : String) (task : TaskRow) (stored : TaskStreamEvent) : Statement Unit :=
  match stored.detail with
  | .accepted => updateTask task.id now (taskUpdate (toISOString now) task.toTask stored)
  | .failed _ _ | .cancelled _ => do
    updateTask task.id now (taskUpdate (toISOString now) task.toTask stored)
    updateSession task.sessionId now (sessionUpdate task.toTask stored)
  | .completed => completeTask settings now resultId task stored
  | .stageChanged _ | .delta _ | .resultCreated _ => pure ()

/-- The `$transaction` of `persistTaskEvent`: the id of the inserted row, or nothing. -/
def persistTransaction (now : Nat) (resultId : String) (eventId : Nat) (stored : TaskStreamEvent)
    (sourceEventId : Option String) : Statement (Option Nat) := do
  match ← .read fun s => s.tasks.get stored.taskId with
  | none => return none
  | some task =>
    if task.status.isTerminal then return none
    else
      let source := truthy sourceEventId
      if ← .read fun s => source.any fun source => s.hasSourceEvent stored.taskId source then return none
      else
        createEvent ⟨eventId, stored.taskId, sourceEventId, stored.detail.literal, stored.toJson⟩
        projectEvent settings now resultId task stored
        return some eventId

/-- `persistTaskEvent` for an event of the service itself; the phones are notified apart. -/
def persistTaskEvent (event : TaskStreamEvent) : Call Unit := do
  let prepared ← Program.orThrow (prepareTaskEvent none event)
    (.error "gateway artifact is missing a downloadable file URL")
  let clock ← now
  let resultId ← newId
  let eventId ← newEventId
  let persisted ← Program.exec (persistTransaction settings clock resultId eventId prepared.stored none)
  match persisted with
  | none => pure ()
  | some id => Program.exec (publish ⟨id, prepared.published⟩)

def failTask (taskId code message : String) : Call Unit := do
  match ← query fun s => s.tasks.get taskId with
  | none => pure ()
  | some task =>
    if task.status.isTerminal then pure ()
    else
      let clock ← now
      persistTaskEvent settings
        ⟨.failed code message, task.id, task.sessionId, task.runId.getD task.id, toISOString clock⟩

/-! ## Creation -/

/-- The body of a request for a task. -/
structure CreateTask where
  text : String
  fileIds : List String
  preferredTone : Option String
  preferredLength : Option String

structure EnqueueOptions where
  sessionId : Option String := none
  parentTaskId : Option String := none

structure Created where
  taskId : String
  sessionId : String
  streamUrl : String
  initialStatus : TaskStatus
  errorMessage : Option String
  deriving DecidableEq

structure Route where
  taskType : String
  toneStyle : String
  needFileParse : Bool
  deriving DecidableEq

/-- `text.includes(keyword)`. -/
def includes (text keyword : String) : Bool := text.toList.tails.any fun rest => keyword.toList.isPrefixOf rest

/-- `routeTask`; the keywords have no letters that only other letters are lowered to. -/
def routeTask (text : String) (fileIds : List String) : Route :=
  let text := (trim text).toLower
  let needFileParse := !fileIds.isEmpty
  if ["纪要", "会议纪要"].any (includes text) then ⟨"meeting_minutes", "default", needFileParse⟩
  else if ["邮件", "邮箱", "email", "mail"].any (includes text) then ⟨"email_draft", "formal", needFileParse⟩
  else if ["周报", "汇报"].any (includes text) then ⟨"weekly_report", "formal", needFileParse⟩
  else ⟨"document_summary", "default", needFileParse⟩

/-- The session of a new task: the given one, which must be the user's, or a new one. -/
def sessionForTask (userId : String) (options : EnqueueOptions) (new : SessionRow) : Statement String := do
  match options.sessionId with
  | some sessionId =>
    let session ← .read fun s => s.findSession userId sessionId
    let session ← .orThrow session (.http 404 "session not found")
    return session.id
  | none =>
    createSession new
    return new.id

/-- The `$transaction` of `enqueueTask`; `new` is the row without its session. -/
def enqueueTransaction (userId : String) (options : EnqueueOptions) (session : SessionRow)
    (new : TaskRow) (fileIds : List String) : Statement TaskRow := do
  let active ← .read fun s => s.activeTasks userId
  .require (active < settings.concurrentLimit) (.http 429 "concurrent task quota exceeded")
  let sessionId ← sessionForTask userId options session
  let created := { new with toTask := { new.toTask with sessionId } }
  createTask created fileIds
  updateSession sessionId new.createdAt (queueSession created.toTask)
  return created

/-- The message of an error. -/
def messageOf : Failure → String
  | .http _ message | .error message => message
  | .prisma code => settings.prismaMessage code
  | .zod => settings.zodMessage

def streamUrl (taskId : String) : String := s!"/tasks/{taskId}/stream"

/-- The end of `enqueueTask`: the job is queued, or the task fails. -/
def queueTask (task : TaskRow) : Call Created := do
  let queued : Call Created := do
    let jobId ← enqueueJob task.id
    let clock ← now
    Program.exec (updateTask task.id clock fun row => { row with queueJobId := some jobId })
    return ⟨task.id, task.sessionId, streamUrl task.id, .queued, none⟩
  tryCatch queued fun failure => do
    let message := messageOf settings failure
    failTask settings task.id "TASK_QUEUE_UNAVAILABLE" message
    return ⟨task.id, task.sessionId, streamUrl task.id, .failed, some message⟩

/-- The session that a task without one gets. -/
def newSessionRow (userId sessionId : String) (input : CreateTask) (clock : Nat) : SessionRow where
  id := sessionId
  userId := userId
  title := .ofList ((trim input.text).toList.take 40)
  status := .queued
  currentTaskId := none
  updatedAt := clock

def newTaskRow (userId taskId : String) (input : CreateTask) (options : EnqueueOptions)
    (defaults : UserSettings) (session : SessionRow) (clock : Nat) : TaskRow where
  toTask := newTask ⟨taskId, userId, options.parentTaskId, input.text, .inr (session.id, session.title)⟩ session.id
  taskType := (routeTask input.text input.fileIds).taskType
  preferredTone := input.preferredTone.getD defaults.preferredTone
  preferredLength := input.preferredLength.getD defaults.preferredLength
  createdAt := clock
  updatedAt := clock

/-- The transaction; when it fails, the reservation of the day is released. -/
def commitTask (userId : String) (options : EnqueueOptions) (session : SessionRow) (new : TaskRow)
    (fileIds : List String) : Call TaskRow :=
  tryCatch (Program.exec (enqueueTransaction settings userId options session new fileIds)) fun failure => do
    releaseDailyTask userId
    throw failure

def enqueueTask (userId : String) (input : CreateTask) (options : EnqueueOptions) : Call Created := do
  let defaults ← Program.exec (upsertSettings userId)
  let files ← query fun s => s.uploadedFiles userId input.fileIds
  Program.require (files.length = input.fileIds.dedup.length)
    (.http 400 "one or more files are missing, unowned, or incomplete")
  reserveDailyTask settings userId
  let sessionId ← newId
  let taskId ← newId
  let clock ← now
  let session := newSessionRow userId sessionId input clock
  let new := newTaskRow userId taskId input options defaults session clock
  let task ← commitTask settings userId options session new (files.map File.id)
  queueTask settings task

def createTask (userId : String) (input : CreateTask) : Call Created := enqueueTask settings userId input {}

def taskNotFound : Failure := .http 404 "task not found"

def createFollowUp (userId taskId : String) (input : CreateTask) : Call Created := do
  let parentTask ← query fun s => s.findTask userId taskId
  let parentTask ← Program.orThrow parentTask taskNotFound
  enqueueTask settings userId input { sessionId := parentTask.sessionId, parentTaskId := parentTask.id }

def regenerate (userId taskId : String) : Call Created := do
  let source ← query fun s => (s.findTask userId taskId).map fun task => (task, s.fileIdsOf task.id)
  let (source, fileIds) ← Program.orThrow source taskNotFound
  enqueueTask settings userId
    { text := source.inputText, fileIds, preferredTone := source.preferredTone,
      preferredLength := source.preferredLength }
    { sessionId := source.sessionId, parentTaskId := source.id }

structure Cancelled where
  taskId : String
  status : TaskStatus
  deriving DecidableEq

/-- `cancelTask`; the relay of the task is aborted besides. -/
def cancelTask (userId taskId : String) : Call Cancelled := do
  let task ← query fun s => s.findTask userId taskId
  let task ← Program.orThrow task taskNotFound
  if task.status.isTerminal then return ⟨task.id, task.status⟩
  else
    match task.status with
    | .queued => cancelJob task.id
    | .running => requestGatewayCancellation settings task.id
    | .completed | .failed | .cancelled => pure ()
    let clock ← now
    persistTaskEvent settings (cancelTaskEvent task.toTask (toISOString clock))
    return ⟨task.id, .cancelled⟩

/-! ## Answers -/

structure FileRecord where
  fileId : String
  filename : String
  mimeType : String
  sizeBytes : Nat
  uploadedAt : Option String
  status : FileStatus
  storageKey : String
  deriving DecidableEq

def toFileRecord (file : File) : FileRecord where
  fileId := file.id
  filename := file.filename
  mimeType := file.mimeType
  sizeBytes := file.sizeBytes
  uploadedAt := file.uploadedAt.map toISOString
  status := file.status
  storageKey := file.storageKey

/-- An artifact as a client gets it, with a URL that is signed for it. -/
def toArtifact (row : ResultArtifact) (downloadUrl : String) : Artifact where
  kind := row.kind
  fileName := row.fileName
  mimeType := row.mimeType
  artifactId := some row.id
  downloadUrl := some downloadUrl
  previewText := row.previewText
  sizeBytes := some row.sizeBytes

def toClientResult : ResultRow × List ResultArtifact → Call ResultRow
  | (result, artifacts) => do
    let outputArtifactId := (parseArtifactResult settings.isUrl result.outputJson).bind Artifact.artifactId
    let artifact := (artifacts.find? fun row => some row.id = outputArtifactId).or artifacts.head?
    match artifact with
    | some row =>
      let url ← createDownloadUrl row.storageKey
      return { result with outputJson := artifactResultJson (toArtifact row url).toJson }
    | none => return result

def byVersion (results : List ResultRow) : List ResultRow :=
  results.insertionSort fun a b => a.versionNo ≤ b.versionNo

def byVersionDesc (results : List ResultRow) : List ResultRow :=
  results.insertionSort fun a b => b.versionNo ≤ a.versionNo

def byCreation (tasks : List TaskRow) : List TaskRow :=
  tasks.insertionSort fun a b => a.createdAt ≤ b.createdAt

def byCreationDesc (tasks : List TaskRow) : List TaskRow :=
  tasks.insertionSort fun a b => b.createdAt ≤ a.createdAt

/-- A task with its rows, as it is read for an answer. -/
structure Included where
  task : TaskRow
  results : List (ResultRow × List ResultArtifact)
  files : List File

structure TaskDetail where
  task : TaskRow
  results : List ResultRow
  files : List FileRecord

def getTask (userId taskId : String) : Call TaskDetail := do
  let found ← query fun s => (s.findTask userId taskId).map fun task =>
    (⟨task, s.withArtifacts (byVersion (s.resultsOf task.id)), s.filesOf task.id⟩ : Included)
  let found ← Program.orThrow found taskNotFound
  let results ← Program.traverse (toClientResult settings) found.results
  return ⟨found.task, results, found.files.map toFileRecord⟩

structure HistoryQuery where
  cursor : Option String
  limit : Option Nat
  status : Option TaskStatus
  search : Option String

/-- `decodeHistoryCursor`; the outer `none` is an exception. -/
def decodeHistoryCursor (cursor : Option String) : Option (Option (Nat × String)) :=
  match truthy cursor with
  | none => some none
  | some cursor =>
    match settings.jsonParse (settings.base64urlDecode cursor) with
    | some (.obj fields) =>
      match member fields "updatedAt", member fields "id" with
      | some (.str text), some (.str id) =>
        if id = "" then none else (settings.parseDate text).map fun updatedAt => some (updatedAt, id)
      | _, _ => none
    | _ => none

def encodeHistoryCursor (last : SessionRow) : String :=
  settings.base64urlEncode (settings.jsonStringify
    (.obj [("updatedAt", .str (toISOString last.updatedAt)), ("id", .str last.id)]))

/-- The `where` of the history query, beside the user. -/
def inHistory (filter : HistoryQuery) (cursor : Option (Nat × String)) (row : SessionRow) : Bool :=
  (filter.status.all fun status => row.status = status) &&
    ((truthy filter.search).all fun text => settings.containsInsensitive row.title (trim text)) &&
    cursor.all fun (updatedAt, id) =>
      row.updatedAt < updatedAt || (row.updatedAt = updatedAt && settings.textLt row.id id)

/-- The order of the history: the last update first, then the greater id. -/
def byUpdateDesc (sessions : List SessionRow) : List SessionRow :=
  sessions.insertionSort fun a b =>
    b.updatedAt < a.updatedAt ∨ (a.updatedAt = b.updatedAt ∧ settings.textLt a.id b.id = false)

structure HistoryItem where
  taskId : String
  sessionId : String
  title : String
  prompt : String
  status : TaskStatus
  errorMessage : Option String
  createdAt : String
  updatedAt : String
  deriving DecidableEq

structure HistoryPage where
  items : List HistoryItem
  nextCursor : Option String
  deriving DecidableEq

def historyItem (session : SessionRow) (task : TaskRow) : HistoryItem where
  taskId := task.id
  sessionId := session.id
  title := session.title
  prompt := task.inputText
  status := task.status
  errorMessage := task.errorMessage
  createdAt := toISOString task.createdAt
  updatedAt := toISOString session.updatedAt

def listHistory (userId : String) (filter : HistoryQuery) : Call HistoryPage := do
  let cursor ← Program.orThrow (decodeHistoryCursor settings filter.cursor) (.http 400 "invalid history cursor")
  let limit := filter.limit.getD 20
  let sessions ← query fun s =>
    ((byUpdateDesc settings ((s.sessionsOf userId).filter (inHistory settings filter cursor))).take (limit + 1)).map
      fun session => (session, (byCreationDesc (s.sessionTasks session.id)).head?)
  let page := sessions.take limit
  let items := page.flatMap fun (session, task) => (task.map (historyItem session)).toList
  let last := if sessions.length > limit then page.getLast? else none
  return ⟨items, last.map fun (session, _) => encodeHistoryCursor settings session⟩

structure HistoryTask where
  taskId : String
  parentTaskId : Option String
  inputText : String
  status : TaskStatus
  errorMessage : Option String
  createdAt : String
  files : List FileRecord
  result : Option ResultRow

structure SessionHistory where
  sessionId : String
  title : String
  status : TaskStatus
  currentTaskId : Option String
  tasks : List HistoryTask
  versions : List ResultRow

/-- A session with its rows, as it is read for an answer. -/
structure IncludedSession where
  session : SessionRow
  tasks : List Included
  results : List (ResultRow × List ResultArtifact)

/-- The first of the results, for a client. -/
def firstResult : List (ResultRow × List ResultArtifact) → Call (Option ResultRow)
  | [] => pure none
  | first :: _ => do
    let result ← toClientResult settings first
    return some result

def historyTask (found : Included) : Call HistoryTask := do
  let task := found.task
  let result ← firstResult settings found.results
  return ⟨task.id, task.parentTaskId, task.inputText, task.status, task.errorMessage,
    toISOString task.createdAt, found.files.map toFileRecord, result⟩

def getHistoryTask (userId taskId : String) : Call SessionHistory := do
  let task ← query fun s => s.findTask userId taskId
  let task ← Program.orThrow task taskNotFound
  let found ← query fun s => (s.findSession userId task.sessionId).map fun session =>
    (⟨session,
      (byCreation (s.sessionTasks session.id)).map fun task =>
        ⟨task, s.withArtifacts (byVersionDesc (s.resultsOf task.id)), s.filesOf task.id⟩,
      s.withArtifacts (byVersion (s.sessionResults session.id))⟩ : IncludedSession)
  let found ← Program.orThrow found (.http 404 "task history not found")
  let session := found.session
  let tasks ← Program.traverse (historyTask settings) found.tasks
  let versions ← Program.traverse (toClientResult settings) found.results
  return ⟨session.id, session.title, session.status, session.currentTaskId, tasks, versions⟩

def getVersions (userId taskId : String) : Call (List ResultRow) := do
  let task ← query fun s => s.findTask userId taskId
  let task ← Program.orThrow task taskNotFound
  let results ← query fun s => s.withArtifacts (byVersion (s.sessionResults task.sessionId))
  Program.traverse (toClientResult settings) results

structure ActiveTask where
  id : String
  sessionId : String
  inputText : String
  status : TaskStatus
  createdAt : Nat
  updatedAt : Nat
  deriving DecidableEq

def activeTask (row : TaskRow) : ActiveTask where
  id := row.id
  sessionId := row.sessionId
  inputText := row.inputText
  status := row.status
  createdAt := row.createdAt
  updatedAt := row.updatedAt

def listActiveTasks (userId : String) : Call (List ActiveTask) :=
  query fun s => (byCreationDesc ((s.tasksOf userId).filter fun row => !row.status.isTerminal)).map activeTask

/-- The query of `cleanupUnreferencedFiles`; an empty user id counts as absent. -/
def unreferencedFiles (userId : String) (clock : Nat) (s : Store) : List File :=
  (s.files.values.filter fun row =>
    ((truthy (some userId)).all fun userId => row.userId = userId) && row.status = .uploaded &&
      olderThan settings.unreferencedFileRetentionHours clock row && !s.linked row.id).take cleanupBatch

def cleanupUnreferencedFiles (userId : String) : Call Nat := do
  let clock ← now
  let files ← query (unreferencedFiles settings userId clock)
  let _ ← Program.traverse (fun row : File => do
    deleteObject row.storageKey
    Program.exec (deleteFile row.id)) files
  return files.length

structure DeletedHistory where
  sessionId : String
  deriving DecidableEq

def deleteHistoryTask (userId taskId : String) : Call DeletedHistory := do
  let task ← query fun s => s.findTask userId taskId
  let task ← Program.orThrow task taskNotFound
  let activeCount ← query fun s => s.activeInSession task.sessionId
  Program.require (activeCount = 0) (.http 409 "cancel active tasks before deleting history")
  let artifacts ← query fun s => s.sessionArtifacts userId task.sessionId
  let _ ← Program.traverse (fun row : ResultArtifact => deleteObject row.storageKey) artifacts
  Program.exec (deleteSession task.sessionId)
  let _ ← cleanupUnreferencedFiles settings userId
  return ⟨task.sessionId⟩

/-! ## The event stream -/

def assertTaskOwnership (userId taskId : String) : Call Unit := do
  let task ← query fun s => s.findTask userId taskId
  Program.require task.isSome taskNotFound

def hydrateStoredEvent (event : TaskStreamEvent) : Call TaskStreamEvent := do
  match event.detail with
  | .resultCreated (.artifact value) =>
    match truthy value.artifactId with
    | none => return event
    | some artifactId =>
      match ← query fun s => s.findArtifact artifactId event.taskId with
      | none => return event
      | some row =>
        let url ← createDownloadUrl row.storageKey
        return { event with detail := .resultCreated (.artifact (toArtifact row url)) }
  | _ => return event

def readEvent (row : TaskEvent) : Call PersistedTaskEvent := do
  let event ← Program.orThrow (parsePersistedEvent settings.toSettings row.payload) .zod
  let event ← hydrateStoredEvent event
  return ⟨row.id, event⟩

def listTaskEvents (userId taskId : String) (afterId : Nat) : Call (List PersistedTaskEvent) := do
  assertTaskOwnership userId taskId
  let rows ← query fun s => (s.eventsOf taskId).filter fun row => afterId < row.id
  Program.traverse (readEvent settings) rows

/-- `stream`, as far as the client is sent when the replay has ended; `afterId` is the last event id of
its request. -/
def stream (userId taskId : String) (afterId : Nat) : Call (List PersistedTaskEvent) := do
  let replay ← listTaskEvents settings userId taskId afterId
  let liveQueue ← query fun s => s.publications taskId
  let client : Client := { Client.connect taskId [] with lastSentId := afterId }
  return ((sortById (replay ++ liveQueue)).foldl Client.emit client).received

/-! ## Files -/

structure Upload where
  fileId : String
  uploadUrl : String
  storageKey : String
  deriving DecidableEq

/-- The `$transaction` of `createUploadUrl`. -/
def reserveFile (row : File) : Statement Unit := do
  let usedBytes ← .read fun s => s.usedBytes row.userId
  .require (usedBytes + row.sizeBytes ≤ settings.userStorageBytes) (.http 429 "user storage quota exceeded")
  createFile row

def createUploadUrl (userId : String) (input : CreateUpload) : Call Upload := do
  Program.require (supportedMimeTypes.contains input.mimeType) (.http 415 "file type is not supported")
  Program.require (input.sizeBytes ≤ settings.maxUploadBytes)
    (.http 413 s!"file exceeds the {settings.maxUploadBytes} byte upload limit")
  let fileId ← newId
  let clock ← now
  let row := newFile userId fileId input clock
  Program.exec (reserveFile settings row)
  let signed : Call Upload := do
    let uploadUrl ← signUpload row.storageKey input.mimeType input.sizeBytes
    return ⟨fileId, uploadUrl, row.storageKey⟩
  tryCatch signed fun failure => do
    let clock ← now
    let _ ← Program.exec (updateFile fileId (rejected clock))
    throw failure

def completeUpload (userId : String) (input : CompleteUpload) : Call FileRecord := do
  let file ← query fun s => s.findFile userId input.fileId
  let file ← Program.orThrow file (.http 404 "file upload not found")
  Program.require (metadataMatches file input) (.http 400 "upload completion metadata does not match")
  let object ← inspectObject file.storageKey
  let clock ← now
  if objectMatches file object then
    let row ← Program.exec (updateFile file.id (completed clock object))
    return toFileRecord row
  else
    let _ ← Program.exec (updateFile file.id (rejected clock))
    throw (.http 400 "stored object metadata does not match upload request")

structure FileAnswer where
  record : FileRecord
  downloadUrl : Option String
  deriving DecidableEq

def getFile (userId fileId : String) : Call FileAnswer := do
  let file ← query fun s => s.findFile userId fileId
  let file ← Program.orThrow file (.http 404 "file not found")
  match file.status with
  | .uploaded => do
    let url ← createDownloadUrl file.storageKey
    return ⟨toFileRecord file, some url⟩
  | .uploading | .failed => return ⟨toFileRecord file, none⟩

structure DeletedFile where
  fileId : String
  deriving DecidableEq

def deleteFile (userId fileId : String) : Call DeletedFile := do
  let found ← query fun s => (s.findFile userId fileId).map fun file => (file, s.linked file.id)
  let (file, linked) ← Program.orThrow found (.http 404 "file not found")
  Program.require (!linked) (.http 409 "file is referenced by task history")
  deleteObject file.storageKey
  Program.exec (ServiceStore.deleteFile file.id)
  return ⟨file.id⟩

end ServiceCalls
