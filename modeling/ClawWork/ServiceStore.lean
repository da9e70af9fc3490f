import ClawWork.Isolation
import ClawWork.PersistCalls
import ClawWork.StorageQuota

/-!
# The database as the calls of the users read it

The rows of the service with the columns that its answers contain, the counters of
the day, and the messages of the event hub that are still on their way. A statement
that violates a primary key, a unique index or a foreign key fails and has no effect.
-/

namespace ServiceStore

open JavaScript SharedTypes TaskStore TasksService ServiceTables DailyQuota Isolation
open PersistCalls (PersistedTaskEvent)
open StorageQuota (fileWeight artifactWeight)

/-- What a call throws. -/
inductive Failure where
  | http (status : Nat) (message : String)
  /-- An error of the database client, by its code. -/
  | prisma (code : String)
  | zod
  | error (message : String)
  deriving DecidableEq

/-- The time within the day, as `toISOString` writes it after the date. -/
def isoTime (clock : Nat) : List Char :=
  let ms := clock % msPerDay
  'T' :: padStart 2 (ms / 3600000) ++ ':' :: padStart 2 (ms / 60000 % 60) ++
    ':' :: padStart 2 (ms / 1000 % 60) ++ '.' :: padStart 3 (ms % 1000) ++ ['Z']

/-- `toISOString`. -/
def toISOString (clock : Nat) : String :=
  let (year, month, day) := civil (clock / msPerDay)
  let yearText := if year ≤ 9999 then padStart 4 year else '+' :: padStart 6 year
  .ofList (yearText ++ '-' :: padStart 2 month ++ '-' :: padStart 2 day ++ isoTime clock)

structure UserSettings where
  userId : String
  preferredTone : String := "balanced"
  preferredLength : String := "standard"
  deriving DecidableEq

structure SessionRow extends AppSession where
  updatedAt : Nat
  deriving DecidableEq

structure TaskRow extends Task where
  taskType : String
  preferredTone : String
  preferredLength : String
  createdAt : Nat
  updatedAt : Nat
  deriving DecidableEq

structure ResultRow extends TaskResult where
  createdAt : Nat

@[ext]
structure Store where
  /-- The ids of the users. -/
  users : List String
  userSettings : OrderedMap String UserSettings
  sessions : OrderedMap String SessionRow
  tasks : OrderedMap String TaskRow
  files : OrderedMap String File
  taskFiles : List TaskFile
  taskResults : List ResultRow
  resultArtifacts : List ResultArtifact
  taskEvents : List TaskEvent
  redis : Redis
  /-- The publications of the hub that its subscribers have yet to hear. -/
  channel : List PersistedTaskEvent

def Store.empty : Store where
  users := []
  userSettings := .empty
  sessions := .empty
  tasks := .empty
  files := .empty
  taskFiles := []
  taskResults := []
  resultArtifacts := []
  taskEvents := []
  redis := .init
  channel := []

namespace Store

variable (s : Store)

/-! ## Queries -/

/-- `task.findFirst` by id and user. -/
def findTask (userId taskId : String) : Option TaskRow :=
  (s.tasks.get taskId).filter fun row => row.userId = userId

/-- `appSession.findFirst` by id and user. -/
def findSession (userId sessionId : String) : Option SessionRow :=
  (s.sessions.get sessionId).filter fun row => row.userId = userId

/-- `file.findFirst` by id and user. -/
def findFile (userId fileId : String) : Option File :=
  (s.files.get fileId).filter fun row => row.userId = userId

/-- The files that a task is linked to, by their ids. -/
def fileIdsOf (taskId : String) : List String :=
  (s.taskFiles.filter fun link => link.taskId = taskId).map TaskFile.fileId

def filesOf (taskId : String) : List File := (s.fileIdsOf taskId).filterMap s.files.get

/-- The links of a file. -/
def linked (fileId : String) : Bool := s.taskFiles.any fun link => link.fileId = fileId

def sessionTasks (sessionId : String) : List TaskRow :=
  s.tasks.values.filter fun row => row.sessionId = sessionId

def tasksOf (userId : String) : List TaskRow := s.tasks.values.filter fun row => row.userId = userId

def sessionsOf (userId : String) : List SessionRow :=
  s.sessions.values.filter fun row => row.userId = userId

def artifactsOf (resultId : String) : List ResultArtifact :=
  s.resultArtifacts.filter fun row => row.resultId = some resultId

/-- `include: { artifacts: true }`. -/
def withArtifacts (results : List ResultRow) : List (ResultRow × List ResultArtifact) :=
  results.map fun row => (row, s.artifactsOf row.id)

def resultsOf (taskId : String) : List ResultRow := s.taskResults.filter fun row => row.taskId = taskId

def sessionResults (sessionId : String) : List ResultRow :=
  s.taskResults.filter fun row => row.sessionId = sessionId

/-- `resultArtifact.findMany` by the session and the user of the task. -/
def sessionArtifacts (userId sessionId : String) : List ResultArtifact :=
  s.resultArtifacts.filter fun row =>
    (s.tasks.get row.taskId).any fun task => task.sessionId = sessionId && task.userId = userId

/-- `resultArtifact.findFirst` by id and task. -/
def findArtifact (artifactId taskId : String) : Option ResultArtifact :=
  s.resultArtifacts.find? fun row => row.id = artifactId && row.taskId = taskId

/-- `taskEvent.findMany` for a task, ordered by id. -/
def eventsOf (taskId : String) : List TaskEvent :=
  (s.taskEvents.filter fun row => row.taskId = taskId).insertionSort fun a b => a.id ≤ b.id

def hasSourceEvent (taskId source : String) : Bool :=
  s.taskEvents.any fun row => row.taskId = taskId && row.sourceEventId = some source

def activeTasks (userId : String) : Nat :=
  s.tasks.values.countP fun row => row.userId = userId && !row.status.isTerminal

def activeInSession (sessionId : String) : Nat :=
  s.tasks.values.countP fun row => row.sessionId = sessionId && !row.status.isTerminal

/-- The highest version number of a session, zero when there is none. -/
def latestVersion (sessionId : String) : Nat :=
  ((s.sessionResults sessionId).map fun row => row.versionNo).foldl max 0

/-- The unique indexes of `TaskResult`. -/
def violatesVersion (row : ResultRow) : Bool :=
  s.taskResults.any fun old =>
    (old.sessionId = row.sessionId || old.taskId = row.taskId) && old.versionNo = row.versionNo

/-- `file.findMany` of the owner's uploaded files. -/
def uploadedFiles (userId : String) (fileIds : List String) : List File :=
  (fileIds.dedup.filterMap s.files.get).filter fun row => row.userId = userId && row.status = .uploaded

/-- The two aggregates of a storage reservation. -/
def usedBytes (userId : String) : Nat :=
  s.files.total (fileWeight userId) + (s.resultArtifacts.map (artifactWeight userId)).sum

/-- The publications that a listener of a task hears. -/
def publications (taskId : String) : List PersistedTaskEvent :=
  s.channel.filter fun published => published.event.taskId = taskId

/-- The task belongs to the session. -/
def inSession (sessionId taskId : String) : Bool :=
  (s.tasks.get taskId).any fun row => row.sessionId = sessionId

end Store

/-! ## Statements -/

abbrev Statement (α : Type) : Type := Action Failure Store α

def recordNotFound : Failure := .prisma "P2025"

def uniqueViolated : Failure := .prisma "P2002"

def foreignKeyViolated : Failure := .prisma "P2003"

/-- A write to a row that may be missing. -/
def attempt (f : Store → Option Store) : Statement Unit := fun s =>
  match f s with
  | some s' => .ok ((), s')
  | none => .error recordNotFound

/-- An insertion; the indexes are checked before the foreign keys. -/
def insertion (unique foreignKeys : Store → Bool) (f : Store → Store) : Statement Unit := fun s =>
  if unique s then
    if foreignKeys s then .ok ((), f s) else .error foreignKeyViolated
  else .error uniqueViolated

/-- `userSettings.upsert` with an empty update. -/
def upsertSettings (userId : String) : Statement UserSettings := fun s =>
  match s.userSettings.get userId with
  | some row => .ok (row, s)
  | none =>
    if userId ∈ s.users then
      .ok ({ userId }, { s with userSettings := s.userSettings.set userId { userId } })
    else .error foreignKeyViolated

/-- The script of `reserveDailyTask` at a reading of the clock. -/
def reserveScript (dailyLimit : Nat) (userId : String) (clock : Nat) : Statement Bool := fun s =>
  let (reserved, redis) := s.redis.reserve dailyLimit (userId, isoDay clock)
  .ok (reserved, { s with redis })

/-- The script of `releaseDailyTask`. -/
def releaseScript (userId : String) (clock : Nat) : Statement Unit :=
  .write fun s => { s with redis := s.redis.release (userId, isoDay clock) }

def createSession (row : SessionRow) : Statement Unit :=
  insertion (fun s => (s.sessions.get row.id).isNone) (fun s => row.userId ∈ s.users) fun s =>
    { s with sessions := s.sessions.set row.id row }

/-- The foreign keys of a task and of its links. -/
def taskReferences (row : TaskRow) (fileIds : List String) (s : Store) : Bool :=
  row.userId ∈ s.users && (s.sessions.get row.sessionId).isSome &&
    (row.parentTaskId.all fun parent => (s.tasks.get parent).isSome) &&
    fileIds.all fun fileId => (s.files.get fileId).isSome

/-- `task.create` with the links of its files. -/
def createTask (row : TaskRow) (fileIds : List String) : Statement Unit :=
  insertion (fun s => (s.tasks.get row.id).isNone) (taskReferences row fileIds) fun s =>
    { s with
      tasks := s.tasks.set row.id row
      taskFiles := s.taskFiles ++ fileIds.map fun fileId => ⟨row.id, fileId⟩ }

/-- `task.update` by primary key. -/
def updateTask (taskId : String) (now : Nat) (data : Task → Task) : Statement Unit :=
  attempt fun s => (s.tasks.get taskId).map fun row =>
    { s with tasks := s.tasks.set taskId { row with toTask := data row.toTask, updatedAt := now } }

/-- `appSession.update` by primary key. -/
def updateSession (sessionId : String) (now : Nat) (data : AppSession → AppSession) : Statement Unit :=
  attempt fun s => (s.sessions.get sessionId).map fun row =>
    { s with
      sessions := s.sessions.set sessionId { row with toAppSession := data row.toAppSession, updatedAt := now } }

/-- `taskEvent.create`. -/
def createEvent (row : TaskEvent) : Statement Unit :=
  insertion (fun s => !(row.sourceEventId.any fun source => s.hasSourceEvent row.taskId source))
    (fun s => (s.tasks.get row.taskId).isSome) fun s => { s with taskEvents := s.taskEvents ++ [row] }

/-- `taskResult.create`. -/
def createResult (row : ResultRow) : Statement Unit :=
  insertion (fun s => !s.violatesVersion row)
    (fun s => (s.tasks.get row.taskId).isSome && (s.sessions.get row.sessionId).isSome) fun s =>
    { s with taskResults := s.taskResults ++ [row] }

/-- `resultArtifact.updateMany` of the artifacts of a task that belong to no result yet. -/
def linkArtifacts (taskId resultId : String) : Statement Unit := .write fun s =>
  { s with
    resultArtifacts := s.resultArtifacts.map fun row : ResultArtifact =>
      if row.taskId = taskId ∧ row.resultId = none then { row with resultId := some resultId } else row }

/-- `resultArtifact.create`. -/
def createArtifact (row : ResultArtifact) : Statement Unit :=
  insertion
    (fun s => s.resultArtifacts.all fun old => old.id ≠ row.id && old.storageKey ≠ row.storageKey)
    (fun s => (s.tasks.get row.taskId).isSome) fun s =>
    { s with resultArtifacts := s.resultArtifacts ++ [row] }

def deleteArtifact (artifactId : String) : Statement Unit := .write fun s =>
  { s with resultArtifacts := s.resultArtifacts.filter fun row => row.id ≠ artifactId }

/-- What the foreign keys delete with a session, or set to null. -/
def withoutSession (sessionId : String) (s : Store) : Store :=
  { s with
    sessions := s.sessions.delete sessionId
    tasks := (s.tasks.filter fun row => row.sessionId ≠ sessionId).mapValues fun row =>
      if row.parentTaskId.any (s.inSession sessionId) then
        { row with toTask := { row.toTask with parentTaskId := none } }
      else row
    taskFiles := s.taskFiles.filter fun link => !s.inSession sessionId link.taskId
    taskEvents := s.taskEvents.filter fun row => !s.inSession sessionId row.taskId
    taskResults := s.taskResults.filter fun row =>
      row.sessionId ≠ sessionId && !s.inSession sessionId row.taskId
    resultArtifacts := (s.resultArtifacts.filter fun row => !s.inSession sessionId row.taskId).map
      fun row : ResultArtifact =>
        if s.taskResults.any fun result => row.resultId = some result.id &&
            (result.sessionId = sessionId || s.inSession sessionId result.taskId) then
          { row with resultId := none }
        else row }

/-- `appSession.delete`. -/
def deleteSession (sessionId : String) : Statement Unit :=
  attempt fun s => if (s.sessions.get sessionId).isSome then some (withoutSession sessionId s) else none

/-- `file.create`. -/
def createFile (row : File) : Statement Unit :=
  insertion
    (fun s => (s.files.get row.id).isNone && s.files.values.all fun old => old.storageKey ≠ row.storageKey)
    (fun s => row.userId ∈ s.users) fun s => { s with files := s.files.set row.id row }

/-- `file.update` by primary key; the updated row. -/
def updateFile (fileId : String) (data : File → File) : Statement File := fun s =>
  match s.files.get fileId with
  | some row => .ok (data row, { s with files := s.files.set fileId (data row) })
  | none => .error recordNotFound

/-- `file.delete`: the links of the file go with it. -/
def deleteFile (fileId : String) : Statement Unit :=
  attempt fun s =>
    if (s.files.get fileId).isSome then
      some { s with
        files := s.files.delete fileId
        taskFiles := s.taskFiles.filter fun link => link.fileId ≠ fileId }
    else none

/-- The hub publishes an event to the listeners of its task. -/
def publish (published : PersistedTaskEvent) : Statement Unit := .write fun s =>
  { s with channel := s.channel ++ [published] }

end ServiceStore
