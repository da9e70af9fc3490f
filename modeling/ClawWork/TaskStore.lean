import ClawWork.EventJson
import ClawWork.OrderedMap

/-!
# The tables of the API

The rows of the database that the task service reads and writes, and the single
statements it issues. Rows of `TaskEvent` are kept in the order of their ids; the
id sequence is not rolled back with a transaction.
-/

namespace TaskStore

open JavaScript SharedTypes

inductive TaskStatus where
  | queued | running | completed | failed | cancelled
  deriving DecidableEq, Repr

/-- `isTerminalStatus`. -/
def TaskStatus.isTerminal : TaskStatus → Bool
  | .completed | .failed | .cancelled => true
  | .queued | .running => false

structure Task where
  id : String
  sessionId : String
  userId : String
  parentTaskId : Option String
  status : TaskStatus
  inputText : String
  runId : Option String
  adapterStreamUrl : Option String
  errorCode : Option String
  errorMessage : Option String
  startedAt : Option String
  completedAt : Option String
  queueJobId : Option String
  attemptCount : Nat
  deriving DecidableEq

structure AppSession where
  id : String
  userId : String
  title : String
  status : TaskStatus
  currentTaskId : Option String
  deriving DecidableEq

structure TaskEvent where
  id : Nat
  taskId : String
  sourceEventId : Option String
  type : String
  payload : Json

structure TaskResult where
  id : String
  taskId : String
  sessionId : String
  versionNo : Nat
  outputText : String
  outputJson : Json

structure ResultArtifact where
  id : String
  userId : String
  taskId : String
  resultId : Option String
  kind : ArtifactKind
  fileName : String
  mimeType : String
  sizeBytes : Nat
  storageKey : String
  previewText : String
  deriving DecidableEq

structure Database where
  tasks : OrderedMap String Task
  sessions : OrderedMap String AppSession
  taskEvents : List TaskEvent
  nextEventId : Nat
  taskResults : List TaskResult
  resultArtifacts : List ResultArtifact

namespace Database

def empty : Database where
  tasks := .empty
  sessions := .empty
  taskEvents := []
  nextEventId := 1
  taskResults := []
  resultArtifacts := []

/-- `task.update` by primary key; a missing row is an error, which has no effect. -/
def updateTask (db : Database) (id : String) (data : Task → Task) : Database :=
  match db.tasks.get id with
  | some task => { db with tasks := db.tasks.set id (data task) }
  | none => db

/-- `appSession.update` by primary key. -/
def updateSession (db : Database) (id : String) (data : AppSession → AppSession) : Database :=
  match db.sessions.get id with
  | some session => { db with sessions := db.sessions.set id (data session) }
  | none => db

/-- `taskEvent.findMany` for a task, ordered by id. -/
def eventsOf (db : Database) (taskId : String) : List TaskEvent :=
  db.taskEvents.filter fun row => row.taskId = taskId

def status (db : Database) (taskId : String) : Option TaskStatus :=
  (db.tasks.get taskId).map Task.status

def resultsOf (db : Database) (taskId : String) : List TaskResult :=
  db.taskResults.filter fun row => row.taskId = taskId

/-- `taskEvent.findUnique` on the unique pair of a task and a source event id. -/
def hasSourceEvent (db : Database) (taskId sourceEventId : String) : Bool :=
  db.taskEvents.any fun row => row.taskId = taskId && row.sourceEventId = some sourceEventId

/-- The unique index does not compare rows without a source event id. -/
def violatesSource (db : Database) (taskId : String) (sourceEventId : Option String) : Bool :=
  sourceEventId.any fun source => db.hasSourceEvent taskId source

/-- `taskEvent.create`: the id is drawn before the unique index is checked. -/
def createEvent (db : Database) (taskId : String) (sourceEventId : Option String)
    (stored : TaskStreamEvent) : Database :=
  { db with
    nextEventId := db.nextEventId + 1
    taskEvents := db.taskEvents ++
      [⟨db.nextEventId, taskId, sourceEventId, stored.detail.literal, stored.toJson⟩] }

/-- The highest version number of a session, zero when there is none. -/
def latestVersion (db : Database) (sessionId : String) : Nat :=
  ((db.taskResults.filter fun row => row.sessionId = sessionId).map TaskResult.versionNo).foldl max 0

/-- The unique indexes of `TaskResult`. -/
def violatesVersion (db : Database) (row : TaskResult) : Bool :=
  db.taskResults.any fun old =>
    (old.sessionId = row.sessionId || old.taskId = row.taskId) && old.versionNo = row.versionNo

def activeTasks (db : Database) (userId : String) : Nat :=
  db.tasks.values.countP fun task => task.userId = userId && !task.status.isTerminal

@[simp] theorem updateTask_taskEvents (db : Database) (id : String) (data : Task → Task) :
    (db.updateTask id data).taskEvents = db.taskEvents := by
  unfold updateTask
  split <;> rfl

@[simp] theorem updateTask_taskResults (db : Database) (id : String) (data : Task → Task) :
    (db.updateTask id data).taskResults = db.taskResults := by
  unfold updateTask
  split <;> rfl

@[simp] theorem updateTask_nextEventId (db : Database) (id : String) (data : Task → Task) :
    (db.updateTask id data).nextEventId = db.nextEventId := by
  unfold updateTask
  split <;> rfl

@[simp] theorem updateTask_resultArtifacts (db : Database) (id : String) (data : Task → Task) :
    (db.updateTask id data).resultArtifacts = db.resultArtifacts := by
  unfold updateTask
  split <;> rfl

theorem updateTask_get (db : Database) (id t : String) (data : Task → Task) :
    (db.updateTask id data).tasks.get t =
      if t = id then (db.tasks.get id).map data else db.tasks.get t := by
  unfold updateTask
  cases h : db.tasks.get id with
  | some task => simp [OrderedMap.get_set]
  | none =>
    by_cases ht : t = id
    · simp [ht, h]
    · simp [ht]

@[simp] theorem updateSession_tasks (db : Database) (id : String) (data : AppSession → AppSession) :
    (db.updateSession id data).tasks = db.tasks := by
  unfold updateSession
  split <;> rfl

@[simp] theorem updateSession_taskEvents (db : Database) (id : String)
    (data : AppSession → AppSession) : (db.updateSession id data).taskEvents = db.taskEvents := by
  unfold updateSession
  split <;> rfl

@[simp] theorem updateSession_taskResults (db : Database) (id : String)
    (data : AppSession → AppSession) : (db.updateSession id data).taskResults = db.taskResults := by
  unfold updateSession
  split <;> rfl

@[simp] theorem updateSession_resultArtifacts (db : Database) (id : String)
    (data : AppSession → AppSession) :
    (db.updateSession id data).resultArtifacts = db.resultArtifacts := by
  unfold updateSession
  split <;> rfl

@[simp] theorem updateSession_nextEventId (db : Database) (id : String)
    (data : AppSession → AppSession) : (db.updateSession id data).nextEventId = db.nextEventId := by
  unfold updateSession
  split <;> rfl

end Database

end TaskStore
