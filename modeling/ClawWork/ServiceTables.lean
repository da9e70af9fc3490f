import ClawWork.TasksService

/-!
# Files and links

The rows of uploaded files and of their links to tasks, beside the tables of the
task service, and what the foreign keys of the schema do when a file or a session
is deleted: `TaskFile` rows go with their file or task, and everything that
belongs to a session goes with it.
-/

namespace ServiceTables

open TaskStore

inductive FileStatus where
  | uploading | uploaded | failed
  deriving DecidableEq, Repr

structure File where
  id : String
  userId : String
  filename : String
  mimeType : String
  sizeBytes : Nat
  status : FileStatus
  storageKey : String
  etag : Option String
  updatedAt : Nat
  uploadedAt : Option Nat
  deriving DecidableEq

structure TaskFile where
  taskId : String
  fileId : String
  deriving DecidableEq

/-- The task belongs to the session. -/
def inSession (db : Database) (sessionId taskId : String) : Bool :=
  (db.tasks.get taskId).any fun task => task.sessionId = sessionId

/-- The active tasks of a session. -/
def activeInSession (db : Database) (sessionId : String) : Nat :=
  db.tasks.values.countP fun task => task.sessionId = sessionId && !task.status.isTerminal

/-- `appSession.delete`: the tasks and results of the session go with it, with everything that belongs
to them; a follow-up in another session keeps no parent, and an artifact of another task no result. -/
def deleteSession (db : Database) (id : String) : Database :=
  { db with
    sessions := db.sessions.delete id
    tasks := (db.tasks.filter fun task => task.sessionId ≠ id).mapValues fun task =>
      if task.parentTaskId.any (inSession db id) then { task with parentTaskId := none } else task
    taskEvents := db.taskEvents.filter fun row => !inSession db id row.taskId
    taskResults := db.taskResults.filter fun row => row.sessionId ≠ id && !inSession db id row.taskId
    resultArtifacts := (db.resultArtifacts.filter fun row => !inSession db id row.taskId).map fun row =>
      if db.taskResults.any fun result => row.resultId = some result.id &&
          (result.sessionId = id || inSession db id result.taskId) then { row with resultId := none }
      else row }

/-- A task that is left has its session and its status; no task of the session is left. -/
theorem deleteSession_get (db : Database) (id t : String) :
    (deleteSession db id).tasks.get t = ((db.tasks.get t).filter fun task => task.sessionId ≠ id).map
      fun task => if task.parentTaskId.any (inSession db id) then { task with parentTaskId := none }
        else task := by
  rw [deleteSession, OrderedMap.get_mapValues, OrderedMap.get_filter]

structure Tables extends Database where
  files : OrderedMap String File
  taskFiles : List TaskFile

namespace Tables

def empty : Tables := { Database.empty with files := .empty, taskFiles := [] }

/-- A change of the tables of the task service. -/
def lift (db : Tables) (inner : Database) : Tables := { db with toDatabase := inner }

@[simp] theorem lift_toDatabase (db : Tables) (inner : Database) : (db.lift inner).toDatabase = inner := rfl

@[simp] theorem lift_files (db : Tables) (inner : Database) : (db.lift inner).files = db.files := rfl

@[simp] theorem lift_taskFiles (db : Tables) (inner : Database) :
    (db.lift inner).taskFiles = db.taskFiles := rfl

/-- `file.update` by primary key; a missing row is an error, which has no effect. -/
def updateFile (db : Tables) (id : String) (data : File → File) : Tables :=
  match db.files.get id with
  | some file => { db with files := db.files.set id (data file) }
  | none => db

/-- `file.findMany` with `tasks: { none: {} }`, and the count of the links of a file. -/
def linked (db : Tables) (fileId : String) : Bool := db.taskFiles.any fun link => link.fileId = fileId

/-- The links of a task. -/
def filesOf (db : Tables) (taskId : String) : List String :=
  (db.taskFiles.filter fun link => link.taskId = taskId).map TaskFile.fileId

/-- `file.delete`: the links of the file go with it. -/
def deleteFile (db : Tables) (id : String) : Tables :=
  { db with
    files := db.files.delete id
    taskFiles := db.taskFiles.filter fun link => link.fileId ≠ id }

/-- `appSession.delete`: the links of the deleted tasks go with them. -/
def deleteSession (db : Tables) (id : String) : Tables :=
  { db.lift (ServiceTables.deleteSession db.toDatabase id) with
    taskFiles := db.taskFiles.filter fun link => !inSession db.toDatabase id link.taskId }

@[simp] theorem updateFile_toDatabase (db : Tables) (id : String) (data : File → File) :
    (db.updateFile id data).toDatabase = db.toDatabase := by
  unfold updateFile
  split <;> rfl

@[simp] theorem updateFile_taskFiles (db : Tables) (id : String) (data : File → File) :
    (db.updateFile id data).taskFiles = db.taskFiles := by
  unfold updateFile
  split <;> rfl

end Tables

end ServiceTables
