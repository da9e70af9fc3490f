import ClawWork.DailyQuota
import ClawWork.ReadCommitted
import ClawWork.ServiceTables

/-!
# Concurrent calls of `enqueueTask`

A call of `createTask`, `createFollowUp` or `regenerate` from its check of the files
to the commit of its transaction, one statement or script at a time. The statements
of the transaction run on the server of READ COMMITTED transactions; a statement that
fails rolls the transaction back, and the reservation of the day is released.
-/

namespace EnqueueTask

open JavaScript TaskStore TasksService ServiceTables DailyQuota ReadCommitted

structure QuotaSettings extends Settings where
  dailyLimit : Nat

/-- The advisory locks of the users; their keys are the hashes of the texts. -/
inductive Lock where
  | tasks (userId : String)
  | storage (userId : String)
  deriving DecidableEq

/-- The `await` that a call has come to. -/
inductive Phase where
  | findingFiles
  | reserving (files : List File)
  | locking (files : List File)
  | counting (files : List File)
  | findingSession (files : List File)
  | creatingTask (files : List File) (sessionId : String)
  | updatingSession (task : Task)
  | committing (task : Task)
  | releasing
  | created (task : Task)
  | threw

structure Call where
  new : NewTask
  fileIds : List String
  /-- The day on which the call has reserved its task, until it is released. -/
  reservation : Option String
  phase : Phase

/-- What an `await` of a call settles with. -/
inductive Answer where
  | statement
  /-- The script is run at a reading of the clock; its answer may be lost. -/
  | script (clock : Nat) (lost : Bool)
  /-- The statement or the connection fails, or a deadlock ends the transaction. -/
  | failed

/-- `file.findMany` of the owner's uploaded files. -/
def uploadedFiles (db : Tables) (userId : String) (fileIds : List String) : List File :=
  (fileIds.dedup.filterMap db.files.get).filter fun file =>
    file.userId = userId && file.status = .uploaded

/-- The row that the transaction creates. -/
def newTask (new : NewTask) (sessionId : String) : Task :=
  { id := new.taskId, sessionId, userId := new.userId, parentTaskId := new.parentTaskId,
    status := .queued, inputText := trim new.inputText, runId := none, adapterStreamUrl := none,
    errorCode := none, errorMessage := none, startedAt := none, completedAt := none,
    queueJobId := none, attemptCount := 0 }

/-- `task.create` with the links of its files. -/
def createTask (task : Task) (files : List File) (db : Tables) : Tables :=
  { db with
    tasks := db.tasks.set task.id task
    taskFiles := db.taskFiles ++ files.map fun file => ⟨task.id, file.id⟩ }

/-- The foreign keys of the new rows, and the primary key of the task. -/
def creatable (task : Task) (files : List File) (db : Tables) : Bool :=
  (db.tasks.get task.id).isNone && (db.sessions.get task.sessionId).isSome &&
    files.all fun file => (db.files.get file.id).isSome

/-- The session of the new task becomes queued, with the task as its current one. -/
def queueSession (task : Task) (row : AppSession) : AppSession :=
  { row with currentTaskId := some task.id, status := .queued }

abbrev TaskServer : Type _ := Server Tables Lock

/-- The transaction of the call is rolled back. -/
def leave (server : TaskServer) (redis : Redis) (i : Nat) (call : Call) :
    Option (TaskServer × Redis × Call) :=
  some (server.rollback i, redis, { call with phase := .releasing })

/-- The session of the new task: one of the user's, or a new one. -/
def findSession (server : TaskServer) (redis : Redis) (i : Nat) (call : Call) (files : List File) :
    Option (TaskServer × Redis × Call) :=
  match call.new.session with
  | .inl sessionId =>
    if ((server.view i).sessions.get sessionId).any fun row => row.userId = call.new.userId then
      some (server, redis, { call with phase := .creatingTask files sessionId })
    else leave server redis i call
  | .inr (sessionId, title) =>
    if ((server.view i).sessions.get sessionId).isSome then leave server redis i call
    else
      let session : AppSession := ⟨sessionId, call.new.userId, title, .queued, none⟩
      let create (db : Tables) : Tables := { db with sessions := db.sessions.set sessionId session }
      some (server.write i create, redis, { call with phase := .creatingTask files sessionId })

/-- A statement of the call; `none` while it waits for a lock. -/
def Call.statement (settings : QuotaSettings) (i : Nat) (server : TaskServer) (redis : Redis)
    (call : Call) : Option (TaskServer × Redis × Call) :=
  match call.phase with
  | .findingFiles =>
    let files := uploadedFiles server.db call.new.userId call.fileIds
    if files.length = call.fileIds.dedup.length then
      some (server, redis, { call with phase := .reserving files })
    else some (server, redis, { call with phase := .threw })
  | .locking files => do
    let server ← server.acquire i (.tasks call.new.userId)
    some (server, redis, { call with phase := .counting files })
  | .counting files =>
    if settings.concurrentLimit ≤ (server.view i).activeTasks call.new.userId then
      leave server redis i call
    else some (server, redis, { call with phase := .findingSession files })
  | .findingSession files => findSession server redis i call files
  | .creatingTask files sessionId =>
    let task := newTask call.new sessionId
    if creatable task files (server.view i) then
      let server := server.write i (createTask task files)
      some (server, redis, { call with phase := .updatingSession task })
    else leave server redis i call
  | .updatingSession task =>
    if ((server.view i).sessions.get task.sessionId).isSome then
      let update (db : Tables) : Tables :=
        db.lift (db.updateSession task.sessionId (queueSession task))
      some (server.write i update, redis, { call with phase := .committing task })
    else leave server redis i call
  | .committing task => some (server.commit i, redis, { call with phase := .created task })
  | .reserving _ | .releasing | .created _ | .threw => none

/-- A script of the call. -/
def Call.script (settings : QuotaSettings) (server : TaskServer) (redis : Redis) (call : Call)
    (clock : Nat) (lost : Bool) : Option (TaskServer × Redis × Call) :=
  let key := (call.new.userId, isoDay clock)
  match call.phase with
  | .reserving files =>
    match redis.reserve settings.dailyLimit key with
    | (true, redis) =>
      let phase := if lost then .threw else .locking files
      some (server, redis, { call with reservation := some (isoDay clock), phase })
    | (false, redis) => some (server, redis, { call with phase := .threw })
  | .releasing =>
    some (server, redis.release key, { call with reservation := none, phase := .threw })
  | _ => none

/-- The phases inside the transaction. -/
def Phase.inTransaction : Phase → Bool
  | .locking _ | .counting _ | .findingSession _ | .creatingTask _ _ | .updatingSession _
  | .committing _ => true
  | .findingFiles | .reserving _ | .releasing | .created _ | .threw => false

/-- The call goes on until its next `await`. -/
def Call.next (settings : QuotaSettings) (i : Nat) (server : TaskServer) (redis : Redis) (call : Call) :
    Answer → Option (TaskServer × Redis × Call)
  | .statement => call.statement settings i server redis
  | .script clock lost => call.script settings server redis clock lost
  | .failed =>
    if call.phase.inTransaction then leave server redis i call
    else
      match call.phase with
      | .created _ | .threw => none
      | _ => some (server, redis, { call with phase := .threw })

/-- The steps of a call, with what each of them finds. -/
inductive CallMoves (settings : QuotaSettings) (i : Nat) (server : TaskServer) (redis : Redis)
    (new : NewTask) (fileIds : List String) (reservation : Option String) :
    Phase → Answer → TaskServer → Redis → Call → Prop
  | found {files : List File} (hfiles : files = uploadedFiles server.db new.userId fileIds)
      (hall : files.length = fileIds.dedup.length) :
      CallMoves settings i server redis new fileIds reservation .findingFiles .statement server redis
        ⟨new, fileIds, reservation, .reserving files⟩
  | missing : CallMoves settings i server redis new fileIds reservation .findingFiles .statement server redis
      ⟨new, fileIds, reservation, .threw⟩
  | reserved {files : List File} {clock : Nat} {lost : Bool} {redis' : Redis}
      (h : redis.reserve settings.dailyLimit (new.userId, isoDay clock) = (true, redis')) :
      CallMoves settings i server redis new fileIds reservation (.reserving files) (.script clock lost) server
        redis' ⟨new, fileIds, some (isoDay clock), if lost then .threw else .locking files⟩
  | refused {files : List File} {clock : Nat} {lost : Bool} {redis' : Redis}
      (h : redis.reserve settings.dailyLimit (new.userId, isoDay clock) = (false, redis')) :
      CallMoves settings i server redis new fileIds reservation (.reserving files) (.script clock lost) server
        redis' ⟨new, fileIds, reservation, .threw⟩
  | locks {files : List File} {server' : TaskServer} (h : server.acquire i (.tasks new.userId) = some server') :
      CallMoves settings i server redis new fileIds reservation (.locking files) .statement server' redis
        ⟨new, fileIds, reservation, .counting files⟩
  | counts {files : List File} (h : (server.view i).activeTasks new.userId < settings.concurrentLimit) :
      CallMoves settings i server redis new fileIds reservation (.counting files) .statement server redis
        ⟨new, fileIds, reservation, .findingSession files⟩
  | findsSession {files : List File} {sessionId : String} (hsession : new.session = .inl sessionId)
      (h : ((server.view i).sessions.get sessionId).any (fun row => row.userId = new.userId) = true) :
      CallMoves settings i server redis new fileIds reservation (.findingSession files) .statement server redis
        ⟨new, fileIds, reservation, .creatingTask files sessionId⟩
  | createsSession {files : List File} {sessionId title : String} (hsession : new.session = .inr (sessionId, title))
      (h : (server.view i).sessions.get sessionId = none) :
      CallMoves settings i server redis new fileIds reservation (.findingSession files) .statement
        (server.write i fun db => { db with
          sessions := db.sessions.set sessionId ⟨sessionId, new.userId, title, .queued, none⟩ })
        redis ⟨new, fileIds, reservation, .creatingTask files sessionId⟩
  | createsTask {files : List File} {sessionId : String}
      (h : creatable (newTask new sessionId) files (server.view i) = true) :
      CallMoves settings i server redis new fileIds reservation (.creatingTask files sessionId) .statement
        (server.write i (createTask (newTask new sessionId) files)) redis
        ⟨new, fileIds, reservation, .updatingSession (newTask new sessionId)⟩
  | updatesSession {task : Task} (h : ((server.view i).sessions.get task.sessionId).isSome = true) :
      CallMoves settings i server redis new fileIds reservation (.updatingSession task) .statement
        (server.write i fun db => db.lift (db.updateSession task.sessionId (queueSession task))) redis
        ⟨new, fileIds, reservation, .committing task⟩
  | commits {task : Task} :
      CallMoves settings i server redis new fileIds reservation (.committing task) .statement (server.commit i)
        redis ⟨new, fileIds, reservation, .created task⟩
  | released {clock : Nat} {lost : Bool} :
      CallMoves settings i server redis new fileIds reservation .releasing (.script clock lost) server
        (redis.release (new.userId, isoDay clock)) ⟨new, fileIds, none, .threw⟩
  /-- A statement of the transaction finds what it does not accept, or fails. -/
  | leaves {phase : Phase} {answer : Answer} (hin : phase.inTransaction = true) :
      CallMoves settings i server redis new fileIds reservation phase answer (server.rollback i) redis
        ⟨new, fileIds, reservation, .releasing⟩
  | fails {phase : Phase} (hout : phase.inTransaction = false) :
      CallMoves settings i server redis new fileIds reservation phase .failed server redis
        ⟨new, fileIds, reservation, .threw⟩

theorem callMoves_leave {settings : QuotaSettings} {i : Nat} {server server' : TaskServer} {redis redis' : Redis}
    {call call' : Call} {answer : Answer} (hin : call.phase.inTransaction = true)
    (h : leave server redis i call = some (server', redis', call')) :
    CallMoves settings i server redis call.new call.fileIds call.reservation call.phase answer server' redis'
      call' := by
  cases h
  exact .leaves hin

theorem callMoves_statement {settings : QuotaSettings} {i : Nat} {server server' : TaskServer}
    {redis redis' : Redis} {call call' : Call}
    (h : call.statement settings i server redis = some (server', redis', call')) :
    CallMoves settings i server redis call.new call.fileIds call.reservation call.phase .statement server' redis'
      call' := by
  obtain ⟨new, fileIds, reservation, phase⟩ := call
  cases phase with
  | findingFiles =>
    simp only [Call.statement] at h
    split at h <;> rename_i hall <;> cases h
    · exact .found rfl hall
    · exact .missing
  | locking files =>
    obtain ⟨server₁, hlock, h⟩ := Option.bind_eq_some_iff.mp h
    cases h
    exact .locks hlock
  | counting files =>
    simp only [Call.statement] at h
    split at h
    · exact callMoves_leave rfl h
    · rename_i hroom
      cases h
      exact .counts (Nat.lt_of_not_le hroom)
  | findingSession files =>
    simp only [Call.statement, findSession] at h
    split at h
    · rename_i sessionId hsession
      split at h
      · rename_i hown
        cases h
        exact .findsSession hsession hown
      · exact callMoves_leave rfl h
    · rename_i sessionId title hsession
      split at h
      · exact callMoves_leave rfl h
      · rename_i hnone
        cases h
        exact .createsSession hsession (by simpa using hnone)
  | creatingTask files sessionId =>
    simp only [Call.statement] at h
    split at h
    · rename_i hcreatable
      cases h
      exact .createsTask hcreatable
    · exact callMoves_leave rfl h
  | updatingSession task =>
    simp only [Call.statement] at h
    split at h
    · rename_i hsome
      cases h
      exact .updatesSession hsome
    · exact callMoves_leave rfl h
  | committing task =>
    cases h
    exact .commits
  | _ => cases h

theorem callMoves_next {settings : QuotaSettings} {i : Nat} {server server' : TaskServer}
    {redis redis' : Redis} {call call' : Call} {answer : Answer}
    (h : call.next settings i server redis answer = some (server', redis', call')) :
    CallMoves settings i server redis call.new call.fileIds call.reservation call.phase answer server' redis'
      call' := by
  cases answer with
  | statement => exact callMoves_statement h
  | script clock lost =>
    obtain ⟨new, fileIds, reservation, phase⟩ := call
    cases phase with
    | reserving files =>
      simp only [Call.next, Call.script] at h
      split at h <;> rename_i hreserve <;> cases h
      · exact .reserved hreserve
      · exact .refused hreserve
    | releasing =>
      cases h
      exact .released
    | _ => cases h
  | failed =>
    simp only [Call.next] at h
    split at h
    · rename_i hin
      exact callMoves_leave hin h
    · rename_i hout
      split at h <;> cases h
      exact .fails (Bool.eq_false_iff.mpr hout)

structure System where
  server : TaskServer
  redis : Redis
  calls : OrderedMap Nat Call

def System.init : System := ⟨.start .empty, .init, .empty⟩

def System.db (s : System) : Tables := s.server.db

/-- The transactions of the other operations; tasks are created by the calls alone. -/
def creates : Transaction → Bool
  | .single (.enqueue _) => true
  | _ => false

inductive Label where
  | call (i : Nat) (new : NewTask) (fileIds : List String)
  | advance (i : Nat) (answer : Answer)
  | transaction (tx : Transaction)
  | wait (ms : Nat)

def step (settings : QuotaSettings) (s : System) : Label → Option System
  | .call i new fileIds =>
    if s.calls.get i = none then
      some { s with calls := s.calls.set i ⟨new, fileIds, none, .findingFiles⟩ }
    else none
  | .advance i answer => do
    let call ← s.calls.get i
    let (server, redis, call) ← call.next settings i s.server s.redis answer
    some { server, redis, calls := s.calls.set i call }
  | .transaction tx =>
    if creates tx then none
    else do
      let db ← tx.apply settings.toSettings s.db.toDatabase
      some { s with server := s.server.direct fun db' => db'.lift db }
  | .wait ms => some { s with redis := s.redis.wait ms }

end EnqueueTask
