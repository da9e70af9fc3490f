import ClawWork.TasksService

/-!
# Queued attempts and cancellations of a task

`processQueuedTask` with `dispatchTask`, and `cancelTask`, each as a party that
moves from one `await` to the next. What a party sends to the adapter is returned
beside its new state: a request is issued in the step that leads to its `await`,
whatever becomes of it.
-/

namespace DispatchTask

open JavaScript SharedTypes TaskStore TasksService

/-- The settings of the service; the URL is the trimmed environment variable, if it is not empty. -/
structure DispatchSettings extends Settings where
  adapterUrl : Option String

/-- What is sent to the adapter, and the relay that is started. -/
inductive Output where
  | execute
  | cancel
  | startRelay (url : String)
  deriving DecidableEq

/-- The states of a job of the queue. -/
inductive JobState where
  | waiting | delayed | paused | prioritized | active | completed | failed
  deriving DecidableEq

/-- `TaskQueueService.enqueue`: adding a job under an id that exists has no effect. -/
def enqueue (reconcile : Bool) (job : Option JobState) : Option JobState :=
  match job with
  | some .failed | some .completed => if reconcile then some .waiting else job
  | some _ => job
  | none => some .waiting

/-- The states in which `TaskQueueService.cancel` removes a job. -/
def JobState.removable : JobState → Bool
  | .waiting | .delayed | .paused | .prioritized => true
  | .active | .completed | .failed => false

/-- The execution metadata that the adapter answers with. -/
structure ExecutionMetadata where
  runId : String
  streamUrl : String

/-- The `await` that an attempt has come to. -/
inductive AttemptPhase where
  | finding
  | counting
  | inspecting
  | executing
  | updating (accepted : ExecutionMetadata)
  | cancelling
  | updatingSession (streamUrl : String)
  | returned
  | threw (code message : String)

/-- A call of `processQueuedTask`, with the session of the task that it has read. -/
structure Attempt where
  taskId : String
  sessionId : String
  phase : AttemptPhase

/-- What an `await` of an attempt settles with. -/
inductive Answer where
  | database (now : String)
  /-- The files have been inspected; `some` is the error of the one that does not fit. -/
  | inspected (error : Option (String × String))
  /-- The adapter has answered with valid metadata. -/
  | responded (metadata : ExecutionMetadata)
  /-- The request has failed, or the answer is an error or not valid. -/
  | failed (code message : String)
  /-- The cancellation request has settled, one way or the other. -/
  | settled

/-- What `requestGatewayCancellation` sends; without a configured adapter it only throws. -/
def cancellationRequest (settings : DispatchSettings) : List Output :=
  if settings.adapterUrl.isSome then [.cancel] else []

def streamUrlOf (adapterUrl : String) (streamUrl : String) : String :=
  if startsWith streamUrl "http" then streamUrl else adapterUrl ++ streamUrl

/-- An attempt goes on until its next `await`. -/
def Attempt.next (settings : DispatchSettings) (db : Database) (attempt : Attempt) :
    Answer → Option (Database × Attempt × List Output)
  | .database now =>
    match attempt.phase with
    | .finding =>
      match db.tasks.get attempt.taskId with
      | some task =>
        if task.status = .queued then
          some (db, { attempt with sessionId := task.sessionId, phase := .counting }, [])
        else some (db, { attempt with phase := .returned }, [])
      | none => some (db, { attempt with phase := .returned }, [])
    | .counting => do
      let db ← (Single.incrementAttempt attempt.taskId).apply settings.toSettings db
      some (db, { attempt with phase := .inspecting }, [])
    | .updating accepted =>
      let streamUrl := streamUrlOf (settings.adapterUrl.getD "") accepted.streamUrl
      if db.status attempt.taskId = some .queued then do
        let db ← (Single.dispatch attempt.taskId accepted.runId streamUrl now).apply
          settings.toSettings db
        some (db, { attempt with phase := .updatingSession streamUrl }, [])
      else some (db, { attempt with phase := .cancelling }, cancellationRequest settings)
    | .updatingSession streamUrl => do
      let db ← (Single.setSessionRunning attempt.sessionId).apply settings.toSettings db
      some (db, { attempt with phase := .returned }, [.startRelay streamUrl])
    | _ => none
  | .inspected error =>
    match attempt.phase, error with
    | .inspecting, some (code, message) => some (db, { attempt with phase := .threw code message }, [])
    | .inspecting, none =>
      if settings.adapterUrl.isSome then some (db, { attempt with phase := .executing }, [.execute])
      else
        let phase := .threw "GATEWAY_UNAVAILABLE" "OpenClaw adapter is not configured"
        some (db, { attempt with phase }, [])
    | _, _ => none
  | .responded metadata =>
    match attempt.phase with
    | .executing => some (db, { attempt with phase := .updating metadata }, [])
    | _ => none
  | .failed code message =>
    match attempt.phase with
    | .executing => some (db, { attempt with phase := .threw code message }, [])
    | _ => none
  | .settled =>
    match attempt.phase with
    | .cancelling => some (db, { attempt with phase := .returned }, [])
    | _ => none

/-- The steps of an attempt, with what each of them finds. -/
inductive AttemptMoves (settings : DispatchSettings) (db : Database) (taskId sessionId : String) :
    AttemptPhase → Answer → Database → Attempt → List Output → Prop
  | skip {now : String} (h : db.status taskId ≠ some .queued) :
      AttemptMoves settings db taskId sessionId .finding (.database now) db
        ⟨taskId, sessionId, .returned⟩ []
  | found {now : String} {task : Task} (htask : db.tasks.get taskId = some task)
      (hqueued : task.status = .queued) :
      AttemptMoves settings db taskId sessionId .finding (.database now) db
        ⟨taskId, task.sessionId, .counting⟩ []
  | count {now : String} {db' : Database}
      (h : (Single.incrementAttempt taskId).apply settings.toSettings db = some db') :
      AttemptMoves settings db taskId sessionId .counting (.database now) db'
        ⟨taskId, sessionId, .inspecting⟩ []
  | unfit {code message : String} :
      AttemptMoves settings db taskId sessionId .inspecting (.inspected (some (code, message))) db
        ⟨taskId, sessionId, .threw code message⟩ []
  | execute (h : settings.adapterUrl.isSome = true) :
      AttemptMoves settings db taskId sessionId .inspecting (.inspected none) db
        ⟨taskId, sessionId, .executing⟩ [.execute]
  | unavailable (h : settings.adapterUrl.isSome = false) :
      AttemptMoves settings db taskId sessionId .inspecting (.inspected none) db
        ⟨taskId, sessionId, .threw "GATEWAY_UNAVAILABLE" "OpenClaw adapter is not configured"⟩ []
  | responded {metadata : ExecutionMetadata} :
      AttemptMoves settings db taskId sessionId .executing (.responded metadata) db
        ⟨taskId, sessionId, .updating metadata⟩ []
  | failed {code message : String} :
      AttemptMoves settings db taskId sessionId .executing (.failed code message) db
        ⟨taskId, sessionId, .threw code message⟩ []
  | dispatch {now : String} {metadata : ExecutionMetadata} {db' : Database}
      (hqueued : db.status taskId = some .queued)
      (h : (Single.dispatch taskId metadata.runId
        (streamUrlOf (settings.adapterUrl.getD "") metadata.streamUrl) now).apply settings.toSettings db =
          some db') :
      AttemptMoves settings db taskId sessionId (.updating metadata) (.database now) db'
        ⟨taskId, sessionId, .updatingSession (streamUrlOf (settings.adapterUrl.getD "") metadata.streamUrl)⟩ []
  | tooLate {now : String} {metadata : ExecutionMetadata} (h : db.status taskId ≠ some .queued) :
      AttemptMoves settings db taskId sessionId (.updating metadata) (.database now) db
        ⟨taskId, sessionId, .cancelling⟩ (cancellationRequest settings)
  | relay {now streamUrl : String} {db' : Database}
      (h : (Single.setSessionRunning sessionId).apply settings.toSettings db = some db') :
      AttemptMoves settings db taskId sessionId (.updatingSession streamUrl) (.database now) db'
        ⟨taskId, sessionId, .returned⟩ [.startRelay streamUrl]
  | settled :
      AttemptMoves settings db taskId sessionId .cancelling .settled db
        ⟨taskId, sessionId, .returned⟩ []

theorem attemptMoves_next {settings : DispatchSettings} {db db' : Database} {attempt next : Attempt}
    {answer : Answer} {outputs : List Output}
    (h : attempt.next settings db answer = some (db', next, outputs)) :
    AttemptMoves settings db attempt.taskId attempt.sessionId attempt.phase answer db' next outputs := by
  obtain ⟨taskId, sessionId, phase⟩ := attempt
  cases answer with
  | database now =>
    cases phase with
    | finding =>
      simp only [Attempt.next] at h
      split at h
      · rename_i task htask
        split at h <;> rename_i hqueued <;> cases h
        · exact .found htask hqueued
        · refine .skip ?_
          rw [Database.status, htask]
          exact fun heq => hqueued (Option.some.inj heq)
      · rename_i hnone
        cases h
        refine .skip ?_
        rw [Database.status, hnone]
        exact fun heq => by cases heq
    | counting =>
      simp only [Attempt.next, Option.bind_eq_bind] at h
      obtain ⟨db₁, hdb, h⟩ := Option.bind_eq_some_iff.mp h
      cases h
      exact .count hdb
    | updating accepted =>
      simp only [Attempt.next] at h
      split at h
      · rename_i hqueued
        obtain ⟨db₁, hdb, h⟩ := Option.bind_eq_some_iff.mp h
        cases h
        exact .dispatch hqueued hdb
      · rename_i hlate
        cases h
        exact .tooLate hlate
    | updatingSession streamUrl =>
      simp only [Attempt.next, Option.bind_eq_bind] at h
      obtain ⟨db₁, hdb, h⟩ := Option.bind_eq_some_iff.mp h
      cases h
      exact .relay hdb
    | _ => cases h
  | inspected error =>
    cases phase with
    | inspecting =>
      cases error with
      | some error =>
        cases h
        exact .unfit
      | none =>
        simp only [Attempt.next] at h
        split at h <;> rename_i hurl <;> cases h
        · exact .execute hurl
        · exact .unavailable (by simpa using hurl)
    | _ => cases error <;> cases h
  | responded metadata =>
    cases phase with
    | executing =>
      cases h
      exact .responded
    | _ => cases h
  | failed code message =>
    cases phase with
    | executing =>
      cases h
      exact .failed
    | _ => cases h
  | settled =>
    cases phase with
    | cancelling =>
      cases h
      exact .settled
    | _ => cases h

/-- The `await` that a call of `cancelTask` has come to. -/
inductive CancelPhase where
  | finding
  | findingJob (task : Task)
  | checkingJob (task : Task)
  | removingJob (task : Task)
  | requesting (task : Task)
  | persisting (task : Task)
  /-- The call returns the status with the id of the task. -/
  | returned (status : TaskStatus)
  | threw

structure CancelCall where
  userId : String
  taskId : String
  phase : CancelPhase

inductive CancelAnswer where
  | database (now resultId : String)
  | queue
  | responded (ok : Bool)

/-- A call goes on until its next `await`; the queue keeps at most one job of the task. -/
def CancelCall.next (settings : DispatchSettings) (db : Database) (job : Option JobState)
    (call : CancelCall) : CancelAnswer → Option (Database × Option JobState × CancelCall × List Output)
  | .database now resultId =>
    match call.phase with
    | .finding =>
      match db.tasks.get call.taskId with
      | some task =>
        if task.userId ≠ call.userId then some (db, job, { call with phase := .threw }, [])
        else
          match task.status with
          | .queued => some (db, job, { call with phase := .findingJob task }, [])
          | .running =>
            if settings.adapterUrl.isSome then
              some (db, job, { call with phase := .requesting task }, cancellationRequest settings)
            else some (db, job, { call with phase := .threw }, [])
          | status => some (db, job, { call with phase := .returned status }, [])
      | none => some (db, job, { call with phase := .threw }, [])
    | .persisting task =>
      match persistTransaction settings.toSettings now resultId (cancelTaskEvent task now) none db with
      | (.threw, db) => some (db, job, { call with phase := .threw }, [])
      | (_, db) => some (db, job, { call with phase := .returned .cancelled }, [])
    | _ => none
  | .queue =>
    match call.phase with
    | .findingJob task =>
      match job with
      | some _ => some (db, job, { call with phase := .checkingJob task }, [])
      | none => some (db, job, { call with phase := .persisting task }, [])
    | .checkingJob task =>
      if job.any JobState.removable then some (db, job, { call with phase := .removingJob task }, [])
      else some (db, job, { call with phase := .persisting task }, [])
    | .removingJob task =>
      -- a job that a worker has locked meanwhile cannot be removed
      if job = some .active then some (db, job, { call with phase := .threw }, [])
      else some (db, none, { call with phase := .persisting task }, [])
    | _ => none
  | .responded ok =>
    match call.phase with
    | .requesting task =>
      some (db, job, { call with phase := if ok then .persisting task else .threw }, [])
    | _ => none

/-- The steps of a call of `cancelTask`, with what each of them finds. -/
inductive CancelMoves (settings : DispatchSettings) (db : Database) (job : Option JobState)
    (userId taskId : String) :
    CancelPhase → CancelAnswer → Database → Option JobState → CancelPhase → List Output → Prop
  | denied {now resultId : String} (h : ∀ task, db.tasks.get taskId = some task → task.userId = userId →
      task.status = .running ∧ settings.adapterUrl.isSome = false) :
      CancelMoves settings db job userId taskId .finding (.database now resultId) db job .threw []
  | queued {now resultId : String} {task : Task} (htask : db.tasks.get taskId = some task)
      (howner : task.userId = userId) (hqueued : task.status = .queued) :
      CancelMoves settings db job userId taskId .finding (.database now resultId) db job (.findingJob task) []
  | running {now resultId : String} {task : Task} (htask : db.tasks.get taskId = some task)
      (howner : task.userId = userId) (hrunning : task.status = .running)
      (hurl : settings.adapterUrl.isSome = true) :
      CancelMoves settings db job userId taskId .finding (.database now resultId) db job (.requesting task)
        (cancellationRequest settings)
  | ended {now resultId : String} {task : Task} (htask : db.tasks.get taskId = some task)
      (howner : task.userId = userId) (hended : task.status.isTerminal = true) :
      CancelMoves settings db job userId taskId .finding (.database now resultId) db job
        (.returned task.status) []
  | thrown {now resultId : String} {task : Task}
      (h : (persistTransaction settings.toSettings now resultId (cancelTaskEvent task now) none db).1 = .threw) :
      CancelMoves settings db job userId taskId (.persisting task) (.database now resultId)
        (persistTransaction settings.toSettings now resultId (cancelTaskEvent task now) none db).2 job .threw []
  | persisted {now resultId : String} {task : Task}
      (h : (persistTransaction settings.toSettings now resultId (cancelTaskEvent task now) none db).1 ≠ .threw) :
      CancelMoves settings db job userId taskId (.persisting task) (.database now resultId)
        (persistTransaction settings.toSettings now resultId (cancelTaskEvent task now) none db).2 job
        (.returned .cancelled) []
  | foundJob {task : Task} (h : job.isSome = true) :
      CancelMoves settings db job userId taskId (.findingJob task) .queue db job (.checkingJob task) []
  | foundNone {task : Task} (h : job = none) :
      CancelMoves settings db job userId taskId (.findingJob task) .queue db job (.persisting task) []
  | removable {task : Task} (h : job.any JobState.removable = true) :
      CancelMoves settings db job userId taskId (.checkingJob task) .queue db job (.removingJob task) []
  | kept {task : Task} (h : job.any JobState.removable = false) :
      CancelMoves settings db job userId taskId (.checkingJob task) .queue db job (.persisting task) []
  | locked {task : Task} (h : job = some .active) :
      CancelMoves settings db job userId taskId (.removingJob task) .queue db job .threw []
  | removed {task : Task} (h : job ≠ some .active) :
      CancelMoves settings db job userId taskId (.removingJob task) .queue db none (.persisting task) []
  | stopped {task : Task} :
      CancelMoves settings db job userId taskId (.requesting task) (.responded true) db job (.persisting task) []
  | refused {task : Task} :
      CancelMoves settings db job userId taskId (.requesting task) (.responded false) db job .threw []

theorem cancelMoves_next {settings : DispatchSettings} {db db' : Database} {job job' : Option JobState}
    {call next : CancelCall} {answer : CancelAnswer} {outputs : List Output}
    (h : call.next settings db job answer = some (db', job', next, outputs)) :
    next = { call with phase := next.phase } ∧
      CancelMoves settings db job call.userId call.taskId call.phase answer db' job' next.phase outputs := by
  obtain ⟨userId, taskId, phase⟩ := call
  cases answer with
  | database now resultId =>
    cases phase with
    | finding =>
      simp only [CancelCall.next] at h
      split at h
      · rename_i task htask
        have hsame : ∀ other, db.tasks.get taskId = some other → other = task := fun other hother =>
          Option.some.inj (hother.symm.trans htask)
        split at h
        · rename_i howner
          cases h
          exact ⟨rfl, .denied fun other hother huser => absurd (hsame other hother ▸ huser) howner⟩
        · rename_i howner
          split at h
          · rename_i hqueued
            cases h
            exact ⟨rfl, .queued htask (not_not.mp howner) hqueued⟩
          · rename_i hrunning
            split at h <;> rename_i hurl <;> cases h
            · exact ⟨rfl, .running htask (not_not.mp howner) hrunning hurl⟩
            · exact ⟨rfl, .denied fun other hother _ => ⟨hsame other hother ▸ hrunning, by simpa using hurl⟩⟩
          · rename_i hqueued hrunning
            cases h
            refine ⟨rfl, .ended htask (not_not.mp howner) ?_⟩
            cases hstatus : task.status with
            | queued => exact absurd hstatus hqueued
            | running => exact absurd hstatus hrunning
            | _ => rfl
      · rename_i hnone
        cases h
        refine ⟨rfl, .denied fun other hother _ => ?_⟩
        rw [hnone] at hother
        cases hother
    | persisting task =>
      cases hresult : persistTransaction settings.toSettings now resultId (cancelTaskEvent task now) none db with
      | mk outcome db₁ =>
        simp only [CancelCall.next, hresult] at h
        by_cases hthrown : outcome = .threw
        · subst hthrown
          cases h
          have hmoves : CancelMoves settings db job userId taskId (.persisting task) (.database now resultId)
              _ job .threw [] := .thrown (congrArg Prod.fst hresult)
          rw [hresult] at hmoves
          exact ⟨rfl, hmoves⟩
        · have hmoves : CancelMoves settings db job userId taskId (.persisting task) (.database now resultId)
              _ job (.returned .cancelled) [] := .persisted (by rw [hresult]; exact hthrown)
          rw [hresult] at hmoves
          cases outcome with
          | threw => exact absurd rfl hthrown
          | persisted id =>
            cases h
            exact ⟨rfl, hmoves⟩
          | skipped =>
            cases h
            exact ⟨rfl, hmoves⟩
    | _ => cases h
  | queue =>
    cases phase with
    | findingJob task =>
      simp only [CancelCall.next] at h
      split at h <;> cases h
      · exact ⟨rfl, .foundJob rfl⟩
      · exact ⟨rfl, .foundNone rfl⟩
    | checkingJob task =>
      simp only [CancelCall.next] at h
      split at h <;> rename_i hremovable <;> cases h
      · exact ⟨rfl, .removable hremovable⟩
      · exact ⟨rfl, .kept (by simpa using hremovable)⟩
    | removingJob task =>
      simp only [CancelCall.next] at h
      split at h <;> rename_i hactive <;> cases h
      · exact ⟨rfl, .locked hactive⟩
      · exact ⟨rfl, .removed hactive⟩
    | _ => cases h
  | responded ok =>
    cases phase with
    | requesting task =>
      cases h
      cases ok with
      | true => exact ⟨rfl, .stopped⟩
      | false => exact ⟨rfl, .refused⟩
    | _ => cases h

end DispatchTask
