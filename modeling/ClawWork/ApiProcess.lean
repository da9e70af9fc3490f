import ClawWork.DispatchTask
import ClawWork.PersistCalls
import ClawWork.Transition

/-!
# The process of the API, its crashes and its restarts

The database and the queue survive a crash; the attempts, the calls, the relays and
the progress of `onModuleInit` are lost with the process. Every party goes from one
`await` to the next, `persistTaskEvent` by one statement at a time. A request is
served when the start is over; the worker takes jobs from the first scan on.
-/

namespace ApiProcess

open SharedTypes TaskStore TasksService DispatchTask

/-- The settings of the processes; `adapterUrl` is not empty. -/
structure ProcessSettings extends DispatchSettings where
  workerEnabled : Bool
  /-- `TASK_QUEUE_ATTEMPTS`. -/
  attempts : Nat
  named : ∀ url ∈ adapterUrl, url ≠ ""

structure Job where
  state : JobState
  /-- The attempt that holds the lock of an active job. -/
  owner : Option Nat
  attemptsMade : Nat

def Job.new : Job := ⟨.waiting, none, 0⟩

/-- The `await` of `TaskQueueService.enqueue` that a call has come to. -/
inductive EnqueueStep where
  | getJob
  | getState
  | remove
  | add
  deriving DecidableEq

def EnqueueStep.start (reconcile : Bool) : EnqueueStep := if reconcile then .getJob else .add

/-- The job after the step, and the next `await`; a locked job cannot be removed, and one that exists
is not added again. -/
def EnqueueStep.next (job : Option Job) : EnqueueStep → Option (Option Job × Option EnqueueStep)
  | .getJob => some (job, some (if job.isSome then .getState else .add))
  | .getState =>
    if job.any fun job => job.state = .failed || job.state = .completed then some (job, some .remove)
    else some (job, some .add)
  | .remove => if job.any fun job => job.state = .active then none else some (none, some .add)
  | .add => some (job.or (some .new), none)

/-- The `await` that a call of `failTask` has come to; `c` is its call of `persistTaskEvent`. -/
inductive FailPhase where
  | finding
  | persisting (c : Nat)
  | returned

structure FailCall where
  taskId : String
  code : String
  message : String
  /-- The queue has given its job up, and `onFinalFailure` makes the call. -/
  final : Bool
  phase : FailPhase

/-- A call of `failTask` goes on until its next `await`. -/
def FailCall.next (settings : Settings) (service : PersistCalls.System) (call : FailCall) (c : Nat)
    (now resultId : String) : Option (PersistCalls.System × FailCall) :=
  match call.phase with
  | .finding =>
    match failTaskEvent service.db call.taskId call.code call.message now with
    | none => some (service, { call with phase := .returned })
    | some event => do
      let service ← PersistCalls.step settings service (.call c event none none now resultId)
      some (service, { call with phase := .persisting c })
  | .persisting d =>
    match (service.calls d).map PersistCalls.Call.phase with
    | some .done => some (service, { call with phase := .returned })
    | _ => none
  | .returned => none

/-- The `await` of `onModuleInit`. -/
inductive InitPhase where
  | ensuringBucket
  | findingQueued
  | enqueuing (step : EnqueueStep) (taskId : String) (rest : List String)
  | updating (taskId : String) (rest : List String)
  | findingRunning
  /-- The rows of the second scan, as they were read. -/
  | resuming (rest : List Task)
  | cancelling (task : Task) (rest : List Task)
  | failing (call : FailCall) (rest : List Task)
  /-- `onModuleInit` has returned. -/
  | initialised
  | listening

/-- What follows the commit of `enqueueTask`. -/
inductive CreationPhase where
  | enqueuing (step : EnqueueStep)
  | updating
  | returned

structure Creation where
  taskId : String
  phase : CreationPhase

/-- A call of `cancelTask`, with its call of `persistTaskEvent`. -/
structure Cancellation where
  call : CancelCall
  persisting : Option Nat

/-- What a process keeps in its memory. -/
structure Process where
  init : InitPhase
  attempts : OrderedMap Nat Attempt
  failures : OrderedMap Nat FailCall
  creations : OrderedMap Nat Creation
  cancellations : OrderedMap Nat Cancellation
  /-- The tasks for which the process has started a relay. -/
  relays : List String
  /-- The tasks whose job the queue has failed for stalling with attempts left. -/
  abandoned : List String
  /-- A call to the database, the storage or the queue has failed. -/
  faulty : Bool

def Process.start : Process := ⟨.ensuringBucket, .empty, .empty, .empty, .empty, [], [], false⟩

structure System where
  service : PersistCalls.System
  jobs : OrderedMap String Job
  process : Option Process

def System.init : System := ⟨.init, .empty, none⟩

def System.db (s : System) : Database := s.service.db

/-- The first scan, without its limit. -/
def queuedTasks (db : Database) : List Task := db.tasks.values.filter fun task => task.status = .queued

/-- The second scan. -/
def runningTasks (db : Database) : List Task :=
  db.tasks.values.filter fun task => task.status = .running && task.adapterStreamUrl.isSome

def setJob (jobs : OrderedMap String Job) (t : String) : Option Job → OrderedMap String Job
  | some job => jobs.set t job
  | none => jobs.delete t

/-- `onModuleInit` goes on with the next queued task. -/
def nextQueued : List String → InitPhase
  | [] => .findingRunning
  | t :: rest => .enqueuing (.start true) t rest

/-- `startAdapterRelay`. -/
def Process.startRelay (p : Process) (t : String) : Process :=
  if p.relays.contains t then p else { p with relays := t :: p.relays }

/-- The steps of `onModuleInit`, and the start of the HTTP server after it; `expired` says that the time
of the task is over. -/
def System.initialise (settings : ProcessSettings) (s : System) (p : Process) (expired : Bool) (c : Nat)
    (now resultId : String) : Option System :=
  match p.init with
  | .ensuringBucket => some { s with process := some { p with init := .findingQueued } }
  | .findingQueued =>
    let init := nextQueued ((queuedTasks s.db).map Task.id)
    some { s with process := some { p with init } }
  | .enqueuing step t rest => do
    let (job, next) ← step.next (s.jobs.get t)
    let init :=
      match next with
      | some step => .enqueuing step t rest
      | none => .updating t rest
    some { s with jobs := setJob s.jobs t job, process := some { p with init } }
  | .updating t rest => do
    let service ← PersistCalls.step settings.toSettings s.service (.single (.setQueueJobId t t))
    some { s with service, process := some { p with init := nextQueued rest } }
  | .findingRunning => some { s with process := some { p with init := .resuming (runningTasks s.db) } }
  | .resuming [] => some { s with process := some { p with init := .initialised } }
  | .resuming (task :: rest) =>
    if truthy task.adapterStreamUrl = none then
      some { s with process := some { p with init := .resuming rest } }
    else if expired && task.startedAt.isSome then
      some { s with process := some { p with init := .cancelling task rest } }
    else some { s with process := some { p.startRelay task.id with init := .resuming rest } }
  | .cancelling task rest =>
    -- the cancellation request has settled, one way or the other
    let call := ⟨task.id, "TASK_TIMEOUT", "task execution timed out", false, .finding⟩
    some { s with process := some { p with init := .failing call rest } }
  | .failing call rest =>
    match call.phase with
    | .returned => some { s with process := some { p with init := .resuming rest } }
    | _ => do
      let (service, call) ← call.next settings.toSettings s.service c now resultId
      some { s with service, process := some { p with init := .failing call rest } }
  | .initialised => some { s with process := some { p with init := .listening } }
  | .listening => none

/-- The worker is started after the bucket was ensured. -/
def Process.works (settings : ProcessSettings) (p : Process) : Bool :=
  match p.init with
  | .ensuringBucket => false
  | _ => settings.workerEnabled

def Process.isListening (p : Process) : Bool :=
  match p.init with
  | .listening => true
  | _ => false

/-- The row that the next statement of an attempt updates. -/
def waitsFor (db : Database) (attempt : Attempt) : Option PersistCalls.Lock :=
  match attempt.phase with
  | .counting => some (.task attempt.taskId)
  | .updating _ => if db.status attempt.taskId = some .queued then some (.task attempt.taskId) else none
  | .updatingSession _ => some (.session attempt.sessionId)
  | _ => none

def startsRelay (outputs : List Output) : Bool :=
  outputs.any fun output =>
    match output with
    | .startRelay _ => true
    | _ => false

/-- The attempt goes on to its next `await`. -/
def System.attempt (settings : ProcessSettings) (s : System) (p : Process) (a : Nat) (attempt : Attempt)
    (answer : Answer) : Option System :=
  if (waitsFor s.db attempt).any fun k => (s.service.server.locks k).isSome then none
  else do
    let (db, next, outputs) ← attempt.next settings.toDispatchSettings s.db answer
    let moved := { p with attempts := p.attempts.set a next }
    some { s with
      service := { s.service with server := s.service.server.direct fun _ => db }
      process := some (if startsRelay outputs then moved.startRelay attempt.taskId else moved) }

/-- `onFinalFailure`, as the worker calls it when a job has failed and no attempt is left. -/
def Process.failed (settings : ProcessSettings) (p : Process) (t : String) (job : Job) (i : Nat)
    (code message : String) : Process :=
  if job.attemptsMade < settings.attempts then p
  else
    let text := if message = "" then "task dispatch retries exhausted" else message
    { p with failures := p.failures.set i ⟨t, code, text, true, .finding⟩ }

/-- The queue moves the job of an attempt that has come to its end, if the attempt still holds it. -/
def System.settle (settings : ProcessSettings) (s : System) (p : Process) (a i : Nat) (attempt : Attempt)
    (job : Job) : Option System :=
  let t := attempt.taskId
  if job.state = .active ∧ job.owner = some a ∧ p.failures.get i = none then
    match attempt.phase with
    | .returned => some { s with jobs := s.jobs.set t { job with state := .completed, owner := none } }
    | .threw code message =>
      let attemptsMade := job.attemptsMade + 1
      let state := if attemptsMade < settings.attempts then .delayed else .failed
      let job : Job := ⟨state, none, attemptsMade⟩
      some { s with jobs := s.jobs.set t job, process := some (p.failed settings t job i code message) }
    | _ => none
  else none

/-- The queue fails a job that has stalled too often, whatever attempts are left. -/
def System.giveUp (settings : ProcessSettings) (s : System) (p : Process) (i : Nat) (t : String)
    (job : Job) : Option System :=
  if job.state = .active ∧ p.failures.get i = none then
    let job : Job := ⟨.failed, none, job.attemptsMade + 1⟩
    let p := p.failed settings t job i "TASK_QUEUE_EXHAUSTED" "job stalled more than allowable limit"
    let abandoned := if job.attemptsMade < settings.attempts then t :: p.abandoned else p.abandoned
    some { s with jobs := s.jobs.set t job, process := some { p with abandoned } }
  else none

/-- What follows the commit of `enqueueTask` goes on to its next `await`. -/
def System.create (settings : ProcessSettings) (s : System) (p : Process) (i : Nat)
    (creation : Creation) : Option System :=
  match creation.phase with
  | .enqueuing step => do
    let (job, next) ← step.next (s.jobs.get creation.taskId)
    let phase :=
      match next with
      | some step => .enqueuing step
      | none => .updating
    some { s with
      jobs := setJob s.jobs creation.taskId job
      process := some { p with creations := p.creations.set i { creation with phase } } }
  | .updating => do
    let t := creation.taskId
    let service ← PersistCalls.step settings.toSettings s.service (.single (.setQueueJobId t t))
    let creations := p.creations.set i { creation with phase := .returned }
    some { s with service, process := some { p with creations } }
  | .returned => none

/-- A call to the queue or the database fails after the commit of `enqueueTask`, which calls `failTask`;
the queue may have taken effect all the same. -/
def System.createFails (s : System) (p : Process) (i f : Nat) (message : String) (late : Bool)
    (creation : Creation) : Option System :=
  if p.failures.get f = none then
    let call : FailCall := ⟨creation.taskId, "TASK_QUEUE_UNAVAILABLE", message, false, .finding⟩
    let p := { p with
      creations := p.creations.set i { creation with phase := .returned }
      failures := p.failures.set f call
      faulty := true }
    match creation.phase with
    | .enqueuing step =>
      let job := s.jobs.get creation.taskId
      let job := if late then ((step.next job).map Prod.fst).getD job else job
      some { s with jobs := setJob s.jobs creation.taskId job, process := some p }
    | .updating => some { s with process := some p }
    | .returned => none
  else none

/-- `cancelTask` goes on to its next `await`, up to its call of `persistTaskEvent`. -/
def System.cancel (settings : ProcessSettings) (s : System) (p : Process) (i : Nat)
    (cancellation : Cancellation) (answer : CancelAnswer) : Option System :=
  match cancellation.call.phase with
  | .persisting _ => none
  | _ => do
    let t := cancellation.call.taskId
    let job := s.jobs.get t
    let (_, state, call, _) ←
      cancellation.call.next settings.toDispatchSettings s.db (job.map Job.state) answer
    let cancellations := p.cancellations.set i { cancellation with call }
    some { s with
      jobs := if state.isNone then s.jobs.delete t else s.jobs
      process := some { p with cancellations } }

/-- `cancelTask` calls `persistTaskEvent`. -/
def System.cancelPersist (settings : ProcessSettings) (s : System) (p : Process) (i c : Nat)
    (now resultId : String) (cancellation : Cancellation) : Option System :=
  match cancellation.call.phase, cancellation.persisting with
  | .persisting task, none => do
    let service ← PersistCalls.step settings.toSettings s.service
      (.call c (cancelTaskEvent task now) none none now resultId)
    let cancellations := p.cancellations.set i { cancellation with persisting := some c }
    some { s with service, process := some { p with cancellations } }
  | _, _ => none

/-- The database ends the sessions of a process that is gone. -/
def disconnected (service : PersistCalls.System) : PersistCalls.System :=
  { service with server := .start service.db, calls := fun _ => none }

inductive Label where
  | boot
  | crash
  /-- The next step of `onModuleInit`. -/
  | init (expired : Bool) (c : Nat) (now resultId : String)
  /-- The worker takes a job. -/
  | take (t : String) (a : Nat)
  | attempt (a : Nat) (answer : Answer)
  | attemptFails (a : Nat) (code message : String)
  | settle (a i : Nat)
  /-- The delay of a job is over. -/
  | promote (t : String)
  /-- The lock of a job has run out, and it waits again. -/
  | stall (t : String)
  | giveUp (t : String) (i : Nat)
  /-- A job that is completed or has failed is removed in the end. -/
  | expire (t : String)
  /-- The relay of the task calls `failTask`. -/
  | failTask (i : Nat) (t code message : String)
  | fail (i c : Nat) (now resultId : String)
  | failThrows (i : Nat)
  /-- The relay of its task persists an event. -/
  | persist (c : Nat) (event : TaskStreamEvent) (archived : Option Archived)
      (sourceEventId : Option String) (now resultId : String)
  /-- The next statement of a call of `persistTaskEvent`. -/
  | advance (c : Nat)
  | abort (c : Nat)
  | archive (row : ResultArtifact)
  | enqueueTask (i : Nat) (new : NewTask)
  | create (i : Nat)
  | createFails (i f : Nat) (message : String) (late : Bool)
  | cancelTask (i : Nat) (userId t : String)
  | cancel (i : Nat) (answer : CancelAnswer)
  | cancelPersist (i c : Nat) (now resultId : String)

/-- A statement of the service that changes nothing else. -/
def System.serve (settings : ProcessSettings) (s : System) (l : PersistCalls.Label) : Option System := do
  let service ← PersistCalls.step settings.toSettings s.service l
  some { s with service }

/-- A job changes its state without an attempt. -/
def System.move (s : System) (t : String) (job : Job) (old new : JobState) : Option System :=
  if job.state = old then some { s with jobs := s.jobs.set t { job with state := new, owner := none } }
  else none

def Attempt.ended (attempt : Attempt) : Bool :=
  match attempt.phase with
  | .returned | .threw _ _ => true
  | _ => false

/-- The steps of a process that is up. -/
def Process.step (settings : ProcessSettings) (s : System) (p : Process) : Label → Option System
  | .boot | .crash => none
  | .init expired c now resultId => s.initialise settings p expired c now resultId
  | .take t a => do
    let job ← s.jobs.get t
    if p.works settings ∧ job.state = .waiting ∧ p.attempts.get a = none then
      some { s with
        jobs := s.jobs.set t { job with state := .active, owner := some a }
        process := some { p with attempts := p.attempts.set a ⟨t, "", .finding⟩ } }
    else none
  | .attempt a answer => do
    let attempt ← p.attempts.get a
    s.attempt settings p a attempt answer
  | .attemptFails a code message => do
    let attempt ← p.attempts.get a
    if Attempt.ended attempt then none
    else
      let attempts := p.attempts.set a { attempt with phase := .threw code message }
      some { s with process := some { p with attempts, faulty := true } }
  | .settle a i => do
    let attempt ← p.attempts.get a
    let job ← s.jobs.get attempt.taskId
    s.settle settings p a i attempt job
  | .promote t => do
    let job ← s.jobs.get t
    s.move t job .delayed .waiting
  | .stall t => do
    let job ← s.jobs.get t
    s.move t job .active .waiting
  | .giveUp t i => do
    let job ← s.jobs.get t
    s.giveUp settings p i t job
  | .expire t => do
    let job ← s.jobs.get t
    if job.state = .completed ∨ job.state = .failed then some { s with jobs := s.jobs.delete t } else none
  | .failTask i t code message =>
    if p.relays.contains t ∧ p.failures.get i = none then
      let failures := p.failures.set i ⟨t, code, message, false, .finding⟩
      some { s with process := some { p with failures } }
    else none
  | .fail i c now resultId => do
    let call ← p.failures.get i
    let (service, call) ← call.next settings.toSettings s.service c now resultId
    some { s with service, process := some { p with failures := p.failures.set i call } }
  | .failThrows i => do
    let call ← p.failures.get i
    let failures := p.failures.set i { call with phase := .returned }
    some { s with process := some { p with failures, faulty := true } }
  | .persist c event archived source now resultId =>
    if p.relays.contains event.taskId then
      s.serve settings (.call c event archived source now resultId)
    else none
  | .advance c => s.serve settings (.advance c)
  | .abort c => do
    let s ← s.serve settings (.abort c)
    some { s with process := some { p with faulty := true } }
  | .archive row => s.serve settings (.single (.archive row))
  | .enqueueTask i new =>
    if p.isListening ∧ p.creations.get i = none then do
      let s ← s.serve settings (.single (.enqueue new))
      let creation : Creation := ⟨new.taskId, .enqueuing (.start false)⟩
      some { s with process := some { p with creations := p.creations.set i creation } }
    else none
  | .create i => do
    let creation ← p.creations.get i
    s.create settings p i creation
  | .createFails i f message late => do
    let creation ← p.creations.get i
    s.createFails p i f message late creation
  | .cancelTask i userId t =>
    if p.isListening ∧ p.cancellations.get i = none then
      let cancellation : Cancellation := ⟨⟨userId, t, .finding⟩, none⟩
      some { s with process := some { p with cancellations := p.cancellations.set i cancellation } }
    else none
  | .cancel i answer => do
    let cancellation ← p.cancellations.get i
    s.cancel settings p i cancellation answer
  | .cancelPersist i c now resultId => do
    let cancellation ← p.cancellations.get i
    s.cancelPersist settings p i c now resultId cancellation

def step (settings : ProcessSettings) (s : System) (l : Label) : Option System :=
  match s.process, l with
  | none, .boot => some { s with process := some .start }
  | some _, .crash => some { s with service := disconnected s.service, process := none }
  | some p, l => p.step settings s l
  | none, _ => none

end ApiProcess
