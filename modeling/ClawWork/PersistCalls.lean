import ClawWork.ReadCommitted
import ClawWork.TasksService
import Mathlib.Data.List.Sort

/-!
# Concurrent calls of `persistTaskEvent`

Every call of `persistTaskEvent` is a party that moves by one statement at a
time: the check before the transaction, the statements inside it, the commit and
the publication. The id of an event is drawn from its sequence when the row is
inserted, by a statement of its own, since the sequence is not transactional.
-/

namespace PersistCalls

open JavaScript SharedTypes TaskStore TasksService ReadCommitted

/-- What a statement may wait for: a row that it updates, the advisory lock of a session, or a
uniqueness check against a row that is not committed yet. -/
inductive Lock where
  | task (id : String)
  | session (id : String)
  | advisory (sessionId : String)
  | sourceEvent (taskId sourceEventId : String)
  deriving DecidableEq

/-- The statements that follow the insertion of the event. -/
inductive Statement where
  | updateTask
  | updateSession
  | lockSession
  | findEvents
  | findVersion (outputText : String) (outputJson : Json)
  | createResult (row : TaskResult)
  | linkArtifacts

def statements : TaskEventDetail → List Statement
  | .accepted => [.updateTask]
  | .failed _ _ | .cancelled _ => [.updateTask, .updateSession]
  | .completed => [.lockSession, .findEvents, .linkArtifacts, .updateTask, .updateSession]
  | .stageChanged _ | .delta _ | .resultCreated _ => []

/-- Where a call stands; each phase names the statement it issues next. -/
inductive Phase where
  | precheck
  | prepare
  | findTask (prepared : Prepared)
  | findDuplicate (prepared : Prepared) (task : Task)
  | drawId (prepared : Prepared) (task : Task)
  | create (prepared : Prepared) (task : Task) (id : Nat)
  /-- The statements still to come; the transaction commits when none is left. -/
  | project (prepared : Prepared) (task : Task) (id : Nat) (todo : List Statement)
  | publish (prepared : Prepared) (id : Nat)
  | done

structure Call where
  event : TaskStreamEvent
  archived : Option Archived
  sourceEventId : Option String
  now : String
  resultId : String
  phase : Phase

structure PersistedTaskEvent where
  id : Nat
  event : TaskStreamEvent

structure System where
  server : Server Database Lock
  calls : Nat → Option Call
  /-- The publications to the hub, in their order. -/
  published : List PersistedTaskEvent

def System.init : System := ⟨.start .empty, fun _ => none, []⟩

def System.db (s : System) : Database := s.server.db

/-- The call goes on to the next phase. -/
def System.goto (s : System) (c : Nat) (call : Call) (phase : Phase) : System :=
  { s with calls := Function.update s.calls c (some { call with phase }) }

/-- The transaction of the call ends without effect, and the call with it. -/
def System.leave (s : System) (c : Nat) (call : Call) : System :=
  { s with server := s.server.rollback c }.goto c call .done

@[simp] theorem goto_server (s : System) (c : Nat) (call : Call) (phase : Phase) :
    (s.goto c call phase).server = s.server := rfl

@[simp] theorem goto_published (s : System) (c : Nat) (call : Call) (phase : Phase) :
    (s.goto c call phase).published = s.published := rfl

theorem goto_calls (s : System) (c d : Nat) (call : Call) (phase : Phase) :
    (s.goto c call phase).calls d = if d = c then some { call with phase } else s.calls d := by
  simp [System.goto, Function.update_apply]

@[simp] theorem leave_server (s : System) (c : Nat) (call : Call) :
    (s.leave c call).server = s.server.rollback c := rfl

@[simp] theorem leave_published (s : System) (c : Nat) (call : Call) :
    (s.leave c call).published = s.published := rfl

theorem leave_calls (s : System) (c d : Nat) (call : Call) :
    (s.leave c call).calls d = if d = c then some { call with phase := .done } else s.calls d :=
  goto_calls _ c d call .done

/-- A row of the log takes its place in the order of the ids. -/
def insertEvent (row : TaskEvent) (db : Database) : Database :=
  { db with taskEvents := db.taskEvents.orderedInsert (fun a b => a.id ≤ b.id) row }

/-- The artifacts that `resultArtifact.updateMany` finds: those of the task that have no result. -/
def unlinkedArtifacts (taskId : String) (db : Database) : List String :=
  (db.resultArtifacts.filter fun row => row.taskId = taskId && row.resultId = none).map ResultArtifact.id

/-- The artifacts that were found get their result. -/
def linkRows (ids : List String) (resultId : String) (db : Database) : Database :=
  { db with
    resultArtifacts := db.resultArtifacts.map fun row =>
      if ids.contains row.id then { row with resultId := some resultId } else row }

def eventRow (stored : TaskStreamEvent) (sourceEventId : Option String) (id : Nat) : TaskEvent :=
  ⟨id, stored.taskId, sourceEventId, stored.detail.literal, stored.toJson⟩

/-- The unique index waits for a concurrent insertion of the same source event id; rows without one
are not compared. -/
def lockSource (server : Server Database Lock) (c : Nat) (taskId : String) :
    Option String → Option (Server Database Lock)
  | some source => server.acquire c (.sourceEvent taskId source)
  | none => some server

/-- The insertion of the event, which fails when the source event id was committed meanwhile. -/
def System.create (s : System) (c : Nat) (call : Call) (prepared : Prepared) (task : Task) (id : Nat) :
    Option System := do
  let server ← lockSource s.server c prepared.stored.taskId call.sourceEventId
  if (server.view c).violatesSource prepared.stored.taskId call.sourceEventId then
    some ({ s with server }.leave c call)
  else
    let server := server.write c (insertEvent (eventRow prepared.stored call.sourceEventId id))
    some ({ s with server }.goto c call
      (.project prepared task id (statements prepared.stored.detail)))

/-- One statement of the transaction after the insertion. -/
def System.execute (settings : Settings) (s : System) (c : Nat) (call : Call) (prepared : Prepared)
    (task : Task) (id : Nat) (todo : List Statement) : Statement → Option System
  | .updateTask => do
    let server ← s.server.acquire c (.task task.id)
    let update (db : Database) : Database :=
      db.updateTask task.id (taskUpdate call.now task prepared.stored)
    some ({ s with server := server.write c update }.goto c call (.project prepared task id todo))
  | .updateSession => do
    let server ← s.server.acquire c (.session task.sessionId)
    let update (db : Database) : Database :=
      db.updateSession task.sessionId (sessionUpdate task prepared.stored)
    some ({ s with server := server.write c update }.goto c call (.project prepared task id todo))
  | .lockSession => do
    let server ← s.server.acquire c (.advisory task.sessionId)
    some ({ s with server }.goto c call (.project prepared task id todo))
  | .findEvents =>
    let rows := (s.server.view c).eventsOf task.id
    match rows.mapM fun row => parsePersistedEvent settings row.payload with
    | none => some (s.leave c call)
    | some events => some (s.goto c call
        (.project prepared task id (.findVersion (outputText events) (outputJson events) :: todo)))
  | .findVersion text json =>
    let version := (s.server.view c).latestVersion task.sessionId
    some (s.goto c call (.project prepared task id
      (.createResult (newResult call.resultId task text json version) :: todo)))
  | .createResult row =>
    if (s.server.view c).violatesVersion row then some (s.leave c call)
    else
      let insert (db : Database) : Database := { db with taskResults := db.taskResults ++ [row] }
      some ({ s with server := s.server.write c insert }.goto c call (.project prepared task id todo))
  | .linkArtifacts =>
    let update := linkRows (unlinkedArtifacts task.id (s.server.view c)) call.resultId
    some ({ s with server := s.server.write c update }.goto c call (.project prepared task id todo))

/-- The next statement of a call; `none` while it waits for a lock. -/
def System.advance (settings : Settings) (s : System) (c : Nat) (call : Call) : Option System :=
  match call.phase with
  | .precheck =>
    if (truthy call.sourceEventId).any fun source => s.db.hasSourceEvent call.event.taskId source then
      some (s.goto c call .done)
    else some (s.goto c call .prepare)
  | .prepare =>
    match prepareTaskEvent call.archived call.event with
    | some prepared => some (s.goto c call (.findTask prepared))
    | none => some (s.goto c call .done)
  | .findTask prepared =>
    match (s.server.view c).tasks.get prepared.stored.taskId with
    | some task =>
      if task.status.isTerminal then some (s.leave c call)
      else some (s.goto c call (.findDuplicate prepared task))
    | none => some (s.leave c call)
  | .findDuplicate prepared task =>
    if (truthy call.sourceEventId).any fun source =>
        (s.server.view c).hasSourceEvent prepared.stored.taskId source then
      some (s.leave c call)
    else some (s.goto c call (.drawId prepared task))
  | .drawId prepared task =>
    let draw (db : Database) : Database := { db with nextEventId := db.nextEventId + 1 }
    some ({ s with server := s.server.direct draw }.goto c call
      (.create prepared task s.db.nextEventId))
  | .create prepared task id => s.create c call prepared task id
  | .project prepared _ id [] =>
    some ({ s with server := s.server.commit c }.goto c call (.publish prepared id))
  | .project prepared task id (statement :: todo) =>
    s.execute settings c call prepared task id todo statement
  | .publish prepared id =>
    let event : PersistedTaskEvent := ⟨id, prepared.published⟩
    some ({ s with published := s.published ++ [event] }.goto c call .done)
  | .done => none

/-- The row that a transaction of one statement updates. -/
def singleLock : Single → Option Lock
  | .setQueueJobId taskId _ | .incrementAttempt taskId | .dispatch taskId _ _ _ => some (.task taskId)
  | .setSessionRunning sessionId => some (.session sessionId)
  | .enqueue new =>
    match new.session with
    | .inl sessionId => some (.session sessionId)
    | .inr _ => none
  | .archive _ => none

/-- The phases inside the transaction. -/
def Phase.inTransaction : Phase → Bool
  | .findTask _ | .findDuplicate _ _ | .drawId _ _ | .create _ _ _ | .project _ _ _ _ => true
  | .precheck | .prepare | .publish _ _ | .done => false

inductive Label where
  /-- The relay, `cancelTask` or `failTask` calls `persistTaskEvent`. -/
  | call (c : Nat) (event : TaskStreamEvent) (archived : Option Archived)
      (sourceEventId : Option String) (now resultId : String)
  | advance (c : Nat)
  /-- A deadlock, a time limit or a lost connection ends the transaction. -/
  | abort (c : Nat)
  | single (tx : Single)

def step (settings : Settings) (s : System) : Label → Option System
  | .call c event archived sourceEventId now resultId =>
    match s.calls c with
    | some _ => none
    | none => some { s with
        calls := Function.update s.calls c
          (some ⟨event, archived, sourceEventId, now, resultId, .precheck⟩) }
  | .advance c => do
    let call ← s.calls c
    s.advance settings c call
  | .abort c => do
    let call ← s.calls c
    if call.phase.inTransaction then some (s.leave c call) else none
  | .single tx =>
    if (singleLock tx).any fun k => (s.server.locks k).isSome then none
    else do
      let db ← tx.apply settings s.db
      some { s with server := s.server.direct fun _ => db }

section Step

variable {settings : Settings} {s s' : System} {c : Nat}

theorem step_call_eq_some {event : TaskStreamEvent} {archived : Option Archived} {source : Option String}
    {now resultId : String} (h : step settings s (.call c event archived source now resultId) = some s') :
    s.calls c = none ∧ s' = { s with
      calls := Function.update s.calls c (some ⟨event, archived, source, now, resultId, .precheck⟩) } := by
  simp only [step] at h
  split at h
  · cases h
  · rename_i hnone
    exact ⟨hnone, (Option.some.inj h).symm⟩

theorem step_abort_eq_some (h : step settings s (.abort c) = some s') :
    ∃ call, s.calls c = some call ∧ call.phase.inTransaction = true ∧ s' = s.leave c call := by
  obtain ⟨call, hcall, h⟩ := Option.bind_eq_some_iff.mp h
  split at h
  · rename_i hopen
    exact ⟨call, hcall, hopen, (Option.some.inj h).symm⟩
  · cases h

theorem step_single_eq_some {tx : Single} (h : step settings s (.single tx) = some s') :
    (∀ k ∈ singleLock tx, s.server.locks k = none) ∧
      ∃ db, tx.apply settings s.db = some db ∧ s' = { s with server := s.server.direct fun _ => db } := by
  simp only [step] at h
  split at h
  · cases h
  · rename_i hfree
    obtain ⟨db, hdb, h⟩ := Option.bind_eq_some_iff.mp h
    refine ⟨fun k hk => ?_, db, hdb, (Option.some.inj h).symm⟩
    rw [Option.mem_def.mp hk] at hfree
    simpa using hfree

end Step

end PersistCalls
