import ClawWork.StatusFrames
import Mathlib.Logic.Function.Basic

/-!
# Sessions and the statuses of their tasks

Of the tables a board keeps the session and status of every task, and the current
task and status of every session. Every transaction of the service has one of a few
effects on it.
-/

namespace SessionBoard

open SharedTypes TaskStore TasksService StatusFrames

structure Board where
  task : String → Option (String × TaskStatus)
  session : String → Option (Option String × TaskStatus)

def boardOf (db : Database) : Board where
  task t := (db.tasks.get t).map fun row => (row.sessionId, row.status)
  session σ := (db.sessions.get σ).map fun row => (row.currentTaskId, row.status)

namespace Board

def setTask (b : Board) (t : String) (status : TaskStatus) : Board :=
  { b with task := Function.update b.task t ((b.task t).map fun entry => (entry.1, status)) }

def setSession (b : Board) (σ : String) (f : Option String → Option String) (status : TaskStatus) : Board :=
  { b with session := Function.update b.session σ ((b.session σ).map fun entry => (f entry.1, status)) }

theorem setTask_task (b : Board) (t u : String) (status : TaskStatus) : (b.setTask t status).task u =
    if u = t then (b.task t).map fun entry => (entry.1, status) else b.task u :=
  Function.update_apply ..

theorem setTask_self {b : Board} {t σ : String} {old : TaskStatus} (h : b.task t = some (σ, old))
    (status : TaskStatus) : (b.setTask t status).task t = some (σ, status) := by
  rw [setTask_task, if_pos rfl, h]
  rfl

@[simp] theorem setTask_session (b : Board) (t : String) (status : TaskStatus) :
    (b.setTask t status).session = b.session := rfl

@[simp] theorem setSession_task (b : Board) (σ : String) (f : Option String → Option String)
    (status : TaskStatus) : (b.setSession σ f status).task = b.task := rfl

theorem setSession_session (b : Board) (σ τ : String) (f : Option String → Option String)
    (status : TaskStatus) : (b.setSession σ f status).session τ =
    if τ = σ then (b.session σ).map fun entry => (f entry.1, status) else b.session τ :=
  Function.update_apply ..

end Board

/-- What the event of a transaction does. -/
inductive EventEffect (t σ : String) (b : Board) : TaskEventDetail → Board → Prop
  | accepted : EventEffect t σ b .accepted (b.setTask t .running)
  | failed {code message : String} :
      EventEffect t σ b (.failed code message) ((b.setTask t .failed).setSession σ id .failed)
  | cancelled {message : String} :
      EventEffect t σ b (.cancelled message) ((b.setTask t .cancelled).setSession σ id .cancelled)
  | completed : EventEffect t σ b .completed
      ((b.setTask t .completed).setSession σ (fun _ => some t) .completed)
  | other {detail : TaskEventDetail} (hdetail : newStatus detail = none) : EventEffect t σ b detail b

variable {settings : Settings} {db db' : Database}

theorem updateTask_sessions (db : Database) (id : String) (data : Task → Task) :
    (db.updateTask id data).sessions = db.sessions := by
  unfold Database.updateTask
  split <;> rfl

theorem updateSession_get (db : Database) (id σ : String) (data : AppSession → AppSession) :
    (db.updateSession id data).sessions.get σ =
      if σ = id then (db.sessions.get id).map data else db.sessions.get σ := by
  unfold Database.updateSession
  cases h : db.sessions.get id with
  | some row => simp [OrderedMap.get_set]
  | none =>
    by_cases hσ : σ = id
    · simp [hσ, h]
    · simp [hσ]

/-- An update that leaves the session and status of its row. -/
theorem board_updateTask_same {id : String} {data : Task → Task}
    (h : ∀ row, (data row).sessionId = row.sessionId ∧ (data row).status = row.status) :
    boardOf (db.updateTask id data) = boardOf db := by
  rw [boardOf, updateTask_sessions, boardOf, Board.mk.injEq]
  refine ⟨funext fun t => ?_, rfl⟩
  rw [Database.updateTask_get]
  split
  · rename_i heq
    rw [heq, Option.map_map]
    congr 1
    funext row
    simp only [Function.comp_apply, (h row).1, (h row).2]
  · rfl

theorem board_updateTask {id : String} {data : Task → Task} {status : TaskStatus}
    (h : ∀ row ∈ db.tasks.get id, (data row).sessionId = row.sessionId ∧ (data row).status = status) :
    boardOf (db.updateTask id data) = (boardOf db).setTask id status := by
  rw [boardOf, updateTask_sessions, boardOf, Board.setTask, Board.mk.injEq]
  refine ⟨funext fun t => ?_, rfl⟩
  rw [Database.updateTask_get, Function.update_apply]
  split
  · dsimp only
    cases hget : db.tasks.get id with
    | none => rfl
    | some row =>
      obtain ⟨hsession, hstatus⟩ := h row hget
      simp only [Option.map_some, hsession, hstatus]
  · rfl

theorem board_updateSession {id : String} {data : AppSession → AppSession}
    {f : Option String → Option String} {status : TaskStatus}
    (h : ∀ row, (data row).currentTaskId = f row.currentTaskId ∧ (data row).status = status) :
    boardOf (db.updateSession id data) = (boardOf db).setSession id f status := by
  rw [boardOf, Database.updateSession_tasks, boardOf, Board.setSession, Board.mk.injEq]
  refine ⟨rfl, funext fun σ => ?_⟩
  rw [updateSession_get, Function.update_apply]
  split
  · rw [Option.map_map, Option.map_map]
    congr 1
    funext row
    simp only [Function.comp_apply, (h row).1, (h row).2]
  · rfl

theorem taskUpdate_board (now : String) (task : Task) (stored : TaskStreamEvent) {status : TaskStatus}
    (hstatus : newStatus stored.detail = some status) (row : Task) :
    (taskUpdate now task stored row).sessionId = row.sessionId ∧
      (taskUpdate now task stored row).status = status := by
  refine ⟨?_, by rw [taskUpdate_status, hstatus]; rfl⟩
  unfold taskUpdate
  split <;> rfl

theorem effect_projectEvent {now resultId : String} {task : Task} {stored : TaskStreamEvent}
    (h : projectEvent settings now resultId task stored db = some db') :
    EventEffect task.id task.sessionId (boardOf db) stored.detail (boardOf db') := by
  have hsession : ∀ (db : Database) (f : Option String → Option String) (status : TaskStatus),
      (∀ row : AppSession, (sessionUpdate task stored row).currentTaskId = f row.currentTaskId ∧
        (sessionUpdate task stored row).status = status) →
      boardOf (db.updateSession task.sessionId (sessionUpdate task stored)) =
        (boardOf db).setSession task.sessionId f status := fun db f status hrow => board_updateSession hrow
  have htask : ∀ (db : Database) (status : TaskStatus), newStatus stored.detail = some status →
      boardOf (db.updateTask task.id (taskUpdate now task stored)) =
        (boardOf db).setTask task.id status :=
    fun db status hstatus => board_updateTask fun row _ => taskUpdate_board now task stored hstatus row
  unfold projectEvent at h
  split at h <;> rename_i hdetail <;> rw [hdetail]
  · cases h
    rw [htask db .running (by rw [hdetail]; rfl)]
    exact .accepted
  · cases h
    rw [hsession _ id .failed (fun row => by simp [sessionUpdate, hdetail]),
      htask db .failed (by rw [hdetail]; rfl)]
    exact .failed
  · cases h
    rw [hsession _ id .cancelled (fun row => by simp [sessionUpdate, hdetail]),
      htask db .cancelled (by rw [hdetail]; rfl)]
    exact .cancelled
  · obtain ⟨events, -, h⟩ := Option.bind_eq_some_iff.mp h
    dsimp only at h
    split at h
    · cases h
    · cases h
      rw [hsession _ (fun _ => some task.id) .completed (fun row => by simp [sessionUpdate, hdetail]),
        htask _ .completed (by rw [hdetail]; rfl)]
      exact .completed
  all_goals
    cases h
    exact .other rfl

/-- The transaction of `persistTaskEvent` changes the board only by the event that it inserts for an
open task. -/
theorem effect_persist (settings : Settings) (now resultId : String) (stored : TaskStreamEvent)
    (source : Option String) (hk : Keyed db) :
    boardOf (persistTransaction settings now resultId stored source db).2 = boardOf db ∨
    ∃ σ status, (boardOf db).task stored.taskId = some (σ, status) ∧ status.isTerminal = false ∧
      db.violatesSource stored.taskId source = false ∧
      EventEffect stored.taskId σ (boardOf db) stored.detail
        (boardOf (persistTransaction settings now resultId stored source db).2) := by
  rcases persistTransaction_cases settings now resultId stored source db with
    ⟨heq, -⟩ | heq | ⟨task, db', htask, hopen, hfresh, hproject, heq⟩
  · rw [heq]
    exact .inl rfl
  · rw [heq]
    exact .inl rfl
  · rw [heq]
    refine .inr ⟨task.sessionId, task.status, ?_, hopen, hfresh, ?_⟩
    · simp [boardOf, htask]
    · have heffect := effect_projectEvent hproject
      rw [hk.get htask] at heffect
      exact heffect

theorem effect_dispatch (taskId runId streamUrl now : String) (db : Database) :
    boardOf (dispatchUpdate taskId runId streamUrl now db) =
      if db.status taskId = some .queued then (boardOf db).setTask taskId .running else boardOf db := by
  split
  · rename_i hqueued
    apply board_updateTask
    intro row hrow
    have hstatus : row.status = .queued := by
      rw [Database.status, hrow] at hqueued
      exact Option.some.inj hqueued
    rw [if_pos hstatus]
    exact ⟨rfl, rfl⟩
  · rename_i hother
    have hsame : dispatchUpdate taskId runId streamUrl now db = db.updateTask taskId id := by
      unfold dispatchUpdate Database.updateTask
      cases hget : db.tasks.get taskId with
      | none => rfl
      | some row =>
        have hstatus : row.status ≠ .queued := by
          intro heq
          rw [Database.status, hget, Option.map_some, heq] at hother
          exact hother rfl
        simp only [if_neg hstatus, id_eq]
    rw [hsame]
    exact board_updateTask_same fun row => ⟨rfl, rfl⟩

/-- A new task is queued, and so is its session with it. -/
theorem effect_enqueue {new : NewTask} (h : enqueueTransaction settings new db = some db') :
    ∃ σ, (boardOf db).task new.taskId = none ∧
      (boardOf db').task = Function.update (boardOf db).task new.taskId (some (σ, .queued)) ∧
      (boardOf db').session =
        Function.update (boardOf db).session σ (some (some new.taskId, .queued)) := by
  obtain ⟨hfresh, db₁, σ, hsession, rfl⟩ := enqueueTransaction_eq_some h
  obtain ⟨htasks, -⟩ := sessionForTask_tasks hsession
  have hfound : (db₁.sessions.get σ).isSome = true ∧ ∀ τ, τ ≠ σ → db₁.sessions.get τ = db.sessions.get τ := by
    obtain ⟨-, hsome, rfl⟩ | ⟨title, -, rfl⟩ := sessionForTask_eq_some hsession
    · exact ⟨hsome, fun _ _ => rfl⟩
    · exact ⟨by rw [OrderedMap.get_set_same]; rfl, fun τ hτ => OrderedMap.get_set_other _ _ hτ⟩
  obtain ⟨session, hget⟩ := Option.isSome_iff_exists.mp hfound.1
  refine ⟨σ, by simp [boardOf, hfresh], funext fun t => ?_, funext fun τ => ?_⟩
  · rw [Function.update_apply]
    simp only [boardOf, Database.updateSession_tasks, htasks, OrderedMap.get_set]
    split <;> rfl
  · rw [Function.update_apply]
    simp only [boardOf, updateSession_get]
    split
    · rw [hget]
      rfl
    · rename_i hτ
      rw [hfound.2 τ hτ]

end SessionBoard
