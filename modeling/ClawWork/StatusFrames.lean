import ClawWork.TasksService

/-!
# What a transaction does to the statuses

Rows stay in their place, and only an event changes a status, apart from a new
task and the start of a queued one. A terminal status is kept by every
transaction that runs alone.
-/

namespace StatusFrames

open SharedTypes TaskStore TasksService

variable {settings : Settings}

def Keyed (db : Database) : Prop := ∀ u task, db.tasks.get u = some task → task.id = u

theorem keyed_updateTask {db : Database} {id : String} {data : Task → Task}
    (hdata : ∀ task, (data task).id = task.id) (h : Keyed db) : Keyed (db.updateTask id data) := by
  intro v row hv
  rw [Database.updateTask_get] at hv
  split at hv
  · rename_i heq
    obtain ⟨old, hold, rfl⟩ := Option.map_eq_some_iff.mp hv
    rw [hdata, heq]
    exact h id old hold
  · exact h v row hv

/-- How the other transactions change a status. -/
def StatusMoves (old new : Option TaskStatus) : Prop :=
  new = old ∨ old = none ∧ new = some .queued ∨ old = some .queued ∧ new = some .running

theorem StatusMoves.keeps_terminal {old new : Option TaskStatus} {status : TaskStatus}
    (h : StatusMoves old new) (hold : old = some status) (hterm : status.isTerminal = true) :
    new = some status := by
  rcases h with h | ⟨h, -⟩ | ⟨h, -⟩
  · exact h.trans hold
  · rw [h] at hold
    cases hold
  · rw [h] at hold
    cases hold
    cases hterm

theorem status_updateTask {db : Database} {id : String} {data : Task → Task}
    (hdata : ∀ task, (data task).status = task.status) (v : String) :
    (db.updateTask id data).status v = db.status v := by
  rw [Database.status, Database.updateTask_get]
  split
  · rename_i heq
    simp [Database.status, heq, Function.comp_def, hdata]
  · rfl

/-- What a transaction that touches no event does to the log and the statuses. -/
structure Unlogged (db db' : Database) : Prop where
  events : db'.taskEvents = db.taskEvents
  nextId : db'.nextEventId = db.nextEventId
  status : ∀ v, StatusMoves (db.status v) (db'.status v)
  keyed : Keyed db → Keyed db'

theorem unlogged_updateTask (db : Database) (id : String) {data : Task → Task}
    (hid : ∀ task, (data task).id = task.id) (hstatus : ∀ task, (data task).status = task.status) :
    Unlogged db (db.updateTask id data) where
  events := db.updateTask_taskEvents id data
  nextId := db.updateTask_nextEventId id data
  status := fun v => .inl (status_updateTask hstatus v)
  keyed := keyed_updateTask hid

theorem Unlogged.of_same {db db' : Database} (hevents : db'.taskEvents = db.taskEvents)
    (hnext : db'.nextEventId = db.nextEventId) (htasks : db'.tasks = db.tasks) : Unlogged db db' where
  events := hevents
  nextId := hnext
  status := fun v => .inl (by rw [Database.status, htasks]; rfl)
  keyed := by
    intro h
    rwa [Keyed, htasks]

theorem unlogged_dispatch (db : Database) (taskId runId streamUrl now : String) :
    Unlogged db (dispatchUpdate taskId runId streamUrl now db) where
  events := db.updateTask_taskEvents taskId _
  nextId := db.updateTask_nextEventId taskId _
  status := by
    intro v
    rw [dispatchUpdate, Database.status, Database.status, Database.updateTask_get]
    split
    · rename_i heq
      rw [heq]
      cases db.tasks.get taskId with
      | none => exact .inl rfl
      | some row =>
        simp only [Option.map_some]
        split
        · rename_i hq
          exact .inr (.inr ⟨congrArg some hq, rfl⟩)
        · exact .inl rfl
    · exact .inl rfl
  keyed := by
    apply keyed_updateTask
    intro row
    split <;> rfl

/-- The creation of a task touches no artifact. -/
theorem enqueue_artifacts {settings : Settings} {new : NewTask} {db db' : Database}
    (h : enqueueTransaction settings new db = some db') : db'.resultArtifacts = db.resultArtifacts := by
  obtain ⟨-, db₁, sessionId, hsession, rfl⟩ := enqueueTransaction_eq_some h
  rw [Database.updateSession_resultArtifacts]
  obtain ⟨-, -, rfl⟩ | ⟨title, -, rfl⟩ := sessionForTask_eq_some hsession
  · rfl
  · rfl

theorem unlogged_enqueue {db db' : Database} {new : NewTask}
    (h : enqueueTransaction settings new db = some db') : Unlogged db db' := by
  obtain ⟨hfresh, db₁, sessionId, hsession, rfl⟩ := enqueueTransaction_eq_some h
  obtain ⟨htasks, hevents, -, hnext⟩ := sessionForTask_tasks hsession
  refine ⟨by simpa using hevents, by simpa using hnext, fun v => ?_, fun hk v row hv => ?_⟩
  · rw [Database.status, Database.status, Database.updateSession_tasks, htasks]
    by_cases hv : v = new.taskId
    · rw [hv, hfresh, OrderedMap.get_set_same]
      exact .inr (.inl ⟨rfl, rfl⟩)
    · rw [OrderedMap.get_set_other _ _ hv]
      exact .inl rfl
  · rw [Database.updateSession_tasks, htasks] at hv
    by_cases hid : v = new.taskId
    · rw [hid, OrderedMap.get_set_same] at hv
      cases hv
      exact hid.symm
    · rw [OrderedMap.get_set_other _ _ hid] at hv
      exact hk v row hv

theorem unlogged_single {db db' : Database} {tx : Single} (h : tx.apply settings db = some db') :
    Unlogged db db' := by
  cases tx with
  | enqueue new => exact unlogged_enqueue h
  | setQueueJobId taskId jobId =>
    cases h
    exact unlogged_updateTask db taskId (fun _ => rfl) fun _ => rfl
  | incrementAttempt taskId =>
    cases h
    exact unlogged_updateTask db taskId (fun _ => rfl) fun _ => rfl
  | dispatch taskId runId streamUrl now =>
    cases h
    exact unlogged_dispatch db taskId runId streamUrl now
  | setSessionRunning sessionId =>
    cases h
    exact .of_same (db.updateSession_taskEvents ..) (db.updateSession_nextEventId ..)
      (db.updateSession_tasks ..)
  | archive row =>
    cases h
    exact .of_same rfl rfl rfl

theorem StatusMoves.isSome {old new : Option TaskStatus} (h : StatusMoves old new)
    (hold : old.isSome = true) : new.isSome = true := by
  rcases h with h | ⟨h, -⟩ | ⟨-, h⟩
  · rw [h]
    exact hold
  · rw [h] at hold
    cases hold
  · rw [h]
    rfl

variable {now resultId : String} {stored : TaskStreamEvent} {source : Option String}
  {db db' : Database} {task : Task} {t : String}

/-- How the transaction of `persistTaskEvent` ends. -/
theorem persistTransaction_cases (settings : Settings) (now resultId : String)
    (stored : TaskStreamEvent) (source : Option String) (db : Database) :
    (persistTransaction settings now resultId stored source db = (.skipped, db) ∧
      ∀ task, db.tasks.get stored.taskId = some task → task.status.isTerminal = true ∨
        (truthy source).any (fun id => db.hasSourceEvent stored.taskId id) = true) ∨
    persistTransaction settings now resultId stored source db = rollback db ∨
    ∃ task db', db.tasks.get stored.taskId = some task ∧ task.status.isTerminal = false ∧
      db.violatesSource stored.taskId source = false ∧
      projectEvent settings now resultId task stored (db.createEvent stored.taskId source stored) =
        some db' ∧
      persistTransaction settings now resultId stored source db = (.persisted db.nextEventId, db') := by
  unfold persistTransaction
  split
  · rename_i hnone
    exact .inl ⟨rfl, fun task htask => by rw [hnone] at htask; cases htask⟩
  · rename_i task htask
    have hfound : ∀ other, db.tasks.get stored.taskId = some other → other = task := fun other h =>
      Option.some.inj (h.symm.trans htask)
    split
    · rename_i hterm
      exact .inl ⟨rfl, fun other h => .inl (by rw [hfound other h]; exact hterm)⟩
    · rename_i hopen
      split
      · rename_i hdup
        exact .inl ⟨rfl, fun other h => .inr hdup⟩
      · split
        · exact .inr (.inl rfl)
        · rename_i hfresh
          split
          · rename_i db' hdb'
            exact .inr (.inr ⟨task, db', htask, by simpa using hopen, by simpa using hfresh, hdb', rfl⟩)
          · exact .inr (.inl rfl)

/-- Without a source event id only the completion of a task may throw. -/
theorem persist_ne_threw (settings : Settings) (now resultId : String) (stored : TaskStreamEvent)
    (db : Database) (hdetail : stored.detail ≠ .completed) :
    (persistTransaction settings now resultId stored none db).1 ≠ .threw := by
  unfold persistTransaction
  split
  · simp
  · split
    · simp
    · cases hd : stored.detail with
      | completed => exact absurd hd hdetail
      | _ => simp [truthy, Database.violatesSource, projectEvent, hd]

theorem status_updateTask_event (db : Database) (id : String) (v : String) :
    (db.updateTask id (taskUpdate now task stored)).status v =
      if v = id then (db.status v).map (newStatus stored.detail).getD else db.status v := by
  rw [Database.status, Database.updateTask_get]
  split
  · rename_i heq
    simp [Database.status, heq, Function.comp_def, taskUpdate_status]
  · rfl

/-- What the statements after the insertion change. -/
structure Projects (taskId : String) (stored : TaskStreamEvent) (db db' : Database) : Prop where
  events : db'.taskEvents = db.taskEvents
  nextId : db'.nextEventId = db.nextEventId
  status : ∀ v, db'.status v =
    if v = taskId then (db.status v).map (newStatus stored.detail).getD else db.status v
  keyed : Keyed db → Keyed db'

theorem projects_update (now : String) (task : Task) (db : Database) (id : String) :
    Projects id stored db (db.updateTask id (taskUpdate now task stored)) where
  events := db.updateTask_taskEvents id _
  nextId := db.updateTask_nextEventId id _
  status := status_updateTask_event db id
  keyed := keyed_updateTask fun row => taskUpdate_id now task stored row

theorem Projects.session {taskId : String} (h : Projects taskId stored db db') (id : String)
    (data : AppSession → AppSession) : Projects taskId stored db (db'.updateSession id data) where
  events := (db'.updateSession_taskEvents id data).trans h.events
  nextId := (db'.updateSession_nextEventId id data).trans h.nextId
  status := by
    intro v
    rw [Database.status, Database.updateSession_tasks]
    exact h.status v
  keyed := by
    intro hk
    rw [Keyed, Database.updateSession_tasks]
    exact h.keyed hk

theorem projects_unchanged (hnone : newStatus stored.detail = none) (db : Database) (id : String) :
    Projects id stored db db where
  events := rfl
  nextId := rfl
  status := by
    intro v
    rw [hnone]
    cases db.status v <;> simp
  keyed := fun h => h

theorem projectEvent_projects (h : projectEvent settings now resultId task stored db = some db') :
    Projects task.id stored db db' := by
  unfold projectEvent at h
  split at h
  · cases h
    exact projects_update now task db task.id
  · cases h
    exact (projects_update now task db task.id).session _ _
  · cases h
    exact (projects_update now task db task.id).session _ _
  · obtain ⟨events, -, h⟩ := Option.bind_eq_some_iff.mp h
    dsimp only at h
    split at h
    · cases h
    · cases h
      let between := linkArtifacts task.id resultId { db with
        taskResults := db.taskResults ++ [newResult resultId task (outputText events)
          (outputJson events) (db.latestVersion task.sessionId)] }
      have hproject : Projects task.id stored between _ :=
        (projects_update now task between task.id).session task.sessionId (sessionUpdate task stored)
      exact ⟨hproject.events, hproject.nextId, hproject.status, hproject.keyed⟩
  all_goals
    rename_i hd
    cases h
    exact projects_unchanged (by rw [hd]; rfl) db task.id

theorem Keyed.get (h : Keyed db) (ht : db.tasks.get t = some task) : task.id = t := h t task ht

/-- The transaction changes a status only when it inserts its event into the log of an open task. -/
theorem persist_status (settings : Settings) (now resultId : String) (stored : TaskStreamEvent)
    (source : Option String) (hk : Keyed db) (v : String) :
    (persistTransaction settings now resultId stored source db).2.status v = db.status v ∨
    v = stored.taskId ∧ ∃ old, db.status v = some old ∧ old.isTerminal = false ∧
      (persistTransaction settings now resultId stored source db).1 = .persisted db.nextEventId ∧
      (persistTransaction settings now resultId stored source db).2.status v =
        some ((newStatus stored.detail).getD old) := by
  rcases persistTransaction_cases settings now resultId stored source db with
    ⟨heq, -⟩ | heq | ⟨task, db', htask, hopen, -, hproject, heq⟩
  · rw [heq]
    exact .inl rfl
  · rw [heq]
    exact .inl rfl
  · rw [heq]
    have hproject := projectEvent_projects hproject
    rw [hk.get htask] at hproject
    by_cases hv : v = stored.taskId
    · refine .inr ⟨hv, task.status, by rw [hv, Database.status, htask]; rfl, hopen, rfl, ?_⟩
      have hold : (db.createEvent stored.taskId source stored).status v = some task.status := by
        rw [hv]
        exact congrArg (Option.map Task.status) htask
      rw [hproject.status, if_pos hv, hold]
      rfl
    · rw [hproject.status, if_neg hv]
      exact .inl rfl

theorem persist_keyed (hk : Keyed db) :
    Keyed (persistTransaction settings now resultId stored source db).2 := by
  rcases persistTransaction_cases settings now resultId stored source db with
    ⟨heq, -⟩ | heq | ⟨task, db', htask, hopen, -, hproject, heq⟩
  · rw [heq]
    exact hk
  · rw [heq]
    exact hk
  · rw [heq]
    exact (projectEvent_projects hproject).keyed hk

/-- Every transaction keeps the tasks and what is terminal. -/
structure Keeps (db db' : Database) : Prop where
  terminal : ∀ t status, db.status t = some status → status.isTerminal = true →
    db'.status t = some status
  isSome : ∀ t, (db.status t).isSome = true → (db'.status t).isSome = true
  keyed : Keyed db'

theorem keeps_refl (h : Keyed db) : Keeps db db where
  terminal := fun _ _ hst _ => hst
  isSome := fun _ hsome => hsome
  keyed := h

theorem Unlogged.keeps (h : Unlogged db db') (hk : Keyed db) : Keeps db db' where
  terminal := fun t _ hst hterm => (h.status t).keeps_terminal hst hterm
  isSome := fun t hsome => (h.status t).isSome hsome
  keyed := h.keyed hk

theorem persist_keeps (settings : Settings) (now resultId : String) (stored : TaskStreamEvent)
    (source : Option String) (hk : Keyed db) :
    Keeps db (persistTransaction settings now resultId stored source db).2 where
  terminal := by
    intro t status hst hterm
    rcases persist_status settings now resultId stored source hk t with heq | ⟨-, old, hold, hopen, -⟩
    · exact heq.trans hst
    · rw [hst] at hold
      cases hold
      rw [hterm] at hopen
      cases hopen
  isSome := by
    intro t hsome
    rcases persist_status settings now resultId stored source hk t with heq | ⟨-, old, -, -, -, hnew⟩
    · rw [heq]
      exact hsome
    · rw [hnew]
      rfl
  keyed := persist_keyed hk

theorem apply_keeps (hk : Keyed db) {tx : Transaction} (h : tx.apply settings db = some db') :
    Keeps db db' := by
  cases tx with
  | single tx => exact (unlogged_single h).keeps hk
  | persist event archived source now resultId =>
    obtain ⟨prepared, -, h⟩ := Option.bind_eq_some_iff.mp h
    cases h
    exact persist_keeps settings now resultId _ _ hk
  | failTask taskId code message now resultId =>
    obtain ⟨event, -, h⟩ := Option.bind_eq_some_iff.mp h
    cases h
    exact persist_keeps settings now resultId _ _ hk
  | cancelTask userId taskId now resultId =>
    obtain ⟨task, -, h⟩ := Option.bind_eq_some_iff.mp h
    split at h
    · cases h
      exact persist_keeps settings now resultId _ _ hk
    · cases h

end StatusFrames
