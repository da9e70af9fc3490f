import ClawWork.LogCommits

/-!
# The writes of `persistTaskEvent`

Whatever a transaction of `persistTaskEvent` has written is one of five kinds of
writes, so that what all five keep is kept by its commit. One such thing is the
session of every task.
-/

namespace PersistWrites

open SharedTypes TaskStore TasksService ReadCommitted PersistCalls

/-- The writes of the statements. -/
inductive Written : (Database → Database) → Prop
  | event (row : TaskEvent) : Written (insertEvent row)
  | task (id now : String) (task : Task) (stored : TaskStreamEvent) :
      Written fun db => db.updateTask id (taskUpdate now task stored)
  | session (id : String) (task : Task) (stored : TaskStreamEvent) :
      Written fun db => db.updateSession id (sessionUpdate task stored)
  | result (row : TaskResult) : Written fun db => { db with taskResults := db.taskResults ++ [row] }
  | artifacts (ids : List String) (resultId : String) : Written (linkRows ids resultId)

def AllWritten (s : System) : Prop := ∀ c, ∀ w ∈ s.server.writes c, Written w

variable {settings : Settings} {s s' : System} {l : Label} {c : Nat} {call : Call}

theorem allWritten_init : AllWritten .init := fun c w hw => by cases hw

/-- The write of the next statement of a call. -/
inductive Writes (s : System) (c : Nat) (call : Call) : (Database → Database) → Prop
  | event {prepared : Prepared} {task : Task} {id : Nat} (hphase : call.phase = .create prepared task id) :
      Writes s c call (insertEvent (eventRow prepared.stored call.sourceEventId id))
  | task {prepared : Prepared} {task : Task} {id : Nat} {todo : List Statement}
      (hphase : call.phase = .project prepared task id (.updateTask :: todo)) :
      Writes s c call fun db => db.updateTask task.id (taskUpdate call.now task prepared.stored)
  | session {prepared : Prepared} {task : Task} {id : Nat} {todo : List Statement}
      (hphase : call.phase = .project prepared task id (.updateSession :: todo)) :
      Writes s c call fun db => db.updateSession task.sessionId (sessionUpdate task prepared.stored)
  | result {prepared : Prepared} {task : Task} {id : Nat} {row : TaskResult} {todo : List Statement}
      (hphase : call.phase = .project prepared task id (.createResult row :: todo)) :
      Writes s c call fun db => { db with taskResults := db.taskResults ++ [row] }
  | artifacts {prepared : Prepared} {task : Task} {id : Nat} {todo : List Statement}
      (hphase : call.phase = .project prepared task id (.linkArtifacts :: todo)) :
      Writes s c call (linkRows (unlinkedArtifacts task.id (s.server.view c)) call.resultId)

/-- What a step of a call does on the server. -/
inductive ServerMoves (s : System) (c : Nat) (call : Call) : Server Database Lock → Prop
  | stays {server : Server Database Lock} (hdb : server.db = s.server.db)
      (hwrites : server.writes = s.server.writes) : ServerMoves s c call server
  | draws {prepared : Prepared} {task : Task} (hphase : call.phase = .drawId prepared task) :
      ServerMoves s c call (s.server.direct fun db => { db with nextEventId := db.nextEventId + 1 })
  | writes {server : Server Database Lock} {w : Database → Database} (hw : Writes s c call w)
      (hdb : server.db = s.server.db) (hwrites : server.writes = s.server.writes) :
      ServerMoves s c call (server.write c w)
  | leaves {server : Server Database Lock} (hdb : server.db = s.server.db)
      (hwrites : server.writes = s.server.writes) : ServerMoves s c call (server.rollback c)
  | commits {prepared : Prepared} {task : Task} {id : Nat}
      (hphase : call.phase = .project prepared task id []) : ServerMoves s c call (s.server.commit c)

theorem serverMoves_execute {prepared : Prepared} {task : Task} {id : Nat} {statement : Statement}
    {todo : List Statement} (hphase : call.phase = .project prepared task id (statement :: todo))
    (hstep : s.execute settings c call prepared task id todo statement = some s') :
    ServerMoves s c call s'.server := by
  cases statement with
  | updateTask =>
    obtain ⟨server, hserver, hstep⟩ := Option.bind_eq_some_iff.mp hstep
    obtain ⟨hdb, hwrites, -⟩ := Server.acquire_eq_some hserver
    cases hstep
    exact .writes (.task hphase) hdb hwrites
  | updateSession =>
    obtain ⟨server, hserver, hstep⟩ := Option.bind_eq_some_iff.mp hstep
    obtain ⟨hdb, hwrites, -⟩ := Server.acquire_eq_some hserver
    cases hstep
    exact .writes (.session hphase) hdb hwrites
  | lockSession =>
    obtain ⟨server, hserver, hstep⟩ := Option.bind_eq_some_iff.mp hstep
    obtain ⟨hdb, hwrites, -⟩ := Server.acquire_eq_some hserver
    cases hstep
    exact .stays hdb hwrites
  | findEvents =>
    simp only [System.execute] at hstep
    split at hstep <;> cases hstep
    · exact .leaves rfl rfl
    · exact .stays rfl rfl
  | findVersion text json =>
    cases hstep
    exact .stays rfl rfl
  | createResult row =>
    simp only [System.execute] at hstep
    split at hstep <;> cases hstep
    · exact .leaves rfl rfl
    · exact .writes (.result hphase) rfl rfl
  | linkArtifacts =>
    cases hstep
    exact .writes (.artifacts hphase) rfl rfl

theorem serverMoves_advance (hstep : s.advance settings c call = some s') :
    ServerMoves s c call s'.server := by
  unfold System.advance at hstep
  split at hstep <;> rename_i hphase
  · split at hstep <;> cases hstep <;> exact .stays rfl rfl
  · split at hstep <;> cases hstep <;> exact .stays rfl rfl
  · split at hstep
    · split at hstep <;> cases hstep
      · exact .leaves rfl rfl
      · exact .stays rfl rfl
    · cases hstep
      exact .leaves rfl rfl
  · split at hstep <;> cases hstep
    · exact .leaves rfl rfl
    · exact .stays rfl rfl
  · cases hstep
    exact .draws hphase
  · obtain ⟨server, hserver, hstep⟩ := Option.bind_eq_some_iff.mp hstep
    obtain ⟨hdb, hwrites⟩ := LogCommits.lockSource_eq_some hserver
    split at hstep <;> cases hstep
    · exact .leaves hdb hwrites
    · exact .writes (.event hphase) hdb hwrites
  · cases hstep
    exact .commits hphase
  · exact serverMoves_execute hphase hstep
  · cases hstep
    exact .stays rfl rfl
  · cases hstep

/-- The writes of the other calls stay. -/
theorem ServerMoves.others {server : Server Database Lock} (h : ServerMoves s c call server) {d : Nat}
    (hne : d ≠ c) : server.writes d = s.server.writes d := by
  cases h with
  | stays hdb hwrites => rw [hwrites]
  | draws hphase => rfl
  | writes hw hdb hwrites => rw [Server.write_writes, if_neg hne, hwrites]
  | leaves hdb hwrites => rw [Server.rollback_writes, if_neg hne, hwrites]
  | commits hphase => rw [Server.commit_writes, Server.rollback_writes, if_neg hne]

theorem Writes.written {w : Database → Database} (h : Writes s c call w) : Written w := by
  cases h with
  | event hphase => exact .event _
  | task hphase => exact .task ..
  | session hphase => exact .session ..
  | result hphase => exact .result _
  | artifacts hphase => exact .artifacts ..

theorem AllWritten.same (h : AllWritten s) (hwrites : s'.server.writes = s.server.writes) : AllWritten s' := by
  intro d v hv
  rw [hwrites] at hv
  exact h d v hv

theorem AllWritten.rollback (h : AllWritten s) {server : Server Database Lock}
    (hwrites : server.writes = s.server.writes)
    (hserver : s'.server.writes = (server.rollback c).writes) : AllWritten s' := by
  intro d v hv
  rw [hserver, Server.rollback_writes] at hv
  split at hv
  · cases hv
  · rw [hwrites] at hv
    exact h d v hv

theorem allWritten_advance (h : AllWritten s) (hstep : s.advance settings c call = some s') :
    AllWritten s' := by
  have hmoves := serverMoves_advance hstep
  generalize hserver : s'.server = server at hmoves
  cases hmoves with
  | stays hdb hwrites => exact h.same (by rw [hserver, hwrites])
  | draws hphase => exact h.same (by rw [hserver]; rfl)
  | writes hw hdb hwrites =>
    intro d v hv
    rw [hserver, Server.write_writes, hwrites] at hv
    split at hv
    · rcases List.mem_append.mp hv with hv | hv
      · exact h c v hv
      · rw [List.mem_singleton] at hv
        rw [hv]
        exact hw.written
    · exact h d v hv
  | leaves hdb hwrites => exact h.rollback hwrites (by rw [hserver])
  | commits hphase => exact h.rollback rfl (by rw [hserver]; rfl)

theorem allWritten_step (h : AllWritten s) (hstep : step settings s l = some s') : AllWritten s' := by
  cases l with
  | call c event archived source now resultId =>
    obtain ⟨-, rfl⟩ := step_call_eq_some hstep
    exact h.same rfl
  | advance c =>
    obtain ⟨call, -, hstep⟩ := Option.bind_eq_some_iff.mp hstep
    exact allWritten_advance h hstep
  | abort c =>
    obtain ⟨call, -, -, rfl⟩ := step_abort_eq_some hstep
    exact h.rollback rfl rfl
  | single tx =>
    obtain ⟨-, db, -, rfl⟩ := step_single_eq_some hstep
    exact h.same rfl

/-- The session of a task. -/
def home (db : Database) (t : String) : Option String := (db.tasks.get t).map Task.sessionId

theorem home_of_tasks {db db' : Database} (h : db'.tasks = db.tasks) : home db' = home db := by
  funext t
  rw [home, h, home]

theorem home_updateTask (db : Database) (id : String) {data : Task → Task}
    (hdata : ∀ row, (data row).sessionId = row.sessionId) : home (db.updateTask id data) = home db := by
  funext t
  rw [home, Database.updateTask_get, home]
  split
  · rename_i heq
    rw [heq, Option.map_map]
    exact congrArg (fun f => (db.tasks.get id).map f) (funext hdata)
  · rfl

theorem Written.home {w : Database → Database} (h : Written w) (db : Database) :
    PersistWrites.home (w db) = PersistWrites.home db := by
  cases h with
  | event row => rfl
  | task id now task stored =>
    apply home_updateTask
    intro row
    unfold taskUpdate
    split <;> rfl
  | session id task stored => exact home_of_tasks (db.updateSession_tasks ..)
  | result row => rfl
  | artifacts ids resultId => rfl

theorem home_applyWrites {ws : List (Database → Database)} (h : ∀ w ∈ ws, Written w) (db : Database) :
    home (applyWrites ws db) = home db := by
  induction ws generalizing db with
  | nil => rfl
  | cons w ws ih =>
    rw [applyWrites_cons, ih (fun v hv => h v (List.mem_cons_of_mem _ hv))]
    exact (h w List.mem_cons_self).home db

/-- The session that a new task is put into. -/
def NewTask.sessionId (new : NewTask) : String :=
  match new.session with
  | .inl sessionId => sessionId
  | .inr (sessionId, _) => sessionId

theorem home_enqueue {db db' : Database} {new : NewTask}
    (h : enqueueTransaction settings new db = some db') (t : String) :
    home db' t = if t = new.taskId then some (NewTask.sessionId new) else home db t := by
  obtain ⟨-, db₁, σ, hsession, rfl⟩ := enqueueTransaction_eq_some h
  obtain ⟨htasks, -⟩ := sessionForTask_tasks hsession
  have hσ : NewTask.sessionId new = σ := by
    unfold NewTask.sessionId
    obtain ⟨hnew, -, -⟩ | ⟨title, hnew, -⟩ := sessionForTask_eq_some hsession
    · rw [hnew]
    · rw [hnew]
  rw [home, Database.updateSession_tasks, htasks, OrderedMap.get_set]
  split
  · rw [hσ]
    rfl
  · rfl

/-- A task is put into its session when it is created, and stays there. -/
theorem step_home (h : AllWritten s) (hstep : step settings s l = some s') (t : String) :
    home s'.db t = home s.db t ∨
      ∃ new, l = .single (.enqueue new) ∧ home s'.db t = some (NewTask.sessionId new) := by
  cases l with
  | call c event archived source now resultId =>
    obtain ⟨-, rfl⟩ := step_call_eq_some hstep
    exact .inl rfl
  | advance c =>
    left
    obtain ⟨call, hcall, hstep⟩ := Option.bind_eq_some_iff.mp hstep
    cases hcommit : LogCommits.callCommits call with
    | some row =>
      obtain ⟨prepared, task, id, hphase, -⟩ := LogCommits.callCommits_eq_some hcommit
      simp only [System.advance, hphase, Option.some.injEq] at hstep
      rw [← hstep]
      exact congrFun (home_applyWrites (h c) s.server.db) t
    | none =>
      cases hpublish : LogCommits.callPublishes call with
      | some event =>
        have hserver := (LogCommits.advance_publish hstep hpublish).1
        rw [System.db, hserver, System.db]
      | none =>
        have htasks := (LogCommits.advance_quiet hstep hcommit hpublish).2.1
        rw [home_of_tasks htasks]
  | abort c =>
    obtain ⟨call, -, -, rfl⟩ := step_abort_eq_some hstep
    exact .inl rfl
  | single tx =>
    obtain ⟨-, db, hdb, rfl⟩ := step_single_eq_some hstep
    cases tx with
    | enqueue new =>
      have hhome := home_enqueue hdb t
      split at hhome
      · exact .inr ⟨new, rfl, hhome⟩
      · exact .inl hhome
    | setQueueJobId taskId jobId =>
      cases hdb
      refine .inl (congrFun (home_updateTask _ _ fun row => ?_) t)
      rfl
    | incrementAttempt taskId =>
      cases hdb
      refine .inl (congrFun (home_updateTask _ _ fun row => ?_) t)
      rfl
    | dispatch taskId runId streamUrl now =>
      cases hdb
      refine .inl (congrFun (home_updateTask _ _ fun row => ?_) t)
      split <;> rfl
    | setSessionRunning sessionId =>
      cases hdb
      exact .inl (congrFun (home_of_tasks (Database.updateSession_tasks ..)) t)
    | archive row =>
      cases hdb
      exact .inl rfl

end PersistWrites
