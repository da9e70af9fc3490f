import ClawWork.PersistCalls
import ClawWork.StatusFrames

/-!
# What the statements of a call do to the log

Until its commit a call has no effect but the id it has drawn; its commit puts one
row into the log and sets the status that goes with the row. Everything that is
said about interleavings is derived from these three lemmas: `step_commit`,
`step_publish` and `step_quiet`.
-/

namespace LogCommits

open JavaScript SharedTypes TaskStore TasksService StatusFrames ReadCommitted PersistCalls

variable {settings : Settings} {s s' : System} {l : Label} {c d : Nat} {call : Call} {t u : String}

/-- The status that the row of an event leads to, by its type. -/
def rowStatus (row : TaskEvent) : Option TaskStatus :=
  if row.type = "task.accepted" then some .running
  else if row.type = "task.failed" then some .failed
  else if row.type = "task.cancelled" then some .cancelled
  else if row.type = "task.completed" then some .completed
  else none

theorem rowStatus_eventRow (stored : TaskStreamEvent) (source : Option String) (id : Nat) :
    rowStatus (eventRow stored source id) = newStatus stored.detail := by
  cases h : stored.detail <;> simp [rowStatus, eventRow, newStatus, h, TaskEventDetail.literal]

/-- The row that the next step of a call commits. -/
def callCommits (call : Call) : Option TaskEvent :=
  match call.phase with
  | .project prepared _ id [] => some (eventRow prepared.stored call.sourceEventId id)
  | _ => none

/-- The event that the next step of a call publishes. -/
def callPublishes (call : Call) : Option PersistedTaskEvent :=
  match call.phase with
  | .publish prepared id => some ⟨id, prepared.published⟩
  | _ => none

theorem callCommits_eq_some {row : TaskEvent} (h : callCommits call = some row) :
    ∃ prepared task id, call.phase = .project prepared task id [] ∧
      row = eventRow prepared.stored call.sourceEventId id := by
  unfold callCommits at h
  split at h
  · rename_i prepared task id hphase
    exact ⟨prepared, task, id, hphase, (Option.some.inj h).symm⟩
  · cases h

theorem callPublishes_eq_some {event : PersistedTaskEvent} (h : callPublishes call = some event) :
    ∃ prepared id, call.phase = .publish prepared id ∧ event = ⟨id, prepared.published⟩ := by
  unfold callPublishes at h
  split at h
  · rename_i prepared id hphase
    exact ⟨prepared, id, hphase, (Option.some.inj h).symm⟩
  · cases h

def committing (s : System) : Label → Option TaskEvent
  | .advance c => (s.calls c).bind callCommits
  | _ => none

def publishing (s : System) : Label → Option PersistedTaskEvent
  | .advance c => (s.calls c).bind callPublishes
  | _ => none

/-- Writes that set the status of one task and leave the log alone. -/
structure Sets (u : String) (status : Option TaskStatus) (w : Database → Database) : Prop where
  events : ∀ db, (w db).taskEvents = db.taskEvents
  nextId : ∀ db, (w db).nextEventId = db.nextEventId
  status : ∀ db v, (w db).status v = if v = u then (db.status v).map status.getD else db.status v
  keyed : ∀ db, Keyed db → Keyed (w db)

theorem Sets.id (u : String) : Sets u none id where
  events := fun _ => rfl
  nextId := fun _ => rfl
  status := by
    intro db v
    cases h : db.status v <;> simp [h]
  keyed := fun _ h => h

theorem Sets.trans {st₁ st₂ : Option TaskStatus} {v w : Database → Database} (hv : Sets u st₁ v)
    (hw : Sets u st₂ w) : Sets u (st₂.or st₁) fun db => w (v db) where
  events := fun db => (hw.events _).trans (hv.events db)
  nextId := fun db => (hw.nextId _).trans (hv.nextId db)
  status := by
    intro db x
    rw [hw.status, hv.status]
    split
    · cases st₂ <;> cases db.status x <;> simp
    · rfl
  keyed := fun db h => hw.keyed _ (hv.keyed db h)

/-- Writes to other tables. -/
theorem Sets.of_same {w : Database → Database} (hevents : ∀ db, (w db).taskEvents = db.taskEvents)
    (hnext : ∀ db, (w db).nextEventId = db.nextEventId) (htasks : ∀ db, (w db).tasks = db.tasks) :
    Sets u none w where
  events := hevents
  nextId := hnext
  status := by
    intro db v
    have hsame : (w db).status v = db.status v := by rw [Database.status, htasks]; rfl
    rw [hsame]
    cases db.status v <;> simp
  keyed := by
    intro db h
    rw [Keyed, htasks]
    exact h

theorem sets_updateTask (now : String) (task : Task) (stored : TaskStreamEvent) :
    Sets u (newStatus stored.detail) fun db => db.updateTask u (taskUpdate now task stored) where
  events := fun db => db.updateTask_taskEvents u _
  nextId := fun db => db.updateTask_nextEventId u _
  status := by
    intro db v
    rw [Database.status, Database.updateTask_get]
    split
    · rename_i heq
      simp [Database.status, heq, Function.comp_def, taskUpdate_status]
    · rfl
  keyed := fun db h => keyed_updateTask (fun row => taskUpdate_id now task stored row) h

def updatesTask : Statement → Bool
  | .updateTask => true
  | _ => false

/-- The writes of an open transaction: the row of the event first, then what sets the status of its
task, unless that statement is still to come. -/
def Pending (writes : List (Database → Database)) (call : Call) : Prop :=
  match call.phase with
  | .findDuplicate prepared task | .drawId prepared task | .create prepared task _ =>
    writes = [] ∧ task.id = prepared.stored.taskId
  | .project prepared task id todo =>
    task.id = prepared.stored.taskId ∧ ∃ ws status,
      writes = insertEvent (eventRow prepared.stored call.sourceEventId id) :: ws ∧
      Sets prepared.stored.taskId status (applyWrites ws) ∧
      (status = newStatus prepared.stored.detail ∨ status = none ∧ todo.any updatesTask)
  | _ => writes = []

structure Tracked (s : System) : Prop where
  keyed : Keyed s.db
  pending : ∀ c call, s.calls c = some call → Pending (s.server.writes c) call
  unused : ∀ c, s.calls c = none → s.server.writes c = []

theorem tracked_init : Tracked .init where
  keyed := fun u task h => by cases h
  pending := fun c call h => by cases h
  unused := fun _ _ => rfl

/-- One call moves on, and only its own writes change. -/
theorem Tracked.goto (h : Tracked s) {s₁ : System} {phase : Phase} (hcalls : s₁.calls = s.calls)
    (hdb : Keyed s₁.db) (hothers : ∀ d, d ≠ c → s₁.server.writes d = s.server.writes d)
    (hpending : Pending (s₁.server.writes c) { call with phase }) : Tracked (s₁.goto c call phase) where
  keyed := hdb
  pending := by
    intro d call' hd
    rw [goto_calls, hcalls] at hd
    rw [goto_server]
    split at hd
    · rename_i heq
      cases hd
      rw [heq]
      exact hpending
    · rename_i hne
      rw [hothers d hne]
      exact h.pending d call' hd
  unused := by
    intro d hd
    rw [goto_calls, hcalls] at hd
    rw [goto_server]
    split at hd
    · cases hd
    · rename_i hne
      rw [hothers d hne]
      exact h.unused d hd

/-- A phase that only reads. -/
theorem Tracked.read (h : Tracked s) {phase : Phase}
    (hpending : Pending (s.server.writes c) { call with phase }) : Tracked (s.goto c call phase) :=
  h.goto rfl h.keyed (fun _ _ => rfl) hpending

theorem Tracked.leave (h : Tracked s) {s₁ : System} (hcalls : s₁.calls = s.calls)
    (hdb : s₁.db = s.db) (hwrites : s₁.server.writes = s.server.writes) :
    Tracked (s₁.leave c call) := by
  let rolledBack : System := { s₁ with server := s₁.server.rollback c }
  have hgoto : rolledBack.calls = s.calls := hcalls
  refine h.goto hgoto ?_ (fun d hd => ?_) ?_
  · rw [System.db, Server.rollback_db]
    have hkeyed := h.keyed
    rwa [← hdb] at hkeyed
  · rw [Server.rollback_writes, if_neg hd, hwrites]
  · simp [Pending, Server.rollback_writes]

/-- A statement after the insertion that writes `w`. -/
theorem Tracked.execute (h : Tracked s) {server : Server Database Lock} {prepared : Prepared}
    {task : Task} {id : Nat} {statement : Statement} {todo : List Statement}
    (hcall : s.calls c = some call) (hphase : call.phase = .project prepared task id (statement :: todo))
    (hdb : server.db = s.server.db) (hwrites : server.writes = s.server.writes)
    {w : Database → Database} (hw : Sets prepared.stored.taskId
      (if updatesTask statement then newStatus prepared.stored.detail else none) w) :
    Tracked ({ s with server := server.write c w }.goto c call (.project prepared task id todo)) := by
  refine h.goto rfl (by rw [System.db, Server.write_db, hdb]; exact h.keyed) (fun d hd => ?_) ?_
  · rw [Server.write_writes, if_neg hd, hwrites]
  · have hold := h.pending c call hcall
    rw [Pending, hphase] at hold
    obtain ⟨hid, ws, status, hws, hsets, hstatus⟩ := hold
    refine ⟨hid, ws ++ [w], (if updatesTask statement then newStatus prepared.stored.detail
      else none).or status, ?_, ?_, ?_⟩
    · rw [Server.write_writes, if_pos rfl, hwrites, hws]
      rfl
    · have happend : applyWrites (ws ++ [w]) = fun db => w (applyWrites ws db) := by
        funext db
        simp
      rw [happend]
      exact hsets.trans hw
    · by_cases hu : updatesTask statement = true
      · rcases hstatus with rfl | ⟨rfl, -⟩ <;> simp [hu]
      · simpa [hu] using hstatus

/-- A statement that only reads or waits, before the ones that are left. -/
theorem Tracked.look (h : Tracked s) {server : Server Database Lock} {prepared : Prepared}
    {task : Task} {id : Nat} {statement : Statement} {todo todo' : List Statement}
    (hcall : s.calls c = some call) (hphase : call.phase = .project prepared task id (statement :: todo))
    (hdb : server.db = s.server.db) (hwrites : server.writes = s.server.writes)
    (htodo : (statement :: todo).any updatesTask = true → todo'.any updatesTask = true) :
    Tracked ({ s with server }.goto c call (.project prepared task id todo')) := by
  refine h.goto rfl (by rw [System.db, hdb]; exact h.keyed) (fun d hd => by rw [hwrites]) ?_
  have hold := h.pending c call hcall
  rw [Pending, hphase] at hold
  obtain ⟨hid, ws, status, hws, hsets, hstatus⟩ := hold
  exact ⟨hid, ws, status, by rw [hwrites, hws], hsets, hstatus.imp_right fun ⟨h, hu⟩ => ⟨h, htodo hu⟩⟩

theorem tracked_execute (h : Tracked s) {prepared : Prepared} {task : Task} {id : Nat}
    {statement : Statement} {todo : List Statement} (hcall : s.calls c = some call)
    (hphase : call.phase = .project prepared task id (statement :: todo))
    (hstep : s.execute settings c call prepared task id todo statement = some s') : Tracked s' := by
  have hid : task.id = prepared.stored.taskId := by
    have hold := h.pending c call hcall
    rw [Pending, hphase] at hold
    exact hold.1
  cases statement with
  | updateTask =>
    obtain ⟨server, hserver, hstep⟩ := Option.bind_eq_some_iff.mp hstep
    obtain ⟨hdb, hwrites, -⟩ := Server.acquire_eq_some hserver
    cases hstep
    refine h.execute hcall hphase hdb hwrites ?_
    rw [hid]
    exact sets_updateTask call.now task prepared.stored
  | updateSession =>
    obtain ⟨server, hserver, hstep⟩ := Option.bind_eq_some_iff.mp hstep
    obtain ⟨hdb, hwrites, -⟩ := Server.acquire_eq_some hserver
    cases hstep
    exact h.execute hcall hphase hdb hwrites (.of_same (fun db => db.updateSession_taskEvents ..)
      (fun db => db.updateSession_nextEventId ..) fun db => db.updateSession_tasks ..)
  | lockSession =>
    obtain ⟨server, hserver, hstep⟩ := Option.bind_eq_some_iff.mp hstep
    obtain ⟨hdb, hwrites, -⟩ := Server.acquire_eq_some hserver
    cases hstep
    exact h.look hcall hphase hdb hwrites fun hu => hu
  | findEvents =>
    simp only [System.execute] at hstep
    split at hstep
    · cases hstep
      exact h.leave rfl rfl rfl
    · cases hstep
      exact h.look hcall hphase rfl rfl fun hu => hu
  | findVersion text json =>
    cases hstep
    exact h.look hcall hphase rfl rfl fun hu => hu
  | createResult row =>
    simp only [System.execute] at hstep
    split at hstep
    · cases hstep
      exact h.leave rfl rfl rfl
    · cases hstep
      exact h.execute hcall hphase rfl rfl (.of_same (fun _ => rfl) (fun _ => rfl) fun _ => rfl)
  | linkArtifacts =>
    cases hstep
    exact h.execute hcall hphase rfl rfl (.of_same (fun _ => rfl) (fun _ => rfl) fun _ => rfl)

theorem lockSource_eq_some {server server' : Server Database Lock} {source : Option String}
    (h : lockSource server c t source = some server') :
    server'.db = server.db ∧ server'.writes = server.writes := by
  cases source with
  | some source =>
    obtain ⟨hdb, hwrites, -⟩ := Server.acquire_eq_some h
    exact ⟨hdb, hwrites⟩
  | none =>
    cases h
    exact ⟨rfl, rfl⟩

theorem tracked_create (h : Tracked s) {prepared : Prepared} {task : Task} {id : Nat}
    (hcall : s.calls c = some call) (hphase : call.phase = .create prepared task id)
    (hstep : s.create c call prepared task id = some s') : Tracked s' := by
  have hold := h.pending c call hcall
  rw [Pending, hphase] at hold
  obtain ⟨server, hserver, hstep⟩ := Option.bind_eq_some_iff.mp hstep
  obtain ⟨hdb, hwrites⟩ := lockSource_eq_some hserver
  split at hstep
  · cases hstep
    exact h.leave rfl hdb hwrites
  · cases hstep
    refine h.goto rfl (by rw [System.db, Server.write_db, hdb]; exact h.keyed) (fun d hd => ?_) ?_
    · rw [Server.write_writes, if_neg hd, hwrites]
    · refine ⟨hold.2, [], none, ?_, .id _, ?_⟩
      · rw [Server.write_writes, if_pos rfl, hwrites, hold.1]
        rfl
      · cases prepared.stored.detail <;> simp [newStatus, statements, updatesTask]

/-- The writes of a committing call put its row into the log and set the status of its task. -/
theorem view_commit (h : Tracked s) {prepared : Prepared} {task : Task} {id : Nat}
    (hcall : s.calls c = some call) (hphase : call.phase = .project prepared task id []) :
    ∃ w, Sets prepared.stored.taskId (newStatus prepared.stored.detail) w ∧
      s.server.view c = w (insertEvent (eventRow prepared.stored call.sourceEventId id) s.db) := by
  have hold := h.pending c call hcall
  rw [Pending, hphase] at hold
  obtain ⟨-, ws, status, hws, hsets, hstatus⟩ := hold
  have heq : status = newStatus prepared.stored.detail := by simpa using hstatus
  refine ⟨applyWrites ws, heq ▸ hsets, ?_⟩
  rw [Server.view, hws]
  rfl

theorem tracked_advance (h : Tracked s) (hcall : s.calls c = some call)
    (hstep : s.advance settings c call = some s') : Tracked s' := by
  have hold := h.pending c call hcall
  unfold System.advance at hstep
  split at hstep <;> rename_i hphase <;> rw [Pending, hphase] at hold
  · split at hstep <;> cases hstep <;> exact h.read hold
  · split at hstep <;> cases hstep <;> exact h.read hold
  · rename_i prepared
    split at hstep
    · rename_i task htask
      split at hstep
      · cases hstep
        exact h.leave rfl rfl rfl
      · cases hstep
        rw [Server.view_of_writes_nil hold] at htask
        exact h.read ⟨hold, h.keyed _ _ htask⟩
    · cases hstep
      exact h.leave rfl rfl rfl
  · split at hstep
    · cases hstep
      exact h.leave rfl rfl rfl
    · cases hstep
      exact h.read hold
  · cases hstep
    exact h.goto rfl h.keyed (fun d hd => rfl) hold
  · exact tracked_create h hcall hphase hstep
  · cases hstep
    obtain ⟨w, hw, hview⟩ := view_commit h hcall hphase
    refine h.goto rfl ?_ (fun d hd => ?_) ?_
    · rw [System.db, Server.commit_db, hview]
      exact hw.keyed _ h.keyed
    · rw [Server.commit_writes, Server.rollback_writes, if_neg hd]
    · simp [Pending, Server.rollback_writes]
  · exact tracked_execute h hcall hphase hstep
  · cases hstep
    exact h.goto rfl h.keyed (fun d hd => rfl) hold
  · cases hstep

/-- What is pending is known after every step. -/
theorem tracked_step (h : Tracked s) (hstep : step settings s l = some s') : Tracked s' := by
  cases l with
  | call c event archived source now resultId =>
    obtain ⟨hnone, rfl⟩ := step_call_eq_some hstep
    refine ⟨h.keyed, fun d call hd => ?_, fun d hd => ?_⟩
    · simp only [Function.update_apply] at hd
      split at hd
      · rename_i heq
        cases hd
        rw [heq]
        exact h.unused c hnone
      · exact h.pending d call hd
    · simp only [Function.update_apply] at hd
      split at hd
      · cases hd
      · exact h.unused d hd
  | advance c =>
    obtain ⟨call, hcall, hstep⟩ := Option.bind_eq_some_iff.mp hstep
    exact tracked_advance h hcall hstep
  | abort c =>
    obtain ⟨call, -, -, rfl⟩ := step_abort_eq_some hstep
    exact h.leave rfl rfl rfl
  | single tx =>
    obtain ⟨-, db, hdb, rfl⟩ := step_single_eq_some hstep
    exact ⟨(unlogged_single hdb).keyed h.keyed, h.pending, h.unused⟩

theorem execute_db {prepared : Prepared} {task : Task} {id : Nat} {statement : Statement}
    {todo : List Statement}
    (hstep : s.execute settings c call prepared task id todo statement = some s') :
    s'.db = s.db ∧ s'.published = s.published := by
  cases statement with
  | updateTask =>
    obtain ⟨server, hserver, hstep⟩ := Option.bind_eq_some_iff.mp hstep
    cases hstep
    exact ⟨(Server.acquire_eq_some hserver).1, rfl⟩
  | updateSession =>
    obtain ⟨server, hserver, hstep⟩ := Option.bind_eq_some_iff.mp hstep
    cases hstep
    exact ⟨(Server.acquire_eq_some hserver).1, rfl⟩
  | lockSession =>
    obtain ⟨server, hserver, hstep⟩ := Option.bind_eq_some_iff.mp hstep
    cases hstep
    exact ⟨(Server.acquire_eq_some hserver).1, rfl⟩
  | findEvents =>
    simp only [System.execute] at hstep
    split at hstep <;> cases hstep <;> exact ⟨rfl, rfl⟩
  | findVersion text json =>
    cases hstep
    exact ⟨rfl, rfl⟩
  | createResult row =>
    simp only [System.execute] at hstep
    split at hstep <;> cases hstep <;> exact ⟨rfl, rfl⟩
  | linkArtifacts =>
    cases hstep
    exact ⟨rfl, rfl⟩

theorem create_db {prepared : Prepared} {task : Task} {id : Nat}
    (hstep : s.create c call prepared task id = some s') :
    s'.db = s.db ∧ s'.published = s.published := by
  obtain ⟨server, hserver, hstep⟩ := Option.bind_eq_some_iff.mp hstep
  obtain ⟨hdb, -⟩ := lockSource_eq_some hserver
  split at hstep <;> cases hstep <;> exact ⟨hdb, rfl⟩

/-- A step of a call that neither commits nor publishes. -/
theorem advance_quiet (hstep : s.advance settings c call = some s') (hcommit : callCommits call = none)
    (hpublish : callPublishes call = none) :
    s'.db.taskEvents = s.db.taskEvents ∧ s'.db.tasks = s.db.tasks ∧ s'.published = s.published := by
  unfold System.advance at hstep
  split at hstep <;> rename_i hphase
  · split at hstep <;> cases hstep <;> exact ⟨rfl, rfl, rfl⟩
  · split at hstep <;> cases hstep <;> exact ⟨rfl, rfl, rfl⟩
  · split at hstep
    · split at hstep <;> cases hstep <;> exact ⟨rfl, rfl, rfl⟩
    · cases hstep
      exact ⟨rfl, rfl, rfl⟩
  · split at hstep <;> cases hstep <;> exact ⟨rfl, rfl, rfl⟩
  · cases hstep
    exact ⟨rfl, rfl, rfl⟩
  · obtain ⟨hdb, hpub⟩ := create_db hstep
    exact ⟨by rw [hdb], by rw [hdb], hpub⟩
  · simp [callCommits, hphase] at hcommit
  · obtain ⟨hdb, hpub⟩ := execute_db hstep
    exact ⟨by rw [hdb], by rw [hdb], hpub⟩
  · simp [callPublishes, hphase] at hpublish
  · cases hstep

/-- A step of a call that publishes an event. -/
theorem advance_publish (hstep : s.advance settings c call = some s') {event : PersistedTaskEvent}
    (hpublish : callPublishes call = some event) :
    s'.server = s.server ∧ s'.published = s.published ++ [event] := by
  obtain ⟨prepared, id, hphase, rfl⟩ := callPublishes_eq_some hpublish
  simp only [System.advance, hphase, Option.some.injEq] at hstep
  rw [← hstep]
  exact ⟨rfl, rfl⟩

/-- A step of a call that commits a row. -/
theorem advance_commit (h : Tracked s) (hcall : s.calls c = some call)
    (hstep : s.advance settings c call = some s') {row : TaskEvent}
    (hcommit : callCommits call = some row) :
    s'.db.taskEvents = (insertEvent row s.db).taskEvents ∧ s'.published = s.published ∧
      ∀ v, s'.db.status v =
        if v = row.taskId then (s.db.status v).map (rowStatus row).getD else s.db.status v := by
  obtain ⟨prepared, task, id, hphase, rfl⟩ := callCommits_eq_some hcommit
  obtain ⟨w, hw, hview⟩ := view_commit h hcall hphase
  simp only [System.advance, hphase, Option.some.injEq] at hstep
  have hdb : s'.db = w (insertEvent (eventRow prepared.stored call.sourceEventId id) s.db) := by
    rw [← hstep, ← hview]
    rfl
  refine ⟨by rw [hdb, hw.events], by rw [← hstep]; rfl, fun v => ?_⟩
  rw [hdb, hw.status, rowStatus_eventRow]
  rfl

/-- The commit of a row puts it into the log and sets the status that goes with it. -/
theorem step_commit (h : Tracked s) (hstep : step settings s l = some s') {row : TaskEvent}
    (hcommit : committing s l = some row) :
    s'.db.taskEvents = (insertEvent row s.db).taskEvents ∧ s'.published = s.published ∧
      ∀ v, s'.db.status v =
        if v = row.taskId then (s.db.status v).map (rowStatus row).getD else s.db.status v := by
  cases l with
  | advance c =>
    obtain ⟨call, hcall, hcommit⟩ := Option.bind_eq_some_iff.mp hcommit
    obtain ⟨call', hcall', hstep⟩ := Option.bind_eq_some_iff.mp hstep
    rw [hcall] at hcall'
    cases hcall'
    exact advance_commit h hcall hstep hcommit
  | call => cases hcommit
  | abort => cases hcommit
  | single => cases hcommit

/-- Every other step leaves the log alone, and a terminal status. -/
theorem step_quiet (hstep : step settings s l = some s') (hcommit : committing s l = none) :
    s'.db.taskEvents = s.db.taskEvents ∧
      (∀ v, StatusMoves (s.db.status v) (s'.db.status v)) ∧
      s'.published = s.published ++ (publishing s l).toList := by
  cases l with
  | call c event archived source now resultId =>
    obtain ⟨-, rfl⟩ := step_call_eq_some hstep
    exact ⟨rfl, fun v => .inl rfl, by simp [publishing]⟩
  | advance c =>
    obtain ⟨call, hcall, hstep⟩ := Option.bind_eq_some_iff.mp hstep
    simp only [committing, hcall, Option.bind_some] at hcommit
    simp only [publishing, hcall, Option.bind_some]
    cases hpublish : callPublishes call with
    | some event =>
      obtain ⟨hserver, hpub⟩ := advance_publish hstep hpublish
      exact ⟨by rw [System.db, hserver]; rfl, fun v => .inl (by rw [System.db, hserver]; rfl), hpub⟩
    | none =>
      obtain ⟨hevents, htasks, hpub⟩ := advance_quiet hstep hcommit hpublish
      exact ⟨hevents, fun v => .inl (by rw [Database.status, htasks]; rfl), by simpa using hpub⟩
  | abort c =>
    obtain ⟨call, hcall, -, rfl⟩ := step_abort_eq_some hstep
    exact ⟨rfl, fun v => .inl rfl, by simp [publishing]⟩
  | single tx =>
    obtain ⟨-, db, hdb, rfl⟩ := step_single_eq_some hstep
    have hunlogged := unlogged_single hdb
    exact ⟨hunlogged.events, hunlogged.status, by simp [publishing]⟩

/-- Which phase follows which. -/
inductive PhaseMoves (s : System) : Phase → Phase → Prop where
  | skip : PhaseMoves s .precheck .done
  | check : PhaseMoves s .precheck .prepare
  | fail : PhaseMoves s .prepare .done
  | prepare {prepared : Prepared} {archived : Option Archived} {event : TaskStreamEvent}
      (h : prepareTaskEvent archived event = some prepared) : PhaseMoves s .prepare (.findTask prepared)
  | leave {phase : Phase} (h : phase.inTransaction = true)
      (hleft : ∀ prepared task id, phase ≠ .project prepared task id []) : PhaseMoves s phase .done
  | find {prepared : Prepared} {task : Task} (htask : s.db.tasks.get prepared.stored.taskId = some task)
      (hopen : task.status.isTerminal = false) :
      PhaseMoves s (.findTask prepared) (.findDuplicate prepared task)
  | fresh {prepared : Prepared} {task : Task} :
      PhaseMoves s (.findDuplicate prepared task) (.drawId prepared task)
  | draw {prepared : Prepared} {task : Task} :
      PhaseMoves s (.drawId prepared task) (.create prepared task s.db.nextEventId)
  | create {prepared : Prepared} {task : Task} {id : Nat} : PhaseMoves s (.create prepared task id)
      (.project prepared task id (statements prepared.stored.detail))
  | execute {prepared : Prepared} {task : Task} {id : Nat} {statement : Statement}
      {todo todo' : List Statement} (hlinks : .linkArtifacts ∈ todo' → .linkArtifacts ∈ todo) :
      PhaseMoves s (.project prepared task id (statement :: todo)) (.project prepared task id todo')
  | commit {prepared : Prepared} {task : Task} {id : Nat} :
      PhaseMoves s (.project prepared task id []) (.publish prepared id)
  | publish {prepared : Prepared} {id : Nat} : PhaseMoves s (.publish prepared id) .done

theorem execute_moves {prepared : Prepared} {task : Task} {id : Nat} {statement : Statement}
    {todo : List Statement} (hphase : call.phase = .project prepared task id (statement :: todo))
    (hstep : s.execute settings c call prepared task id todo statement = some s') :
    ∃ phase, s'.calls = Function.update s.calls c (some { call with phase }) ∧
      PhaseMoves s call.phase phase := by
  have hleave : PhaseMoves s call.phase .done := by
    rw [hphase]
    exact .leave rfl fun _ _ _ => by simp
  have hmove {todo' : List Statement} (hlinks : .linkArtifacts ∈ todo' → .linkArtifacts ∈ todo) :
      PhaseMoves s call.phase (.project prepared task id todo') := by
    rw [hphase]
    exact .execute hlinks
  cases statement with
  | updateTask =>
    obtain ⟨server, -, hstep⟩ := Option.bind_eq_some_iff.mp hstep
    cases hstep
    exact ⟨_, rfl, hmove fun h => h⟩
  | updateSession =>
    obtain ⟨server, -, hstep⟩ := Option.bind_eq_some_iff.mp hstep
    cases hstep
    exact ⟨_, rfl, hmove fun h => h⟩
  | lockSession =>
    obtain ⟨server, -, hstep⟩ := Option.bind_eq_some_iff.mp hstep
    cases hstep
    exact ⟨_, rfl, hmove fun h => h⟩
  | findEvents =>
    simp only [System.execute] at hstep
    split at hstep <;> cases hstep
    · exact ⟨_, rfl, hleave⟩
    · exact ⟨_, rfl, hmove fun h => by simpa using h⟩
  | findVersion text json =>
    cases hstep
    exact ⟨_, rfl, hmove fun h => by simpa using h⟩
  | createResult row =>
    simp only [System.execute] at hstep
    split at hstep <;> cases hstep
    · exact ⟨_, rfl, hleave⟩
    · exact ⟨_, rfl, hmove fun h => h⟩
  | linkArtifacts =>
    cases hstep
    exact ⟨_, rfl, hmove fun h => h⟩

/-- A step of a call moves it along the phases. -/
theorem advance_moves (h : Tracked s) (hcall : s.calls c = some call)
    (hstep : s.advance settings c call = some s') :
    ∃ phase, s'.calls = Function.update s.calls c (some { call with phase }) ∧
      PhaseMoves s call.phase phase := by
  have hold := h.pending c call hcall
  unfold System.advance at hstep
  split at hstep <;> rename_i hphase <;> rw [Pending, hphase] at hold <;> rw [hphase]
  · split at hstep <;> cases hstep
    · exact ⟨_, rfl, .skip⟩
    · exact ⟨_, rfl, .check⟩
  · split at hstep <;> cases hstep
    · rename_i prepared hprepared
      exact ⟨_, rfl, .prepare hprepared⟩
    · exact ⟨_, rfl, .fail⟩
  · split at hstep
    · rename_i task htask
      rw [Server.view_of_writes_nil hold] at htask
      split at hstep <;> cases hstep
      · exact ⟨_, rfl, .leave rfl fun _ _ _ => by simp⟩
      · rename_i hopen
        exact ⟨_, rfl, .find htask (by simpa using hopen)⟩
    · cases hstep
      exact ⟨_, rfl, .leave rfl fun _ _ _ => by simp⟩
  · split at hstep <;> cases hstep
    · exact ⟨_, rfl, .leave rfl fun _ _ _ => by simp⟩
    · exact ⟨_, rfl, .fresh⟩
  · cases hstep
    exact ⟨_, rfl, .draw⟩
  · obtain ⟨server, -, hstep⟩ := Option.bind_eq_some_iff.mp hstep
    split at hstep <;> cases hstep
    · exact ⟨_, rfl, .leave rfl fun _ _ _ => by simp⟩
    · exact ⟨_, rfl, .create⟩
  · cases hstep
    exact ⟨_, rfl, .commit⟩
  · rw [← hphase]
    exact execute_moves hphase hstep
  · cases hstep
    exact ⟨_, rfl, .publish⟩
  · cases hstep

/-- Tasks do not disappear. -/
theorem step_status_isSome (h : Tracked s) (hstep : step settings s l = some s')
    (ht : (s.db.status t).isSome = true) : (s'.db.status t).isSome = true := by
  cases hcommit : committing s l with
  | some row =>
    obtain ⟨-, -, hstatus⟩ := step_commit h hstep hcommit
    rw [hstatus]
    split
    · simpa using ht
    · exact ht
  | none =>
    obtain ⟨-, hstatus, -⟩ := step_quiet hstep hcommit
    exact (hstatus t).isSome ht

theorem view_nextId (h : Tracked s) (hcall : s.calls c = some call) {prepared : Prepared} {task : Task}
    {id : Nat} (hphase : call.phase = .project prepared task id []) :
    (s.server.view c).nextEventId = s.db.nextEventId := by
  obtain ⟨w, hw, hview⟩ := view_commit h hcall hphase
  rw [hview, hw.nextId]
  rfl

/-- The sequence moves when an id is drawn, and not otherwise. -/
theorem advance_nextId (h : Tracked s) (hcall : s.calls c = some call)
    (hstep : s.advance settings c call = some s') :
    s'.db.nextEventId = match call.phase with
      | .drawId _ _ => s.db.nextEventId + 1
      | _ => s.db.nextEventId := by
  unfold System.advance at hstep
  split at hstep <;> rename_i hphase <;> rw [hphase]
  · split at hstep <;> cases hstep <;> rfl
  · split at hstep <;> cases hstep <;> rfl
  · split at hstep
    · split at hstep <;> cases hstep <;> rfl
    · cases hstep
      rfl
  · split at hstep <;> cases hstep <;> rfl
  · cases hstep
    rfl
  · rw [(create_db hstep).1]
  · cases hstep
    exact view_nextId h hcall hphase
  · rw [(execute_db hstep).1]
  · cases hstep
    rfl
  · cases hstep

theorem step_nextId (h : Tracked s) (hstep : step settings s l = some s') :
    s.db.nextEventId ≤ s'.db.nextEventId := by
  cases l with
  | call c event archived source now resultId =>
    obtain ⟨-, rfl⟩ := step_call_eq_some hstep
    exact Nat.le_refl _
  | advance c =>
    obtain ⟨call, hcall, hstep⟩ := Option.bind_eq_some_iff.mp hstep
    rw [advance_nextId h hcall hstep]
    split
    · exact Nat.le_succ _
    · exact Nat.le_refl _
  | abort c =>
    obtain ⟨call, hcall, -, rfl⟩ := step_abort_eq_some hstep
    exact Nat.le_refl _
  | single tx =>
    obtain ⟨-, db, hdb, rfl⟩ := step_single_eq_some hstep
    exact Nat.le_of_eq (unlogged_single hdb).nextId.symm

/-- The task that a call has found. -/
def foundTask : Phase → Option String
  | .findDuplicate prepared _ | .drawId prepared _ | .create prepared _ _ | .project prepared _ _ _ =>
    some prepared.stored.taskId
  | _ => none

/-- The tasks that the open transactions have found are there. -/
def Existing (s : System) : Prop :=
  ∀ c call, s.calls c = some call → ∀ t ∈ foundTask call.phase, (s.db.status t).isSome = true

theorem foundTask_of_moves {old new : Phase} (h : PhaseMoves s old new) (ht : t ∈ foundTask new) :
    t ∈ foundTask old ∨ (s.db.status t).isSome = true := by
  cases h with
  | find htask hopen =>
    cases ht
    exact .inr (by simp [Database.status, htask])
  | fresh => exact .inl ht
  | draw => exact .inl ht
  | create => exact .inl ht
  | execute => exact .inl ht
  | skip | check | fail | prepare | leave | commit | publish => cases ht

theorem existing_step (h : Tracked s) (he : Existing s) (hstep : step settings s l = some s') :
    Existing s' := by
  intro d call' hd t ht
  refine step_status_isSome h hstep ?_
  cases l with
  | call c event archived source now resultId =>
    obtain ⟨-, rfl⟩ := step_call_eq_some hstep
    simp only [Function.update_apply] at hd
    split at hd
    · cases hd
      cases ht
    · exact he d call' hd t ht
  | advance c =>
    obtain ⟨call, hcall, hstep⟩ := Option.bind_eq_some_iff.mp hstep
    obtain ⟨phase, hcalls, hmoves⟩ := advance_moves h hcall hstep
    rw [hcalls, Function.update_apply] at hd
    split at hd
    · cases hd
      rcases foundTask_of_moves hmoves ht with ht | ht
      · exact he c call hcall t ht
      · exact ht
    · exact he d call' hd t ht
  | abort c =>
    obtain ⟨call, hcall, -, rfl⟩ := step_abort_eq_some hstep
    rw [leave_calls] at hd
    split at hd
    · cases hd
      cases ht
    · exact he d call' hd t ht
  | single tx =>
    obtain ⟨-, db, -, rfl⟩ := step_single_eq_some hstep
    exact he d call' hd t ht

theorem committing_eq_some {row : TaskEvent} (h : committing s l = some row) :
    ∃ c call prepared task id, l = .advance c ∧ s.calls c = some call ∧
      call.phase = .project prepared task id [] ∧
      row = eventRow prepared.stored call.sourceEventId id := by
  cases l with
  | advance c =>
    obtain ⟨call, hcall, hcommit⟩ := Option.bind_eq_some_iff.mp h
    obtain ⟨prepared, task, id, hphase, rfl⟩ := callCommits_eq_some hcommit
    exact ⟨c, call, prepared, task, id, rfl, hcall, hphase, rfl⟩
  | call => cases h
  | abort => cases h
  | single => cases h

theorem mem_insertEvent {row old : TaskEvent} {db : Database} :
    old ∈ (insertEvent row db).taskEvents ↔ old = row ∨ old ∈ db.taskEvents := by
  simp [insertEvent]

/-- The log of a task after a commit, up to its order. -/
theorem eventsOf_insertEvent {row : TaskEvent} {db db' : Database}
    (h : db'.taskEvents = (insertEvent row db).taskEvents) (t : String) :
    (db'.eventsOf t).Perm ((if row.taskId = t then [row] else []) ++ db.eventsOf t) := by
  have hperm : db'.taskEvents.Perm (row :: db.taskEvents) := by
    rw [h]
    exact List.perm_orderedInsert _ _ _
  have hfilter := hperm.filter fun old => decide (old.taskId = t)
  rw [List.filter_cons] at hfilter
  by_cases ht : row.taskId = t
  · simpa [ht, Database.eventsOf] using hfilter
  · simpa [ht, Database.eventsOf] using hfilter

theorem filter_orderedInsert_last {row : TaskEvent} {p : TaskEvent → Bool} {rows : List TaskEvent}
    (hsorted : rows.Pairwise fun a b => a.id ≤ b.id) (hlast : ∀ old ∈ rows, p old = true → old.id < row.id)
    (hrow : p row = true) :
    (rows.orderedInsert (fun a b => a.id ≤ b.id) row).filter p = rows.filter p ++ [row] := by
  induction rows with
  | nil => simp [hrow]
  | cons old rows ih =>
    obtain ⟨hle, hsorted⟩ := List.pairwise_cons.mp hsorted
    rw [List.orderedInsert_cons]
    split
    · rename_i hfirst
      have hnone : (old :: rows).filter p = [] := by
        rw [List.filter_eq_nil_iff]
        intro other hother hp
        have hlt := hlast other hother hp
        rcases List.mem_cons.mp hother with rfl | hother
        · omega
        · have := hle other hother
          omega
      rw [List.filter_cons_of_pos hrow, hnone]
      rfl
    · rw [List.filter_cons, List.filter_cons,
        ih hsorted fun other hother => hlast other (List.mem_cons_of_mem _ hother)]
      split <;> rfl

/-- A row above all others of its task comes last in the log of the task. -/
theorem eventsOf_insertEvent_last {row : TaskEvent} {db : Database}
    (hsorted : db.taskEvents.Pairwise fun a b => a.id ≤ b.id)
    (hlast : ∀ old ∈ db.eventsOf row.taskId, old.id < row.id) :
    (insertEvent row db).eventsOf row.taskId = db.eventsOf row.taskId ++ [row] := by
  refine filter_orderedInsert_last hsorted (fun old hold hp => hlast old ?_) (by simp)
  exact List.mem_filter.mpr ⟨hold, hp⟩

end LogCommits
