import ClawWork.EventIds
import ClawWork.PersistWrites

/-!
# How the statements move a task forward

A task stays in its table, and once it has left the queue it does not return to it
and keeps the stream URL that it was dispatched with. A call of `persistTaskEvent`
that reports a failure without a source event id finds its task at its end, or puts
it there, unless the database ends its transaction.
-/

namespace TaskProgress

open SharedTypes TaskStore TasksService StatusFrames ReadCommitted PersistCalls LogCommits PersistWrites

/-- Tasks stay, and one that has left the queue stays outside and keeps its stream URL. -/
def Follows (db db' : Database) : Prop := ∀ u task, db.tasks.get u = some task →
  ∃ task', db'.tasks.get u = some task' ∧
    (task.status ≠ .queued → task'.status ≠ .queued ∧ task'.adapterStreamUrl = task.adapterStreamUrl)

/-- The task has left the queue. -/
def Unqueued (db : Database) (u : String) : Prop :=
  ∃ task, db.tasks.get u = some task ∧ task.status ≠ .queued

/-- The task has left the queue by `dispatchTask`, which has stored the URL of its stream. -/
def Dispatched (db : Database) (u : String) : Prop :=
  ∃ task, db.tasks.get u = some task ∧ task.status ≠ .queued ∧
    ∃ url, task.adapterStreamUrl = some url ∧ url ≠ ""

variable {settings : Settings} {s s' : System} {l : Label} {c d : Nat} {call : Call} {u : String}
  {db db' db'' : Database}

theorem Follows.refl (db : Database) : Follows db db := fun _ task h => ⟨task, h, fun hne => ⟨hne, rfl⟩⟩

theorem Follows.trans (h : Follows db db') (h' : Follows db' db'') : Follows db db'' := by
  intro u task hget
  obtain ⟨task', hget', hkept⟩ := h u task hget
  obtain ⟨task'', hget'', hkept'⟩ := h' u task' hget'
  refine ⟨task'', hget'', fun hne => ?_⟩
  obtain ⟨hne', hurl⟩ := hkept hne
  obtain ⟨hne'', hurl'⟩ := hkept' hne'
  exact ⟨hne'', hurl'.trans hurl⟩

theorem follows_of_tasks (h : db'.tasks = db.tasks) : Follows db db' := by
  intro u task hget
  refine ⟨task, ?_, fun hne => ⟨hne, rfl⟩⟩
  rw [h]
  exact hget

theorem Follows.isSome (h : Follows db db') (hsome : (db.status u).isSome = true) :
    (db'.status u).isSome = true := by
  obtain ⟨status, hstatus⟩ := Option.isSome_iff_exists.mp hsome
  obtain ⟨task, hget, -⟩ := Option.map_eq_some_iff.mp hstatus
  obtain ⟨task', hget', -⟩ := h u task hget
  rw [Database.status, hget']
  rfl

theorem Follows.unqueued (h : Follows db db') (hu : Unqueued db u) : Unqueued db' u := by
  obtain ⟨task, hget, hne⟩ := hu
  obtain ⟨task', hget', hkept⟩ := h u task hget
  exact ⟨task', hget', (hkept hne).1⟩

theorem Follows.dispatched (h : Follows db db') (hu : Dispatched db u) : Dispatched db' u := by
  obtain ⟨task, hget, hne, url, hurl, hnamed⟩ := hu
  obtain ⟨task', hget', hkept⟩ := h u task hget
  obtain ⟨hne', hurl'⟩ := hkept hne
  exact ⟨task', hget', hne', url, hurl'.trans hurl, hnamed⟩

theorem Dispatched.unqueued (h : Dispatched db u) : Unqueued db u := by
  obtain ⟨task, hget, hne, -⟩ := h
  exact ⟨task, hget, hne⟩

theorem Unqueued.isSome (h : Unqueued db u) : (db.status u).isSome = true := by
  obtain ⟨task, hget, -⟩ := h
  rw [Database.status, hget]
  rfl

theorem Unqueued.status (h : Unqueued db u) : db.status u ≠ some .queued := by
  obtain ⟨task, hget, hne⟩ := h
  rw [Database.status, hget]
  exact fun heq => hne (Option.some.inj heq)

theorem unqueued_of_status {status : TaskStatus} (h : db.status u = some status) (hne : status ≠ .queued) :
    Unqueued db u := by
  obtain ⟨task, hget, rfl⟩ := Option.map_eq_some_iff.mp h
  exact ⟨task, hget, hne⟩

/-- An update that leaves a task outside the queue with its URL. -/
theorem follows_updateTask (db : Database) (id : String) {data : Task → Task}
    (hdata : ∀ row, row.status ≠ .queued →
      (data row).status ≠ .queued ∧ (data row).adapterStreamUrl = row.adapterStreamUrl) :
    Follows db (db.updateTask id data) := by
  intro u task hget
  rw [Database.updateTask_get]
  split
  · rename_i heq
    rw [← heq, hget]
    exact ⟨data task, rfl, hdata task⟩
  · exact ⟨task, hget, fun hne => ⟨hne, rfl⟩⟩

theorem follows_enqueue {new : NewTask} (h : enqueueTransaction settings new db = some db') :
    Follows db db' := by
  obtain ⟨hfresh, db₁, sessionId, hsession, rfl⟩ := enqueueTransaction_eq_some h
  obtain ⟨htasks, -⟩ := sessionForTask_tasks hsession
  intro u task hget
  have hne : u ≠ new.taskId := by
    rintro rfl
    rw [hfresh] at hget
    cases hget
  refine ⟨task, ?_, fun hq => ⟨hq, rfl⟩⟩
  rw [Database.updateSession_tasks, OrderedMap.get_set_other _ _ hne, htasks]
  exact hget

theorem follows_single {tx : Single} (h : tx.apply settings db = some db') : Follows db db' := by
  cases tx with
  | enqueue new => exact follows_enqueue h
  | setQueueJobId taskId jobId =>
    cases h
    exact follows_updateTask db taskId fun _ hne => ⟨hne, rfl⟩
  | incrementAttempt taskId =>
    cases h
    exact follows_updateTask db taskId fun _ hne => ⟨hne, rfl⟩
  | dispatch taskId runId streamUrl now =>
    cases h
    refine follows_updateTask db taskId fun row hne => ?_
    rw [if_neg hne]
    exact ⟨hne, rfl⟩
  | setSessionRunning sessionId =>
    cases h
    exact follows_of_tasks (db.updateSession_tasks ..)
  | archive row =>
    cases h
    exact follows_of_tasks rfl

theorem Written.follows {w : Database → Database} (h : Written w) (db : Database) : Follows db (w db) := by
  cases h with
  | event row => exact follows_of_tasks rfl
  | task id now task stored =>
    refine follows_updateTask db id fun row hne => ?_
    cases hdetail : stored.detail <;> simp [taskUpdate, hdetail, hne]
  | session id task stored => exact follows_of_tasks (db.updateSession_tasks ..)
  | result row => exact follows_of_tasks rfl
  | artifacts ids resultId => exact follows_of_tasks rfl

theorem follows_applyWrites {ws : List (Database → Database)} (h : ∀ w ∈ ws, Written w) (db : Database) :
    Follows db (applyWrites ws db) := by
  induction ws generalizing db with
  | nil => exact .refl db
  | cons w ws ih =>
    have hfirst := Written.follows (h w List.mem_cons_self) db
    exact hfirst.trans (ih (fun v hv => h v (List.mem_cons_of_mem _ hv)) (w db))

/-- Every statement moves the tasks forward. -/
theorem follows_step (h : AllWritten s) (hstep : step settings s l = some s') : Follows s.db s'.db := by
  cases l with
  | call d event archived source now resultId =>
    obtain ⟨-, rfl⟩ := step_call_eq_some hstep
    exact .refl _
  | advance d =>
    obtain ⟨call, -, hstep⟩ := Option.bind_eq_some_iff.mp hstep
    have hmoves := serverMoves_advance hstep
    generalize hserver : s'.server = server at hmoves
    rw [System.db, System.db, hserver]
    cases hmoves with
    | stays hdb hwrites => exact follows_of_tasks (by rw [hdb])
    | draws hphase => exact follows_of_tasks rfl
    | writes hw hdb hwrites => exact follows_of_tasks (by rw [Server.write_db, hdb])
    | leaves hdb hwrites => exact follows_of_tasks (by rw [Server.rollback_db, hdb])
    | commits hphase => exact follows_applyWrites (h d) s.server.db
  | abort d =>
    obtain ⟨call, -, -, rfl⟩ := step_abort_eq_some hstep
    exact .refl _
  | single tx =>
    obtain ⟨-, db, hdb, rfl⟩ := step_single_eq_some hstep
    exact follows_single hdb

/-- The forms of its event that a call works with are those that `prepareTaskEvent` has returned. -/
def Prepares (s : System) : Prop := ∀ c call prepared, s.calls c = some call →
  EventIds.preparedOf call.phase = some prepared → prepareTaskEvent call.archived call.event = some prepared

theorem prepares_step (h : Tracked s) (hp : Prepares s) (hstep : step settings s l = some s') :
    Prepares s' := by
  intro d call' prepared hd hprepared
  cases l with
  | call c event archived source now resultId =>
    obtain ⟨-, rfl⟩ := step_call_eq_some hstep
    simp only [Function.update_apply] at hd
    split at hd
    · cases hd
      cases hprepared
    · exact hp d call' prepared hd hprepared
  | advance c =>
    obtain ⟨call, hcall, hstep⟩ := Option.bind_eq_some_iff.mp hstep
    obtain ⟨phase, hcalls, hmoves⟩ := advance_moves h hcall hstep
    have hnew := congrFun hcalls c
    rw [Function.update_self] at hnew
    rw [hcalls, Function.update_apply] at hd
    split at hd
    · cases hd
      have hold := hp c call prepared hcall
      cases hphase : call.phase with
      | prepare =>
        simp only [System.advance, hphase] at hstep
        split at hstep <;> cases hstep <;> rw [goto_calls, if_pos rfl] at hnew <;> cases hnew
        · rename_i hresult
          cases hprepared
          exact hresult
        · cases hprepared
      | _ =>
        rw [hphase] at hmoves hold
        cases hmoves <;> first | exact hold hprepared | cases hprepared
    · exact hp d call' prepared hd hprepared
  | abort c =>
    obtain ⟨call, hcall, -, rfl⟩ := step_abort_eq_some hstep
    rw [leave_calls] at hd
    split at hd
    · cases hd
      cases hprepared
    · exact hp d call' prepared hd hprepared
  | single tx =>
    obtain ⟨-, db, -, rfl⟩ := step_single_eq_some hstep
    exact hp d call' prepared hd hprepared

/-- A call keeps its event. -/
theorem calls_step (h : Tracked s) (hcall : s.calls c = some call) (hstep : step settings s l = some s') :
    ∃ phase, s'.calls c = some { call with phase } := by
  cases l with
  | call d event archived source now resultId =>
    obtain ⟨hnone, rfl⟩ := step_call_eq_some hstep
    have hne : c ≠ d := by
      rintro rfl
      rw [hnone] at hcall
      cases hcall
    exact ⟨call.phase, (Function.update_of_ne hne _ _).trans hcall⟩
  | advance d =>
    obtain ⟨moved, hmoved, hstep⟩ := Option.bind_eq_some_iff.mp hstep
    obtain ⟨phase, hcalls, -⟩ := advance_moves h hmoved hstep
    rw [hcalls, Function.update_apply]
    split
    · rename_i heq
      rw [heq, hmoved] at hcall
      cases hcall
      exact ⟨phase, rfl⟩
    · exact ⟨call.phase, hcall⟩
  | abort d =>
    obtain ⟨moved, hmoved, -, rfl⟩ := step_abort_eq_some hstep
    rw [leave_calls]
    split
    · rename_i heq
      rw [heq, hmoved] at hcall
      cases hcall
      exact ⟨.done, rfl⟩
    · exact ⟨call.phase, hcall⟩
  | single tx =>
    obtain ⟨-, db, -, rfl⟩ := step_single_eq_some hstep
    exact ⟨call.phase, hcall⟩

theorem prepareTaskEvent_newStatus {archived : Option Archived} {event : TaskStreamEvent}
    {prepared : Prepared} (h : prepareTaskEvent archived event = some prepared) :
    newStatus prepared.stored.detail = newStatus event.detail := by
  obtain ⟨a, r, hdetail, -, -, rfl⟩ | ⟨-, rfl⟩ := prepareTaskEvent_eq_some h
  · rw [hdetail]
    rfl
  · rfl

/-- A call changes the status of a task only by the commit of an event of it. -/
theorem status_step (h : Tracked s) (hp : Prepares s) (hstep : step settings s l = some s')
    (hl : ∀ tx, l ≠ .single tx) (u : String) : s'.db.status u = s.db.status u ∨
      ∃ c call status, s.calls c = some call ∧ call.event.taskId = u ∧
        newStatus call.event.detail = some status ∧ s'.db.status u = some status := by
  cases hcommit : committing s l with
  | some row =>
    obtain ⟨-, -, hstatus⟩ := step_commit h hstep hcommit
    rw [hstatus]
    split
    · rename_i heq
      obtain ⟨c, call, prepared, task, id, -, hcall, hphase, rfl⟩ := committing_eq_some hcommit
      have hprepared := hp c call prepared hcall (by rw [hphase]; rfl)
      rw [rowStatus_eventRow, prepareTaskEvent_newStatus hprepared]
      cases hold : s.db.status u with
      | none => exact .inl rfl
      | some old =>
        cases hnew : newStatus call.event.detail with
        | none => exact .inl rfl
        | some status =>
          refine .inr ⟨c, call, status, hcall, ?_, hnew, rfl⟩
          rw [heq, ← (prepareTaskEvent_taskId hprepared).1]
          rfl
    · exact .inl rfl
  | none =>
    left
    cases l with
    | call d event archived source now resultId =>
      obtain ⟨-, rfl⟩ := step_call_eq_some hstep
      rfl
    | advance d =>
      obtain ⟨moved, hmoved, hstep⟩ := Option.bind_eq_some_iff.mp hstep
      simp only [committing, hmoved, Option.bind_some] at hcommit
      cases hpublish : callPublishes moved with
      | some event =>
        rw [System.db, (advance_publish hstep hpublish).1]
        rfl
      | none => rw [Database.status, (advance_quiet hstep hcommit hpublish).2.1, Database.status]
    | abort d =>
      obtain ⟨moved, -, -, rfl⟩ := step_abort_eq_some hstep
      rfl
    | single tx => exact absurd rfl (hl tx)

/-- What a transaction of one statement does to the status of a task. -/
theorem status_single {tx : Single} (h : tx.apply settings db = some db') (u : String) :
    db'.status u = db.status u ∨
      (∃ new, tx = .enqueue new ∧ u = new.taskId ∧ db'.status u = some .queued) ∨
      ∃ runId streamUrl now, tx = .dispatch u runId streamUrl now ∧ db'.status u = some .running := by
  cases tx with
  | enqueue new =>
    obtain ⟨-, db₁, sessionId, hsession, rfl⟩ := enqueueTransaction_eq_some h
    rw [Database.status, Database.updateSession_tasks, OrderedMap.get_set,
      (sessionForTask_tasks hsession).1]
    split
    · rename_i hu
      exact .inr (.inl ⟨new, rfl, hu, rfl⟩)
    · exact .inl rfl
  | setQueueJobId taskId jobId =>
    cases h
    left
    apply status_updateTask
    exact fun _ => rfl
  | incrementAttempt taskId =>
    cases h
    left
    apply status_updateTask
    exact fun _ => rfl
  | dispatch taskId runId streamUrl now =>
    cases h
    rw [dispatchUpdate, Database.status, Database.updateTask_get]
    split
    · rename_i heq
      rw [heq, Database.status]
      cases db.tasks.get taskId with
      | none => exact .inl rfl
      | some row =>
        by_cases hq : row.status = .queued
        · refine .inr (.inr ⟨runId, streamUrl, now, rfl, ?_⟩)
          simp [hq]
        · left
          simp [hq]
    · exact .inl rfl
  | setSessionRunning sessionId =>
    cases h
    rw [Database.status, Database.updateSession_tasks]
    exact .inl rfl
  | archive row =>
    cases h
    exact .inl rfl

/-- A queued task is dispatched by the conditional update. -/
theorem dispatched_dispatchUpdate {runId streamUrl now : String} (hqueued : db.status u = some .queued)
    (hnamed : streamUrl ≠ "") : Dispatched (dispatchUpdate u runId streamUrl now db) u := by
  obtain ⟨task, hget, hstatus⟩ := Option.map_eq_some_iff.mp hqueued
  rw [Dispatched, dispatchUpdate, Database.updateTask_get, if_pos rfl, hget, Option.map_some, if_pos hstatus]
  exact ⟨_, rfl, fun heq => (by cases heq), streamUrl, rfl, hnamed⟩

theorem newStatus_ne_queued (detail : TaskEventDetail) : newStatus detail ≠ some .queued := by
  cases detail <;> exact fun h => by cases h

/-- A call that `failTask` has made. -/
structure Reports (call : Call) : Prop where
  source : call.sourceEventId = none
  detail : ∃ code message, call.event.detail = .failed code message

/-- The call has committed or come to its end. -/
def concluded : Phase → Bool
  | .publish _ _ | .done => true
  | _ => false

/-- The statements of a report still to come are its updates. -/
def OnlyUpdates : Phase → Prop
  | .project _ _ _ todo => ∀ statement ∈ todo, statement = .updateTask ∨ statement = .updateSession
  | _ => True

theorem reports_prepared {prepared : Prepared} (h : Reports call)
    (hprepared : prepareTaskEvent call.archived call.event = some prepared) :
    prepared = ⟨call.event, call.event⟩ := by
  obtain ⟨code, message, hdetail⟩ := h.detail
  unfold prepareTaskEvent at hprepared
  rw [hdetail] at hprepared
  cases hprepared
  rfl

/-- A report goes on until its task has come to its end. -/
theorem reports_advance (h : Tracked s) (hp : Prepares s) (hcall : s.calls c = some call) (hr : Reports call)
    (hsome : (s.db.status call.event.taskId).isSome = true) (honly : OnlyUpdates call.phase)
    (hstep : s.advance settings c call = some s') :
    ∃ phase, s'.calls = Function.update s.calls c (some { call with phase }) ∧ OnlyUpdates phase ∧
      (concluded phase = true → concluded call.phase = true ∨
        (s'.db.status call.event.taskId).any TaskStatus.isTerminal = true) := by
  have hold := h.pending c call hcall
  have hprepared := fun prepared => hp c call prepared hcall
  obtain ⟨code, message, hdetail⟩ := hr.detail
  cases hphase : call.phase with
  | precheck =>
    simp only [System.advance, hphase, hr.source, truthy, Option.filter_none, Option.any_none] at hstep
    cases hstep
    exact ⟨.prepare, rfl, trivial, fun h => by cases h⟩
  | prepare =>
    have hresult : prepareTaskEvent call.archived call.event = some ⟨call.event, call.event⟩ := by
      unfold prepareTaskEvent
      rw [hdetail]
    simp only [System.advance, hphase, hresult] at hstep
    cases hstep
    exact ⟨_, rfl, trivial, fun h => by cases h⟩
  | findTask prepared =>
    rw [hphase] at hprepared
    obtain rfl := reports_prepared hr (hprepared prepared rfl)
    rw [Pending, hphase] at hold
    simp only [System.advance, hphase, Server.view_of_writes_nil hold] at hstep
    obtain ⟨status, hstatus⟩ := Option.isSome_iff_exists.mp hsome
    obtain ⟨task, htask, rfl⟩ := Option.map_eq_some_iff.mp hstatus
    rw [show s.server.db.tasks.get call.event.taskId = some task from htask] at hstep
    dsimp only at hstep
    split at hstep <;> cases hstep
    · rename_i hterminal
      refine ⟨.done, rfl, trivial, fun _ => .inr ?_⟩
      rw [show (s.leave c call).db.status call.event.taskId = some task.status from hstatus]
      exact hterminal
    · exact ⟨_, rfl, trivial, fun h => by cases h⟩
  | findDuplicate prepared task =>
    simp only [System.advance, hphase, hr.source, truthy, Option.filter_none, Option.any_none] at hstep
    cases hstep
    exact ⟨_, rfl, trivial, fun h => by cases h⟩
  | drawId prepared task =>
    simp only [System.advance, hphase] at hstep
    cases hstep
    exact ⟨_, rfl, trivial, fun h => by cases h⟩
  | create prepared task id =>
    rw [hphase] at hprepared
    obtain rfl := reports_prepared hr (hprepared prepared rfl)
    simp only [System.advance, hphase, System.create, hr.source, lockSource, Database.violatesSource,
      Option.any_none, Option.bind_eq_bind, Option.bind_some] at hstep
    cases hstep
    refine ⟨_, rfl, ?_, fun h => by cases h⟩
    simp [OnlyUpdates, hdetail, statements]
  | project prepared task id todo =>
    rw [hphase] at hprepared honly
    obtain rfl := reports_prepared hr (hprepared prepared rfl)
    cases todo with
    | nil =>
      have hcommit : callCommits call = some (eventRow call.event call.sourceEventId id) := by
        rw [callCommits, hphase]
      obtain ⟨-, -, hstatus⟩ := advance_commit h hcall hstep hcommit
      simp only [System.advance, hphase] at hstep
      cases hstep
      refine ⟨_, rfl, trivial, fun _ => .inr ?_⟩
      have hrow : (eventRow call.event call.sourceEventId id).taskId = call.event.taskId := rfl
      obtain ⟨status, hstatus'⟩ := Option.isSome_iff_exists.mp hsome
      rw [hstatus, rowStatus_eventRow, hrow, if_pos rfl, hstatus', hdetail]
      rfl
    | cons statement todo =>
      have htodo : OnlyUpdates (.project ⟨call.event, call.event⟩ task id todo) := fun st hst =>
        honly st (List.mem_cons_of_mem _ hst)
      simp only [System.advance, hphase] at hstep
      rcases honly statement List.mem_cons_self with rfl | rfl
      · obtain ⟨server, -, hstep⟩ := Option.bind_eq_some_iff.mp hstep
        cases hstep
        exact ⟨_, rfl, htodo, fun h => by cases h⟩
      · obtain ⟨server, -, hstep⟩ := Option.bind_eq_some_iff.mp hstep
        cases hstep
        exact ⟨_, rfl, htodo, fun h => by cases h⟩
  | publish prepared id =>
    simp only [System.advance, hphase] at hstep
    cases hstep
    exact ⟨.done, rfl, trivial, fun _ => .inl rfl⟩
  | done =>
    simp only [System.advance, hphase] at hstep
    cases hstep

end TaskProgress
