import ClawWork.TasksService
import ClawWork.Transition

/-!
# The task row is the projection of its event log

`Projects` relates a row of `Task` to the list of its events and results. The
transactions keep it because the guard and the writes of `persistTaskEvent` are
in one transaction: an event is appended only while no terminal event is there.
-/

namespace EventProjection

open JavaScript SharedTypes TaskStore TasksService Transition

variable {settings : Settings} {db db' : Database} {t u : String} {task : Task}

/-- The log of a task: its events in the order of their ids, read back from their rows. -/
def log (settings : Settings) (db : Database) (t : String) : List TaskStreamEvent :=
  (db.eventsOf t).filterMap fun row => parsePersistedEvent settings row.payload

def lastDetail (es : List TaskStreamEvent) : Option TaskEventDetail :=
  es.getLast?.map TaskStreamEvent.detail

/-- The row of the task says what its log says. -/
structure Projected (settings : Settings) (db : Database) (task : Task) : Prop where
  ordered : (db.eventsOf task.id).Pairwise fun a b => a.id < b.id
  failed : task.status = .failed ↔
    ∃ code message, lastDetail (log settings db task.id) = some (.failed code message)
  error : ∀ code message, lastDetail (log settings db task.id) = some (.failed code message) →
    task.errorCode = some code ∧ task.errorMessage = some message
  cancelled : task.status = .cancelled ↔
    ∃ message, lastDetail (log settings db task.id) = some (.cancelled message)
  completed : task.status = .completed ↔ lastDetail (log settings db task.id) = some .completed
  result : task.status = .completed → ∃ row, db.resultsOf task.id = [row] ∧
    row.outputText = outputText (log settings db task.id) ∧
    row.outputJson = outputJson (log settings db task.id)
  unfinished : task.status.isTerminal = false →
    (∀ e ∈ log settings db task.id, e.isTerminal = false) ∧ db.resultsOf task.id = []

/-- The status that a terminal event leads to. -/
def terminalStatus : TaskEventDetail → Option TaskStatus
  | .completed => some .completed
  | .failed _ _ => some .failed
  | .cancelled _ => some .cancelled
  | _ => none

/-- What a row says about the events and the results of its task. -/
structure Projects (es : List TaskStreamEvent) (rows : List TaskResult) (task : Task) : Prop where
  status : (lastDetail es).bind terminalStatus =
    if task.status.isTerminal then some task.status else none
  error : ∀ code message, lastDetail es = some (.failed code message) →
    task.errorCode = some code ∧ task.errorMessage = some message
  result : task.status = .completed → ∃ row, rows = [row] ∧
    row.outputText = outputText es ∧ row.outputJson = outputJson es
  unfinished : task.status.isTerminal = false → (∀ e ∈ es, e.isTerminal = false) ∧ rows = []

structure Inv (settings : Settings) (db : Database) : Prop where
  ordered : db.taskEvents.Pairwise fun a b => a.id < b.id
  drawn : ∀ row ∈ db.taskEvents, row.id < db.nextEventId
  keyed : ∀ t task, db.tasks.get t = some task → task.id = t
  eventTask : ∀ row ∈ db.taskEvents, (db.tasks.get row.taskId).isSome
  resultTask : ∀ row ∈ db.taskResults, (db.tasks.get row.taskId).isSome
  readable : ∀ row ∈ db.taskEvents, (parsePersistedEvent settings row.payload).isSome
  projects : ∀ t task, db.tasks.get t = some task →
    Projects (log settings db t) (db.resultsOf t) task

theorem terminalStatus_failed {d : TaskEventDetail} :
    terminalStatus d = some .failed ↔ ∃ code message, d = .failed code message := by
  cases d <;> simp [terminalStatus]

theorem terminalStatus_cancelled {d : TaskEventDetail} :
    terminalStatus d = some .cancelled ↔ ∃ message, d = .cancelled message := by
  cases d <;> simp [terminalStatus]

theorem terminalStatus_completed {d : TaskEventDetail} :
    terminalStatus d = some .completed ↔ d = .completed := by
  cases d <;> simp [terminalStatus]

theorem terminalStatus_eq_none {d : TaskEventDetail} :
    terminalStatus d = none ↔ d.isTerminal = false := by
  cases d <;> simp [terminalStatus, TaskEventDetail.isTerminal]

/-- A terminal status is the status of the last event. -/
theorem Projects.status_iff {es : List TaskStreamEvent} {rows : List TaskResult}
    (h : Projects es rows task) {status : TaskStatus} (hs : status.isTerminal = true) :
    task.status = status ↔ ∃ d, lastDetail es = some d ∧ terminalStatus d = some status := by
  rw [← Option.bind_eq_some_iff, h.status]
  constructor
  · intro heq
    rw [heq, if_pos hs]
  · intro heq
    split at heq
    · exact Option.some.inj heq
    · cases heq

theorem Projects.projected (h : Projects (log settings db task.id) (db.resultsOf task.id) task)
    (horder : (db.eventsOf task.id).Pairwise fun a b => a.id < b.id) :
    Projected settings db task where
  ordered := horder
  failed := by
    rw [h.status_iff rfl]
    simp only [terminalStatus_failed]
    constructor
    · rintro ⟨d, hd, code, message, rfl⟩
      exact ⟨code, message, hd⟩
    · rintro ⟨code, message, hd⟩
      exact ⟨_, hd, code, message, rfl⟩
  error := h.error
  cancelled := by
    rw [h.status_iff rfl]
    simp only [terminalStatus_cancelled]
    constructor
    · rintro ⟨d, hd, message, rfl⟩
      exact ⟨message, hd⟩
    · rintro ⟨message, hd⟩
      exact ⟨_, hd, message, rfl⟩
  completed := by
    rw [h.status_iff rfl]
    simp only [terminalStatus_completed]
    constructor
    · rintro ⟨d, hd, rfl⟩
      exact hd
    · intro hd
      exact ⟨_, hd, rfl⟩
  result := h.result
  unfinished := h.unfinished

theorem lastDetail_append (es : List TaskStreamEvent) (e : TaskStreamEvent) :
    lastDetail (es ++ [e]) = some e.detail := by simp [lastDetail]

theorem projects_nil (htask : task.status.isTerminal = false) : Projects [] [] task where
  status := by simp [lastDetail, htask]
  error := fun code message h => by simp [lastDetail] at h
  result := fun h => by simp [h, TaskStatus.isTerminal] at htask
  unfinished := fun _ => ⟨by simp, rfl⟩

/-- Changes of a row that keep its status, and what goes with it, fit the same log. -/
theorem Projects.congr {es : List TaskStreamEvent} {rows : List TaskResult} {task' : Task}
    (h : Projects es rows task)
    (hstatus : task'.status = task.status ∨
      (task.status.isTerminal = false ∧ task'.status.isTerminal = false))
    (herror : task.status.isTerminal = true →
      task'.errorCode = task.errorCode ∧ task'.errorMessage = task.errorMessage) :
    Projects es rows task' := by
  have hterm : task'.status.isTerminal = task.status.isTerminal := by
    rcases hstatus with hs | ⟨h₁, h₂⟩
    · rw [hs]
    · rw [h₁, h₂]
  refine ⟨?_, fun code message hlast => ?_, fun hc => ?_, fun hopen => ?_⟩
  · rw [h.status, hterm]
    rcases hstatus with hs | ⟨h₁, -⟩
    · rw [hs]
    · simp [h₁]
  · have hs : task.status = .failed :=
      (h.status_iff rfl).mpr ⟨_, hlast, rfl⟩
    obtain ⟨hcode, hmessage⟩ := herror (by rw [hs]; rfl)
    rw [hcode, hmessage]
    exact h.error code message hlast
  · rcases hstatus with hs | ⟨-, h₂⟩
    · exact h.result (hs ▸ hc)
    · simp [hc, TaskStatus.isTerminal] at h₂
  · exact h.unfinished (hterm ▸ hopen)

/-- An event of any other type leaves an unfinished task unfinished. -/
theorem Projects.append_open {es : List TaskStreamEvent} {rows : List TaskResult} {task' : Task}
    {e : TaskStreamEvent} (h : Projects es rows task) (hopen : task.status.isTerminal = false)
    (he : e.isTerminal = false) (hopen' : task'.status.isTerminal = false) :
    Projects (es ++ [e]) rows task' where
  status := by
    have hnone : terminalStatus e.detail = none := terminalStatus_eq_none.mpr he
    simp [lastDetail_append, hopen', hnone]
  error := by
    intro code message hlast
    rw [lastDetail_append, Option.some.injEq] at hlast
    simp [TaskStreamEvent.isTerminal, hlast, TaskEventDetail.isTerminal] at he
  result := by
    intro hc
    simp [hc, TaskStatus.isTerminal] at hopen'
  unfinished := by
    intro _
    obtain ⟨hes, hrows⟩ := h.unfinished hopen
    refine ⟨fun x hx => ?_, hrows⟩
    rcases List.mem_append.mp hx with hx | hx
    · exact hes x hx
    · rw [List.mem_singleton.mp hx]
      exact he

/-- A terminal event and the update of the row that goes with it. -/
theorem projects_terminal {es : List TaskStreamEvent} {rows : List TaskResult} {task' : Task}
    {e : TaskStreamEvent} (hstatus : terminalStatus e.detail = some task'.status)
    (hterm : task'.status.isTerminal = true)
    (herror : ∀ code message, e.detail = .failed code message →
      task'.errorCode = some code ∧ task'.errorMessage = some message)
    (hresult : task'.status = .completed → ∃ row, rows = [row] ∧
      row.outputText = outputText (es ++ [e]) ∧ row.outputJson = outputJson (es ++ [e])) :
    Projects (es ++ [e]) rows task' where
  status := by simp [lastDetail_append, hstatus, hterm]
  error := by
    intro code message hlast
    rw [lastDetail_append, Option.some.injEq] at hlast
    exact herror code message hlast
  result := hresult
  unfinished := by
    intro hopen
    rw [hterm] at hopen
    cases hopen

theorem inv_empty : Inv settings .empty where
  ordered := List.Pairwise.nil
  drawn := fun row h => by cases h
  keyed := fun t task h => by cases h
  eventTask := fun row h => by cases h
  resultTask := fun row h => by cases h
  readable := fun row h => by cases h
  projects := fun t task h => by cases h

/-- A change that touches neither events nor results and keeps every row in its place. -/
theorem Inv.of_tasks (h : Inv settings db) (hevents : db'.taskEvents = db.taskEvents)
    (hresults : db'.taskResults = db.taskResults) (hdrawn : db.nextEventId ≤ db'.nextEventId)
    (hgone : ∀ t, (db.tasks.get t).isSome → (db'.tasks.get t).isSome)
    (hkeyed : ∀ t task', db'.tasks.get t = some task' → task'.id = t)
    (htasks : ∀ t task', db'.tasks.get t = some task' →
      Projects (log settings db t) (db.resultsOf t) task') : Inv settings db' where
  ordered := by
    rw [hevents]
    exact h.ordered
  drawn := by
    intro row hrow
    rw [hevents] at hrow
    exact Nat.lt_of_lt_of_le (h.drawn row hrow) hdrawn
  keyed := hkeyed
  eventTask := by
    intro row hrow
    rw [hevents] at hrow
    exact hgone _ (h.eventTask row hrow)
  resultTask := by
    intro row hrow
    rw [hresults] at hrow
    exact hgone _ (h.resultTask row hrow)
  readable := by
    rw [hevents]
    exact h.readable
  projects := by
    intro t task' ht
    have hlog : log settings db' t = log settings db t := by
      simp only [log, Database.eventsOf, hevents]
    have hrows : db'.resultsOf t = db.resultsOf t := by
      simp only [Database.resultsOf, hresults]
    rw [hlog, hrows]
    exact htasks t task' ht

theorem Inv.same_tasks (h : Inv settings db) (htasks : db'.tasks = db.tasks)
    (hevents : db'.taskEvents = db.taskEvents) (hresults : db'.taskResults = db.taskResults)
    (hdrawn : db.nextEventId ≤ db'.nextEventId) : Inv settings db' := by
  refine h.of_tasks hevents hresults hdrawn ?_ ?_ ?_ <;> rw [htasks]
  · exact fun _ => id
  · exact h.keyed
  · exact h.projects

theorem inv_updateSession (h : Inv settings db) (id : String) (data : AppSession → AppSession) :
    Inv settings (db.updateSession id data) :=
  h.same_tasks (db.updateSession_tasks id data) (by simp) (by simp) (by simp)

/-- A change of one row that leaves what its log has decided. -/
theorem inv_updateTask (h : Inv settings db) (id : String) (data : Task → Task)
    (hid : ∀ task, (data task).id = task.id)
    (hdata : ∀ es rows task, Projects es rows task → Projects es rows (data task)) :
    Inv settings (db.updateTask id data) := by
  refine h.of_tasks (by simp) (by simp) (by simp) (fun t ht => ?_) (fun t task' ht => ?_)
    (fun t task' ht => ?_)
  · rw [db.updateTask_get]
    split
    · rename_i heq
      rw [heq] at ht
      simpa using ht
    · exact ht
  · rw [db.updateTask_get] at ht
    split at ht
    · rename_i heq
      obtain ⟨task, htask, rfl⟩ := Option.map_eq_some_iff.mp ht
      rw [hid, h.keyed id task htask, heq]
    · exact h.keyed t task' ht
  · rw [db.updateTask_get] at ht
    split at ht
    · rename_i heq
      obtain ⟨task, htask, rfl⟩ := Option.map_eq_some_iff.mp ht
      rw [heq]
      exact hdata _ _ _ (h.projects id task htask)
    · exact h.projects t task' ht

theorem inv_dispatchUpdate (h : Inv settings db) (taskId runId streamUrl now : String) :
    Inv settings (dispatchUpdate taskId runId streamUrl now db) := by
  refine inv_updateTask h taskId _ (fun task => ?_) fun es rows task hp => ?_
  · split <;> rfl
  · split
    · rename_i hq
      refine hp.congr (.inr ⟨by rw [hq]; rfl, rfl⟩) fun hterm => ?_
      rw [hq] at hterm
      cases hterm
    · exact hp

theorem eventsOf_of_fresh (h : Inv settings db) (ht : db.tasks.get t = none) :
    log settings db t = [] ∧ db.resultsOf t = [] := by
  have hevents : db.eventsOf t = [] := by
    rw [Database.eventsOf, List.filter_eq_nil_iff]
    intro row hrow hid
    have hsome := h.eventTask row hrow
    rw [of_decide_eq_true hid, ht] at hsome
    cases hsome
  have hresults : db.resultsOf t = [] := by
    rw [Database.resultsOf, List.filter_eq_nil_iff]
    intro row hrow hid
    have hsome := h.resultTask row hrow
    rw [of_decide_eq_true hid, ht] at hsome
    cases hsome
  exact ⟨by rw [log, hevents]; rfl, hresults⟩

/-- A new task starts with an empty log. -/
theorem inv_enqueue (h : Inv settings db) {new : NewTask}
    (hstep : enqueueTransaction settings new db = some db') : Inv settings db' := by
  obtain ⟨hfresh, db₁, sessionId, hsession, rfl⟩ := enqueueTransaction_eq_some hstep
  obtain ⟨htasks, hevents, hresults, hnext⟩ := sessionForTask_tasks hsession
  apply inv_updateSession
  refine h.of_tasks hevents hresults (by simp [hnext]) (fun t ht => ?_) (fun t task' ht => ?_)
    (fun t task' ht => ?_)
  · simp only [OrderedMap.get_set, htasks]
    split
    · rfl
    · exact ht
  · simp only [OrderedMap.get_set, htasks] at ht
    split at ht
    · rename_i heq
      cases ht
      exact heq.symm
    · exact h.keyed t task' ht
  · simp only [OrderedMap.get_set, htasks] at ht
    split at ht
    · rename_i heq
      cases ht
      obtain ⟨hlog, hrows⟩ := eventsOf_of_fresh h hfresh
      rw [heq, hlog, hrows]
      exact projects_nil rfl
    · exact h.projects t task' ht

/-- The log and the results after an event of the task `t` was appended. -/
theorem inv_append (h : Inv settings db) {stored : TaskStreamEvent} (source : Option String)
    (rows : List TaskResult) (hstored : stored.detail.Storable) (task' : Task) (hid : task'.id = t)
    (hevents : db'.taskEvents = (db.createEvent t source stored).taskEvents)
    (hnext : db'.nextEventId = db.nextEventId + 1)
    (hresults : db'.taskResults = db.taskResults ++ rows) (hrows : ∀ row ∈ rows, row.taskId = t)
    (htasks : ∀ u, db'.tasks.get u = if u = t then some task' else db.tasks.get u)
    (hprojects : Projects (log settings db t ++ [stored]) (db.resultsOf t ++ rows) task') :
    Inv settings db' := by
  have hread : parsePersistedEvent settings stored.toJson = some stored :=
    parseTaskStreamEvent_toJson hstored
  have hsome : ∀ u, (db.tasks.get u).isSome → (db'.tasks.get u).isSome := by
    intro u hu
    rw [htasks]
    split
    · rfl
    · exact hu
  have hmem : ∀ row ∈ db'.taskEvents, row ∈ db.taskEvents ∨
      row = ⟨db.nextEventId, t, source, stored.detail.literal, stored.toJson⟩ := by
    intro row hrow
    rw [hevents, Database.createEvent] at hrow
    exact (List.mem_append.mp hrow).imp id List.mem_singleton.mp
  have hlog : ∀ u, log settings db' u = log settings db u ++ if u = t then [stored] else [] := by
    intro u
    simp only [log, Database.eventsOf, hevents, Database.createEvent, List.filter_append,
      List.filterMap_append]
    by_cases hu : u = t
    · simp [hu, hread]
    · simp [hu, Ne.symm hu]
  have hres : ∀ u, db'.resultsOf u = db.resultsOf u ++ if u = t then rows else [] := by
    intro u
    have hnew : rows.filter (fun row => row.taskId = u) = if u = t then rows else [] := by
      by_cases hu : u = t
      · rw [if_pos hu, List.filter_eq_self]
        intro row hrow
        simp [hrows row hrow, hu]
      · rw [if_neg hu, List.filter_eq_nil_iff]
        intro row hrow
        simp [hrows row hrow, Ne.symm hu]
    rw [← hnew, Database.resultsOf, hresults, List.filter_append]
    rfl
  refine ⟨?_, fun row hrow => ?_, fun u task₁ hu => ?_, fun row hrow => ?_, fun row hrow => ?_,
    fun row hrow => ?_, fun u task₁ hu => ?_⟩
  · rw [hevents, Database.createEvent, List.pairwise_append]
    refine ⟨h.ordered, List.pairwise_singleton _ _, fun a ha b hb => ?_⟩
    rw [List.mem_singleton.mp hb]
    exact h.drawn a ha
  · rw [hnext]
    rcases hmem row hrow with hrow | rfl
    · exact Nat.lt_succ_of_lt (h.drawn row hrow)
    · exact Nat.lt_succ_self _
  · rw [htasks] at hu
    split at hu
    · rename_i heq
      rw [← Option.some.inj hu, hid, heq]
    · exact h.keyed u task₁ hu
  · rcases hmem row hrow with hrow | rfl
    · exact hsome _ (h.eventTask row hrow)
    · simp [htasks]
  · rw [hresults, List.mem_append] at hrow
    rcases hrow with hrow | hrow
    · exact hsome _ (h.resultTask row hrow)
    · simp [htasks, hrows row hrow]
  · rcases hmem row hrow with hrow | rfl
    · exact h.readable row hrow
    · rw [hread]
      rfl
  · rw [hlog, hres]
    rw [htasks] at hu
    split at hu
    · rename_i heq
      rw [← Option.some.inj hu, heq]
      simpa using hprojects
    · rename_i hne
      simpa [hne] using h.projects u task₁ hu

theorem mapM_of_isSome {α β : Type} {f : α → Option β} {l : List α} (h : ∀ a ∈ l, (f a).isSome) :
    l.mapM f = some (l.filterMap f) := by
  induction l with
  | nil => rfl
  | cons a l ih =>
    obtain ⟨b, hb⟩ := Option.isSome_iff_exists.mp (h a List.mem_cons_self)
    have htail := ih fun a ha => h a (List.mem_cons_of_mem _ ha)
    simp [List.mapM_cons, hb, htail]

/-- What the `task.completed` branch writes, in a database whose rows can be read back. -/
theorem completeTask_eq {now resultId : String} {stored : TaskStreamEvent}
    (hread : ∀ row ∈ db.taskEvents, (parsePersistedEvent settings row.payload).isSome)
    (hstep : completeTask settings now resultId task stored db = some db') :
    ∃ row : TaskResult, row.taskId = task.id ∧ row.outputText = outputText (log settings db task.id) ∧
      row.outputJson = outputJson (log settings db task.id) ∧
      db'.taskResults = db.taskResults ++ [row] ∧ db'.taskEvents = db.taskEvents ∧
      db'.nextEventId = db.nextEventId ∧
      ∀ u, db'.tasks.get u = if u = task.id then (db.tasks.get u).map (taskUpdate now task stored)
        else db.tasks.get u := by
  have hmap : (db.eventsOf task.id).mapM (fun row => parsePersistedEvent settings row.payload) =
      some (log settings db task.id) := by
    refine mapM_of_isSome fun row hrow => hread row ?_
    exact List.mem_of_mem_filter hrow
  simp only [completeTask, hmap, Option.bind_eq_bind, Option.bind_some] at hstep
  split at hstep
  · cases hstep
  · cases hstep
    refine ⟨newResult resultId task (outputText (log settings db task.id))
      (outputJson (log settings db task.id)) (db.latestVersion task.sessionId),
      rfl, rfl, rfl, by simp [linkArtifacts], by simp [linkArtifacts], by simp [linkArtifacts],
      fun u => ?_⟩
    simp only [Database.updateSession_tasks, Database.updateTask_get, linkArtifacts]
    split
    · rename_i heq
      rw [heq]
    · rfl

theorem log_createEvent {stored : TaskStreamEvent} (hstored : stored.detail.Storable)
    (source : Option String) :
    log settings (db.createEvent t source stored) t = log settings db t ++ [stored] := by
  have hread : parsePersistedEvent settings stored.toJson = some stored :=
    parseTaskStreamEvent_toJson hstored
  simp [log, Database.eventsOf, Database.createEvent, List.filter_append, hread]

/-- An event is appended and the row of its task changes by `data`. -/
theorem inv_append_update (h : Inv settings db) {stored : TaskStreamEvent} (source : Option String)
    (hstored : stored.detail.Storable) (ht : db.tasks.get stored.taskId = some task)
    (hrows : db.resultsOf stored.taskId = []) (data : Task → Task) (hdata : (data task).id = task.id)
    (hp : Projects (log settings db stored.taskId ++ [stored]) [] (data task)) :
    Inv settings ((db.createEvent stored.taskId source stored).updateTask task.id data) := by
  have hid : task.id = stored.taskId := h.keyed _ _ ht
  refine inv_append h source [] hstored (data task) (hdata.trans hid) (by simp) (by simp [Database.createEvent])
    (by simp [Database.createEvent]) (by simp) (fun u => ?_) (by simpa [hrows] using hp)
  rw [Database.updateTask_get, hid]
  simp [Database.createEvent, ht]

theorem inv_completeTask (h : Inv settings db) {now resultId : String} {stored : TaskStreamEvent}
    {source : Option String} (hcompleted : stored.detail = .completed)
    (ht : db.tasks.get stored.taskId = some task) (hrows : db.resultsOf stored.taskId = [])
    (hstep : completeTask settings now resultId task stored
      (db.createEvent stored.taskId source stored) = some db') : Inv settings db' := by
  have hid : task.id = stored.taskId := h.keyed _ _ ht
  have hstored : stored.detail.Storable := by
    rw [hcompleted]
    trivial
  have hread : ∀ row ∈ (db.createEvent stored.taskId source stored).taskEvents,
      (parsePersistedEvent settings row.payload).isSome := by
    intro row hrow
    rcases List.mem_append.mp hrow with hrow | hrow
    · exact h.readable row hrow
    · rw [List.mem_singleton.mp hrow]
      exact Option.isSome_iff_exists.mpr ⟨stored, parseTaskStreamEvent_toJson hstored⟩
  obtain ⟨row, hrow, htext, hjson, hresults, hevents, hnext, htasks⟩ := completeTask_eq hread hstep
  rw [hid, log_createEvent hstored] at htext hjson
  refine inv_append h source [row] hstored (taskUpdate now task stored task)
    ((taskUpdate_id ..).trans hid) hevents hnext hresults (by simp [hrow, hid]) (fun u => ?_) ?_
  · rw [htasks, hid]
    split
    · rename_i heq
      simp [Database.createEvent, heq, ht]
    · rfl
  · rw [hrows, List.nil_append]
    have hstatus : (taskUpdate now task stored task).status = .completed := by
      simp [taskUpdate, hcompleted]
    refine projects_terminal (by rw [hcompleted, hstatus]; rfl) (by rw [hstatus]; rfl)
      (fun code message hd => ?_) fun _ => ?_
    · rw [hcompleted] at hd
      cases hd
    · exact ⟨row, rfl, htext, hjson⟩

theorem inv_projectEvent (h : Inv settings db) {now resultId : String} {stored : TaskStreamEvent}
    {source : Option String} (hstored : stored.detail.Storable)
    (ht : db.tasks.get stored.taskId = some task) (hopen : task.status.isTerminal = false)
    (hstep : projectEvent settings now resultId task stored
      (db.createEvent stored.taskId source stored) = some db') : Inv settings db' := by
  have hold := h.projects _ _ ht
  have hrows := (hold.unfinished hopen).2
  have hkeep : stored.isTerminal = false →
      Inv settings (db.createEvent stored.taskId source stored) := by
    intro hopen'
    refine inv_append h source [] hstored task (h.keyed _ _ ht) rfl rfl (by simp [Database.createEvent])
      (by simp) (fun u => ?_) (by simpa using hold.append_open hopen hopen' hopen)
    by_cases hu : u = stored.taskId
    · simp [Database.createEvent, hu, ht]
    · simp [Database.createEvent, hu]
  have hid : (taskUpdate now task stored task).id = task.id := taskUpdate_id ..
  unfold projectEvent at hstep
  split at hstep
  · rename_i hd
    cases hstep
    refine inv_append_update h source hstored ht hrows _ hid ?_
    rw [hrows] at hold
    exact hold.append_open hopen (by simp [TaskStreamEvent.isTerminal, hd, TaskEventDetail.isTerminal])
      (by simp [taskUpdate, hd, TaskStatus.isTerminal])
  · rename_i code message hd
    cases hstep
    have htask : (taskUpdate now task stored task).status = .failed := by simp [taskUpdate, hd]
    refine inv_updateSession (inv_append_update h source hstored ht hrows _ hid ?_) _ _
    refine projects_terminal (by rw [hd, htask]; rfl) (by rw [htask]; rfl)
      (fun code' message' hd' => ?_) fun hc => ?_
    · rw [hd] at hd'
      cases hd'
      simp [taskUpdate, hd]
    · rw [htask] at hc
      cases hc
  · rename_i message hd
    cases hstep
    have htask : (taskUpdate now task stored task).status = .cancelled := by simp [taskUpdate, hd]
    refine inv_updateSession (inv_append_update h source hstored ht hrows _ hid ?_) _ _
    refine projects_terminal (by rw [hd, htask]; rfl) (by rw [htask]; rfl)
      (fun code' message' hd' => ?_) fun hc => ?_
    · rw [hd] at hd'
      cases hd'
    · rw [htask] at hc
      cases hc
  · rename_i hd
    exact inv_completeTask h hd ht hrows hstep
  all_goals
    rename_i hd
    cases hstep
    exact hkeep (by simp [TaskStreamEvent.isTerminal, hd, TaskEventDetail.isTerminal])

theorem inv_rollback (h : Inv settings db) : Inv settings (rollback db).2 :=
  h.same_tasks rfl rfl rfl (Nat.le_succ _)

theorem inv_persist (h : Inv settings db) {stored : TaskStreamEvent}
    (hstored : stored.detail.Storable) (now resultId : String) (source : Option String) :
    Inv settings (persistTransaction settings now resultId stored source db).2 := by
  unfold persistTransaction
  split
  · exact h
  · rename_i task ht
    split
    · exact h
    · rename_i hopen
      split
      · exact h
      · split
        · exact inv_rollback h
        · split
          · rename_i db' hstep
            exact inv_projectEvent h hstored ht (by simpa using hopen) hstep
          · exact inv_rollback h

/-- The transactions that touch no event keep the invariant. -/
theorem inv_single (h : Inv settings db) {tx : Single} (hstep : tx.apply settings db = some db') :
    Inv settings db' := by
  cases tx with
  | enqueue new => exact inv_enqueue h hstep
  | setQueueJobId taskId jobId =>
    cases hstep
    exact inv_updateTask h taskId _ (fun _ => rfl) fun _ _ _ hp => hp.congr (.inl rfl) fun _ => ⟨rfl, rfl⟩
  | incrementAttempt taskId =>
    cases hstep
    exact inv_updateTask h taskId _ (fun _ => rfl) fun _ _ _ hp => hp.congr (.inl rfl) fun _ => ⟨rfl, rfl⟩
  | dispatch taskId runId streamUrl now =>
    cases hstep
    exact inv_dispatchUpdate h taskId runId streamUrl now
  | setSessionRunning sessionId =>
    cases hstep
    exact inv_updateSession h _ _
  | archive row =>
    cases hstep
    exact h.same_tasks rfl rfl rfl (Nat.le_refl _)

/-- Every transaction of the service keeps the invariant. -/
theorem inv_apply (h : Inv settings db) {tx : Transaction} (hstep : tx.apply settings db = some db') :
    Inv settings db' := by
  cases tx with
  | single tx => exact inv_single h hstep
  | persist event archived source now resultId =>
    obtain ⟨prepared, hprep, hstep⟩ := Option.bind_eq_some_iff.mp hstep
    cases hstep
    exact inv_persist h (prepareTaskEvent_storable hprep) _ _ _
  | failTask taskId code message now resultId =>
    obtain ⟨event, hevent, hstep⟩ := Option.bind_eq_some_iff.mp hstep
    cases hstep
    obtain ⟨task, -, -, rfl⟩ := failTaskEvent_eq_some_iff.mp hevent
    refine inv_persist h ?_ _ _ _
    trivial
  | cancelTask userId taskId now resultId =>
    obtain ⟨task, htask, hstep⟩ := Option.bind_eq_some_iff.mp hstep
    split at hstep
    · cases hstep
      exact inv_persist h (by simp [cancelTaskEvent, TaskEventDetail.Storable]) _ _ _
    · cases hstep

/-- In every database that a sequence of transactions leads to, the row of a task is the projection
of its event log. -/
theorem task_projects_log (hreach : Reachable (Transaction.apply settings) .empty db)
    (ht : db.tasks.get t = some task) : Projected settings db task := by
  obtain ⟨txs, hrun⟩ := hreach
  have hinv : Inv settings db := invariant_run (fun _ _ _ h hstep => inv_apply h hstep) inv_empty hrun
  have hid := hinv.keyed t task ht
  refine Projects.projected ?_ ?_
  · rw [hid]
    exact hinv.projects t task ht
  · exact hinv.ordered.sublist List.filter_sublist

/-- A task that runs to its end, with one event delivered twice. -/
def completedRun : List Transaction :=
  let event (detail : TaskEventDetail) : TaskStreamEvent := ⟨detail, "t", "s", "r", "2026-01-01"⟩
  [.single (.enqueue ⟨"t", "u", none, "hello", .inr ("s", "hello")⟩),
    .single (.dispatch "t" "r" "url" "2026-01-01"),
    .persist (event .accepted) none (some "1") "2026-01-01" "r1",
    .persist (event (.delta "hi ")) none (some "2") "2026-01-01" "r2",
    .persist (event (.delta "hi ")) none (some "2") "2026-01-01" "r2",
    .persist (event (.delta "there")) none (some "3") "2026-01-01" "r3",
    .persist (event .completed) none (some "4") "2026-01-01" "r4"]

theorem completed_projects : ∃ db task, db.tasks.get "t" = some task ∧ task.status = .completed ∧
    Projected ⟨1, fun _ => true⟩ db task := by
  have hany : (run (Transaction.apply ⟨1, fun _ => true⟩) .empty completedRun).any (fun db =>
      (db.tasks.get "t").any fun task => task.status = .completed) = true := by decide
  obtain ⟨db, hrun, hdb⟩ := (Option.any_eq_true _ _).mp hany
  obtain ⟨task, ht, hstatus⟩ := (Option.any_eq_true _ _).mp hdb
  exact ⟨db, task, ht, of_decide_eq_true hstatus, task_projects_log ⟨completedRun, hrun⟩ ht⟩

end EventProjection
