import ClawWork.ConfinedCalls

/-!
# Tenant isolation

The service with any number of users: their calls, each interleaved with the others
after every statement, transaction and request, and whatever the workers, relays and
clean-up jobs write. In every state that is reached, a call of one user leaves the
rows of the others as they are, and its answer is determined by the user's own rows.
-/

namespace TenantIsolation

open SharedTypes TaskStore TasksService ServiceTables FileCalls StorageQuota Isolation ServiceStore RowOwnership
  RowStatements ServiceCalls ConfinedCalls
open PersistCalls (PersistedTaskEvent)

/-- The operations that the service offers to a user. -/
inductive Operation where
  | createTask (input : ServiceCalls.CreateTask)
  | createFollowUp (taskId : String) (input : ServiceCalls.CreateTask)
  | regenerate (taskId : String)
  | cancelTask (taskId : String)
  | getTask (taskId : String)
  | listHistory (filter : HistoryQuery)
  | getHistoryTask (taskId : String)
  | getVersions (taskId : String)
  | listActiveTasks
  | deleteHistoryTask (taskId : String)
  | listTaskEvents (taskId : String) (afterId : Nat)
  | stream (taskId : String) (afterId : Nat)
  | createUploadUrl (input : CreateUpload)
  | completeUpload (input : CompleteUpload)
  | getFile (fileId : String)
  | deleteFile (fileId : String)

inductive Response where
  | created (answer : Created)
  | cancelled (answer : Cancelled)
  | task (answer : TaskDetail)
  | history (answer : HistoryPage)
  | session (answer : SessionHistory)
  | versions (answer : List ResultRow)
  | active (answer : List ActiveTask)
  | deletedHistory (answer : DeletedHistory)
  | events (answer : List PersistedTaskEvent)
  | upload (answer : Upload)
  | file (answer : FileRecord)
  | fileAnswer (answer : FileAnswer)
  | deletedFile (answer : DeletedFile)

variable (settings : ServiceSettings)

/-- The call of a user. -/
def Operation.call (v : String) : Operation → Call Response
  | .createTask input => do return .created (← ServiceCalls.createTask settings v input)
  | .createFollowUp taskId input => do return .created (← ServiceCalls.createFollowUp settings v taskId input)
  | .regenerate taskId => do return .created (← ServiceCalls.regenerate settings v taskId)
  | .cancelTask taskId => do return .cancelled (← ServiceCalls.cancelTask settings v taskId)
  | .getTask taskId => do return .task (← ServiceCalls.getTask settings v taskId)
  | .listHistory filter => do return .history (← ServiceCalls.listHistory settings v filter)
  | .getHistoryTask taskId => do return .session (← ServiceCalls.getHistoryTask settings v taskId)
  | .getVersions taskId => do return .versions (← ServiceCalls.getVersions settings v taskId)
  | .listActiveTasks => do return .active (← ServiceCalls.listActiveTasks v)
  | .deleteHistoryTask taskId => do
    return .deletedHistory (← ServiceCalls.deleteHistoryTask settings v taskId)
  | .listTaskEvents taskId afterId => do
    return .events (← ServiceCalls.listTaskEvents settings v taskId afterId)
  | .stream taskId afterId => do return .events (← ServiceCalls.stream settings v taskId afterId)
  | .createUploadUrl input => do return .upload (← ServiceCalls.createUploadUrl settings v input)
  | .completeUpload input => do return .file (← ServiceCalls.completeUpload v input)
  | .getFile fileId => do return .fileAnswer (← ServiceCalls.getFile v fileId)
  | .deleteFile fileId => do return .deletedFile (← ServiceCalls.deleteFile v fileId)

/-! ## The service -/

/-- A call that has not returned yet. -/
structure Running where
  user : String
  rest : Call Response

structure System where
  store : Store
  /-- The ids that were drawn, each with the user for whose row it was drawn. -/
  drawn : OrderedMap String String
  calls : Nat → Option Running

def System.init : System := ⟨.empty, .empty, fun _ => none⟩

/-- The writes of the workers to a task, and to its session. -/
inductive WorkerWrite where
  | setQueueJobId (jobId : String)
  | incrementAttempt
  | dispatch (runId streamUrl startedAt : String)

def WorkerWrite.data : WorkerWrite → Task → Task
  | .setQueueJobId jobId, row => { row with queueJobId := some jobId }
  | .incrementAttempt, row => { row with attemptCount := row.attemptCount + 1 }
  | .dispatch runId streamUrl startedAt, row =>
    if row.status = .queued then { row with
      status := .running, runId := some runId, adapterStreamUrl := some streamUrl,
      startedAt := some startedAt, errorCode := none, errorMessage := none }
    else row

/-- A new id is none that was drawn before, and it has no slash. -/
def System.fresh (s : System) (id : String) : Bool := s.drawn.get id = none && !id.toList.contains '/'

inductive Label where
  /-- A user is registered. -/
  | register (user : String)
  | call (k : Nat) (user : String) (operation : Operation)
  /-- A call takes its next action. -/
  | advance (k : Nat)
  /-- The reply to the request of a call. -/
  | answer (k : Nat) (request : Request) (reply : Reply request)
  | updateTask (taskId : String) (now : Nat) (write : WorkerWrite)
  | setSessionRunning (sessionId : String) (now : Nat)
  /-- The transaction of `persistTaskEvent` for an event of the adapter or of a worker. -/
  | persist (stored : TaskStreamEvent) (sourceEventId : Option String) (now eventId : Nat) (resultId : String)
  | publish (published : PersistedTaskEvent)
  /-- The transaction of `archiveResultArtifact`. -/
  | archive (row : ResultArtifact)
  /-- The clean-up jobs. -/
  | deleteFile (fileId : String)
  | deleteArtifact (artifactId : String)
  /-- A publication has been heard. -/
  | hear (i : Nat)
  | wait (ms : Nat)

/-- A statement that belongs to no call. -/
def System.execute {α : Type} (s : System) (statement : Statement α) : System :=
  match statement s.store with
  | .ok (_, store) => { s with store }
  | .error _ => s

/-- A call goes on with the outcome of its action. -/
def System.advance (s : System) (k : Nat) : Option System :=
  match s.calls k with
  | some ⟨user, .act action next⟩ =>
    match action s.store with
    | .ok (b, store) =>
      some { s with store, calls := Function.update s.calls k (some ⟨user, next (.ok b)⟩) }
    | .error failure =>
      some { s with calls := Function.update s.calls k (some ⟨user, next (.error failure)⟩) }
  | _ => none

/-- The ids that are drawn with a reply. -/
def System.draw (s : System) (user : String) : (r : Request) → Reply r → Option System
  | .newId, id => if s.fresh id then some { s with drawn := s.drawn.set id user } else none
  | _, _ => some s

def System.answer (s : System) (k : Nat) (r : Request) (reply : Reply r) : Option System :=
  match s.calls k with
  | some ⟨user, .ask r' next⟩ =>
    if h : r = r' then do
      let s ← s.draw user r reply
      some { s with calls := Function.update s.calls k (some ⟨user, next (h ▸ reply)⟩) }
    else none
  | _ => none

/-- The transaction draws the id of its result for the user of the task. -/
def System.persist (s : System) (stored : TaskStreamEvent) (sourceEventId : Option String)
    (now eventId : Nat) (resultId : String) : Option System :=
  match s.store.tasks.get stored.taskId with
  | none => some s
  | some task =>
    if s.fresh resultId then
      let s := { s with drawn := s.drawn.set resultId task.userId }
      some (s.execute (ServiceCalls.persistTransaction settings now resultId eventId stored sourceEventId))
    else none

def step (s : System) : Label → Option System
  | .register user =>
    if user = "" then none else some { s with store := { s.store with users := s.store.users ++ [user] } }
  | .call k user operation =>
    match s.calls k with
    | none => some { s with calls := Function.update s.calls k (some ⟨user, operation.call settings user⟩) }
    | some _ => none
  | .advance k => s.advance k
  | .answer k request reply => s.answer k request reply
  | .updateTask taskId now write => some (s.execute (updateTask taskId now write.data))
  | .setSessionRunning sessionId now =>
    some (s.execute (updateSession sessionId now fun row => { row with status := .running }))
  | .persist stored sourceEventId now eventId resultId =>
    s.persist settings stored sourceEventId now eventId resultId
  | .publish published =>
    if (s.drawn.get published.event.taskId).isSome then some (s.execute (publish published)) else none
  | .archive row =>
    if row.resultId = none ∧ (s.store.tasks.get row.taskId).any fun task => task.userId = row.userId then
      some (s.execute (createArtifact row))
    else none
  | .deleteFile fileId => some (s.execute (ServiceStore.deleteFile fileId))
  | .deleteArtifact artifactId => some (s.execute (deleteArtifact artifactId))
  | .hear i => some { s with store := { s.store with channel := s.store.channel.eraseIdx i } }
  | .wait ms => some { s with store := { s.store with redis := s.store.redis.wait ms } }

def runLabels (s : System) : List Label → Option System
  | [] => some s
  | l :: ls => (step settings s l).bind fun s' => runLabels s' ls

def Reachable (s : System) : Prop := ∃ labels, runLabels settings .init labels = some s

variable {settings : ServiceSettings} {owner : Issuance} {u v : String} {s s' : System}

theorem call_within (operation : Operation) : Within owner v (operation.call settings v) fun _ => True := by
  cases operation with
  | createTask input => exact createTask_within.bind fun _ _ => Confined.pure trivial
  | createFollowUp taskId input => exact createFollowUp_within.bind fun _ _ => Confined.pure trivial
  | regenerate taskId => exact regenerate_within.bind fun _ _ => Confined.pure trivial
  | cancelTask taskId => exact cancelTask_within.bind fun _ _ => Confined.pure trivial
  | getTask taskId => exact getTask_within.bind fun _ _ => Confined.pure trivial
  | listHistory filter => exact listHistory_within.bind fun _ _ => Confined.pure trivial
  | getHistoryTask taskId => exact getHistoryTask_within.bind fun _ _ => Confined.pure trivial
  | getVersions taskId => exact getVersions_within.bind fun _ _ => Confined.pure trivial
  | listActiveTasks => exact listActiveTasks_within.bind fun _ _ => Confined.pure trivial
  | deleteHistoryTask taskId => exact deleteHistoryTask_within.bind fun _ _ => Confined.pure trivial
  | listTaskEvents taskId afterId => exact listTaskEvents_within.bind fun _ _ => Confined.pure trivial
  | stream taskId afterId => exact stream_within.bind fun _ _ => Confined.pure trivial
  | createUploadUrl input => exact createUploadUrl_within.bind fun _ _ => Confined.pure trivial
  | completeUpload input => exact completeUpload_within.bind fun _ _ => Confined.pure trivial
  | getFile fileId => exact getFile_within.bind fun _ _ => Confined.pure trivial
  | deleteFile fileId => exact deleteFile_within.bind fun _ _ => Confined.pure trivial

/-! ## The ownership of the rows in every reachable state -/

/-- The ids are issued as they were drawn. -/
def Extends (owner : Issuance) (drawn : OrderedMap String String) : Prop :=
  ∀ id user, drawn.get id = some user → owner id = some user

/-- The rows belong to the users for whom their ids were drawn, and every call stays with its user. -/
structure Isolated (owner : Issuance) (s : System) : Prop where
  owned : Owned owner s.store
  calls : ∀ k running, s.calls k = some running → Within owner running.user running.rest fun _ => True

theorem isolated_update {running : Running} {k : Nat} {store : Store} {drawn : OrderedMap String String}
    (h : Isolated owner s) (howned : Owned owner store)
    (hrest : Within owner running.user running.rest fun _ => True) :
    Isolated owner ⟨store, drawn, Function.update s.calls k (some running)⟩ where
  owned := howned
  calls j other hother := by
    by_cases hj : j = k
    · subst hj
      simp only [Function.update_self, Option.some.injEq] at hother
      exact hother ▸ hrest
    · dsimp only at hother
      rw [Function.update_of_ne hj] at hother
      exact h.calls j other hother

theorem isolated_store {store : Store} (h : Isolated owner s) (howned : Owned owner store) :
    Isolated owner { s with store } := ⟨howned, h.calls⟩

theorem isolated_execute {α : Type} {statement : Statement α} (h : Isolated owner s)
    (hstatement : ∀ a store, statement s.store = .ok (a, store) → Owned owner store) :
    Isolated owner (s.execute statement) := by
  unfold System.execute
  cases hresult : statement s.store with
  | error failure => exact h
  | ok result => exact isolated_store h (hstatement result.1 result.2 hresult)

theorem isolated_for {α : Type} {statement : Statement α} {post : α → Prop} (h : Isolated owner s)
    (hfor : For owner v statement post) : Isolated owner (s.execute statement) :=
  isolated_execute h fun a store hresult => (hfor.sound s.store a store h.owned hresult).1.inv

theorem stays_workerWrite (write : WorkerWrite) : Stays write.data := by
  cases write with
  | dispatch runId streamUrl startedAt =>
    constructor <;> intro row <;> unfold WorkerWrite.data <;> dsimp only <;> split <;> rfl
  | _ => constructor <;> intro row <;> rfl

theorem isolated_updateTask (h : Isolated owner s) (taskId : String) (now : Nat) (write : WorkerWrite) :
    Isolated owner (s.execute (updateTask taskId now write.data)) := by
  cases hget : s.store.tasks.get taskId with
  | some row => exact isolated_for h (updateTask_for (h.owned.tasks taskId row hget).user (stays_workerWrite write))
  | none =>
    apply isolated_execute h
    intro a store hresult
    unfold updateTask attempt at hresult
    dsimp only at hresult
    rw [hget] at hresult
    cases hresult

theorem isolated_setSessionRunning (h : Isolated owner s) (sessionId : String) (now : Nat) :
    Isolated owner (s.execute (updateSession sessionId now fun row => { row with status := .running })) := by
  cases hget : s.store.sessions.get sessionId with
  | some row =>
    have hdata : ∀ row : AppSession, ({ row with status := .running } : AppSession).id = row.id ∧
        ({ row with status := .running } : AppSession).userId = row.userId := fun _ => ⟨rfl, rfl⟩
    exact isolated_for h (updateSession_for (h.owned.sessions sessionId row hget).user hdata)
  | none =>
    apply isolated_execute h
    intro a store hresult
    unfold updateSession attempt at hresult
    dsimp only at hresult
    rw [hget] at hresult
    cases hresult

theorem owned_createArtifact {row : ResultArtifact} {store store' : Store} (h : Owned owner store)
    (hresult : row.resultId = none) {task : TaskRow} (htask : store.tasks.get row.taskId = some task)
    (huser : task.userId = row.userId) (hcreate : createArtifact row store = .ok ((), store')) :
    Owned owner store' := by
  unfold createArtifact insertion at hcreate
  split at hcreate
  · split at hcreate
    · cases hcreate
      refine { h with artifacts := fun old hold => ?_, references := fun taskId hmem => ?_ }
      · rcases List.mem_append.mp hold with hold | hnew
        · exact h.artifacts old hold
        · rw [List.mem_singleton.mp hnew]
          refine ⟨(h.tasks _ task htask).user.trans (congrArg some huser), fun resultId hid => ?_⟩
          rw [hresult] at hid
          cases hid
      · simp only [references, List.map_append, List.mem_append] at hmem
        rcases hmem with (hmem | hmem | hnew) | hmem
        · exact h.references taskId (List.mem_append_left _ (List.mem_append_left _ (List.mem_append.mpr hmem)))
        · exact h.references taskId (List.mem_append_left _ (List.mem_append_right _ hmem))
        · rw [List.mem_singleton.mp hnew]
          exact Option.isSome_iff_exists.mpr ⟨task, htask⟩
        · exact h.references taskId (List.mem_append_right _ hmem)
    · cases hcreate
  · cases hcreate

theorem owned_deleteArtifact {artifactId : String} {store store' : Store} (h : Owned owner store)
    (hdelete : deleteArtifact artifactId store = .ok ((), store')) : Owned owner store' := by
  cases hdelete
  refine { h with
    artifacts := fun row hrow => h.artifacts row (List.mem_of_mem_filter hrow)
    references := fun taskId hmem => h.references taskId ?_ }
  simp only [references, List.mem_append] at hmem ⊢
  rcases hmem with (hmem | hmem) | hmem
  · exact .inl (.inl hmem)
  · obtain ⟨row, hrow, rfl⟩ := List.mem_map.mp hmem
    exact .inl (.inr (List.mem_map_of_mem (List.mem_of_mem_filter hrow)))
  · exact .inr hmem

theorem set_extends {id user : String} (hfresh : s.drawn.get id = none)
    (hext : Extends owner (s.drawn.set id user)) : Extends owner s.drawn ∧ owner id = some user := by
  refine ⟨fun old w hold => hext old w ?_, hext id user (OrderedMap.get_set_same _ _ _)⟩
  rw [OrderedMap.get_set_other]
  · exact hold
  · intro heq
    rw [heq, hfresh] at hold
    cases hold

theorem of_fresh {id : String} (h : s.fresh id = true) : s.drawn.get id = none ∧ NoSlash id := by
  simpa [System.fresh, NoSlash] using h

theorem draw_extends {user : String} {r : Request} {reply : Reply r} (h : s.draw user r reply = some s')
    (hext : Extends owner s'.drawn) : Extends owner s.drawn ∧ Admits owner user r reply ∧
      s'.store = s.store ∧ s'.calls = s.calls := by
  cases r with
  | newId =>
    simp only [System.draw] at h
    split at h
    · rename_i hfresh
      cases h
      obtain ⟨hold, hid⟩ := set_extends (of_fresh hfresh).1 hext
      exact ⟨hold, ⟨hid, (of_fresh hfresh).2⟩, rfl, rfl⟩
    · cases h
  | _ =>
    cases h
    exact ⟨hext, trivial, rfl, rfl⟩

theorem advance_drawn {k : Nat} (h : s.advance k = some s') : s'.drawn = s.drawn := by
  unfold System.advance at h
  split at h
  · split at h <;> cases h <;> rfl
  · cases h

theorem advance_isolated {k : Nat} (h : s.advance k = some s') (hs : Isolated owner s) : Isolated owner s' := by
  unfold System.advance at h
  split at h
  · rename_i user β action next hcall
    obtain ⟨mid, haction, hok, herror⟩ := (hs.calls k _ hcall).act_inv
    cases hresult : action s.store with
    | ok result =>
      rw [hresult] at h
      cases h
      obtain ⟨hkept, hmid⟩ := haction.sound s.store result.1 result.2 hs.owned hresult
      exact isolated_update hs hkept.inv (hok result.1 hmid)
    | error failure =>
      rw [hresult] at h
      cases h
      exact isolated_update hs hs.owned (herror failure)
  · cases h

theorem answer_isolated {k : Nat} {r : Request} {reply : Reply r} (h : s.answer k r reply = some s')
    (hs : ∀ owner, Extends owner s.drawn → Isolated owner s) (hext : Extends owner s'.drawn) :
    Isolated owner s' := by
  unfold System.answer at h
  split at h
  · rename_i user r' next hcall
    split at h
    · rename_i hr
      subst hr
      obtain ⟨drawn, hdraw, h⟩ := Option.bind_eq_some_iff.mp h
      cases h
      obtain ⟨hold, hadmits, hstore, hcalls⟩ := draw_extends hdraw hext
      have hisolated := hs owner hold
      have hrest := (hisolated.calls k _ hcall).ask_inv hadmits
      rw [hcalls]
      exact isolated_update hisolated (hstore ▸ hisolated.owned) hrest
    · cases h
  · cases h

theorem persist_isolated {stored : TaskStreamEvent} {sourceEventId : Option String} {now eventId : Nat}
    {resultId : String} (h : s.persist settings stored sourceEventId now eventId resultId = some s')
    (hs : ∀ owner, Extends owner s.drawn → Isolated owner s) (hext : Extends owner s'.drawn) :
    Isolated owner s' := by
  unfold System.persist at h
  split at h
  · cases h
    exact hs owner hext
  · rename_i task htask
    split at h
    · rename_i hfresh
      cases h
      have hdrawn : (({ s with drawn := s.drawn.set resultId task.userId } : System).execute
          (ServiceCalls.persistTransaction settings now resultId eventId stored sourceEventId)).drawn =
          s.drawn.set resultId task.userId := by
        unfold System.execute
        split <;> rfl
      rw [hdrawn] at hext
      obtain ⟨hold, hresult⟩ := set_extends (of_fresh hfresh).1 hext
      have hisolated := hs owner hold
      have hid := (hisolated.owned.tasks _ task htask).user
      have hdraw : Isolated owner { s with drawn := s.drawn.set resultId task.userId } :=
        ⟨hisolated.owned, hisolated.calls⟩
      exact isolated_for hdraw (persistTransaction_for now eventId hid hresult)
    · cases h

theorem execute_drawn {α : Type} (s : System) (statement : Statement α) :
    (s.execute statement).drawn = s.drawn := by
  unfold System.execute
  split <;> rfl

theorem step_isolated {l : Label} (h : step settings s l = some s')
    (hs : ∀ owner, Extends owner s.drawn → Isolated owner s) :
    ∀ owner, Extends owner s'.drawn → Isolated owner s' := by
  intro owner hext
  cases l with
  | register user =>
    simp only [step] at h
    split at h
    · cases h
    · rename_i hnamed
      cases h
      have howned := (hs owner hext).owned
      refine isolated_store (hs owner hext) { howned with users := fun hmem => ?_ }
      rcases List.mem_append.mp hmem with hmem | hmem
      · exact howned.users hmem
      · exact hnamed (List.mem_singleton.mp hmem).symm
  | call k user operation =>
    simp only [step] at h
    split at h
    · cases h
      exact isolated_update (hs owner hext) (hs owner hext).owned (call_within operation)
    · cases h
  | advance k =>
    exact advance_isolated h (hs owner (advance_drawn h ▸ hext))
  | answer k r reply => exact answer_isolated h hs hext
  | updateTask taskId now write =>
    cases h
    rw [execute_drawn] at hext
    exact isolated_updateTask (hs owner hext) taskId now write
  | setSessionRunning sessionId now =>
    cases h
    rw [execute_drawn] at hext
    exact isolated_setSessionRunning (hs owner hext) sessionId now
  | persist stored sourceEventId now eventId resultId => exact persist_isolated h hs hext
  | publish published =>
    simp only [step] at h
    split at h
    · rename_i hissued
      cases h
      rw [execute_drawn] at hext
      obtain ⟨user, huser⟩ := Option.isSome_iff_exists.mp hissued
      exact isolated_for (hs owner hext) (publish_for (hext _ user huser))
    · cases h
  | archive row =>
    simp only [step] at h
    split at h
    · rename_i hrow
      cases h
      rw [execute_drawn] at hext
      obtain ⟨task, htask, huser⟩ := (Option.any_eq_true ..).mp hrow.2
      apply isolated_execute (hs owner hext)
      intro _ store hcreate
      exact owned_createArtifact (hs owner hext).owned hrow.1 htask (of_decide_eq_true huser) hcreate
    · cases h
  | deleteFile fileId =>
    cases h
    rw [execute_drawn] at hext
    apply isolated_execute (hs owner hext)
    intro _ store hdelete
    unfold ServiceStore.deleteFile attempt at hdelete
    dsimp only at hdelete
    split at hdelete
    · rename_i found hfound
      split at hfound
      · cases hfound
        cases hdelete
        exact owned_deleteFile (hs owner hext).owned
      · cases hfound
    · cases hdelete
  | deleteArtifact artifactId =>
    cases h
    rw [execute_drawn] at hext
    exact isolated_execute (hs owner hext) fun _ store hdelete =>
      owned_deleteArtifact (hs owner hext).owned hdelete
  | hear i =>
    cases h
    have howned := (hs owner hext).owned
    exact isolated_store (hs owner hext) { howned with
      channel := fun published hmem => howned.channel published (List.mem_of_mem_eraseIdx hmem) }
  | wait ms =>
    cases h
    have howned := (hs owner hext).owned
    exact isolated_store (hs owner hext) { howned with }

theorem isolated_init : Isolated owner .init where
  owned := owned_empty owner
  calls k running h := by cases h

theorem runLabels_isolated {labels : List Label} (h : runLabels settings s labels = some s')
    (hs : ∀ owner, Extends owner s.drawn → Isolated owner s) :
    ∀ owner, Extends owner s'.drawn → Isolated owner s' := by
  induction labels generalizing s with
  | nil =>
    cases h
    exact hs
  | cons l ls ih =>
    obtain ⟨s₁, hstep, hrest⟩ := Option.bind_eq_some_iff.mp h
    exact ih hrest (step_isolated hstep hs)

/-- In every reachable state the rows belong to the users for whom their ids were drawn. -/
theorem reachable_isolated (h : Reachable settings s) (hext : Extends owner s.drawn) : Isolated owner s := by
  obtain ⟨labels, hrun⟩ := h
  exact runLabels_isolated hrun (fun _ _ => isolated_init) owner hext

/-! ## Isolation -/

/-- The task belongs to the user. -/
def ownsTask (store : Store) (u taskId : String) : Bool :=
  (store.tasks.get taskId).any fun row => row.userId = u

/-- The rows of a user, by the columns that say whose they are; what is under way in the hub belongs to
the user for whom the id of its task was drawn. -/
def ownRows (drawn : OrderedMap String String) (u : String) (store : Store) : Store where
  users := store.users.filter fun user => user = u
  userSettings := store.userSettings.filter fun row => row.userId = u
  sessions := store.sessions.filter fun row => row.userId = u
  tasks := store.tasks.filter fun row => row.userId = u
  files := store.files.filter fun row => row.userId = u
  taskFiles := store.taskFiles.filter fun link => ownsTask store u link.taskId
  taskResults := store.taskResults.filter fun row => ownsTask store u row.taskId
  resultArtifacts := store.resultArtifacts.filter fun row => row.userId = u
  taskEvents := store.taskEvents.filter fun row => ownsTask store u row.taskId
  redis := { store.redis with counters := store.redis.counters.restrict fun key => key.1 = u }
  channel := store.channel.filter fun published => drawn.get published.event.taskId = some u

/-- Ids that were issued for a user are those that were drawn for the user. -/
def Agrees (owner : Issuance) (drawn : OrderedMap String String) (u : String) (store : Store) : Prop :=
  ∀ published ∈ store.channel,
    drawn.get published.event.taskId = some u ↔ owner published.event.taskId = some u

theorem ownRows_eq {drawn : OrderedMap String String} {store : Store} (h : Owned owner store)
    (hagrees : Agrees owner drawn u store) : ownRows drawn u store = rowsOf owner u store := by
  have hmine : ∀ {id user : String}, owner id = some user → mine owner u id = decide (user = u) := by
    intro id user hid
    rw [mine, hid]
    exact decide_eq_decide.mpr ⟨Option.some.inj, congrArg some⟩
  have howns : ∀ taskId ∈ references store, ownsTask store u taskId = mine owner u taskId := by
    intro taskId hmem
    obtain ⟨row, hrow⟩ := Option.isSome_iff_exists.mp (h.references taskId hmem)
    rw [ownsTask, hrow, hmine (h.tasks taskId row hrow).user]
    rfl
  have hsettings := store.userSettings.restrict_eq_filter (fun user => user = u)
    (q := fun row => row.userId = u) fun user row hrow => by rw [h.userSettings user row hrow]
  have hsessions := store.sessions.restrict_eq_filter (mine owner u) (q := fun row => row.userId = u)
    fun id row hrow => hmine (h.sessions id row hrow).user
  have htasks := store.tasks.restrict_eq_filter (mine owner u) (q := fun row => row.userId = u)
    fun id row hrow => hmine (h.tasks id row hrow).user
  have hfiles := store.files.restrict_eq_filter (mine owner u) (q := fun row => row.userId = u)
    fun id row hrow => hmine (h.files id row hrow).user
  apply Store.ext
  · rfl
  · exact hsettings.symm
  · exact hsessions.symm
  · exact htasks.symm
  · exact hfiles.symm
  · apply List.filter_congr
    intro link hlink
    exact howns _ (by simp [references, List.mem_map_of_mem hlink])
  · apply List.filter_congr
    intro row hrow
    apply howns
    simp only [references, List.mem_append]
    exact .inl (.inl (.inr (List.mem_map_of_mem hrow)))
  · apply List.filter_congr
    intro row hrow
    rw [hmine (h.artifacts row hrow).user]
  · apply List.filter_congr
    intro row hrow
    exact howns _ (by simp [references, List.mem_map_of_mem hrow])
  · rfl
  · apply List.filter_congr
    intro published hmem
    exact decide_eq_decide.mpr (hagrees published hmem)

/-- The replies of the world to a call; its new ids are fresh. -/
def FreshReplies (s : System) (env : Nat → (r : Request) → Reply r) : Prop :=
  ∀ n, s.fresh (env n .newId) = true

open Classical in
/-- The ids as they were drawn, and those that a call of `v` is going to draw. -/
noncomputable def issue (s : System) (v : String) (env : Nat → (r : Request) → Reply r) : Issuance := fun id =>
  (s.drawn.get id).or (if ∃ n, env n .newId = id then some v else none)

section Issue

variable {env : Nat → (r : Request) → Reply r}

theorem issue_extends (v : String) (env : Nat → (r : Request) → Reply r) : Extends (issue s v env) s.drawn := by
  intro id user hid
  rw [issue, hid]
  rfl

theorem issue_other {id : String} (hu : u ≠ v) : s.drawn.get id = some u ↔ issue s v env id = some u := by
  constructor
  · exact issue_extends v env id u
  · intro hid
    unfold issue at hid
    cases hdrawn : s.drawn.get id with
    | some user =>
      rw [hdrawn] at hid
      exact hid
    | none =>
      rw [hdrawn, Option.none_or] at hid
      split at hid
      · exact absurd (Option.some.inj hid).symm hu
      · cases hid

theorem issue_admits (h : FreshReplies s env) : ∀ n r, Admits (issue s v env) v r (env n r) := by
  intro n r
  cases r with
  | newId =>
    obtain ⟨hnone, hslash⟩ := of_fresh (h n)
    refine ⟨?_, hslash⟩
    change (s.drawn.get (env n .newId)).or _ = some v
    rw [hnone, if_pos ⟨n, rfl⟩]
    rfl
  | _ => trivial

/-- What is under way in the hub is about tasks whose ids were drawn. -/
theorem issue_agrees (h : Reachable settings s) : Agrees (issue s v env) s.drawn v s.store := by
  have hdrawn : Owned (fun id => s.drawn.get id) s.store := (reachable_isolated h fun _ _ hid => hid).owned
  intro published hmem
  obtain ⟨user, huser⟩ := Option.isSome_iff_exists.mp (hdrawn.channel published hmem)
  have hissued := issue_extends (s := s) v env _ user huser
  rw [huser, hissued]

end Issue

/-- In every reachable state, a call of `v` leaves the rows of every other user as they are, and its answer
is the same in every reachable state that agrees on the rows of `v`. -/
theorem tenant_isolation (h : Reachable settings s) (v : String) (operation : Operation)
    (env : Nat → (r : Request) → Reply r) (henv : FreshReplies s env) :
    (∀ u, u ≠ v → ownRows s.drawn u ((operation.call settings v).run env 0 s.store).2 =
      ownRows s.drawn u s.store) ∧
    ∀ s', Reachable settings s' → FreshReplies s' env →
      ownRows s'.drawn v s'.store = ownRows s.drawn v s.store →
      ((operation.call settings v).run env 0 s'.store).1 = ((operation.call settings v).run env 0 s.store).1 := by
  constructor
  · intro u hu
    have howned := (reachable_isolated h (issue_extends v env)).owned
    obtain ⟨-, hkept⟩ := (call_within operation : Within _ v (operation.call settings v) _).run_spec
      (issue_admits henv) howned 0
    rw [ownRows_eq hkept.inv fun _ _ => issue_other hu, ownRows_eq howned fun _ _ => issue_other hu]
    exact hkept.others u hu
  · intro s' h' henv' hrows
    have hview : ∀ {s : System}, Reachable settings s → FreshReplies s env →
        ((operation.call settings v).run env 0 (ownRows s.drawn v s.store)).1 =
          ((operation.call settings v).run env 0 s.store).1 := by
      intro s h henv
      have howned := (reachable_isolated h (issue_extends v env)).owned
      rw [ownRows_eq howned (issue_agrees h)]
      exact (call_within operation).response_view (issue_admits henv) howned 0
    rw [← hview h' henv', hrows, hview h henv]

/-- Settings with a schema library that accepts every URL. -/
def exampleSettings : ServiceSettings where
  concurrentLimit := 3
  isUrl := fun _ => true
  dailyLimit := 50
  unreferencedFileRetentionHours := 24
  staleUploadRetentionHours := 1
  userStorageBytes := 1000
  maxUploadBytes := 100
  adapterConfigured := true
  jsonParse := fun _ => none
  jsonStringify := fun _ => "null"
  base64urlEncode := id
  base64urlDecode := id
  parseDate := fun _ => none
  textLt := fun a b => decide (a < b)
  containsInsensitive := ServiceCalls.includes
  prismaMessage := id
  zodMessage := ""

/-- Two users are registered. -/
def twoUsers : List Label := [.register "u", .register "v"]

/-- A task of `u` is committed. -/
def foreignTask : List Label := twoUsers ++
  [.call 0 "u" (.createTask ⟨"weekly report", [], none, none⟩), .advance 0, .advance 0,
    .answer 0 .now (0 : Nat), .answer 0 (.evalScript "u") ScriptReply.ran, .advance 0,
    .answer 0 .newId "s", .answer 0 .newId "t", .answer 0 .now (0 : Nat), .advance 0]

/-- What the world tells a call in the examples. -/
def exampleReplies (_ : Nat) : (r : Request) → Reply r
  | .now | .newEventId => (0 : Nat)
  | .newId => "id"
  | .evalScript _ => ScriptReply.ran
  | .cancelExecution _ => CancelReply.cancelled
  | .enqueueJob _ | .createUploadUrl _ _ _ | .createDownloadUrl _ => (.ok "" : Except Failure String)
  | .inspectObject _ => (.error (.error "") : Except Failure StoredObject)
  | .cancelJob _ | .deleteObject _ => (.ok () : Except Failure Unit)

/-- The answer of `getTask` for a task of another user is the same as where there is no such task. -/
theorem tenant_isolation_foreignTask :
    let s := (runLabels exampleSettings .init foreignTask).get (by decide +kernel)
    let s' := (runLabels exampleSettings .init twoUsers).get (by decide +kernel)
    (s.store.tasks.get "t").isSome = true ∧
    ownRows s.drawn "u" (((Operation.getTask "t").call exampleSettings "v").run exampleReplies 0 s.store).2 =
      ownRows s.drawn "u" s.store ∧
    (((Operation.getTask "t").call exampleSettings "v").run exampleReplies 0 s'.store).1 =
      (((Operation.getTask "t").call exampleSettings "v").run exampleReplies 0 s.store).1 := by
  intro s s'
  have h : Reachable exampleSettings s := ⟨foreignTask, (Option.some_get _).symm⟩
  have h' : Reachable exampleSettings s' := ⟨twoUsers, (Option.some_get _).symm⟩
  have hfresh : s.fresh "id" = true := by decide +kernel
  have hfresh' : s'.fresh "id" = true := by decide +kernel
  have hisolated := tenant_isolation h "v" (.getTask "t") exampleReplies fun _ => hfresh
  refine ⟨by decide +kernel, hisolated.1 "u" (by decide), hisolated.2 s' h' (fun _ => hfresh') ?_⟩
  rfl

end TenantIsolation
