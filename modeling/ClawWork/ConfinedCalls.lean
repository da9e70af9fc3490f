import ClawWork.RowStatements
import ClawWork.ServiceCalls

/-!
# The calls stay with their user

Every operation of the service, called for a user, is confined to the rows of that
user, whatever the queue, the adapter and the storage reply; of the ids it draws it
is assumed that they are issued for the user.
-/

namespace ConfinedCalls

open JavaScript SharedTypes TaskStore TasksService ServiceTables DailyQuota EnqueueTask FileCalls StorageQuota
  Isolation ServiceStore RowOwnership RowStatements ServiceCalls
open PersistCalls (PersistedTaskEvent)

/-- The replies that a call of a user may get; new ids are issued for the user. -/
def Admits (owner : Issuance) (v : String) : (r : Request) → Reply r → Prop
  | .newId, id => owner id = some v ∧ NoSlash id
  | _, _ => True

/-- A call that is confined to the rows of a user. -/
abbrev Within {α : Type} (owner : Issuance) (v : String) (call : Call α) (post : α → Prop) : Prop :=
  Confined (division owner) v (Admits owner v) post call

variable {owner : Issuance} {v id : String} {settings : ServiceSettings}

/-! ## Queries and requests -/

theorem query_within {α : Type} {q : Store → α} (post : α → Prop)
    (hview : ∀ s, Owned owner s → q (rowsOf owner v s) = q s) (hpost : ∀ s, Owned owner s → post (q s)) :
    Within owner v (query q) post :=
  .exec (.read post hview hpost)

theorem look_within {α : Type} {q : Store → α}
    (hview : ∀ s, Owned owner s → q (rowsOf owner v s) = q s) : Within owner v (query q) fun _ => True :=
  .exec (.look hview)

theorem findTask_within (id : String) : Within owner v (query fun s => s.findTask v id) fun found =>
    ∀ task, found = some task → TaskOwned owner id task ∧ task.userId = v :=
  query_within _ (fun _ hs => findTask_rowsOf hs) fun _ hs _ hfound => of_findTask hs hfound

theorem now_within : Within owner v now fun _ => True := .request Request.now

theorem newId_within : Within owner v newId fun id => owner id = some v ∧ NoSlash id :=
  .request Request.newId

theorem newEventId_within : Within owner v newEventId fun _ => True := .request Request.newEventId

theorem settle_within {α : Type} (outcome : Except Failure α) :
    Within owner v (settle outcome) fun _ => True := by
  cases outcome with
  | ok a => exact Confined.pure (a := a) trivial
  | error failure => exact Confined.throw failure

theorem createDownloadUrl_within (key : String) : Within owner v (createDownloadUrl key) fun _ => True :=
  .bind (.request _) fun reply _ => settle_within reply

theorem inspectObject_within (key : String) : Within owner v (inspectObject key) fun _ => True :=
  .bind (.request _) fun reply _ => settle_within reply

theorem deleteObject_within (key : String) : Within owner v (deleteObject key) fun _ => True :=
  .bind (.request _) fun reply _ => settle_within reply

theorem signUpload_within (key mimeType : String) (sizeBytes : Nat) :
    Within owner v (signUpload key mimeType sizeBytes) fun _ => True :=
  .bind (.request _) fun reply _ => settle_within reply

theorem enqueueJob_within (taskId : String) : Within owner v (enqueueJob taskId) fun _ => True :=
  .bind (.request _) fun reply _ => settle_within reply

theorem cancelJob_within (taskId : String) : Within owner v (cancelJob taskId) fun _ => True :=
  .bind (.request _) fun reply _ => settle_within reply

theorem evalScript_within {α : Type} {script : Statement α} {post : α → Prop} (userId : String)
    (h : For owner v script post) : Within owner v (evalScript userId script) post := by
  apply Confined.bind (.request _)
  intro reply _
  cases reply with
  | ran => exact .exec h
  | lost failure => exact .bind (.exec h) fun _ _ => .throw failure
  | failed failure => exact .throw failure

theorem reserveDailyTask_within : Within owner v (reserveDailyTask settings v) fun _ => True := by
  apply Confined.bind now_within
  intro clock _
  apply Confined.bind (evalScript_within v (reserveScript_for _ clock))
  exact fun _ _ => Confined.require.mono fun _ _ => trivial

theorem releaseDailyTask_within : Within owner v (releaseDailyTask v) fun _ => True :=
  .bind now_within fun clock _ => evalScript_within v (releaseScript_for clock)

theorem requestGatewayCancellation_within (taskId : String) :
    Within owner v (requestGatewayCancellation settings taskId) fun _ => True := by
  apply Confined.bind Confined.require
  intro _ _
  apply Confined.bind (.request _)
  intro reply _
  cases reply with
  | cancelled => exact Confined.pure (a := ()) trivial
  | refused message => exact .throw _
  | failed failure => exact .throw failure

/-! ## Events -/

theorem stays_taskUpdate (now : String) (task : Task) (stored : TaskStreamEvent) :
    Stays (taskUpdate now task stored) := by
  constructor <;> intro row <;> unfold taskUpdate <;> split <;> rfl

theorem sessionUpdate_stays (task : Task) (stored : TaskStreamEvent) (row : AppSession) :
    (sessionUpdate task stored row).id = row.id ∧ (sessionUpdate task stored row).userId = row.userId := by
  unfold sessionUpdate
  split <;> exact ⟨rfl, rfl⟩

section Event

variable {task : TaskRow} {stored : TaskStreamEvent} {resultId : String}

theorem updateBoth_for (now : Nat) (htask : TaskOwned owner id task) (huser : task.userId = v) :
    For owner v (do
      updateTask task.id now (taskUpdate (toISOString now) task.toTask stored)
      updateSession task.sessionId now (sessionUpdate task.toTask stored)) fun _ => True := by
  have hid : owner task.id = some v := by rw [htask.key, htask.user, huser]
  have hsession : owner task.sessionId = some v := by rw [htask.session, huser]
  exact .bind (updateTask_for hid (stays_taskUpdate _ _ _)) fun _ _ =>
    updateSession_for hsession (sessionUpdate_stays _ _)

theorem completeTask_for (now : Nat) (htask : TaskOwned owner id task) (huser : task.userId = v)
    (hresult : owner resultId = some v) :
    For owner v (ServiceCalls.completeTask settings now resultId task stored) fun _ => True := by
  have hid : owner task.id = some v := by rw [htask.key, htask.user, huser]
  have hsession : owner task.sessionId = some v := by rw [htask.session, huser]
  apply Local.bind (.look (fun _ _ => eventsOf_rowsOf hid))
  intro rows _
  apply Local.bind Local.orThrow
  intro events _
  apply Local.bind (.look (fun _ hs => latestVersion_rowsOf hs hsession))
  intro version _
  apply Local.bind (createResult_for hresult hid hsession)
  intro _ _
  apply Local.bind (linkArtifacts_for hid hresult)
  exact fun _ _ => updateBoth_for now htask huser

theorem projectEvent_for (now : Nat) (htask : TaskOwned owner id task) (huser : task.userId = v)
    (hresult : owner resultId = some v) :
    For owner v (ServiceCalls.projectEvent settings now resultId task stored) fun _ => True := by
  have hid : owner task.id = some v := by rw [htask.key, htask.user, huser]
  unfold ServiceCalls.projectEvent
  split
  · exact updateTask_for hid (stays_taskUpdate _ _ _)
  · exact updateBoth_for now htask huser
  · exact updateBoth_for now htask huser
  · exact completeTask_for now htask huser hresult
  · exact Local.pure (a := ()) trivial
  · exact Local.pure (a := ()) trivial
  · exact Local.pure (a := ()) trivial

theorem persistTransaction_for {sourceEventId : Option String} (now eventId : Nat)
    (hid : owner stored.taskId = some v) (hresult : owner resultId = some v) :
    For owner v (ServiceCalls.persistTransaction settings now resultId eventId stored sourceEventId) fun _ => True := by
  apply Local.bind (.read (fun found => ∀ task, found = some task →
    TaskOwned owner stored.taskId task ∧ task.userId = v) (fun _ _ => rowsOf_task hid) ?_)
  · intro found hfound
    cases found with
    | none => exact Local.pure (a := none) trivial
    | some task =>
      obtain ⟨htask, huser⟩ := hfound task rfl
      dsimp only
      split
      · exact Local.pure (a := none) trivial
      · apply Local.bind (.look ?_)
        · intro existing _
          split
          · exact Local.pure (a := none) trivial
          · apply Local.bind (createEvent_for hid ⟨stored, rfl, rfl⟩)
            intro _ _
            apply Local.bind (projectEvent_for now htask huser hresult)
            exact fun _ _ => Local.pure (a := some eventId) trivial
        · intro s _
          cases truthy sourceEventId with
          | none => rfl
          | some source => exact hasSourceEvent_rowsOf hid
  · intro s hs task htask
    have howned := hs.tasks _ task htask
    exact ⟨howned, Option.some.inj (howned.user.symm.trans hid)⟩

theorem persistTaskEvent_within {event : TaskStreamEvent} (hid : owner event.taskId = some v) :
    Within owner v (persistTaskEvent settings event) fun _ => True := by
  apply Confined.bind Confined.orThrow
  intro prepared hprepared
  obtain ⟨hstored, hpublished⟩ := prepareTaskEvent_taskId hprepared
  apply Confined.bind now_within
  intro clock _
  apply Confined.bind newId_within
  intro resultId hresult
  apply Confined.bind newEventId_within
  intro eventId _
  apply Confined.bind (.exec (persistTransaction_for clock eventId (hstored ▸ hid) hresult.1))
  intro persisted _
  cases persisted with
  | none => exact Confined.pure (a := ()) trivial
  | some eventId => exact .exec (publish_for (by rw [hpublished, hid]))

theorem failTask_within (code message : String) (hid : owner id = some v) :
    Within owner v (failTask settings id code message) fun _ => True := by
  apply Confined.bind (query_within (fun found => ∀ task, found = some task → task.id = id)
    (fun _ _ => rowsOf_task hid) fun s hs task htask => (hs.tasks id task htask).key)
  intro found hfound
  cases found with
  | none => exact Confined.pure (a := ()) trivial
  | some task =>
    dsimp only
    split
    · exact Confined.pure (a := ()) trivial
    · apply Confined.bind now_within
      intro clock _
      apply persistTaskEvent_within
      change owner task.id = some v
      rw [hfound task rfl, hid]

end Event

/-! ## Creation -/

section Creation

variable {options : EnqueueOptions} {new : TaskRow} {session : SessionRow} {fileIds : List String}

theorem sessionForTask_for (hsession : SessionOwned owner session.id session) (huser : session.userId = v) :
    For owner v (ServiceCalls.sessionForTask v options session) fun sessionId => owner sessionId = some v := by
  unfold ServiceCalls.sessionForTask
  split
  · rename_i sessionId _
    apply Local.bind (.read (fun found => ∀ row, found = some row →
      SessionOwned owner sessionId row ∧ row.userId = v) (fun _ hs => findSession_rowsOf hs)
      fun _ hs _ hfound => of_findSession hs hfound)
    intro found hfound
    apply Local.bind Local.orThrow
    intro row hrow
    obtain ⟨howned, hrowUser⟩ := hfound row hrow
    exact Local.pure (by rw [howned.key, howned.user, hrowUser])
  · apply Local.bind (createSession_for hsession huser)
    exact fun _ _ => Local.pure (huser ▸ hsession.user)

theorem enqueueTransaction_for (hsession : SessionOwned owner session.id session) (hsessionUser : session.userId = v)
    (hid : owner new.id = some v) (huser : new.userId = v)
    (hparent : ∀ parent, new.parentTaskId = some parent → owner parent = some v)
    (hfiles : ∀ fileId ∈ fileIds, owner fileId = some v) :
    For owner v (ServiceCalls.enqueueTransaction settings v options session new fileIds)
      fun task => owner task.id = some v := by
  apply Local.bind (.look (fun _ hs => activeTasks_rowsOf hs))
  intro active _
  apply Local.bind Local.require
  intro _ _
  apply Local.bind (sessionForTask_for hsession hsessionUser)
  intro sessionId hsessionId
  have hnew : NewTaskOwned owner v { new with toTask := { new.toTask with sessionId } } :=
    ⟨huser, hid, hsessionId, hparent⟩
  apply Local.bind (createTask_for hnew hfiles)
  intro _ _
  have hqueue : ∀ row : AppSession,
      (queueSession { new.toTask with sessionId } row).id = row.id ∧
        (queueSession { new.toTask with sessionId } row).userId = row.userId := fun _ => ⟨rfl, rfl⟩
  apply Local.bind (updateSession_for hsessionId hqueue)
  exact fun _ _ => Local.pure hid

theorem queueTask_within {task : TaskRow} (hid : owner task.id = some v) :
    Within owner v (queueTask settings task) fun _ => True := by
  apply Confined.recover
  · apply Confined.bind (enqueueJob_within task.id)
    intro jobId _
    apply Confined.bind now_within
    intro clock _
    have hstays : Stays fun row : Task => { row with queueJobId := some jobId } :=
      ⟨fun _ => rfl, fun _ => rfl, fun _ => rfl, fun _ => rfl⟩
    apply Confined.bind (.exec (updateTask_for hid hstays))
    exact fun _ _ => Confined.pure trivial
  · intro failure
    apply Confined.bind (failTask_within _ _ hid)
    exact fun _ _ => Confined.pure trivial

theorem commitTask_within (hsession : SessionOwned owner session.id session) (hsessionUser : session.userId = v)
    (hid : owner new.id = some v) (huser : new.userId = v)
    (hparent : ∀ parent, new.parentTaskId = some parent → owner parent = some v)
    (hfiles : ∀ fileId ∈ fileIds, owner fileId = some v) :
    Within owner v (commitTask settings v options session new fileIds) fun task => owner task.id = some v := by
  apply Confined.recover
  · exact .exec (enqueueTransaction_for hsession hsessionUser hid huser hparent hfiles)
  · intro failure
    apply Confined.bind releaseDailyTask_within
    exact fun _ _ => Confined.throw failure

theorem enqueueTask_within {input : ServiceCalls.CreateTask}
    (hparent : ∀ parent, options.parentTaskId = some parent → owner parent = some v) :
    Within owner v (enqueueTask settings v input options) fun _ => True := by
  apply Confined.bind (.exec upsertSettings_for)
  intro defaults _
  apply Confined.bind (query_within (fun files => ∀ file ∈ files, owner file.id = some v)
    (fun _ hs => uploadedFiles_rowsOf hs) fun _ hs _ hmem => of_mem_uploadedFiles hs hmem)
  intro files hfiles
  apply Confined.bind Confined.require
  intro _ _
  apply Confined.bind reserveDailyTask_within
  intro _ _
  apply Confined.bind newId_within
  intro sessionId hsession
  apply Confined.bind newId_within
  intro taskId htask
  apply Confined.bind now_within
  intro clock _
  have hsessionOwned : SessionOwned owner (newSessionRow v sessionId input clock).id
      (newSessionRow v sessionId input clock) := ⟨rfl, hsession.1⟩
  have hfileIds : ∀ fileId ∈ files.map File.id, owner fileId = some v := by
    intro fileId hmem
    obtain ⟨file, hfile, rfl⟩ := List.mem_map.mp hmem
    exact hfiles file hfile
  have hcommit : Within owner v (commitTask settings v options (newSessionRow v sessionId input clock)
      (newTaskRow v taskId input options defaults (newSessionRow v sessionId input clock) clock)
      (files.map File.id)) fun task => owner task.id = some v :=
    commitTask_within hsessionOwned rfl htask.1 rfl hparent hfileIds
  exact Confined.bind hcommit fun task htask => queueTask_within htask

end Creation

theorem createTask_within {input : ServiceCalls.CreateTask} :
    Within owner v (ServiceCalls.createTask settings v input) fun _ => True :=
  enqueueTask_within fun parent hparent => by cases hparent

theorem createFollowUp_within {input : ServiceCalls.CreateTask} :
    Within owner v (createFollowUp settings v id input) fun _ => True := by
  apply Confined.bind (findTask_within id)
  intro found hfound
  apply Confined.bind Confined.orThrow
  intro task htask
  obtain ⟨howned, huser⟩ := hfound task htask
  apply enqueueTask_within
  intro parent hparent
  cases hparent
  rw [howned.key, howned.user, huser]

theorem regenerate_within : Within owner v (regenerate settings v id) fun _ => True := by
  apply Confined.bind (query_within (fun found => ∀ pair, found = some pair →
    TaskOwned owner id pair.1 ∧ pair.1.userId = v) ?_ ?_)
  · intro found hfound
    apply Confined.bind Confined.orThrow
    intro pair hpair
    obtain ⟨howned, huser⟩ := hfound pair hpair
    apply enqueueTask_within
    intro parent hparent
    cases hparent
    rw [howned.key, howned.user, huser]
  · intro s hs
    rw [findTask_rowsOf hs]
    cases hfind : s.findTask v id with
    | none => rfl
    | some task =>
      obtain ⟨howned, huser⟩ := of_findTask hs hfind
      rw [Option.map_some, Option.map_some, fileIdsOf_rowsOf (by rw [howned.key, howned.user, huser])]
  · intro s hs pair hpair
    obtain ⟨task, hfind, rfl⟩ := Option.map_eq_some_iff.mp hpair
    exact of_findTask hs hfind

theorem cancelTask_within : Within owner v (ServiceCalls.cancelTask settings v id) fun _ => True := by
  apply Confined.bind (findTask_within id)
  intro found hfound
  apply Confined.bind Confined.orThrow
  intro task htask
  obtain ⟨howned, huser⟩ := hfound task htask
  have hid : owner task.id = some v := by rw [howned.key, howned.user, huser]
  split
  · exact Confined.pure trivial
  · have hcancelled : ∀ _ : PUnit, True → Within owner v (do
        let clock ← now
        persistTaskEvent settings (cancelTaskEvent task.toTask (toISOString clock))
        return (⟨task.id, .cancelled⟩ : Cancelled)) fun _ => True := by
      intro _ _
      apply Confined.bind now_within
      intro clock _
      apply Confined.bind (persistTaskEvent_within hid)
      exact fun _ _ => Confined.pure trivial
    split
    · exact Confined.bind (cancelJob_within task.id) hcancelled
    · exact Confined.bind (requestGatewayCancellation_within task.id) hcancelled
    · exact hcancelled ⟨⟩ trivial
    · exact hcancelled ⟨⟩ trivial
    · exact hcancelled ⟨⟩ trivial

/-! ## Answers -/

theorem toClientResult_within (found : ResultRow × List ResultArtifact) :
    Within owner v (toClientResult settings found) fun _ => True := by
  obtain ⟨result, artifacts⟩ := found
  unfold toClientResult
  dsimp only
  split
  · apply Confined.bind (createDownloadUrl_within _)
    exact fun _ _ => Confined.pure trivial
  · exact Confined.pure trivial

theorem toClientResults_within (found : List (ResultRow × List ResultArtifact)) :
    Within owner v (Program.traverse (toClientResult settings) found) fun _ => True :=
  (Confined.traverse (fun _ => True) fun pair _ => toClientResult_within pair).mono fun _ _ => trivial

/-- The rows of a task of the user, as they are read with it. -/
theorem included_rowsOf {s : Store} (taskId : String) (hs : Owned owner s) (hid : owner taskId = some v)
    (order : List ResultRow → List ResultRow) (horder : ∀ rows, ∀ row ∈ order rows, row ∈ rows) :
    (rowsOf owner v s).withArtifacts (order ((rowsOf owner v s).resultsOf taskId)) =
        s.withArtifacts (order (s.resultsOf taskId)) ∧
      (rowsOf owner v s).filesOf taskId = s.filesOf taskId := by
  refine ⟨?_, filesOf_rowsOf hs hid⟩
  rw [resultsOf_rowsOf hid]
  apply withArtifacts_rowsOf hs
  intro row hrow
  exact owner_of_mem_resultsOf hs hid (horder _ row hrow)

theorem mem_byVersion (rows : List ResultRow) : ∀ row ∈ byVersion rows, row ∈ rows :=
  fun _ hrow => (List.mem_insertionSort _).mp hrow

theorem mem_byVersionDesc (rows : List ResultRow) : ∀ row ∈ byVersionDesc rows, row ∈ rows :=
  fun _ hrow => (List.mem_insertionSort _).mp hrow

theorem getTask_within : Within owner v (getTask settings v id) fun _ => True := by
  apply Confined.bind (look_within ?_)
  · intro found _
    apply Confined.bind Confined.orThrow
    intro found _
    apply Confined.bind (toClientResults_within found.results)
    exact fun _ _ => Confined.pure trivial
  · intro s hs
    rw [findTask_rowsOf hs]
    cases hfind : s.findTask v id with
    | none => rfl
    | some task =>
      obtain ⟨howned, huser⟩ := of_findTask hs hfind
      obtain ⟨hresults, hfiles⟩ := included_rowsOf task.id hs
        (by rw [howned.key, howned.user, huser]) byVersion mem_byVersion
      rw [Option.map_some, Option.map_some, hresults, hfiles]

theorem listHistory_within {filter : HistoryQuery} :
    Within owner v (listHistory settings v filter) fun _ => True := by
  apply Confined.bind Confined.orThrow
  intro cursor _
  apply Confined.bind (look_within ?_)
  · exact fun _ _ => Confined.pure trivial
  · intro s hs
    rw [sessionsOf_rowsOf hs]
    apply List.map_congr_left
    intro session hsession
    have hmem : session ∈ s.sessionsOf v :=
      List.mem_of_mem_filter ((List.mem_insertionSort _).mp (List.mem_of_mem_take hsession))
    obtain ⟨hvalue, huser⟩ := List.mem_filter.mp hmem
    obtain ⟨sessionId, hget⟩ := (OrderedMap.mem_values_iff _ _).mp hvalue
    have howned := hs.sessions sessionId session hget
    rw [sessionTasks_rowsOf hs (by rw [howned.key, howned.user, of_decide_eq_true huser])]

theorem historyTask_within (found : Included) : Within owner v (historyTask settings found) fun _ => True := by
  have hfirst : Within owner v (firstResult settings found.results) fun _ => True := by
    unfold firstResult
    split
    · exact Confined.pure trivial
    · apply Confined.bind (toClientResult_within _)
      exact fun _ _ => Confined.pure trivial
  apply Confined.bind hfirst
  exact fun _ _ => Confined.pure trivial

theorem getHistoryTask_within : Within owner v (getHistoryTask settings v id) fun _ => True := by
  apply Confined.bind (findTask_within id)
  intro found hfound
  apply Confined.bind Confined.orThrow
  intro task htask
  apply Confined.bind (look_within ?_)
  · intro found _
    apply Confined.bind Confined.orThrow
    intro found _
    apply Confined.bind (Confined.traverse (fun _ => True) fun task _ => historyTask_within task)
    intro tasks _
    apply Confined.bind (toClientResults_within found.results)
    exact fun _ _ => Confined.pure trivial
  · intro s hs
    rw [findSession_rowsOf hs]
    cases hfind : s.findSession v task.sessionId with
    | none => rfl
    | some session =>
      obtain ⟨howned, huser⟩ := of_findSession hs hfind
      have hsession : owner session.id = some v := by rw [howned.key, howned.user, huser]
      have hresults : (rowsOf owner v s).withArtifacts (byVersion ((rowsOf owner v s).sessionResults session.id)) =
          s.withArtifacts (byVersion (s.sessionResults session.id)) := by
        rw [sessionResults_rowsOf hs hsession]
        apply withArtifacts_rowsOf hs
        intro row hrow
        exact owner_of_mem_sessionResults hs hsession (mem_byVersion _ row hrow)
      have htasks : (byCreation (s.sessionTasks session.id)).map (fun task =>
          (⟨task, (rowsOf owner v s).withArtifacts (byVersionDesc ((rowsOf owner v s).resultsOf task.id)),
            (rowsOf owner v s).filesOf task.id⟩ : Included)) =
          (byCreation (s.sessionTasks session.id)).map fun task =>
            ⟨task, s.withArtifacts (byVersionDesc (s.resultsOf task.id)), s.filesOf task.id⟩ := by
        apply List.map_congr_left
        intro row hrow
        obtain ⟨hvalue, hin⟩ := List.mem_filter.mp ((List.mem_insertionSort _).mp hrow)
        obtain ⟨taskId, hget⟩ := (OrderedMap.mem_values_iff _ _).mp hvalue
        have hrowOwned := hs.tasks taskId row hget
        have hid : owner row.id = some v := by
          rw [hrowOwned.key, hrowOwned.user, ← hrowOwned.session, of_decide_eq_true hin, hsession]
        obtain ⟨hversions, hfiles⟩ := included_rowsOf row.id hs hid byVersionDesc mem_byVersionDesc
        rw [hversions, hfiles]
      rw [Option.map_some, Option.map_some, sessionTasks_rowsOf hs hsession, htasks, hresults]

theorem getVersions_within : Within owner v (getVersions settings v id) fun _ => True := by
  apply Confined.bind (findTask_within id)
  intro found hfound
  apply Confined.bind Confined.orThrow
  intro task htask
  obtain ⟨howned, huser⟩ := hfound task htask
  have hsession : owner task.sessionId = some v := by rw [howned.session, huser]
  apply Confined.bind (look_within ?_)
  · exact fun found _ => toClientResults_within found
  · intro s hs
    rw [sessionResults_rowsOf hs hsession]
    apply withArtifacts_rowsOf hs
    intro row hrow
    exact owner_of_mem_sessionResults hs hsession (mem_byVersion _ row hrow)

theorem listActiveTasks_within : Within owner v (listActiveTasks v) fun _ => True := by
  apply look_within
  intro s hs
  rw [tasksOf_rowsOf hs]

/-! ## Deletion of history -/

theorem unreferencedFiles_rowsOf {s : Store} {clock : Nat} (hs : Owned owner s) (hnamed : v ≠ "") :
    unreferencedFiles settings v clock (rowsOf owner v s) = unreferencedFiles settings v clock s := by
  have htruthy : truthy (some v) = some v := by simp [truthy, hnamed]
  unfold unreferencedFiles
  rw [htruthy]
  congr 1
  have hlinked : (rowsOf owner v s).files.values.filter (fun row =>
      ((some v).all fun userId => row.userId = userId) && row.status = .uploaded &&
        olderThan settings.unreferencedFileRetentionHours clock row && !(rowsOf owner v s).linked row.id) =
      (rowsOf owner v s).files.values.filter fun row =>
        ((some v).all fun userId => row.userId = userId) && row.status = .uploaded &&
          olderThan settings.unreferencedFileRetentionHours clock row && !s.linked row.id := by
    apply List.filter_congr
    intro row hrow
    obtain ⟨fileId, hget⟩ := (OrderedMap.mem_values_iff _ _).mp hrow
    rw [rowsOf, OrderedMap.get_restrict] at hget
    split at hget
    · rename_i hmine
      have howned := hs.files fileId row hget
      rw [linked_rowsOf hs (howned.key ▸ mine_iff.mp hmine)]
    · cases hget
  rw [hlinked]
  apply OrderedMap.filter_values_restrict
  intro fileId row hget hquery
  simp only [Option.all_some, Bool.and_eq_true, decide_eq_true_eq] at hquery
  rw [mine_iff, (hs.files fileId row hget).user, hquery.1.1.1]

theorem owner_of_mem_unreferencedFiles {s : Store} {clock : Nat} {file : File} (hs : Owned owner s)
    (hnamed : v ≠ "") (hfile : file ∈ unreferencedFiles settings v clock s) : owner file.id = some v := by
  have htruthy : truthy (some v) = some v := by simp [truthy, hnamed]
  obtain ⟨hvalue, hquery⟩ := List.mem_filter.mp (List.mem_of_mem_take hfile)
  rw [htruthy] at hquery
  simp only [Option.all_some, Bool.and_eq_true, decide_eq_true_eq] at hquery
  obtain ⟨fileId, hget⟩ := (OrderedMap.mem_values_iff _ _).mp hvalue
  have howned := hs.files fileId file hget
  rw [howned.key, howned.user, hquery.1.1.1]

theorem cleanupUnreferencedFiles_within (hnamed : v ≠ "") :
    Within owner v (cleanupUnreferencedFiles settings v) fun _ => True := by
  apply Confined.bind now_within
  intro clock _
  apply Confined.bind (query_within (fun files => ∀ file ∈ files, owner file.id = some v)
    (fun _ hs => unreferencedFiles_rowsOf hs hnamed)
    fun _ hs _ hfile => owner_of_mem_unreferencedFiles hs hnamed hfile)
  intro files hfiles
  apply Confined.bind (Confined.traverse (fun _ => True) fun file hfile => ?_)
  · exact fun _ _ => Confined.pure trivial
  · apply Confined.bind (deleteObject_within file.storageKey)
    exact fun _ _ => .exec (deleteFile_for (hfiles file hfile))

theorem deleteHistoryTask_within : Within owner v (deleteHistoryTask settings v id) fun _ => True := by
  apply Confined.bind (findTask_within id)
  intro found hfound
  apply Confined.bind Confined.orThrow
  intro task htask
  obtain ⟨howned, huser⟩ := hfound task htask
  have hsession : owner task.sessionId = some v := by rw [howned.session, huser]
  apply Confined.bind (look_within (fun _ hs => activeInSession_rowsOf hs hsession))
  intro activeCount _
  apply Confined.bind Confined.require
  intro _ _
  apply Confined.bind (look_within (fun _ hs => sessionArtifacts_rowsOf hs))
  intro artifacts _
  apply Confined.bind (Confined.traverse (fun _ => True) fun row _ => deleteObject_within row.storageKey)
  intro _ _
  apply Confined.bind (.exec (deleteSession_for hsession))
  intro _ _
  apply Confined.bind (cleanupUnreferencedFiles_within (huser ▸ howned.named))
  exact fun _ _ => Confined.pure trivial

/-! ## The event stream -/

theorem hydrateStoredEvent_within {event : TaskStreamEvent} (hid : owner event.taskId = some v) :
    Within owner v (hydrateStoredEvent event) fun _ => True := by
  unfold hydrateStoredEvent
  split
  · split
    · exact Confined.pure trivial
    · apply Confined.bind (look_within (fun _ _ => findArtifact_rowsOf hid))
      intro found _
      cases found with
      | none => exact Confined.pure trivial
      | some row =>
        apply Confined.bind (createDownloadUrl_within row.storageKey)
        exact fun _ _ => Confined.pure trivial
  · exact Confined.pure trivial

/-- An event is read back as one of the same task. -/
theorem parse_taskId {isUrl : String → Bool} {event event' : TaskStreamEvent}
    (h : parseTaskStreamEvent isUrl event.toJson = some event') : event'.taskId = event.taskId := by
  simp only [parseTaskStreamEvent, TaskStreamEvent.toJson] at h
  obtain ⟨detail, -, h⟩ := Option.bind_eq_some_iff.mp h
  obtain ⟨taskId, htask, h⟩ := Option.bind_eq_some_iff.mp h
  obtain ⟨sessionId, -, h⟩ := Option.bind_eq_some_iff.mp h
  obtain ⟨runId, -, h⟩ := Option.bind_eq_some_iff.mp h
  obtain ⟨timestamp, -, h⟩ := Option.bind_eq_some_iff.mp h
  rw [member_fields_append _ (by decide)] at htask
  cases htask
  cases h
  rfl

theorem assertTaskOwnership_within :
    Within owner v (assertTaskOwnership v id) fun _ => owner id = some v := by
  apply Confined.bind (findTask_within id)
  intro found hfound
  apply Confined.require.mono
  intro _ hsome
  obtain ⟨task, htask⟩ := Option.isSome_iff_exists.mp hsome
  obtain ⟨howned, huser⟩ := hfound task htask
  rw [howned.user, huser]

theorem listTaskEvents_within {afterId : Nat} :
    Within owner v (ServiceCalls.listTaskEvents settings v id afterId) fun _ => owner id = some v := by
  apply Confined.bind assertTaskOwnership_within
  intro _ hid
  apply Confined.bind (query_within (fun rows => ∀ row ∈ rows, ∃ event : TaskStreamEvent,
    row.payload = event.toJson ∧ event.taskId = id) ?_ ?_)
  · intro rows hrows
    apply Confined.mono (Confined.traverse (fun _ => True) ?_) fun _ _ => hid
    intro row hrow
    obtain ⟨stored, hpayload, htask⟩ := hrows row hrow
    apply Confined.bind Confined.orThrow
    intro event hevent
    have heventTask : event.taskId = id := (parse_taskId (hpayload ▸ hevent)).trans htask
    apply Confined.bind (hydrateStoredEvent_within (heventTask ▸ hid))
    exact fun _ _ => Confined.pure trivial
  · intro s _
    rw [eventsOf_rowsOf hid]
  · intro s hs row hrow
    obtain ⟨hmem, htask⟩ := List.mem_filter.mp ((List.mem_insertionSort _).mp (List.mem_of_mem_filter hrow))
    obtain ⟨event, hpayload, hevent⟩ := hs.events row hmem
    exact ⟨event, hpayload, hevent.trans (of_decide_eq_true htask)⟩

theorem stream_within {afterId : Nat} : Within owner v (stream settings v id afterId) fun _ => True := by
  apply Confined.bind listTaskEvents_within
  intro replay hid
  apply Confined.bind (look_within (fun _ _ => publications_rowsOf hid))
  exact fun _ _ => Confined.pure trivial

/-! ## Files -/

theorem noSlash_collapseSpaces (inside : Bool) {cs : List Char} (h : '/' ∉ cs) :
    '/' ∉ collapseSpaces inside cs := by
  induction cs generalizing inside with
  | nil => exact h
  | cons c cs ih =>
    obtain ⟨hc, hcs⟩ := not_or.mp (mt List.mem_cons.mpr h)
    unfold collapseSpaces
    split
    · split
      · exact ih true hcs
      · exact mt List.mem_cons.mp (not_or.mpr ⟨by decide, ih true hcs⟩)
    · exact mt List.mem_cons.mp (not_or.mpr ⟨hc, ih false hcs⟩)

theorem noSlash_sanitizeFilename (filename : String) : NoSlash (sanitizeFilename filename) := by
  have hreplaced : '/' ∉ (trim filename).toList.map fun c => if isReserved c then '-' else c := by
    intro hmem
    obtain ⟨c, -, hc⟩ := List.mem_map.mp hmem
    split at hc
    · cases hc
    · rename_i hreserved
      rw [hc] at hreserved
      exact hreserved (by decide)
  unfold sanitizeFilename orElse NoSlash
  dsimp only
  split
  · decide
  · rw [String.toList_ofList]
    exact noSlash_collapseSpaces false hreplaced

theorem newFile_eq (userId fileId : String) (input : CreateUpload) (clock : Nat) :
    newFile userId fileId input clock =
      { id := fileId, userId, filename := sanitizeFilename input.filename, mimeType := input.mimeType,
        sizeBytes := input.sizeBytes, status := .uploading,
        storageKey := s!"users/{userId}/{fileId}/{sanitizeFilename input.filename}", etag := none,
        updatedAt := clock, uploadedAt := none } := by
  unfold newFile
  simp only

theorem newFile_owned (input : CreateUpload) (clock : Nat) (hid : owner id = some v) (hslash : NoSlash id) :
    FileOwned owner id (newFile v id input clock) ∧ (newFile v id input clock).id = id ∧
      (newFile v id input clock).userId = v := by
  have hname := noSlash_sanitizeFilename input.filename
  rw [newFile_eq]
  generalize sanitizeFilename input.filename = name at hname ⊢
  exact ⟨⟨rfl, hid, hslash, hname, rfl⟩, rfl, rfl⟩

theorem createUploadUrl_within {input : CreateUpload} :
    Within owner v (createUploadUrl settings v input) fun _ => True := by
  apply Confined.bind Confined.require
  intro _ _
  apply Confined.bind Confined.require
  intro _ _
  apply Confined.bind newId_within
  intro fileId hfile
  apply Confined.bind now_within
  intro clock _
  obtain ⟨howned, hfileId, huser⟩ := newFile_owned input clock hfile.1 hfile.2
  have hreserve : For owner v (reserveFile settings (newFile v fileId input clock)) fun _ => True := by
    generalize newFile v fileId input clock = row at howned hfileId huser ⊢
    apply Local.bind (.look (fun _ hs => huser.symm ▸ usedBytes_rowsOf hs))
    intro usedBytes _
    apply Local.bind Local.require
    exact fun _ _ => createFile_for (hfileId.symm ▸ howned) huser
  apply Confined.bind (.exec hreserve)
  intro _ _
  apply Confined.recover
  · apply Confined.bind (signUpload_within _ _ _)
    exact fun _ _ => Confined.pure trivial
  · intro failure
    apply Confined.bind now_within
    intro clock _
    have hrejected : FileStays (rejected clock) := ⟨fun _ => rfl, fun _ => rfl, fun _ => rfl, fun _ => rfl⟩
    apply Confined.bind (.exec (updateFile_for hfile.1 hrejected))
    exact fun _ _ => Confined.throw failure

theorem findFile_within (id : String) : Within owner v (query fun s => s.findFile v id) fun found =>
    ∀ file, found = some file → FileOwned owner id file ∧ file.userId = v :=
  query_within _ (fun _ hs => findFile_rowsOf hs) fun _ hs _ hfound => of_findFile hs hfound

theorem completeUpload_within {input : CompleteUpload} :
    Within owner v (completeUpload v input) fun _ => True := by
  apply Confined.bind (findFile_within input.fileId)
  intro found hfound
  apply Confined.bind Confined.orThrow
  intro file hfile
  have hid : owner file.id = some v := by
    obtain ⟨howned, huser⟩ := hfound file hfile
    rw [howned.key, howned.user, huser]
  apply Confined.bind Confined.require
  intro _ _
  apply Confined.bind (inspectObject_within file.storageKey)
  intro object _
  apply Confined.bind now_within
  intro clock _
  split
  · have hcompleted : FileStays (completed clock object) :=
      ⟨fun _ => rfl, fun _ => rfl, fun _ => rfl, fun _ => rfl⟩
    apply Confined.bind (.exec (updateFile_for hid hcompleted))
    exact fun _ _ => Confined.pure trivial
  · have hrejected : FileStays (rejected clock) := ⟨fun _ => rfl, fun _ => rfl, fun _ => rfl, fun _ => rfl⟩
    apply Confined.bind (.exec (updateFile_for hid hrejected))
    exact fun _ _ => Confined.throw _

theorem getFile_within : Within owner v (getFile v id) fun _ => True := by
  apply Confined.bind (findFile_within id)
  intro found _
  apply Confined.bind Confined.orThrow
  intro file _
  split
  · apply Confined.bind (createDownloadUrl_within file.storageKey)
    exact fun _ _ => Confined.pure trivial
  · exact Confined.pure trivial
  · exact Confined.pure trivial

theorem deleteFile_within : Within owner v (ServiceCalls.deleteFile v id) fun _ => True := by
  apply Confined.bind (query_within (fun found => ∀ pair, found = some pair →
    owner pair.1.id = some v) ?_ ?_)
  · intro found hfound
    apply Confined.bind Confined.orThrow
    intro pair hpair
    obtain ⟨file, linked⟩ := pair
    apply Confined.bind Confined.require
    intro _ _
    apply Confined.bind (deleteObject_within file.storageKey)
    intro _ _
    apply Confined.bind (.exec (deleteFile_for (hfound _ hpair)))
    exact fun _ _ => Confined.pure trivial
  · intro s hs
    rw [findFile_rowsOf hs]
    cases hfind : s.findFile v id with
    | none => rfl
    | some file =>
      obtain ⟨howned, huser⟩ := of_findFile hs hfind
      rw [Option.map_some, Option.map_some, linked_rowsOf hs (by rw [howned.key, howned.user, huser])]
  · intro s hs pair hpair
    obtain ⟨file, hfind, rfl⟩ := Option.map_eq_some_iff.mp hpair
    obtain ⟨howned, huser⟩ := of_findFile hs hfind
    rw [howned.key, howned.user, huser]

end ConfinedCalls
