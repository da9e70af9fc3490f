import ClawWork.ServiceStore

/-!
# Whose row it is

Every id is issued for one user. The rows of the service keep to the ids of their
owner: a task, its session, its links, results, artifacts and events belong to one
user. Under this invariant a query by id alone finds rows of one user only, and a
statement on the ids of a user changes rows of that user only.
-/

namespace RowOwnership

open JavaScript SharedTypes TaskStore TasksService ServiceTables DailyQuota Isolation ServiceStore FileCalls
open PersistCalls (PersistedTaskEvent)
open StorageQuota (fileWeight artifactWeight)

/-- The user for whom an id was issued. -/
abbrev Issuance : Type := String → Option String

variable (owner : Issuance)

def mine (u id : String) : Bool := owner id = some u

/-- The rows of a user. -/
def rowsOf (u : String) (s : Store) : Store where
  users := s.users.filter fun user => user = u
  userSettings := s.userSettings.restrict fun user => user = u
  sessions := s.sessions.restrict (mine owner u)
  tasks := s.tasks.restrict (mine owner u)
  files := s.files.restrict (mine owner u)
  taskFiles := s.taskFiles.filter fun link => mine owner u link.taskId
  taskResults := s.taskResults.filter fun row => mine owner u row.taskId
  resultArtifacts := s.resultArtifacts.filter fun row => mine owner u row.taskId
  taskEvents := s.taskEvents.filter fun row => mine owner u row.taskId
  redis := { s.redis with counters := s.redis.counters.restrict fun key => key.1 = u }
  channel := s.channel.filter fun published => mine owner u published.event.taskId

/-- An id has no separator of a storage key. -/
def NoSlash (text : String) : Prop := '/' ∉ text.toList

structure SessionOwned (id : String) (row : SessionRow) : Prop where
  key : row.id = id
  user : owner id = some row.userId

structure TaskOwned (id : String) (row : TaskRow) : Prop where
  key : row.id = id
  user : owner id = some row.userId
  session : owner row.sessionId = some row.userId
  parent : ∀ parent, row.parentTaskId = some parent → owner parent = some row.userId
  named : row.userId ≠ ""

structure FileOwned (id : String) (row : File) : Prop where
  key : row.id = id
  user : owner id = some row.userId
  idNoSlash : NoSlash id
  nameNoSlash : NoSlash row.filename
  storageKey : row.storageKey = s!"users/{row.userId}/{id}/{row.filename}"

structure ArtifactOwned (row : ResultArtifact) : Prop where
  user : owner row.taskId = some row.userId
  result : ∀ resultId, row.resultId = some resultId → owner resultId = owner row.taskId

/-- The tasks that other rows refer to by a foreign key that deletes with the task. -/
def references (s : Store) : List String :=
  s.taskFiles.map TaskFile.taskId ++ s.taskResults.map (fun row => row.taskId) ++
    s.resultArtifacts.map ResultArtifact.taskId ++ s.taskEvents.map TaskEvent.taskId

structure Owned (s : Store) : Prop where
  users : "" ∉ s.users
  userSettings : ∀ user row, s.userSettings.get user = some row → row.userId = user
  sessions : ∀ id row, s.sessions.get id = some row → SessionOwned owner id row
  tasks : ∀ id row, s.tasks.get id = some row → TaskOwned owner id row
  files : ∀ id row, s.files.get id = some row → FileOwned owner id row
  links : ∀ link ∈ s.taskFiles, owner link.fileId = owner link.taskId
  results : ∀ row ∈ s.taskResults, owner row.id = owner row.taskId ∧ owner row.sessionId = owner row.taskId
  artifacts : ∀ row ∈ s.resultArtifacts, ArtifactOwned owner row
  events : ∀ row ∈ s.taskEvents, ∃ event : TaskStreamEvent,
    row.payload = event.toJson ∧ event.taskId = row.taskId
  references : ∀ taskId ∈ references s, (s.tasks.get taskId).isSome
  channel : ∀ published ∈ s.channel, (owner published.event.taskId).isSome

def division : Division Store String := ⟨rowsOf owner, Owned owner⟩

theorem owned_empty : Owned owner .empty where
  users := List.not_mem_nil
  userSettings _ _ h := by cases h
  sessions _ _ h := by cases h
  tasks _ _ h := by cases h
  files _ _ h := by cases h
  links _ h := by cases h
  results _ h := by cases h
  artifacts _ h := by cases h
  events _ h := by cases h
  references _ h := by cases h
  channel _ h := by cases h

variable {owner} {u v id : String} {s : Store}

theorem mine_iff : mine owner u id = true ↔ owner id = some u := decide_eq_true_iff

theorem mine_of (h : owner id = some u) : mine owner u id = true := mine_iff.mpr h

theorem not_mine_of (h : owner id = some v) (hne : u ≠ v) : mine owner u id = false := by
  apply decide_eq_false
  rw [h]
  exact fun heq => hne (Option.some.inj heq).symm

/-! ## Queries -/

theorem rowsOf_task (h : owner id = some v) : (rowsOf owner v s).tasks.get id = s.tasks.get id := by
  rw [rowsOf, OrderedMap.get_restrict, if_pos (mine_of h)]

theorem rowsOf_session (h : owner id = some v) : (rowsOf owner v s).sessions.get id = s.sessions.get id := by
  rw [rowsOf, OrderedMap.get_restrict, if_pos (mine_of h)]

theorem rowsOf_file (h : owner id = some v) : (rowsOf owner v s).files.get id = s.files.get id := by
  rw [rowsOf, OrderedMap.get_restrict, if_pos (mine_of h)]

theorem rowsOf_user : (v ∈ (rowsOf owner v s).users) ↔ v ∈ s.users := by
  simp [rowsOf]

/-- Looking for a row by its id and user, one finds only rows of the user. -/
theorem filter_get_restrict {α : Type} (m : OrderedMap String α) (userId : α → String)
    (h : ∀ id row, m.get id = some row → owner id = some (userId row)) :
    ((m.restrict (mine owner v)).get id).filter (fun row => userId row = v) =
      (m.get id).filter fun row => userId row = v := by
  rw [OrderedMap.get_restrict]
  by_cases hmine : mine owner v id = true
  · rw [if_pos hmine]
  · rw [if_neg hmine]
    cases hrow : m.get id with
    | none => rfl
    | some row =>
      have hne : ¬ userId row = v := fun heq => hmine (mine_of (heq ▸ h id row hrow))
      rw [Option.filter_some, if_neg (by simpa using hne)]
      rfl

theorem findTask_rowsOf (h : Owned owner s) : (rowsOf owner v s).findTask v id = s.findTask v id :=
  filter_get_restrict s.tasks (fun row => row.userId) fun id row hrow => (h.tasks id row hrow).user

theorem findSession_rowsOf (h : Owned owner s) : (rowsOf owner v s).findSession v id = s.findSession v id :=
  filter_get_restrict s.sessions (fun row => row.userId) fun id row hrow => (h.sessions id row hrow).user

theorem findFile_rowsOf (h : Owned owner s) : (rowsOf owner v s).findFile v id = s.findFile v id :=
  filter_get_restrict s.files File.userId fun id row hrow => (h.files id row hrow).user

/-- What `findFirst` by id and user tells of the row. -/
theorem of_findTask {task : TaskRow} (h : Owned owner s) (hfind : s.findTask v id = some task) :
    TaskOwned owner id task ∧ task.userId = v := by
  obtain ⟨hget, huser⟩ := Option.filter_eq_some_iff.mp hfind
  exact ⟨h.tasks id task hget, of_decide_eq_true huser⟩

theorem of_findSession {session : SessionRow} (h : Owned owner s)
    (hfind : s.findSession v id = some session) : SessionOwned owner id session ∧ session.userId = v := by
  obtain ⟨hget, huser⟩ := Option.filter_eq_some_iff.mp hfind
  exact ⟨h.sessions id session hget, of_decide_eq_true huser⟩

theorem of_findFile {file : File} (h : Owned owner s) (hfind : s.findFile v id = some file) :
    FileOwned owner id file ∧ file.userId = v := by
  obtain ⟨hget, huser⟩ := Option.filter_eq_some_iff.mp hfind
  exact ⟨h.files id file hget, of_decide_eq_true huser⟩

/-- A filter that keeps only what another one keeps can do without it. -/
theorem filter_filter_of_imp {α : Type} {p q : α → Bool} {rows : List α}
    (h : ∀ row ∈ rows, q row = true → p row = true) : (rows.filter p).filter q = rows.filter q := by
  rw [List.filter_filter]
  apply List.filter_congr
  intro row hrow
  by_cases hq : q row = true
  · simp [hq, h row hrow hq]
  · simp [hq]

/-- The same for a test, and for a search. -/
theorem any_filter_of_imp {α : Type} {p q : α → Bool} {rows : List α}
    (h : ∀ row ∈ rows, q row = true → p row = true) : (rows.filter p).any q = rows.any q := by
  rw [List.any_filter]
  apply Bool.eq_iff_iff.mpr
  simp only [List.any_eq_true, Bool.and_eq_true]
  exact ⟨fun ⟨row, hrow, _, hq⟩ => ⟨row, hrow, hq⟩, fun ⟨row, hrow, hq⟩ => ⟨row, hrow, h row hrow hq, hq⟩⟩

theorem find_filter_of_imp {α : Type} {p q : α → Bool} {rows : List α}
    (h : ∀ row ∈ rows, q row = true → p row = true) : (rows.filter p).find? q = rows.find? q := by
  rw [← List.head?_filter, ← List.head?_filter, filter_filter_of_imp h]

theorem fileIdsOf_rowsOf (h : owner id = some v) : (rowsOf owner v s).fileIdsOf id = s.fileIdsOf id := by
  have hfilter : (rowsOf owner v s).taskFiles.filter (fun link => link.taskId = id) =
      s.taskFiles.filter fun link => link.taskId = id := by
    apply filter_filter_of_imp
    intro link _ hlink
    rw [of_decide_eq_true hlink]
    exact mine_of h
  rw [Store.fileIdsOf, hfilter, Store.fileIdsOf]

theorem owner_of_mem_fileIdsOf {fileId : String} (h : Owned owner s) (hid : owner id = some v)
    (hmem : fileId ∈ s.fileIdsOf id) : owner fileId = some v := by
  obtain ⟨link, hlink, rfl⟩ := List.mem_map.mp hmem
  obtain ⟨hlink, htask⟩ := List.mem_filter.mp hlink
  rw [h.links link hlink, of_decide_eq_true htask, hid]

theorem filesOf_rowsOf (h : Owned owner s) (hid : owner id = some v) :
    (rowsOf owner v s).filesOf id = s.filesOf id := by
  rw [Store.filesOf, Store.filesOf, fileIdsOf_rowsOf hid]
  apply List.filterMap_congr
  intro fileId hmem
  exact rowsOf_file (owner_of_mem_fileIdsOf h hid hmem)

theorem linked_rowsOf (h : Owned owner s) (hid : owner id = some v) :
    (rowsOf owner v s).linked id = s.linked id := by
  apply any_filter_of_imp
  intro link hmem hlink
  rw [mine_iff, ← h.links link hmem, of_decide_eq_true hlink, hid]

theorem sessionTasks_rowsOf (h : Owned owner s) (hid : owner id = some v) :
    (rowsOf owner v s).sessionTasks id = s.sessionTasks id := by
  apply OrderedMap.filter_values_restrict
  intro taskId row hrow hsession
  have howned := h.tasks taskId row hrow
  rw [mine_iff, howned.user, ← howned.session, of_decide_eq_true hsession, hid]

theorem tasksOf_rowsOf (h : Owned owner s) : (rowsOf owner v s).tasksOf v = s.tasksOf v := by
  apply OrderedMap.filter_values_restrict
  intro taskId row hrow huser
  rw [mine_iff, (h.tasks taskId row hrow).user, of_decide_eq_true huser]

theorem sessionsOf_rowsOf (h : Owned owner s) : (rowsOf owner v s).sessionsOf v = s.sessionsOf v := by
  apply OrderedMap.filter_values_restrict
  intro sessionId row hrow huser
  rw [mine_iff, (h.sessions sessionId row hrow).user, of_decide_eq_true huser]

theorem artifactsOf_rowsOf (h : Owned owner s) (hid : owner id = some v) :
    (rowsOf owner v s).artifactsOf id = s.artifactsOf id := by
  apply filter_filter_of_imp
  intro row hmem hresult
  rw [mine_iff, ← (h.artifacts row hmem).result id (of_decide_eq_true hresult), hid]

theorem withArtifacts_rowsOf {results : List ResultRow} (h : Owned owner s)
    (hresults : ∀ row ∈ results, owner row.id = some v) :
    (rowsOf owner v s).withArtifacts results = s.withArtifacts results := by
  apply List.map_congr_left
  intro row hrow
  rw [artifactsOf_rowsOf h (hresults row hrow)]

theorem resultsOf_rowsOf (hid : owner id = some v) : (rowsOf owner v s).resultsOf id = s.resultsOf id := by
  apply filter_filter_of_imp
  intro row _ htask
  rw [mine_iff, of_decide_eq_true htask, hid]

theorem owner_of_mem_resultsOf {row : ResultRow} (h : Owned owner s) (hid : owner id = some v)
    (hmem : row ∈ s.resultsOf id) : owner row.id = some v := by
  obtain ⟨hmem, htask⟩ := List.mem_filter.mp hmem
  rw [(h.results row hmem).1, of_decide_eq_true htask, hid]

theorem sessionResults_rowsOf (h : Owned owner s) (hid : owner id = some v) :
    (rowsOf owner v s).sessionResults id = s.sessionResults id := by
  apply filter_filter_of_imp
  intro row hmem hsession
  rw [mine_iff, ← (h.results row hmem).2, of_decide_eq_true hsession, hid]

theorem owner_of_mem_sessionResults {row : ResultRow} (h : Owned owner s) (hid : owner id = some v)
    (hmem : row ∈ s.sessionResults id) : owner row.id = some v := by
  obtain ⟨hmem, hsession⟩ := List.mem_filter.mp hmem
  rw [(h.results row hmem).1, ← (h.results row hmem).2, of_decide_eq_true hsession, hid]

theorem sessionArtifacts_rowsOf (h : Owned owner s) :
    (rowsOf owner v s).sessionArtifacts v id = s.sessionArtifacts v id := by
  have hcongr : (rowsOf owner v s).sessionArtifacts v id =
      (rowsOf owner v s).resultArtifacts.filter fun row => (s.tasks.get row.taskId).any fun task =>
        task.sessionId = id && task.userId = v := by
    apply List.filter_congr
    intro row hmem
    rw [rowsOf_task (mine_iff.mp (List.mem_filter.mp hmem).2)]
  rw [hcongr]
  apply filter_filter_of_imp
  intro row hmem hfound
  obtain ⟨task, htask, hquery⟩ := (Option.any_eq_true ..).mp hfound
  simp only [Bool.and_eq_true, decide_eq_true_eq] at hquery
  rw [mine_iff, (h.tasks _ task htask).user, hquery.2]

theorem findArtifact_rowsOf {artifactId : String} (hid : owner id = some v) :
    (rowsOf owner v s).findArtifact artifactId id = s.findArtifact artifactId id := by
  apply find_filter_of_imp
  intro row _ hquery
  simp only [Bool.and_eq_true, decide_eq_true_eq] at hquery
  rw [mine_iff, hquery.2, hid]

theorem eventsOf_rowsOf (hid : owner id = some v) : (rowsOf owner v s).eventsOf id = s.eventsOf id := by
  have hfilter : (rowsOf owner v s).taskEvents.filter (fun row => row.taskId = id) =
      s.taskEvents.filter fun row => row.taskId = id := by
    apply filter_filter_of_imp
    intro row _ htask
    rw [mine_iff, of_decide_eq_true htask, hid]
  rw [Store.eventsOf, hfilter, Store.eventsOf]

theorem hasSourceEvent_rowsOf {source : String} (hid : owner id = some v) :
    (rowsOf owner v s).hasSourceEvent id source = s.hasSourceEvent id source := by
  apply any_filter_of_imp
  intro row _ hquery
  simp only [Bool.and_eq_true, decide_eq_true_eq] at hquery
  rw [mine_iff, hquery.1, hid]

theorem activeTasks_rowsOf (h : Owned owner s) : (rowsOf owner v s).activeTasks v = s.activeTasks v := by
  apply OrderedMap.countP_values_restrict
  intro taskId row hrow hquery
  simp only [Bool.and_eq_true, decide_eq_true_eq] at hquery
  rw [mine_iff, (h.tasks taskId row hrow).user, hquery.1]

theorem activeInSession_rowsOf (h : Owned owner s) (hid : owner id = some v) :
    (rowsOf owner v s).activeInSession id = s.activeInSession id := by
  apply OrderedMap.countP_values_restrict
  intro taskId row hrow hquery
  simp only [Bool.and_eq_true, decide_eq_true_eq] at hquery
  have howned := h.tasks taskId row hrow
  rw [mine_iff, howned.user, ← howned.session, hquery.1, hid]

theorem latestVersion_rowsOf (h : Owned owner s) (hid : owner id = some v) :
    (rowsOf owner v s).latestVersion id = s.latestVersion id := by
  rw [Store.latestVersion, sessionResults_rowsOf h hid, Store.latestVersion]

theorem violatesVersion_rowsOf {row : ResultRow} (h : Owned owner s) (htask : owner row.taskId = some v)
    (hsession : owner row.sessionId = some v) :
    (rowsOf owner v s).violatesVersion row = s.violatesVersion row := by
  apply any_filter_of_imp
  intro old hmem hquery
  simp only [Bool.and_eq_true, Bool.or_eq_true, decide_eq_true_eq] at hquery
  rw [mine_iff]
  rcases hquery.1 with hsame | hsame
  · rw [← (h.results old hmem).2, hsame, hsession]
  · rw [hsame, htask]

theorem uploadedFiles_rowsOf {fileIds : List String} (h : Owned owner s) :
    (rowsOf owner v s).uploadedFiles v fileIds = s.uploadedFiles v fileIds := by
  unfold Store.uploadedFiles
  induction fileIds.dedup with
  | nil => rfl
  | cons fileId fileIds ih =>
    have hfile : (rowsOf owner v s).findFile v fileId = s.findFile v fileId := findFile_rowsOf h
    unfold Store.findFile at hfile
    rw [List.filterMap_cons, List.filterMap_cons]
    cases hget : s.files.get fileId with
    | none =>
      have hnone : (rowsOf owner v s).files.get fileId = none := by
        rw [rowsOf, OrderedMap.get_restrict, hget, ite_self]
      rw [hnone]
      exact ih
    | some row =>
      by_cases huser : row.userId = v
      · rw [rowsOf_file (huser ▸ (h.files fileId row hget).user), hget]
        rw [List.filter_cons, List.filter_cons, ih]
      · have hnone : (rowsOf owner v s).files.get fileId = none := by
          rw [rowsOf, OrderedMap.get_restrict, if_neg]
          rw [mine_iff, (h.files fileId row hget).user]
          exact fun heq => huser (Option.some.inj heq)
        rw [hnone, List.filter_cons_of_neg (by simp [huser])]
        exact ih

theorem of_mem_uploadedFiles {fileIds : List String} {file : File} (h : Owned owner s)
    (hmem : file ∈ s.uploadedFiles v fileIds) : owner file.id = some v := by
  obtain ⟨hmem, hquery⟩ := List.mem_filter.mp hmem
  obtain ⟨fileId, -, hget⟩ := List.mem_filterMap.mp hmem
  simp only [Bool.and_eq_true, decide_eq_true_eq] at hquery
  have howned := h.files fileId file hget
  rw [howned.key, howned.user, hquery.1]

theorem sum_filter_of_imp {α : Type} {p : α → Bool} {f : α → Nat} {rows : List α}
    (h : ∀ row ∈ rows, f row ≠ 0 → p row = true) : ((rows.filter p).map f).sum = (rows.map f).sum := by
  induction rows with
  | nil => rfl
  | cons row rows ih =>
    obtain ⟨hrow, hrest⟩ := List.forall_mem_cons.mp h
    rw [List.map_cons, List.sum_cons, ← ih hrest]
    by_cases hp : p row = true
    · rw [List.filter_cons_of_pos hp, List.map_cons, List.sum_cons]
    · have hzero : f row = 0 := by
        by_contra hne
        exact hp (hrow hne)
      rw [List.filter_cons_of_neg hp, hzero, Nat.zero_add]

theorem usedBytes_rowsOf (h : Owned owner s) : (rowsOf owner v s).usedBytes v = s.usedBytes v := by
  have hfiles : (rowsOf owner v s).files.total (fileWeight v) = s.files.total (fileWeight v) := by
    apply OrderedMap.total_restrict
    intro fileId row hrow hweight
    rw [mine_iff, (h.files fileId row hrow).user]
    by_contra hne
    apply hweight
    rw [fileWeight, if_neg]
    exact fun hcount => hne (congrArg some hcount.1)
  have hartifacts : ((rowsOf owner v s).resultArtifacts.map (artifactWeight v)).sum =
      (s.resultArtifacts.map (artifactWeight v)).sum := by
    apply sum_filter_of_imp
    intro row hmem hweight
    rw [mine_iff, (h.artifacts row hmem).user]
    by_contra hne
    apply hweight
    rw [artifactWeight, if_neg]
    exact fun heq => hne (congrArg some heq)
  rw [Store.usedBytes, hfiles, hartifacts, Store.usedBytes]

theorem publications_rowsOf (hid : owner id = some v) :
    (rowsOf owner v s).publications id = s.publications id := by
  apply filter_filter_of_imp
  intro published _ htask
  rw [mine_iff, of_decide_eq_true htask, hid]

end RowOwnership
