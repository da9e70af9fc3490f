import ClawWork.FileCalls
import ClawWork.PersistWrites
import ClawWork.Transition

/-!
# Archived artifacts and their events

The calls of `persistTaskEvent`, where the call of a `task.result.created` event
archives its artifact in a transaction of its own before the transaction of the event,
and the loop of `cleanupStaleFiles` that deletes abandoned artifacts. A crash after an
archive is a call whose transaction is aborted; restarted relays are further calls.
-/

namespace ArtifactEvents

open SharedTypes TaskStore TasksService ReadCommitted PersistCalls PersistWrites LogCommits StatusFrames
  FileCalls Transition

/-- The `await` that the second loop of `cleanupStaleFiles` has come to. -/
inductive Cleanup where
  | finding
  | deletingObject (artifact : ResultArtifact) (rest : List ResultArtifact)
  | deletingArtifact (artifact : ResultArtifact) (rest : List ResultArtifact)
  | returned
  | threw

inductive CleanupAnswer where
  /-- The rows that were found; the answer says which of them are old enough. -/
  | found (rows : List ResultArtifact)
  | done
  | failed

def Cleanup.loop : List ResultArtifact → Cleanup
  | artifact :: rest => .deletingObject artifact rest
  | [] => .returned

/-- The artifacts that were found and not deleted yet. -/
def Cleanup.todo : Cleanup → List ResultArtifact
  | .deletingObject artifact rest | .deletingArtifact artifact rest => artifact :: rest
  | .finding | .returned | .threw => []

def deleteRow (db : Database) (id : String) : Database :=
  { db with resultArtifacts := db.resultArtifacts.filter fun row => row.id ≠ id }

/-- The loop goes on until its next `await`. -/
def Cleanup.next (db : Database) (cleanup : Cleanup) : CleanupAnswer → Option (Database × Cleanup)
  | .found rows =>
    match cleanup with
    | .finding =>
      if rows.Nodup ∧ rows.length ≤ cleanupBatch ∧
          ∀ row ∈ rows, row ∈ db.resultArtifacts ∧ abandoned db row = true then
        some (db, .loop rows)
      else none
    | _ => none
  | .done =>
    match cleanup with
    | .deletingObject artifact rest => some (db, .deletingArtifact artifact rest)
    | .deletingArtifact artifact rest =>
      if db.resultArtifacts.any fun row => row.id = artifact.id then
        some (deleteRow db artifact.id, .loop rest)
      else some (db, .threw)
    | .finding | .returned | .threw => none
  | .failed =>
    match cleanup with
    | .returned | .threw => none
    | _ => some (db, .threw)

structure System where
  service : PersistCalls.System
  /-- The identifiers drawn for artifacts; the database draws none twice. -/
  artifactIds : List String
  cleanups : OrderedMap Nat Cleanup

def System.init : System := ⟨.init, [], .empty⟩

def System.db (s : System) : Database := s.service.db

/-- The archive that the call of an event comes to, and the forms of the event after it. -/
def archiving (call : Call) : Option (Artifact × Archived × Prepared) :=
  match call.phase, call.event.detail, call.archived with
  | .prepare, .resultCreated (.artifact a), some archived =>
    (prepareTaskEvent call.archived call.event).map fun prepared => (a, archived, prepared)
  | _, _, _ => none

/-- The row that `archiveResultArtifact` creates. -/
def archivedRow (task : Task) (a : Artifact) (archived : Archived) : ResultArtifact where
  id := archived.artifactId
  userId := task.userId
  taskId := task.id
  resultId := none
  kind := a.kind
  fileName := archived.fileName
  mimeType := a.mimeType
  sizeBytes := archived.sizeBytes
  storageKey := archived.storageKey
  previewText := a.previewText

/-- The archive commits its row, and the call goes on to the transaction of the event. -/
def System.archive (s : System) (c : Nat) (call : Call) (prepared : Prepared) (row : ResultArtifact) :
    System :=
  let insert (db : Database) : Database := { db with resultArtifacts := db.resultArtifacts ++ [row] }
  { s with
    service := { s.service with server := s.service.server.direct insert }.goto c call (.findTask prepared)
    artifactIds := row.id :: s.artifactIds }

inductive Label where
  | service (l : PersistCalls.Label)
  | cleanup (d : Nat)
  | cleaning (d : Nat) (answer : CleanupAnswer)

/-- The call whose next step archives an artifact. -/
def archives (s : System) : PersistCalls.Label → Option (Nat × Call × Artifact × Archived × Prepared)
  | .advance c => (s.service.calls c).bind fun call => (archiving call).map fun found => (c, call, found)
  | _ => none

/-- Artifacts are created by the calls alone. -/
def isArchive : PersistCalls.Label → Bool
  | .single (.archive _) => true
  | _ => false

def step (settings : Settings) (s : System) : Label → Option System
  | .service l =>
    match archives s l with
    | some (c, call, a, archived, prepared) => do
      let task ← s.db.tasks.get call.event.taskId
      if s.artifactIds.contains archived.artifactId then none
      else some (s.archive c call prepared (archivedRow task a archived))
    | none =>
      if isArchive l then none
      else do
        let service ← PersistCalls.step settings s.service l
        some { s with service }
  | .cleanup d =>
    if s.cleanups.get d = none then some { s with cleanups := s.cleanups.set d .finding } else none
  | .cleaning d answer => do
    let cleanup ← s.cleanups.get d
    let (db, cleanup) ← cleanup.next s.db answer
    let service := { s.service with server := s.service.server.direct fun _ => db }
    some { s with service, cleanups := s.cleanups.set d cleanup }

/-- The artifact that an event refers to. -/
def artifactOf : TaskStreamEvent → Option String
  | ⟨.resultCreated (.artifact a), _, _, _, _⟩ => a.artifactId
  | _ => none

/-- The artifact that a stored event refers to, read back from its payload. -/
def referenced (settings : Settings) (row : TaskEvent) : Option String :=
  (parsePersistedEvent settings row.payload).bind artifactOf

/-- The artifacts that the committed events of a task refer to, event by event. -/
def eventArtifacts (settings : Settings) (db : Database) (taskId : String) : List String :=
  (db.eventsOf taskId).filterMap (referenced settings)

/-- The artifacts of a task that are linked to a result. -/
def linkedArtifacts (db : Database) (taskId : String) : List ResultArtifact :=
  db.resultArtifacts.filter fun row => row.taskId = taskId && row.resultId.isSome

/-- Artifacts match events. -/
structure Matched (settings : Settings) (db : Database) : Prop where
  /-- One event of its task refers to an artifact, or it has no result and its task is not completed. -/
  rows : ∀ row ∈ db.resultArtifacts, (eventArtifacts settings db row.taskId).count row.id = 1 ∨
    row.resultId = none ∧ ∃ status ∈ db.status row.taskId, status ≠ .completed
  /-- Every event of a result refers to an artifact. -/
  events : ∀ row ∈ db.taskEvents, row.type = "task.result.created" → (referenced settings row).isSome = true
  /-- The artifacts of a completed task that are linked correspond one to one to its events. -/
  completed : ∀ t, db.status t = some .completed →
    (eventArtifacts settings db t).Nodup ∧
      ((linkedArtifacts db t).map ResultArtifact.id).Perm (eventArtifacts settings db t)

/-- In the transaction's view every artifact of the task is linked, and a committed event of the task
refers to it. -/
def Settled (settings : Settings) (s : System) (c : Nat) (taskId : String) : Prop :=
  ∀ row ∈ (s.service.server.view c).resultArtifacts, row.taskId = taskId →
    row.resultId.isSome = true ∧ row.id ∈ eventArtifacts settings s.db taskId

/-- An archive finds its task not completed, a transaction that changes the status of a task finds the
task not ended, and one that completes it finds it settled. -/
def InTime (settings : Settings) (s : System) : Label → Prop
  | .service (.advance c) =>
    (∀ found ∈ archives s (.advance c), ∀ status ∈ s.db.status found.2.1.event.taskId,
      status ≠ .completed) ∧
    ∀ row ∈ committing s.service (.advance c), ∀ new ∈ rowStatus row,
      (∀ status ∈ s.db.status row.taskId, status.isTerminal = false) ∧
        (new = .completed → Settled settings s c row.taskId)
  | _ => True

/-- The artifacts that any committed event refers to. -/
def allReferences (settings : Settings) (db : Database) : List String :=
  db.taskEvents.filterMap (referenced settings)

/-- The task has failed or was cancelled. -/
def Lost (db : Database) (t : String) : Prop := db.status t = some .failed ∨ db.status t = some .cancelled

/-- What holds of the tables at any time; `drawn` are the identifiers drawn for artifacts. -/
structure Ledger (settings : Settings) (drawn : List String) (db : Database) : Prop where
  events : ∀ row ∈ db.taskEvents, row.type = "task.result.created" → (referenced settings row).isSome = true
  references : (allReferences settings db).Nodup
  referencesDrawn : ∀ a ∈ allReferences settings db, a ∈ drawn
  ids : (db.resultArtifacts.map ResultArtifact.id).Nodup
  idsDrawn : ∀ row ∈ db.resultArtifacts, row.id ∈ drawn
  rows : ∀ row ∈ db.resultArtifacts, row.id ∈ eventArtifacts settings db row.taskId ∨
    row.resultId = none ∧ ∃ status ∈ db.status row.taskId, status ≠ .completed
  there : ∀ t, ∀ a ∈ eventArtifacts settings db t, Lost db t ∨
    ∃ row ∈ db.resultArtifacts, row.id = a ∧ row.taskId = t ∧
      (db.status t = some .completed → row.resultId.isSome = true)

variable {settings : Settings} {drawn : List String} {db db' : Database} {t a : String}

theorem eventArtifacts_sublist (settings : Settings) (db : Database) (t : String) :
    (eventArtifacts settings db t).Sublist (allReferences settings db) :=
  List.filter_sublist.filterMap _

theorem mem_eventArtifacts : a ∈ eventArtifacts settings db t ↔
    ∃ row ∈ db.taskEvents, row.taskId = t ∧ referenced settings row = some a := by
  simp [eventArtifacts, Database.eventsOf, List.mem_filterMap, and_assoc]

theorem references_of_same (h : db'.taskEvents = db.taskEvents) :
    allReferences settings db' = allReferences settings db ∧
      ∀ t, eventArtifacts settings db' t = eventArtifacts settings db t := by
  constructor
  · rw [allReferences, h, allReferences]
  · intro t
    rw [eventArtifacts, Database.eventsOf, h, eventArtifacts, Database.eventsOf]

theorem row_eq_of_id (hids : (db.resultArtifacts.map ResultArtifact.id).Nodup) {row other : ResultArtifact}
    (hrow : row ∈ db.resultArtifacts) (hother : other ∈ db.resultArtifacts) (hid : row.id = other.id) :
    row = other := List.inj_on_of_nodup_map hids hrow hother hid

theorem ledger_empty (settings : Settings) : Ledger settings [] .empty where
  events := fun row h => by cases h
  references := List.nodup_nil
  referencesDrawn := fun a h => by cases h
  ids := List.nodup_nil
  idsDrawn := fun row h => by cases h
  rows := fun row h => by cases h
  there := fun t a h => by cases h

theorem Ledger.matched (h : Ledger settings drawn db) : Matched settings db where
  rows := by
    intro row hrow
    rcases h.rows row hrow with href | hfree
    · left
      apply List.count_eq_one_of_mem
      · exact h.references.sublist (eventArtifacts_sublist settings db row.taskId)
      · exact href
    · exact .inr hfree
  events := h.events
  completed := by
    intro t hcompleted
    have hnodup := h.references.sublist (eventArtifacts_sublist settings db t)
    refine ⟨hnodup, ?_⟩
    apply (List.perm_ext_iff_of_nodup ?_ hnodup).mpr
    · intro a
      constructor
      · intro ha
        obtain ⟨row, hrow, rfl⟩ := List.mem_map.mp ha
        obtain ⟨hmem, hlinked⟩ := List.mem_filter.mp hrow
        obtain ⟨htask, hlinked⟩ := Bool.and_eq_true_iff.mp hlinked
        rw [← of_decide_eq_true htask]
        rcases h.rows row hmem with href | ⟨hnone, -⟩
        · exact href
        · rw [hnone] at hlinked
          cases hlinked
      · intro ha
        rcases h.there t a ha with hlost | ⟨row, hrow, hid, htask, hlinked⟩
        · rcases hlost with hlost | hlost <;> rw [hcompleted] at hlost <;> cases hlost
        · refine List.mem_map.mpr ⟨row, List.mem_filter.mpr ⟨hrow, ?_⟩, hid⟩
          simp [htask, hlinked hcompleted]
    · exact h.ids.sublist (List.filter_sublist.map _)

/-- The status of a failed or cancelled task does not move. -/
theorem Lost.moves (h : Lost db t) (hmoves : StatusMoves (db.status t) (db'.status t)) : Lost db' t := by
  rcases h with h | h
  · exact .inl (hmoves.keeps_terminal h rfl)
  · exact .inr (hmoves.keeps_terminal h rfl)

/-- No task is completed by such a move. -/
theorem completed_of_moves (hmoves : StatusMoves (db.status t) (db'.status t))
    (h : db'.status t = some .completed) : db.status t = some .completed := by
  rcases hmoves with hsame | ⟨-, hnew⟩ | ⟨-, hnew⟩
  · rw [← hsame]
    exact h
  · rw [hnew] at h
    cases h
  · rw [hnew] at h
    cases h

theorem notCompleted_of_moves (hmoves : StatusMoves (db.status t) (db'.status t))
    (h : ∃ status ∈ db.status t, status ≠ .completed) : ∃ status ∈ db'.status t, status ≠ .completed := by
  obtain ⟨status, hstatus, hne⟩ := h
  rcases hmoves with hsame | ⟨-, hnew⟩ | ⟨-, hnew⟩
  · exact ⟨status, hsame ▸ hstatus, hne⟩
  · exact ⟨_, hnew, by decide⟩
  · exact ⟨_, hnew, by decide⟩

/-- Steps that touch neither the log nor an artifact. -/
theorem Ledger.quiet (h : Ledger settings drawn db) (hevents : db'.taskEvents = db.taskEvents)
    (hartifacts : db'.resultArtifacts = db.resultArtifacts)
    (hstatus : ∀ v, StatusMoves (db.status v) (db'.status v)) : Ledger settings drawn db' := by
  obtain ⟨hall, hof⟩ := @references_of_same settings _ _ hevents
  constructor
  · rw [hevents]
    exact h.events
  · rw [hall]
    exact h.references
  · rw [hall]
    exact h.referencesDrawn
  · rw [hartifacts]
    exact h.ids
  · rw [hartifacts]
    exact h.idsDrawn
  · rw [hartifacts]
    intro row hrow
    rw [hof]
    exact (h.rows row hrow).imp_right fun ⟨hnone, hopen⟩ => ⟨hnone, notCompleted_of_moves (hstatus _) hopen⟩
  · rw [hartifacts]
    intro t a ha
    rw [hof] at ha
    rcases h.there t a ha with hlost | ⟨row, hrow, hid, htask, hlinked⟩
    · exact .inl (hlost.moves (hstatus t))
    · refine .inr ⟨row, hrow, hid, htask, fun hcompleted => ?_⟩
      exact hlinked (completed_of_moves (hstatus t) hcompleted)

/-- A new artifact of a task that is not completed. -/
theorem Ledger.archive (h : Ledger settings drawn db) {row : ResultArtifact} (hfresh : row.id ∉ drawn)
    (hnone : row.resultId = none) (hopen : ∃ status ∈ db.status row.taskId, status ≠ .completed) :
    Ledger settings (row.id :: drawn) { db with resultArtifacts := db.resultArtifacts ++ [row] } where
  events := h.events
  references := h.references
  referencesDrawn := fun a ha => List.mem_cons_of_mem _ (h.referencesDrawn a ha)
  ids := by
    rw [List.map_append, List.nodup_append]
    refine ⟨h.ids, List.nodup_singleton _, fun a ha b hb => ?_⟩
    obtain ⟨old, hold, rfl⟩ := List.mem_map.mp ha
    rw [List.map_singleton, List.mem_singleton] at hb
    intro heq
    exact hfresh (hb ▸ heq ▸ h.idsDrawn old hold)
  idsDrawn := by
    intro old hold
    rcases List.mem_append.mp hold with hold | hold
    · exact List.mem_cons_of_mem _ (h.idsDrawn old hold)
    · rw [List.mem_singleton.mp hold]
      exact List.mem_cons_self
  rows := by
    intro old hold
    rcases List.mem_append.mp hold with hold | hold
    · exact h.rows old hold
    · rw [List.mem_singleton.mp hold]
      exact .inr ⟨hnone, hopen⟩
  there := by
    intro t a ha
    rcases h.there t a ha with hlost | ⟨old, hold, hid⟩
    · exact .inl hlost
    · exact .inr ⟨old, List.mem_append_left _ hold, hid⟩

/-- The deletion of an artifact whose task has failed or was cancelled. -/
theorem Ledger.delete (h : Ledger settings drawn db) {id : String}
    (hlost : ∀ row ∈ db.resultArtifacts, row.id = id → Lost db row.taskId) :
    Ledger settings drawn (deleteRow db id) where
  events := h.events
  references := h.references
  referencesDrawn := h.referencesDrawn
  ids := h.ids.sublist (List.filter_sublist.map _)
  idsDrawn := fun row hrow => h.idsDrawn row (List.mem_filter.mp hrow).1
  rows := fun row hrow => h.rows row (List.mem_filter.mp hrow).1
  there := by
    intro t a ha
    rcases h.there t a ha with hgone | ⟨row, hrow, hid, htask, hlinked⟩
    · exact .inl hgone
    · by_cases hdeleted : row.id = id
      · left
        have := hlost row hrow hdeleted
        rw [htask] at this
        exact this
      · exact .inr ⟨row, List.mem_filter.mpr ⟨hrow, decide_eq_true hdeleted⟩, hid, htask, hlinked⟩

/-- What an update of the artifacts does to one of them. -/
def linkRow (ids : List String) (resultId : String) (row : ResultArtifact) : ResultArtifact :=
  if ids.contains row.id then { row with resultId := some resultId } else row

theorem linkRows_eq (ids : List String) (resultId : String) (db : Database) :
    (linkRows ids resultId db).resultArtifacts = db.resultArtifacts.map (linkRow ids resultId) := rfl

@[simp] theorem linkRow_id (ids : List String) (resultId : String) (row : ResultArtifact) :
    (linkRow ids resultId row).id = row.id := by
  unfold linkRow
  split <;> rfl

@[simp] theorem linkRow_taskId (ids : List String) (resultId : String) (row : ResultArtifact) :
    (linkRow ids resultId row).taskId = row.taskId := by
  unfold linkRow
  split <;> rfl

theorem linkRow_linked {ids : List String} {resultId : String} {row : ResultArtifact}
    (h : row.resultId.isSome = true) : (linkRow ids resultId row).resultId.isSome = true := by
  unfold linkRow
  split
  · rfl
  · exact h

theorem linkRow_append (ids more : List String) (resultId : String) (row : ResultArtifact) :
    linkRow more resultId (linkRow ids resultId row) = linkRow (ids ++ more) resultId row := by
  unfold linkRow
  by_cases hids : row.id ∈ ids <;> by_cases hmore : row.id ∈ more <;> simp [hids, hmore]

/-- The commit of an event: its row, the status that goes with it, and the artifacts that are linked. -/
structure Committed (ids : List String) (resultId : String) (row : TaskEvent) (db db' : Database) : Prop where
  events : db'.taskEvents = (insertEvent row db).taskEvents
  status : ∀ v, db'.status v =
    if v = row.taskId then (db.status v).map (rowStatus row).getD else db.status v
  artifacts : db'.resultArtifacts = db.resultArtifacts.map (linkRow ids resultId)

variable {ids : List String} {resultId : String} {row : TaskEvent}

theorem Committed.perm (h : Committed ids resultId row db db') :
    db'.taskEvents.Perm (row :: db.taskEvents) := by
  rw [h.events]
  exact List.perm_orderedInsert _ row db.taskEvents

theorem Committed.references (h : Committed ids resultId row db db') :
    (allReferences settings db').Perm ((referenced settings row).toList ++ allReferences settings db) := by
  refine (h.perm.filterMap (referenced settings)).trans (List.Perm.of_eq ?_)
  rw [List.filterMap_cons, allReferences]
  cases referenced settings row <;> rfl

theorem Committed.mem_eventArtifacts (h : Committed ids resultId row db db') :
    a ∈ eventArtifacts settings db' t ↔
      a ∈ eventArtifacts settings db t ∨ row.taskId = t ∧ referenced settings row = some a := by
  rw [ArtifactEvents.mem_eventArtifacts, ArtifactEvents.mem_eventArtifacts]
  constructor
  · rintro ⟨other, hmem, hother⟩
    rcases List.mem_cons.mp (h.perm.mem_iff.mp hmem) with rfl | hmem
    · exact .inr hother
    · exact .inl ⟨other, hmem, hother⟩
  · rintro (⟨other, hmem, hother⟩ | hrow)
    · exact ⟨other, h.perm.mem_iff.mpr (List.mem_cons_of_mem _ hmem), hother⟩
    · exact ⟨row, h.perm.mem_iff.mpr List.mem_cons_self, hrow⟩

/-- An event without a status leaves every status. -/
theorem Committed.status_same (h : Committed ids resultId row db db')
    (hsame : rowStatus row = none ∨ t ≠ row.taskId) : db'.status t = db.status t := by
  rw [h.status t]
  split
  · rename_i heq
    rcases hsame with hnone | hne
    · rw [hnone]
      cases db.status t <;> rfl
    · exact absurd heq hne
  · rfl

/-- A transaction that changes a status finds the task not ended. -/
def FindsOpen (row : TaskEvent) (db : Database) : Prop :=
  ∀ new ∈ rowStatus row, ∀ status ∈ db.status row.taskId, status.isTerminal = false

theorem Lost.commit (h : Lost db t) (hc : Committed ids resultId row db db') (hopen : FindsOpen row db) :
    Lost db' t := by
  have hsame : rowStatus row = none ∨ t ≠ row.taskId := by
    cases hnew : rowStatus row with
    | none => exact .inl rfl
    | some new =>
      right
      rintro rfl
      rcases h with h | h
      · cases hopen new hnew _ h
      · cases hopen new hnew _ h
  rw [Lost, hc.status_same hsame]
  exact h

/-- What the event of a commit refers to: an artifact that no other event refers to, which is there
unless the task is lost. -/
def Refers (settings : Settings) (drawn : List String) (db : Database) (row : TaskEvent) : Prop :=
  ∀ a ∈ referenced settings row, rowStatus row = none ∧ a ∈ drawn ∧ a ∉ allReferences settings db ∧
    (Lost db row.taskId ∨ ∃ artifact ∈ db.resultArtifacts, artifact.id = a ∧ artifact.taskId = row.taskId)

/-- Only the completion of their own task links artifacts. -/
def LinksOwn (ids : List String) (row : TaskEvent) (db : Database) : Prop :=
  ∀ artifact ∈ db.resultArtifacts, artifact.id ∈ ids →
    artifact.taskId = row.taskId ∧ rowStatus row = some .completed

theorem linkRow_of_not_mem {artifact : ResultArtifact} (h : artifact.id ∉ ids) :
    linkRow ids resultId artifact = artifact := by
  simp [linkRow, h]

theorem Ledger.commit (h : Ledger settings drawn db) (hc : Committed ids resultId row db db')
    (hevent : row.type = "task.result.created" → (referenced settings row).isSome = true)
    (hrefers : Refers settings drawn db row) (hlinks : LinksOwn ids row db) (hopen : FindsOpen row db)
    (hsettled : rowStatus row = some .completed → ∀ artifact ∈ db'.resultArtifacts,
      artifact.taskId = row.taskId → artifact.resultId.isSome = true ∧
        artifact.id ∈ eventArtifacts settings db row.taskId) : Ledger settings drawn db' where
  events := by
    intro other hother
    rcases List.mem_cons.mp (hc.perm.mem_iff.mp hother) with rfl | hother
    · exact hevent
    · exact h.events other hother
  references := by
    rw [hc.references.nodup_iff]
    cases hrow : referenced settings row with
    | none => exact h.references
    | some a => exact List.nodup_cons.mpr ⟨(hrefers a hrow).2.2.1, h.references⟩
  referencesDrawn := by
    intro a ha
    rcases List.mem_append.mp (hc.references.mem_iff.mp ha) with hnew | hold
    · exact (hrefers a (Option.mem_toList.mp hnew)).2.1
    · exact h.referencesDrawn a hold
  ids := by
    rw [hc.artifacts, List.map_map]
    have hsame : ResultArtifact.id ∘ linkRow ids resultId = ResultArtifact.id := by
      funext artifact
      exact linkRow_id ids resultId artifact
    rw [hsame]
    exact h.ids
  idsDrawn := by
    rw [hc.artifacts]
    intro artifact hartifact
    obtain ⟨old, hold, rfl⟩ := List.mem_map.mp hartifact
    rw [linkRow_id]
    exact h.idsDrawn old hold
  rows := by
    intro artifact hartifact
    have hnew := hartifact
    rw [hc.artifacts] at hnew
    obtain ⟨old, hold, rfl⟩ := List.mem_map.mp hnew
    by_cases hcompletes : rowStatus row = some .completed ∧ old.taskId = row.taskId
    · left
      have := (hsettled hcompletes.1 _ hartifact (by rw [linkRow_taskId]; exact hcompletes.2)).2
      rw [linkRow_taskId, hcompletes.2]
      exact hc.mem_eventArtifacts.mpr (.inl this)
    · have hnot : old.id ∉ ids := fun hmem => hcompletes (hlinks old hold hmem).symm
      rw [linkRow_of_not_mem hnot]
      refine (h.rows old hold).imp (fun href => hc.mem_eventArtifacts.mpr (.inl href)) ?_
      rintro ⟨hnone, status, hstatus, hne⟩
      refine ⟨hnone, ?_⟩
      by_cases htask : old.taskId = row.taskId
      · cases hrow : rowStatus row with
        | none => exact ⟨status, (hc.status_same (.inl hrow)).trans hstatus, hne⟩
        | some new =>
          refine ⟨new, ?_, fun heq => hcompletes ⟨by rw [hrow, heq], htask⟩⟩
          rw [Option.mem_def] at hstatus
          rw [Option.mem_def, hc.status, if_pos htask, hstatus, hrow]
          rfl
      · exact ⟨status, (hc.status_same (.inr htask)).trans hstatus, hne⟩
  there := by
    intro t a ha
    rcases hc.mem_eventArtifacts.mp ha with hold | ⟨rfl, href⟩
    · rcases h.there t a hold with hlost | ⟨artifact, hmem, hid, htask, hlinked⟩
      · exact .inl (hlost.commit hc hopen)
      · have hnew : linkRow ids resultId artifact ∈ db'.resultArtifacts := by
          rw [hc.artifacts]
          exact List.mem_map_of_mem hmem
        refine .inr ⟨_, hnew, by rw [linkRow_id, hid], by rw [linkRow_taskId, htask], fun hcompleted => ?_⟩
        by_cases hsame : rowStatus row = none ∨ t ≠ row.taskId
        · rw [hc.status_same hsame] at hcompleted
          exact linkRow_linked (hlinked hcompleted)
        · obtain ⟨hsome, heq⟩ := not_or.mp hsame
          rw [not_not] at heq
          have hrow : rowStatus row = some .completed := by
            rw [hc.status, if_pos heq] at hcompleted
            cases hnew : rowStatus row with
            | none => exact absurd hnew hsome
            | some new =>
              rw [hnew] at hcompleted
              obtain ⟨old, -, hold⟩ := Option.map_eq_some_iff.mp hcompleted
              exact congrArg some hold
          refine (hsettled hrow _ hnew ?_).1
          rw [linkRow_taskId, htask, heq]
    · obtain ⟨hnone, -, hfresh, hthere⟩ := hrefers a href
      rcases hthere with hlost | ⟨artifact, hmem, hid, htask⟩
      · exact .inl (hlost.commit hc hopen)
      · right
        refine ⟨linkRow ids resultId artifact, ?_, by rw [linkRow_id, hid], by rw [linkRow_taskId, htask], ?_⟩
        · rw [hc.artifacts]
          exact List.mem_map_of_mem hmem
        · intro hcompleted
          rw [hc.status_same (.inl hnone)] at hcompleted
          rcases h.rows artifact hmem with hbefore | ⟨-, status, hstatus, hne⟩
          · have := (eventArtifacts_sublist settings db artifact.taskId).subset hbefore
            rw [hid] at this
            exact absurd this hfresh
          · rw [htask, hcompleted] at hstatus
            cases hstatus
            exact absurd rfl hne

/-- The forms of its event that a transaction works with. -/
def preparedOf : Phase → Option Prepared
  | .findTask prepared | .findDuplicate prepared _ | .drawId prepared _ | .create prepared _ _
  | .project prepared _ _ _ => some prepared
  | .precheck | .prepare | .publish _ _ | .done => none

/-- The event can be read back, and the event of a result refers to an artifact. -/
def Fits (prepared : Prepared) : Prop :=
  prepared.stored.detail.Storable ∧
    ∀ result, prepared.stored.detail = .resultCreated result → (artifactOf prepared.stored).isSome = true

/-- The artifact that a call has archived and its event is going to refer to, with its task. -/
def heldArtifact (phase : Phase) : Option (String × String) :=
  (preparedOf phase).bind fun prepared =>
    (artifactOf prepared.stored).map fun a => (a, prepared.stored.taskId)

/-- No event refers to the artifact, and it is there unless its task is lost. -/
def HeldInv (settings : Settings) (drawn : List String) (db : Database) (held : String × String) : Prop :=
  held.1 ∈ drawn ∧ held.1 ∉ allReferences settings db ∧
    (Lost db held.2 ∨ ∃ artifact ∈ db.resultArtifacts, artifact.id = held.1 ∧ artifact.taskId = held.2)

/-- What the writes of a transaction link: artifacts of its own task, when it completes it. -/
def LinkedBy (drawn : List String) (db : Database) (writes : List (Database → Database)) (resultId : String)
    (stored : TaskStreamEvent) : Prop :=
  ∃ ids, (∀ db', (applyWrites writes db').resultArtifacts = db'.resultArtifacts.map (linkRow ids resultId)) ∧
    ∀ id ∈ ids, stored.detail = .completed ∧ id ∈ drawn ∧
      ∀ artifact ∈ db.resultArtifacts, artifact.id = id → artifact.taskId = stored.taskId

/-- The transaction links artifacts only when it completes its task. -/
def Linking (drawn : List String) (db : Database) (writes : List (Database → Database)) (call : Call) :
    Prop :=
  match call.phase with
  | .project prepared _ _ todo => (.linkArtifacts ∈ todo → prepared.stored.detail = .completed) ∧
    LinkedBy drawn db writes call.resultId prepared.stored
  | _ => True

/-- A deletion is only of an artifact whose task is lost. -/
def Watched (drawn : List String) (db : Database) (artifact : ResultArtifact) : Prop :=
  artifact.id ∈ drawn ∧ Lost db artifact.taskId ∧
    ∀ row ∈ db.resultArtifacts, row.id = artifact.id → row.taskId = artifact.taskId

structure Inv (settings : Settings) (s : System) : Prop where
  tracked : Tracked s.service
  ledger : Ledger settings s.artifactIds s.db
  fits : ∀ c call, s.service.calls c = some call → ∀ prepared ∈ preparedOf call.phase, Fits prepared
  held : ∀ c call, s.service.calls c = some call → ∀ held ∈ heldArtifact call.phase,
    HeldInv settings s.artifactIds s.db held
  distinct : ∀ c d call call', s.service.calls c = some call → s.service.calls d = some call' →
    ∀ held ∈ heldArtifact call.phase, ∀ held' ∈ heldArtifact call'.phase, held.1 = held'.1 → c = d
  links : ∀ c call, s.service.calls c = some call →
    Linking s.artifactIds s.db (s.service.server.writes c) call
  cleanups : ∀ d cleanup, s.cleanups.get d = some cleanup → ∀ artifact ∈ cleanup.todo,
    Watched s.artifactIds s.db artifact

theorem inv_init (settings : Settings) : Inv settings .init where
  tracked := tracked_init
  ledger := ledger_empty settings
  fits := fun c call h => by cases h
  held := fun c call h => by cases h
  distinct := fun c d call call' h => by cases h
  links := fun c call h => by cases h
  cleanups := fun d cleanup h => by cases h

/-- What a step leaves of what the others hold; `new` is the artifact that a committed event refers to. -/
structure Frame (settings : Settings) (drawn drawn' : List String) (db db' : Database)
    (new : Option String) : Prop where
  grows : ∀ a ∈ drawn, a ∈ drawn'
  lost : ∀ t, Lost db t → Lost db' t
  kept : ∀ artifact ∈ db.resultArtifacts, Lost db' artifact.taskId ∨
    ∃ row ∈ db'.resultArtifacts, row.id = artifact.id ∧ row.taskId = artifact.taskId
  traced : ∀ row ∈ db'.resultArtifacts, row.id ∈ drawn →
    ∃ artifact ∈ db.resultArtifacts, artifact.id = row.id ∧ artifact.taskId = row.taskId
  references : ∀ a ∈ allReferences settings db', a ∈ allReferences settings db ∨ new = some a

variable {drawn' : List String} {new : Option String} {s s' : System} {c : Nat} {call call' : Call}

theorem HeldInv.frame {held : String × String} (h : HeldInv settings drawn db held)
    (hframe : Frame settings drawn drawn' db db' new) (hother : new ≠ some held.1) :
    HeldInv settings drawn' db' held := by
  obtain ⟨hdrawn, hfree, hthere⟩ := h
  refine ⟨hframe.grows _ hdrawn, fun hmem => ?_, ?_⟩
  · rcases hframe.references _ hmem with hold | hnew
    · exact hfree hold
    · exact hother hnew
  · rcases hthere with hlost | ⟨artifact, hmem, hid, htask⟩
    · exact .inl (hframe.lost _ hlost)
    · rcases hframe.kept artifact hmem with hlost | ⟨row, hrow, hrid, hrtask⟩
      · exact .inl (htask ▸ hlost)
      · exact .inr ⟨row, hrow, hrid.trans hid, hrtask.trans htask⟩

theorem Linking.frame {writes : List (Database → Database)} (h : Linking drawn db writes call)
    (hframe : Frame settings drawn drawn' db db' new) : Linking drawn' db' writes call := by
  unfold Linking at h ⊢
  split
  · rename_i prepared task id todo hphase
    rw [hphase] at h
    obtain ⟨htodo, ids, hwrites, hids⟩ := h
    refine ⟨htodo, ids, hwrites, fun id hid => ?_⟩
    obtain ⟨hcompleted, hdrawn, hown⟩ := hids id hid
    refine ⟨hcompleted, hframe.grows _ hdrawn, fun row hrow heq => ?_⟩
    obtain ⟨artifact, hmem, haid, hatask⟩ := hframe.traced row hrow (heq ▸ hdrawn)
    exact hatask.symm.trans (hown artifact hmem (haid.trans heq))
  · trivial

theorem Watched.frame {artifact : ResultArtifact} (h : Watched drawn db artifact)
    (hframe : Frame settings drawn drawn' db db' new) : Watched drawn' db' artifact := by
  obtain ⟨hdrawn, hlost, hown⟩ := h
  refine ⟨hframe.grows _ hdrawn, hframe.lost _ hlost, fun row hrow heq => ?_⟩
  obtain ⟨old, hmem, hid, htask⟩ := hframe.traced row hrow (heq ▸ hdrawn)
  exact htask.symm.trans (hown old hmem (hid.trans heq))

/-- One call moves at most, and the others keep what they hold. -/
theorem Inv.move (h : Inv settings s) (c : Nat) (moved : Option Call) (htracked : Tracked s'.service)
    (hledger : Ledger settings s'.artifactIds s'.db)
    (hframe : Frame settings s.artifactIds s'.artifactIds s.db s'.db new)
    (hcalls : ∀ d call, s'.service.calls d = some call → d = c ∧ moved = some call ∨
      s.service.calls d = some call ∧ s'.service.server.writes d = s.service.server.writes d ∧
        (d ≠ c ∨ new = none))
    (hnew : ∀ a, new = some a → ∃ call t, s.service.calls c = some call ∧
      heldArtifact call.phase = some (a, t))
    (hfits : ∀ call ∈ moved, ∀ prepared ∈ preparedOf call.phase, Fits prepared)
    (hheld : ∀ call ∈ moved, ∀ held ∈ heldArtifact call.phase, HeldInv settings s'.artifactIds s'.db held ∧
      (held.1 ∉ s.artifactIds ∨ ∃ call, s.service.calls c = some call ∧ held ∈ heldArtifact call.phase))
    (hlinks : ∀ call ∈ moved, Linking s'.artifactIds s'.db (s'.service.server.writes c) call)
    (hcleanups : ∀ d cleanup, s'.cleanups.get d = some cleanup → ∀ artifact ∈ cleanup.todo,
      Watched s.artifactIds s.db artifact) : Inv settings s' where
  tracked := htracked
  ledger := hledger
  fits := by
    intro d call hd
    rcases hcalls d call hd with ⟨-, hmoved⟩ | ⟨hold, -⟩
    · exact hfits call hmoved
    · exact h.fits d call hold
  held := by
    intro d call hd held hmem
    rcases hcalls d call hd with ⟨-, hmoved⟩ | ⟨hold, -, hother⟩
    · exact (hheld call hmoved held hmem).1
    · refine (h.held d call hold held hmem).frame hframe fun heq => ?_
      rcases hother with hne | hnone
      · obtain ⟨mover, t, hmover, hmoves⟩ := hnew _ heq
        exact hne (h.distinct d c call mover hold hmover held hmem _ hmoves rfl)
      · rw [hnone] at heq
        cases heq
  distinct := by
    -- an artifact that the moving call has not held before is a new one
    have hfirst : ∀ d mover call, moved = some mover → s.service.calls d = some call →
        ∀ held ∈ heldArtifact mover.phase, ∀ held' ∈ heldArtifact call.phase, held.1 = held'.1 → c = d := by
      intro d mover call hmoved hd held hmem held' hmem' heq
      rcases (hheld mover hmoved held hmem).2 with hfresh | ⟨old, hold, holds⟩
      · exact absurd (heq ▸ (h.held d call hd held' hmem').1) hfresh
      · exact h.distinct c d old call hold hd held holds held' hmem' heq
    intro d e one other hone hother held hmem held' hmem' heq
    rcases hcalls d one hone with ⟨rfl, hmoved⟩ | ⟨hold, -⟩ <;>
      rcases hcalls e other hother with ⟨rfl, hmoved'⟩ | ⟨hold', -⟩
    · rfl
    · exact hfirst e one other hmoved hold' held hmem held' hmem' heq
    · exact (hfirst d other one hmoved' hold held' hmem' held hmem heq.symm).symm
    · exact h.distinct d e one other hold hold' held hmem held' hmem' heq
  links := by
    intro d call hd
    rcases hcalls d call hd with ⟨rfl, hmoved⟩ | ⟨hold, hwrites, -⟩
    · exact hlinks call hmoved
    · rw [hwrites]
      exact (h.links d call hold).frame hframe
  cleanups := fun d cleanup hget artifact hmem => (hcleanups d cleanup hget artifact hmem).frame hframe

/-- No call moves. -/
theorem Inv.still (h : Inv settings s) (htracked : Tracked s'.service)
    (hledger : Ledger settings s'.artifactIds s'.db)
    (hframe : Frame settings s.artifactIds s'.artifactIds s.db s'.db none)
    (hcalls : s'.service.calls = s.service.calls)
    (hwrites : s'.service.server.writes = s.service.server.writes)
    (hcleanups : ∀ d cleanup, s'.cleanups.get d = some cleanup → ∀ artifact ∈ cleanup.todo,
      Watched s.artifactIds s.db artifact) : Inv settings s' := by
  refine h.move 0 none htracked hledger hframe (fun d call hd => ?_) ?_ ?_ ?_ ?_ hcleanups
  · rw [hcalls] at hd
    exact .inr ⟨hd, congrFun hwrites d, .inr rfl⟩
  all_goals
    intro _ hnone
    cases hnone

theorem frame_quiet (hevents : db'.taskEvents = db.taskEvents)
    (hartifacts : db'.resultArtifacts = db.resultArtifacts)
    (hstatus : ∀ v, StatusMoves (db.status v) (db'.status v)) :
    Frame settings drawn drawn db db' none where
  grows := fun a ha => ha
  lost := fun t hlost => hlost.moves (hstatus t)
  kept := by
    rw [hartifacts]
    exact fun artifact hmem => .inr ⟨artifact, hmem, rfl, rfl⟩
  traced := by
    rw [hartifacts]
    exact fun row hrow _ => ⟨row, hrow, rfl, rfl⟩
  references := by
    rw [(references_of_same hevents).1]
    exact fun a ha => .inl ha

theorem frame_commit (hc : Committed ids resultId row db db') (hopen : FindsOpen row db) :
    Frame settings drawn drawn db db' (referenced settings row) where
  grows := fun a ha => ha
  lost := fun t hlost => hlost.commit hc hopen
  kept := by
    rw [hc.artifacts]
    intro artifact hmem
    exact .inr ⟨_, List.mem_map_of_mem hmem, linkRow_id .., linkRow_taskId ..⟩
  traced := by
    rw [hc.artifacts]
    intro artifact hmem _
    obtain ⟨old, hold, rfl⟩ := List.mem_map.mp hmem
    exact ⟨old, hold, (linkRow_id ..).symm, (linkRow_taskId ..).symm⟩
  references := by
    intro a ha
    rcases List.mem_append.mp (hc.references.mem_iff.mp ha) with hnew | hold
    · exact .inr (Option.mem_toList.mp hnew)
    · exact .inl hold

theorem frame_archive {artifact : ResultArtifact} (hfresh : artifact.id ∉ drawn) :
    Frame settings drawn (artifact.id :: drawn) db
      { db with resultArtifacts := db.resultArtifacts ++ [artifact] } none where
  grows := fun a ha => List.mem_cons_of_mem _ ha
  lost := fun t hlost => hlost
  kept := fun old hold => .inr ⟨old, List.mem_append_left _ hold, rfl, rfl⟩
  traced := by
    intro row hrow hdrawn
    rcases List.mem_append.mp hrow with hold | hnew
    · exact ⟨row, hold, rfl, rfl⟩
    · rw [List.mem_singleton.mp hnew] at hdrawn
      exact absurd hdrawn hfresh
  references := fun a ha => .inl ha

theorem frame_delete {id : String} (hlost : ∀ row ∈ db.resultArtifacts, row.id = id → Lost db row.taskId) :
    Frame settings drawn drawn db (deleteRow db id) none where
  grows := fun a ha => ha
  lost := fun t hlost => hlost
  kept := by
    intro artifact hmem
    by_cases hid : artifact.id = id
    · exact .inl (hlost artifact hmem hid)
    · exact .inr ⟨artifact, List.mem_filter.mpr ⟨hmem, decide_eq_true hid⟩, rfl, rfl⟩
  traced := fun row hrow _ => ⟨row, (List.mem_filter.mp hrow).1, rfl, rfl⟩
  references := fun a ha => .inl ha

/-- The event that is stored can be read back, and refers to the artifact that was archived. -/
theorem fits_prepare {archived : Option Archived} {event : TaskStreamEvent} {prepared : Prepared}
    (h : prepareTaskEvent archived event = some prepared) :
    Fits prepared ∧ prepared.stored.taskId = event.taskId ∧
      ∀ a ∈ artifactOf prepared.stored, ∃ artifact found, event.detail = .resultCreated (.artifact artifact) ∧
        archived = some found ∧ a = found.artifactId := by
  have hstorable := prepareTaskEvent_storable h
  obtain ⟨detail, taskId, sessionId, runId, timestamp⟩ := event
  cases detail with
  | resultCreated result =>
    cases result with
    | record fields => cases h
    | artifact a =>
      simp only [prepareTaskEvent] at h
      split at h
      · cases h
      · obtain ⟨found, hfound, rfl⟩ := Option.map_eq_some_iff.mp h
        refine ⟨⟨hstorable, fun _ _ => rfl⟩, rfl, fun b hb => ⟨a, found, rfl, hfound, ?_⟩⟩
        cases hb
        rfl
  | _ =>
    cases h
    exact ⟨⟨hstorable, fun _ hresult => by cases hresult⟩, rfl, fun b hb => by cases hb⟩

theorem referenced_eventRow {prepared : Prepared} (h : Fits prepared) (source : Option String) (id : Nat) :
    referenced settings (eventRow prepared.stored source id) = artifactOf prepared.stored := by
  simp only [referenced, eventRow, parsePersistedEvent, parseTaskStreamEvent_toJson h.1, Option.bind_some]

/-- A call holds what it held, nothing, or what it has archived. -/
theorem preparedOf_moves {old phase : Phase} {s : PersistCalls.System} (h : PhaseMoves s old phase) :
    preparedOf phase = none ∨ preparedOf phase = preparedOf old ∨ old = .prepare := by
  cases h with
  | skip | check | fail | leave | commit | publish => exact .inl rfl
  | prepare => exact .inr (.inr rfl)
  | find | fresh | draw | create | execute => exact .inr (.inl rfl)

theorem linkedBy_nil (stored : TaskStreamEvent) : LinkedBy drawn db [] resultId stored := by
  refine ⟨[], fun db' => ?_, fun id hid => by cases hid⟩
  have hid : linkRow [] resultId = id := by
    funext artifact
    rfl
  rw [hid, List.map_id]
  rfl

theorem LinkedBy.write {writes : List (Database → Database)} {stored : TaskStreamEvent}
    (h : LinkedBy drawn db writes resultId stored) {w : Database → Database}
    (hw : ∀ db, (w db).resultArtifacts = db.resultArtifacts) :
    LinkedBy drawn db (writes ++ [w]) resultId stored := by
  obtain ⟨ids, hwrites, hids⟩ := h
  refine ⟨ids, fun db' => ?_, hids⟩
  rw [applyWrites_append]
  exact (hw _).trans (hwrites db')

/-- The link statement finds artifacts of its task. -/
theorem LinkedBy.link {writes : List (Database → Database)} {stored : TaskStreamEvent}
    (h : LinkedBy drawn db writes resultId stored) (hledger : Ledger settings drawn db)
    (hcompleted : stored.detail = .completed) : LinkedBy drawn db
      (writes ++ [linkRows (unlinkedArtifacts stored.taskId (applyWrites writes db)) resultId]) resultId
      stored := by
  obtain ⟨ids, hwrites, hids⟩ := h
  refine ⟨ids ++ unlinkedArtifacts stored.taskId (applyWrites writes db), fun db' => ?_, fun id hid => ?_⟩
  · simp only [applyWrites_append, applyWrites_cons, applyWrites_nil]
    rw [linkRows_eq, hwrites db', List.map_map]
    congr 1
    funext artifact
    exact linkRow_append ids _ resultId artifact
  · rcases List.mem_append.mp hid with hold | hnew
    · exact hids id hold
    · obtain ⟨seen, hseen, rfl⟩ := List.mem_map.mp hnew
      obtain ⟨hmem, hquery⟩ := List.mem_filter.mp hseen
      rw [hwrites db] at hmem
      obtain ⟨old, hold, rfl⟩ := List.mem_map.mp hmem
      have htask := of_decide_eq_true (Bool.and_eq_true_iff.mp hquery).1
      rw [linkRow_taskId] at htask
      rw [linkRow_id]
      refine ⟨hcompleted, hledger.idsDrawn old hold, fun artifact hartifact heq => ?_⟩
      rw [row_eq_of_id hledger.ids hartifact hold heq]
      exact htask

/-- A write other than the link statement touches no artifact. -/
theorem writes_artifacts {s : PersistCalls.System} {w : Database → Database} (hw : Writes s c call w) :
    (∀ db, (w db).resultArtifacts = db.resultArtifacts) ∨
      ∃ prepared task id todo, call.phase = .project prepared task id (.linkArtifacts :: todo) ∧
        w = linkRows (unlinkedArtifacts task.id (s.server.view c)) call.resultId := by
  cases hw with
  | event hphase => exact .inl fun db => rfl
  | task hphase => exact .inl fun db => db.updateTask_resultArtifacts ..
  | session hphase => exact .inl fun db => db.updateSession_resultArtifacts ..
  | result hphase => exact .inl fun db => rfl
  | artifacts hphase => exact .inr ⟨_, _, _, _, hphase, rfl⟩

theorem detail_of_status {detail : TaskEventDetail} (h : .linkArtifacts ∈ statements detail) :
    detail = .completed := by
  cases detail <;> simp [statements] at h ⊢

/-- The link statement is of the completion of its task. -/
theorem linking_moves {s : PersistCalls.System} {phase : Phase} {writes : List (Database → Database)}
    (h : Linking drawn db writes call) (hmoves : PhaseMoves s call.phase phase) {prepared : Prepared}
    {task : Task} {id : Nat} {todo : List Statement} (hphase : phase = .project prepared task id todo) :
    (.linkArtifacts ∈ todo → prepared.stored.detail = .completed) ∧
      (call.phase = .create prepared task id ∨ ∃ statement todo',
        call.phase = .project prepared task id (statement :: todo') ∧
        LinkedBy drawn db writes call.resultId prepared.stored ∧
        (statement = .linkArtifacts → prepared.stored.detail = .completed)) := by
  generalize hold : call.phase = old at hmoves
  cases hmoves with
  | create =>
    cases hphase
    exact ⟨detail_of_status, .inl rfl⟩
  | execute hlinks =>
    cases hphase
    unfold Linking at h
    rw [hold] at h
    refine ⟨fun hmem => h.1 (List.mem_cons_of_mem _ (hlinks hmem)), .inr ⟨_, _, rfl, h.2, ?_⟩⟩
    rintro rfl
    exact h.1 List.mem_cons_self
  | _ => cases hphase

theorem linking_advance (h : Inv settings s) (hcall : s.service.calls c = some call)
    {service : PersistCalls.System} {phase : Phase}
    (hstep : s.service.advance settings c call = some service)
    (hmoves : PhaseMoves s.service call.phase phase) :
    Linking s.artifactIds s.db (service.server.writes c) { call with phase } := by
  unfold Linking
  split
  · rename_i prepared task id todo hphase
    obtain ⟨htodo, hold⟩ := linking_moves (h.links c call hcall) hmoves hphase
    refine ⟨htodo, ?_⟩
    have hpending := h.tracked.pending c call hcall
    rw [Pending] at hpending
    have hbefore : LinkedBy s.artifactIds s.db (s.service.server.writes c) call.resultId prepared.stored := by
      rcases hold with hcreate | ⟨_, _, -, hlinked, -⟩
      · rw [hcreate] at hpending
        rw [hpending.1]
        exact linkedBy_nil _
      · exact hlinked
    have hserver := serverMoves_advance hstep
    generalize service.server = server at hserver
    cases hserver with
    | stays hdb hwrites =>
      rw [hwrites]
      exact hbefore
    | draws hdraw =>
      rw [Server.direct_writes]
      exact hbefore
    | writes hw hdb hwrites =>
      rw [Server.write_writes, if_pos rfl, hwrites]
      rcases writes_artifacts hw with hsame | ⟨prepared', task', id', todo', hlink, rfl⟩
      · exact hbefore.write hsame
      · rcases hold with hcreate | ⟨statement, todo'', hproject, -, hcompletes⟩
        · rw [hcreate] at hlink
          cases hlink
        · rw [hproject] at hlink hpending
          cases hlink
          rw [hpending.1]
          exact hbefore.link h.ledger (hcompletes rfl)
    | leaves hdb hwrites =>
      rw [Server.rollback_writes, if_pos rfl]
      exact linkedBy_nil _
    | commits hcommit =>
      rw [Server.commit_writes, Server.rollback_writes, if_pos rfl]
      exact linkedBy_nil _
  · trivial

/-- What a call is going to hold, when its next step archives nothing. -/
theorem holds_advance (h : Inv settings s) (hcall : s.service.calls c = some call)
    (harchive : archiving call = none) {service : PersistCalls.System} {phase : Phase}
    (hstep : s.service.advance settings c call = some service)
    (hcalls : service.calls = Function.update s.service.calls c (some { call with phase }))
    (hmoves : PhaseMoves s.service call.phase phase) :
    (∀ prepared ∈ preparedOf phase, Fits prepared) ∧
      ∀ held ∈ heldArtifact phase, held ∈ heldArtifact call.phase := by
  rcases preparedOf_moves hmoves with hnone | hsame | hprepare
  · constructor
    · intro prepared hprepared
      rw [hnone] at hprepared
      cases hprepared
    · intro held hheld
      rw [heldArtifact, hnone] at hheld
      cases hheld
  · constructor
    · intro prepared hprepared
      rw [hsame] at hprepared
      exact h.fits c call hcall prepared hprepared
    · intro held hheld
      rw [heldArtifact, hsame] at hheld
      exact hheld
  · simp only [System.advance, hprepare] at hstep
    have hphase : service.calls c = some { call with phase } := by
      rw [hcalls, Function.update_self]
    split at hstep <;> cases hstep <;> rw [goto_calls, if_pos rfl] at hphase <;> cases hphase
    · rename_i prepared hprepared
      obtain ⟨hfits, -, hart⟩ := fits_prepare hprepared
      constructor
      · intro other hother
        cases hother
        exact hfits
      · intro held hheld
        obtain ⟨a, ha, -⟩ := Option.map_eq_some_iff.mp hheld
        obtain ⟨artifact, found, hdetail, hfound, -⟩ := hart a ha
        simp [archiving, hprepare, hdetail, hfound] at harchive
        rw [hfound] at hprepared
        rw [harchive] at hprepared
        cases hprepared
    · constructor
      · intro other hother
        cases hother
      · intro held hheld
        cases hheld

/-- Only an archive creates artifacts. -/
theorem single_artifacts {tx : Single} (h : tx.apply settings db = some db')
    (harchive : ∀ row, tx ≠ .archive row) : db'.resultArtifacts = db.resultArtifacts := by
  cases tx with
  | enqueue new => exact enqueue_artifacts h
  | archive row => exact absurd rfl (harchive row)
  | setSessionRunning sessionId =>
    cases h
    exact Database.updateSession_resultArtifacts ..
  | _ =>
    cases h
    exact Database.updateTask_resultArtifacts ..

/-- What a call that neither archives nor commits does to the tables and to the others. -/
theorem advance_artifacts {service : PersistCalls.System}
    (hstep : s.service.advance settings c call = some service) (hcommit : callCommits call = none) :
    service.db.resultArtifacts = s.db.resultArtifacts := by
  have hserver := serverMoves_advance hstep
  rw [PersistCalls.System.db]
  generalize service.server = server at hserver
  cases hserver with
  | stays hdb hwrites =>
    rw [hdb]
    rfl
  | draws hdraw => rfl
  | writes hw hdb hwrites =>
    rw [Server.write_db, hdb]
    rfl
  | leaves hdb hwrites =>
    rw [Server.rollback_db, hdb]
    rfl
  | commits hphase => simp [callCommits, hphase] at hcommit

/-- A step of the service that commits no event and archives nothing. -/
theorem inv_quiet (h : Inv settings s) {l : PersistCalls.Label} {service : PersistCalls.System}
    (harchive : archives s l = none) (hsingle : isArchive l = false)
    (hstep : PersistCalls.step settings s.service l = some service)
    (hcommit : committing s.service l = none) : Inv settings { s with service } := by
  have htracked := tracked_step h.tracked hstep
  obtain ⟨hevents, hstatus, -⟩ := step_quiet hstep hcommit
  have hsame (hartifacts : service.db.resultArtifacts = s.db.resultArtifacts) :
      Ledger settings s.artifactIds service.db ∧
        Frame settings s.artifactIds s.artifactIds s.db service.db none :=
    ⟨h.ledger.quiet hevents hartifacts hstatus, frame_quiet hevents hartifacts hstatus⟩
  cases l with
  | call c event archived source now resultId =>
    obtain ⟨-, rfl⟩ := step_call_eq_some hstep
    obtain ⟨hledger, hframe⟩ := hsame rfl
    refine h.move c (some ⟨event, archived, source, now, resultId, .precheck⟩) htracked hledger hframe
      (fun d call hd => ?_) (fun a ha => by cases ha) ?_ ?_ ?_
      h.cleanups
    · simp only [Function.update_apply] at hd
      split at hd
      · rename_i heq
        exact .inl ⟨heq, hd⟩
      · exact .inr ⟨hd, rfl, .inr rfl⟩
    · intro call hcall prepared hp
      cases hcall
      cases hp
    · intro call hcall held hheld
      cases hcall
      cases hheld
    · intro call hcall
      cases hcall
      trivial
  | advance c =>
    obtain ⟨call, hcall, hstep⟩ := Option.bind_eq_some_iff.mp hstep
    have hnone : archiving call = none := by
      simpa [archives, hcall] using harchive
    have hnotcommit : callCommits call = none := by
      simpa [committing, hcall] using hcommit
    obtain ⟨phase, hcalls, hmoves⟩ := advance_moves h.tracked hcall hstep
    obtain ⟨hfits, hholds⟩ := holds_advance h hcall hnone hstep hcalls hmoves
    obtain ⟨hledger, hframe⟩ := hsame (advance_artifacts hstep hnotcommit)
    have hothers : ∀ d, d ≠ c → service.server.writes d = s.service.server.writes d :=
      fun d hne => (serverMoves_advance hstep).others hne
    refine h.move c (some { call with phase }) htracked hledger hframe (fun d other hd => ?_)
      (fun a ha => by cases ha) ?_ ?_ ?_
      h.cleanups
    · change service.calls d = some other at hd
      rw [hcalls, Function.update_apply] at hd
      split at hd
      · rename_i heq
        exact .inl ⟨heq, hd⟩
      · rename_i hne
        exact .inr ⟨hd, hothers d hne, .inr rfl⟩
    · intro moved hmoved
      cases hmoved
      exact hfits
    · intro moved hmoved held hheld
      cases hmoved
      have hbefore := hholds held hheld
      exact ⟨(h.held c call hcall held hbefore).frame hframe (by simp), .inr ⟨call, hcall, hbefore⟩⟩
    · intro moved hmoved
      cases hmoved
      exact (linking_advance h hcall hstep hmoves).frame hframe
  | abort c =>
    obtain ⟨call, hcall, hstep⟩ := Option.bind_eq_some_iff.mp hstep
    split at hstep <;> cases hstep
    obtain ⟨hledger, hframe⟩ := hsame rfl
    refine h.move c (some { call with phase := .done }) htracked hledger hframe (fun d other hd => ?_)
      (fun a ha => by cases ha) ?_ ?_ ?_
      h.cleanups
    · change (s.service.leave c call).calls d = some other at hd
      rw [leave_calls] at hd
      split at hd
      · rename_i heq
        exact .inl ⟨heq, hd⟩
      · rename_i hne
        refine .inr ⟨hd, ?_, .inr rfl⟩
        change (s.service.server.rollback c).writes d = s.service.server.writes d
        rw [Server.rollback_writes, if_neg hne]
    · intro moved hmoved prepared hp
      cases hmoved
      cases hp
    · intro moved hmoved held hheld
      cases hmoved
      cases hheld
    · intro moved hmoved
      cases hmoved
      trivial
  | single tx =>
    obtain ⟨-, db, hdb, rfl⟩ := step_single_eq_some hstep
    have hnot : ∀ row, tx ≠ .archive row := by
      rintro row rfl
      cases hsingle
    obtain ⟨hledger, hframe⟩ := hsame (single_artifacts hdb hnot)
    exact h.still htracked hledger hframe rfl rfl h.cleanups

theorem newStatus_of_artifact {event : TaskStreamEvent} (h : artifactOf event = some a) :
    newStatus event.detail = none := by
  unfold artifactOf at h
  split at h
  · rfl
  · cases h

theorem detail_of_literal {detail : TaskEventDetail} (h : detail.literal = "task.result.created") :
    ∃ result, detail = .resultCreated result := by
  cases detail with
  | resultCreated result => exact ⟨result, rfl⟩
  | _ => simp [TaskEventDetail.literal] at h

/-- The commit of an event. -/
theorem inv_commit (h : Inv settings s) (hcall : s.service.calls c = some call) {prepared : Prepared}
    {task : Task} {id : Nat} (hphase : call.phase = .project prepared task id [])
    {service : PersistCalls.System} (hstep : s.service.advance settings c call = some service)
    (htracked : Tracked service)
    (hopen : FindsOpen (eventRow prepared.stored call.sourceEventId id) s.db)
    (hsettled : newStatus prepared.stored.detail = some .completed →
      Settled settings s c prepared.stored.taskId) : Inv settings { s with service } := by
  have hrow : callCommits call = some (eventRow prepared.stored call.sourceEventId id) := by
    rw [callCommits, hphase]
  obtain ⟨hevents, -, hstatus⟩ := advance_commit h.tracked hcall hstep hrow
  have hfits : Fits prepared := h.fits c call hcall prepared (by rw [hphase]; rfl)
  have hreferenced := @referenced_eventRow settings _ hfits call.sourceEventId id
  have hrowStatus := rowStatus_eventRow prepared.stored call.sourceEventId id
  have hlinking := h.links c call hcall
  rw [Linking, hphase] at hlinking
  obtain ⟨-, ids, hwrites, hids⟩ := hlinking
  simp only [System.advance, hphase, Option.some.injEq] at hstep
  have hview : service.db = s.service.server.view c := by
    rw [← hstep]
    rfl
  have hc : Committed ids call.resultId (eventRow prepared.stored call.sourceEventId id) s.db service.db := by
    refine ⟨hevents, hstatus, ?_⟩
    rw [hview]
    exact hwrites s.db
  have hheld : ∀ a, artifactOf prepared.stored = some a →
      heldArtifact call.phase = some (a, prepared.stored.taskId) := by
    intro a ha
    rw [heldArtifact, hphase]
    simp [preparedOf, ha]
  have hrefers : Refers settings s.artifactIds s.db (eventRow prepared.stored call.sourceEventId id) := by
    intro a ha
    rw [hreferenced] at ha
    rw [hrowStatus]
    exact ⟨newStatus_of_artifact ha, h.held c call hcall _ (hheld a ha)⟩
  have hown : LinksOwn ids (eventRow prepared.stored call.sourceEventId id) s.db := by
    intro artifact hmem hid
    obtain ⟨hcompleted, -, htask⟩ := hids _ hid
    exact ⟨htask artifact hmem rfl, by rw [hrowStatus, hcompleted]; rfl⟩
  have hevent : (eventRow prepared.stored call.sourceEventId id).type = "task.result.created" →
      (referenced settings (eventRow prepared.stored call.sourceEventId id)).isSome = true := by
    intro htype
    obtain ⟨result, hresult⟩ := detail_of_literal htype
    rw [hreferenced]
    exact hfits.2 result hresult
  have hledger : Ledger settings s.artifactIds service.db := by
    refine h.ledger.commit hc hevent hrefers hown hopen fun hcompleted artifact hmem htask => ?_
    rw [hrowStatus] at hcompleted
    rw [hview] at hmem
    exact hsettled hcompleted artifact hmem htask
  refine h.move c (some { call with phase := .publish prepared id }) htracked hledger
    (frame_commit hc hopen) (fun d other hd => ?_) (fun a ha => ?_) ?_ ?_ ?_ h.cleanups
  · change service.calls d = some other at hd
    rw [← hstep, goto_calls] at hd
    split at hd
    · rename_i heq
      exact .inl ⟨heq, hd⟩
    · rename_i hne
      refine .inr ⟨hd, ?_, .inl hne⟩
      change service.server.writes d = _
      rw [← hstep, goto_server, Server.commit_writes, Server.rollback_writes, if_neg hne]
  · rw [hreferenced] at ha
    exact ⟨call, _, hcall, hheld a ha⟩
  · intro moved hmoved prepared hp
    cases hmoved
    cases hp
  · intro moved hmoved held hh
    cases hmoved
    cases hh
  · intro moved hmoved
    cases hmoved
    trivial

theorem archiving_eq_some {artifact : Artifact} {archived : Archived} {prepared : Prepared}
    (h : archiving call = some (artifact, archived, prepared)) :
    call.phase = .prepare ∧ call.event.detail = .resultCreated (.artifact artifact) ∧
      call.archived = some archived ∧ prepareTaskEvent call.archived call.event = some prepared := by
  unfold archiving at h
  split at h
  · rename_i hphase hdetail harchived
    obtain ⟨found, hfound, heq⟩ := Option.map_eq_some_iff.mp h
    cases heq
    exact ⟨hphase, hdetail, harchived, hfound⟩
  · cases h

/-- An archive of a task that is not completed. -/
theorem inv_archive (h : Inv settings s) (hcall : s.service.calls c = some call) {artifact : Artifact}
    {archived : Archived} {prepared : Prepared} {task : Task}
    (harchiving : archiving call = some (artifact, archived, prepared))
    (htask : s.db.tasks.get call.event.taskId = some task)
    (hfresh : archived.artifactId ∉ s.artifactIds)
    (hopen : ∀ status ∈ s.db.status call.event.taskId, status ≠ .completed) :
    Inv settings (s.archive c call prepared (archivedRow task artifact archived)) := by
  obtain ⟨hphase, hdetail, harchived, hprepared⟩ := archiving_eq_some harchiving
  obtain ⟨hfits, hsame, hart⟩ := fits_prepare hprepared
  have hid : task.id = call.event.taskId := h.tracked.keyed _ _ htask
  have hframe : Frame settings s.artifactIds (archived.artifactId :: s.artifactIds) s.db _ none :=
    @frame_archive _ _ _ (archivedRow task artifact archived) hfresh
  have hpending := h.tracked.pending c call hcall
  rw [Pending, hphase] at hpending
  have htracked : Tracked (s.archive c call prepared (archivedRow task artifact archived)).service := by
    refine h.tracked.goto rfl ?_ (fun d hne => rfl) hpending
    exact h.tracked.keyed
  have hledger := @Ledger.archive _ _ _ h.ledger (archivedRow task artifact archived) hfresh rfl (by
    have hstatus : s.db.status call.event.taskId = some task.status := by
      rw [Database.status, htask]
      rfl
    refine ⟨task.status, ?_, hopen _ hstatus⟩
    change s.db.status task.id = some task.status
    rw [hid]
    exact hstatus)
  refine h.move c (some { call with phase := .findTask prepared }) htracked hledger hframe
    (fun d other hd => ?_) (fun a ha => by cases ha) ?_ ?_ ?_ h.cleanups
  · change (PersistCalls.System.goto _ c call (.findTask prepared)).calls d = some other at hd
    rw [goto_calls] at hd
    split at hd
    · rename_i heq
      exact .inl ⟨heq, hd⟩
    · exact .inr ⟨hd, rfl, .inr rfl⟩
  · intro moved hmoved other hother
    cases hmoved
    cases hother
    exact hfits
  · intro moved hmoved held hheld
    cases hmoved
    obtain ⟨a, ha, rfl⟩ := Option.map_eq_some_iff.mp hheld
    obtain ⟨-, found, -, hfound, rfl⟩ := hart a ha
    rw [harchived] at hfound
    cases hfound
    refine ⟨⟨List.mem_cons_self, fun hmem => ?_, .inr ⟨_, List.mem_append_right _ List.mem_cons_self, rfl, ?_⟩⟩,
      .inl hfresh⟩
    · exact hfresh (h.ledger.referencesDrawn _ hmem)
    · exact hid.trans hsame.symm
  · intro moved hmoved
    cases hmoved
    trivial

theorem todo_loop (artifacts : List ResultArtifact) : (Cleanup.loop artifacts).todo = artifacts := by
  cases artifacts <;> rfl

/-- The loop deletes what it has found, and finds abandoned artifacts. -/
theorem cleanup_next {cleanup cleanup' : Cleanup} {answer : CleanupAnswer}
    (h : cleanup.next db answer = some (db', cleanup')) :
    (db' = db ∨ ∃ artifact ∈ cleanup.todo, db' = deleteRow db artifact.id) ∧
      ∀ artifact ∈ cleanup'.todo, artifact ∈ cleanup.todo ∨
        artifact ∈ db.resultArtifacts ∧ abandoned db artifact = true := by
  cases answer with
  | found rows =>
    cases cleanup with
    | finding =>
      simp only [Cleanup.next] at h
      split at h
      · rename_i hfound
        cases h
        rw [todo_loop]
        exact ⟨.inl rfl, fun artifact hmem => .inr (hfound.2.2 artifact hmem)⟩
      · cases h
    | _ => cases h
  | done =>
    cases cleanup with
    | deletingObject artifact rest =>
      cases h
      exact ⟨.inl rfl, fun artifact hmem => .inl hmem⟩
    | deletingArtifact artifact rest =>
      simp only [Cleanup.next] at h
      split at h <;> cases h
      · rw [todo_loop]
        refine ⟨.inr ⟨artifact, List.mem_cons_self, rfl⟩, fun other hmem => .inl ?_⟩
        exact List.mem_cons_of_mem _ hmem
      · exact ⟨.inl rfl, fun other hmem => by cases hmem⟩
    | _ => cases h
  | failed =>
    cases cleanup <;> cases h <;> exact ⟨.inl rfl, fun other hmem => by cases hmem⟩

theorem lost_of_abandoned {artifact : ResultArtifact} (h : abandoned db artifact = true) :
    Lost db artifact.taskId := by
  have hstatus := (Bool.and_eq_true_iff.mp h).2
  rcases Bool.or_eq_true_iff.mp hstatus with hfailed | hcancelled
  · exact .inl (of_decide_eq_true hfailed)
  · exact .inr (of_decide_eq_true hcancelled)

theorem inv_cleaning (h : Inv settings s) {d : Nat} {cleanup cleanup' : Cleanup} {answer : CleanupAnswer}
    (hget : s.cleanups.get d = some cleanup) (hnext : cleanup.next s.db answer = some (db', cleanup')) :
    Inv settings { s with
      service := { s.service with server := s.service.server.direct fun _ => db' }
      cleanups := s.cleanups.set d cleanup' } := by
  obtain ⟨hdb, htodo⟩ := cleanup_next hnext
  have hwatched := h.cleanups d cleanup hget
  have hcleanups : ∀ e other, (s.cleanups.set d cleanup').get e = some other → ∀ artifact ∈ other.todo,
      Watched s.artifactIds s.db artifact := by
    intro e other hother artifact hmem
    rw [OrderedMap.get_set] at hother
    split at hother
    · cases hother
      rcases htodo artifact hmem with hold | ⟨hthere, habandoned⟩
      · exact hwatched artifact hold
      · refine ⟨h.ledger.idsDrawn artifact hthere, lost_of_abandoned habandoned, fun row hrow heq => ?_⟩
        rw [row_eq_of_id h.ledger.ids hrow hthere heq]
    · exact h.cleanups e other hother artifact hmem
  have hlost : ∀ artifact ∈ cleanup.todo, ∀ row ∈ s.db.resultArtifacts, row.id = artifact.id →
      Lost s.db row.taskId := by
    intro artifact hmem row hrow heq
    obtain ⟨-, hgone, hown⟩ := hwatched artifact hmem
    rw [hown row hrow heq]
    exact hgone
  rcases hdb with rfl | ⟨artifact, hmem, rfl⟩
  · refine h.still ⟨h.tracked.keyed, h.tracked.pending, h.tracked.unused⟩ h.ledger ?_ rfl rfl hcleanups
    exact frame_quiet rfl rfl fun v => .inl rfl
  · refine h.still ⟨h.tracked.keyed, h.tracked.pending, h.tracked.unused⟩ ?_ ?_ rfl rfl hcleanups
    · exact h.ledger.delete (hlost artifact hmem)
    · exact frame_delete (hlost artifact hmem)

theorem inv_service (h : Inv settings s) {l : PersistCalls.Label} (hok : InTime settings s (.service l))
    (hstep : step settings s (.service l) = some s') : Inv settings s' := by
  simp only [step] at hstep
  split at hstep
  · rename_i harchives
    obtain ⟨task, htask, hstep⟩ := Option.bind_eq_some_iff.mp hstep
    split at hstep
    · cases hstep
    · rename_i hfresh
      cases hstep
      cases l with
      | advance c =>
        obtain ⟨call, hcall, hfound⟩ := Option.bind_eq_some_iff.mp harchives
        obtain ⟨found, harchiving, heq⟩ := Option.map_eq_some_iff.mp hfound
        cases heq
        exact inv_archive h hcall harchiving htask (by simpa using hfresh) (hok.1 _ harchives)
      | _ => cases harchives
  · rename_i hnone
    split at hstep
    · cases hstep
    · rename_i hsingle
      obtain ⟨service, hservice, hstep⟩ := Option.bind_eq_some_iff.mp hstep
      cases hstep
      cases hcommit : committing s.service l with
      | none => exact inv_quiet h hnone (Bool.eq_false_iff.mpr hsingle) hservice hcommit
      | some row =>
        cases l with
        | advance c =>
          have htracked := tracked_step h.tracked hservice
          obtain ⟨call, hcall, hservice⟩ := Option.bind_eq_some_iff.mp hservice
          have hrow : callCommits call = some row := by
            simpa [committing, hcall] using hcommit
          have hopen := hok.2 row hcommit
          obtain ⟨prepared, task, id, hphase, rfl⟩ := callCommits_eq_some hrow
          refine inv_commit h hcall hphase hservice htracked (fun new hnew => (hopen new hnew).1) ?_
          intro hcompleted
          rw [← rowStatus_eventRow _ call.sourceEventId] at hcompleted
          exact (hopen _ hcompleted).2 rfl
        | _ => cases hcommit

theorem inv_step {l : Label} (h : Inv settings s) (hok : InTime settings s l)
    (hstep : step settings s l = some s') : Inv settings s' := by
  cases l with
  | service l => exact inv_service h hok hstep
  | cleanup d =>
    simp only [step] at hstep
    split at hstep <;> cases hstep
    refine h.still h.tracked h.ledger (frame_quiet rfl rfl fun v => .inl rfl) rfl rfl ?_
    intro e other hother artifact hmem
    rw [OrderedMap.get_set] at hother
    split at hother
    · cases hother
      cases hmem
    · exact h.cleanups e other hother artifact hmem
  | cleaning d answer =>
    obtain ⟨cleanup, hget, hstep⟩ := Option.bind_eq_some_iff.mp hstep
    obtain ⟨⟨db, cleanup'⟩, hnext, hstep⟩ := Option.bind_eq_some_iff.mp hstep
    cases hstep
    exact inv_cleaning h hget hnext

/-- Artifacts match events when every step is in time. -/
theorem matched_of_inTime (settings : Settings) {ls : List Label}
    (hok : Along (step settings) (InTime settings) .init ls) :
    Throughout (step settings) (fun s => Matched settings s.db) .init ls :=
  throughout_of_along (fun _ h => h.ledger.matched) (fun _ _ _ h hok hstep => inv_step h hok hstep)
    (inv_init settings) hok

instance (settings : Settings) (s : System) (c : Nat) (taskId : String) :
    Decidable (Settled settings s c taskId) :=
  inferInstanceAs (Decidable (∀ row ∈ (s.service.server.view c).resultArtifacts, _))

instance decidableInTime (settings : Settings) (s : System) : (l : Label) → Decidable (InTime settings s l)
  | .service (.advance _) => inferInstanceAs (Decidable (_ ∧ _))
  | .service (.call _ _ _ _ _ _) | .service (.abort _) | .service (.single _) | .cleanup _ | .cleaning _ _ =>
    .isTrue trivial

def oneTask : Settings := ⟨1, fun _ => true⟩

/-- An event of the stream comes to the service; the artifact of a result gets the identifier. -/
def persists (c : Nat) (source : String) (detail : TaskEventDetail) (artifactId : String) : Label :=
  .service (.call c ⟨detail, "t", "s", "run", "2026-01-01"⟩
    (some ⟨artifactId, "a.pdf", 3, "users/u/results/t/" ++ artifactId, "https://s"⟩) (some source)
    "2026-01-01" "r")

def advances (c n : Nat) : List Label := List.replicate n (.service (.advance c))

/-- The event of a result, and the artifact that it carries. -/
def report : TaskEventDetail :=
  .resultCreated (.artifact ⟨.pdf, "a.pdf", "application/pdf", none, some "https://g/a.pdf", "", none⟩)

/-- A task runs, and the artifact of its result is archived. -/
def archivedOnce : List Label :=
  [.service (.single (.enqueue ⟨"t", "u", none, "hello", .inr ("s", "hello")⟩)),
    .service (.single (.dispatch "t" "run" "http://a/stream" "2026-01-01")), persists 0 "1" report "a"] ++
    advances 0 2

/-- The task is completed. -/
def completes (c : Nat) : List Label := [persists c "2" .completed ""] ++ advances c 14

/-- The process ends between the archive and the transaction of the event; the relay is started again,
and the artifact is archived a second time. -/
def restarted : List Label :=
  archivedOnce ++ [.service (.abort 0), persists 1 "1" report "b"] ++ advances 1 8 ++ completes 2

theorem not_matched_of_restarted :
    ¬ Throughout (step oneTask) (fun s => Matched oneTask s.db) .init restarted := by
  intro hmatched
  have hend : (run (step oneTask) .init restarted).any (fun s => s.db.resultArtifacts.any fun row =>
      row.resultId.isSome && (eventArtifacts oneTask s.db row.taskId).count row.id ≠ 1) = true := by
    decide +kernel
  obtain ⟨s, hrun, hs⟩ := (Option.any_eq_true _ _).mp hend
  obtain ⟨row, hmem, hrow⟩ := List.any_eq_true.mp hs
  obtain ⟨hlinked, hcount⟩ := Bool.and_eq_true_iff.mp hrow
  rcases (hmatched.last hrun).rows row hmem with hone | ⟨hnone, -⟩
  · exact of_decide_eq_true hcount hone
  · rw [hnone] at hlinked
    cases hlinked

/-- The transaction of the event follows its archive. -/
theorem matched_of_archivedOnce :
    (run (step oneTask) .init (archivedOnce ++ advances 0 6 ++ completes 1)).any
      (fun s => (linkedArtifacts s.db "t").map ResultArtifact.id = ["a"]) = true ∧
    Throughout (step oneTask) (fun s => Matched oneTask s.db) .init
      (archivedOnce ++ advances 0 6 ++ completes 1) :=
  ⟨by decide +kernel, matched_of_inTime oneTask (by decide +kernel)⟩

end ArtifactEvents
