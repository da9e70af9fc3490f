import ClawWork.ServiceTables

/-!
# Completion and deletion of files

The calls of `completeUpload`, `deleteFile` and the clean-up jobs, one statement or
request to the object storage at a time. Each of their statements is committed at
once; none of them opens a transaction or takes a lock.
-/

namespace FileCalls

open JavaScript TaskStore ServiceTables

structure FileSettings where
  unreferencedFileRetentionHours : Nat
  staleUploadRetentionHours : Nat

/-- The characters that are replaced in the name of a file. -/
def isReserved (c : Char) : Bool := c.toNat < 32 || "<>:\"/\\|?*".toList.contains c

/-- Every run of white space becomes one blank; `inside` says that a run has begun. -/
def collapseSpaces (inside : Bool) : List Char → List Char
  | [] => []
  | c :: cs =>
    if isSpace c then
      if inside then collapseSpaces true cs else ' ' :: collapseSpaces true cs
    else c :: collapseSpaces false cs

def sanitizeFilename (filename : String) : String :=
  let replaced := (trim filename).toList.map fun c => if isReserved c then '-' else c
  orElse (.ofList (collapseSpaces false replaced)) "file"

/-- The body of a request to complete an upload. -/
structure CompleteUpload where
  fileId : String
  filename : String
  mimeType : String
  sizeBytes : Nat
  storageKey : String

/-- What `inspectObject` tells of an object. -/
structure StoredObject where
  sizeBytes : Option Nat
  mimeType : Option String
  etag : Option String

inductive CompletionPhase where
  | finding
  | inspecting (file : File)
  | rejecting (file : File)
  | completing (file : File) (object : StoredObject)
  | returned (file : File)
  | threw

structure Completion where
  userId : String
  input : CompleteUpload
  phase : CompletionPhase

/-- What an `await` of `completeUpload` settles with. -/
inductive CompletionAnswer where
  /-- The statement is executed; `now` is the reading of the clock. -/
  | statement (now : Nat)
  | inspected (object : StoredObject)
  | failed

def metadataMatches (file : File) (input : CompleteUpload) : Bool :=
  file.filename = sanitizeFilename input.filename && file.mimeType = input.mimeType &&
    file.sizeBytes = input.sizeBytes && file.storageKey = input.storageKey

def objectMatches (file : File) (object : StoredObject) : Bool :=
  object.sizeBytes = some file.sizeBytes && object.mimeType = some file.mimeType

/-- The `data` of the update of a rejected upload. -/
def rejected (now : Nat) (row : File) : File := { row with status := .failed, updatedAt := now }

/-- The `data` of the update of a completed upload. -/
def completed (now : Nat) (object : StoredObject) (row : File) : File :=
  { row with
    status := .uploaded, uploadedAt := some now, etag := object.etag.or row.etag, updatedAt := now }

/-- `completeUpload` goes on until its next `await`. -/
def Completion.next (db : Tables) (call : Completion) : CompletionAnswer → Option (Tables × Completion)
  | .statement now =>
    match call.phase with
    | .finding =>
      match db.files.get call.input.fileId with
      | some file =>
        if file.userId = call.userId && metadataMatches file call.input then
          some (db, { call with phase := .inspecting file })
        else some (db, { call with phase := .threw })
      | none => some (db, { call with phase := .threw })
    | .rejecting file => some (db.updateFile file.id (rejected now), { call with phase := .threw })
    | .completing file object =>
      match db.files.get file.id with
      | some row =>
        some (db.updateFile file.id (completed now object),
          { call with phase := .returned (completed now object row) })
      | none => some (db, { call with phase := .threw })
    | .inspecting _ | .returned _ | .threw => none
  | .inspected object =>
    match call.phase with
    | .inspecting file =>
      if objectMatches file object then some (db, { call with phase := .completing file object })
      else some (db, { call with phase := .rejecting file })
    | _ => none
  | .failed =>
    match call.phase with
    | .returned _ | .threw => none
    | _ => some (db, { call with phase := .threw })

/-- The calls that delete files. -/
inductive Job where
  | deleteFile (userId fileId : String)
  | cleanupUnreferencedFiles (userId : Option String)
  | cleanupStaleFiles

inductive DeleterPhase where
  | finding
  | deletingObject (file : File) (rest : List File)
  | deletingFile (file : File) (rest : List File)
  | findingArtifacts
  | deletingArtifactObject (artifact : ResultArtifact) (rest : List ResultArtifact)
  | deletingArtifact (artifact : ResultArtifact) (rest : List ResultArtifact)
  | returned
  | threw

structure Deleter where
  job : Job
  phase : DeleterPhase

/-- What an `await` of a job settles with. -/
inductive DeleterAnswer where
  /-- The statement or the request succeeds. -/
  | done
  /-- The rows that `findMany` has taken at a reading of the clock. -/
  | files (now : Nat) (found : List File)
  | artifacts (found : List ResultArtifact)
  | failed

/-- The most rows that a clean-up takes at once. -/
def cleanupBatch : Nat := 200

/-- The row was not updated for so many hours. -/
def olderThan (hours now : Nat) (file : File) : Bool := file.updatedAt + hours * 60 * 60000 < now

/-- The rows that match the query of a clean-up. -/
def Job.matching (settings : FileSettings) (db : Tables) (now : Nat) : Job → List File
  | .deleteFile _ _ => []
  | .cleanupUnreferencedFiles userId => db.files.values.filter fun file =>
    userId.all (fun userId => file.userId = userId) && file.status = .uploaded &&
      olderThan settings.unreferencedFileRetentionHours now file && !db.linked file.id
  | .cleanupStaleFiles => db.files.values.filter fun file =>
    (file.status = .uploading || file.status = .failed) &&
      olderThan settings.staleUploadRetentionHours now file && !db.linked file.id

/-- An artifact without a result, of a task that has failed or was cancelled. -/
def abandoned (db : Database) (artifact : ResultArtifact) : Bool :=
  artifact.resultId = none &&
    (db.status artifact.taskId = some .failed || db.status artifact.taskId = some .cancelled)

/-- `resultArtifact.delete`. -/
def deleteArtifact (db : Tables) (id : String) : Tables :=
  { db with resultArtifacts := db.resultArtifacts.filter fun row => row.id ≠ id }

/-- The loop over the files that were found. -/
def Deleter.deleteFiles (job : Job) : List File → Deleter
  | file :: rest => ⟨job, .deletingObject file rest⟩
  | [] =>
    match job with
    | .cleanupStaleFiles => ⟨job, .findingArtifacts⟩
    | .deleteFile _ _ | .cleanupUnreferencedFiles _ => ⟨job, .returned⟩

/-- The loop over the artifacts; the clean-up of the unreferenced files follows it. -/
def Deleter.deleteArtifacts : List ResultArtifact → Deleter
  | artifact :: rest => ⟨.cleanupStaleFiles, .deletingArtifactObject artifact rest⟩
  | [] => ⟨.cleanupUnreferencedFiles none, .finding⟩

/-- The query of `deleteFile`; it throws when the file has links. -/
def findFile (db : Tables) (userId fileId : String) : Option File :=
  (db.files.get fileId).filter fun file => file.userId = userId && !db.linked file.id

/-- A job goes on until its next `await`. The artifacts that are old enough are for the answer to say. -/
def Deleter.next (settings : FileSettings) (db : Tables) (deleter : Deleter) :
    DeleterAnswer → Option (Tables × Deleter)
  | .done =>
    match deleter.phase with
    | .finding =>
      match deleter.job with
      | .deleteFile userId fileId =>
        match findFile db userId fileId with
        | some file => some (db, .deleteFiles deleter.job [file])
        | none => some (db, { deleter with phase := .threw })
      | _ => none
    | .deletingObject file rest => some (db, { deleter with phase := .deletingFile file rest })
    | .deletingFile file rest =>
      if (db.files.get file.id).isSome then
        some (db.deleteFile file.id, .deleteFiles deleter.job rest)
      else some (db, { deleter with phase := .threw })
    | .deletingArtifactObject artifact rest =>
      some (db, { deleter with phase := .deletingArtifact artifact rest })
    | .deletingArtifact artifact rest =>
      if db.resultArtifacts.any fun row => row.id = artifact.id then
        some (deleteArtifact db artifact.id, .deleteArtifacts rest)
      else some (db, { deleter with phase := .threw })
    | .findingArtifacts | .returned | .threw => none
  | .files now found =>
    let rows := deleter.job.matching settings db now
    match deleter.phase, deleter.job with
    | .finding, .cleanupUnreferencedFiles _ | .finding, .cleanupStaleFiles =>
      if found.Nodup ∧ (∀ file ∈ found, file ∈ rows) ∧ found.length = min cleanupBatch rows.length then
        some (db, .deleteFiles deleter.job found)
      else none
    | _, _ => none
  | .artifacts found =>
    let rows := db.resultArtifacts.filter (abandoned db.toDatabase)
    match deleter.phase with
    | .findingArtifacts =>
      if found.Nodup ∧ (∀ artifact ∈ found, artifact ∈ rows) ∧ found.length ≤ cleanupBatch then
        some (db, .deleteArtifacts found)
      else none
    | _ => none
  | .failed =>
    match deleter.phase with
    | .returned | .threw => none
    | _ => some (db, { deleter with phase := .threw })

/-- The file whose object the job has asked the storage to delete. -/
def Deleter.deletesObject (deleter : Deleter) : Option File :=
  match deleter.phase with
  | .deletingObject file _ => some file
  | _ => none

/-- The files that the job has found and not deleted yet. -/
def Deleter.held (deleter : Deleter) : List File :=
  match deleter.phase with
  | .deletingObject file rest | .deletingFile file rest => file :: rest
  | _ => []

theorem held_deleteFiles (job : Job) (files : List File) : (Deleter.deleteFiles job files).held = files := by
  cases files with
  | nil => cases job <;> rfl
  | cons file rest => rfl

theorem held_deleteArtifacts (artifacts : List ResultArtifact) :
    (Deleter.deleteArtifacts artifacts).held = [] := by
  cases artifacts <;> rfl

theorem not_linked_of_matching {settings : FileSettings} {db : Tables} {now : Nat} {job : Job}
    {file : File} (h : file ∈ job.matching settings db now) : db.linked file.id = false := by
  cases job with
  | deleteFile userId fileId => cases h
  | _ =>
    have hquery := (List.mem_filter.mp h).2
    simp only [Bool.and_eq_true, Bool.not_eq_true'] at hquery
    exact hquery.2

/-- What a step of a job does to the tables. -/
inductive DeleterEffect (db : Tables) (deleter : Deleter) : Tables → Prop
  | nothing : DeleterEffect db deleter db
  | file {file : File} (hheld : file ∈ deleter.held) : DeleterEffect db deleter (db.deleteFile file.id)
  | artifact {id : String} : DeleterEffect db deleter (deleteArtifact db id)

/-- A job deletes what it has found, and finds only files without links. -/
theorem deleter_next {settings : FileSettings} {db db' : Tables} {deleter deleter' : Deleter}
    {answer : DeleterAnswer} (h : deleter.next settings db answer = some (db', deleter')) :
    DeleterEffect db deleter db' ∧
      ∀ file ∈ deleter'.held, file ∈ deleter.held ∨ db.linked file.id = false := by
  obtain ⟨job, phase⟩ := deleter
  cases answer with
  | done =>
    cases phase with
    | finding =>
      cases job with
      | deleteFile userId fileId =>
        simp only [Deleter.next] at h
        split at h <;> cases h
        · rename_i file hfind
          refine ⟨.nothing, fun f hf => .inr ?_⟩
          obtain ⟨-, hquery⟩ := Option.filter_eq_some_iff.mp hfind
          rw [held_deleteFiles, List.mem_singleton] at hf
          simp only [Bool.and_eq_true, Bool.not_eq_true'] at hquery
          exact hf ▸ hquery.2
        · exact ⟨.nothing, fun f hf => by cases hf⟩
      | _ => cases h
    | deletingObject file rest =>
      cases h
      exact ⟨.nothing, fun f hf => .inl hf⟩
    | deletingFile file rest =>
      simp only [Deleter.next] at h
      split at h <;> cases h
      · refine ⟨.file List.mem_cons_self, fun f hf => .inl ?_⟩
        rw [held_deleteFiles] at hf
        exact List.mem_cons_of_mem file hf
      · exact ⟨.nothing, fun f hf => by cases hf⟩
    | deletingArtifactObject artifact rest =>
      cases h
      exact ⟨.nothing, fun f hf => by cases hf⟩
    | deletingArtifact artifact rest =>
      simp only [Deleter.next] at h
      split at h <;> cases h
      · refine ⟨.artifact, fun f hf => ?_⟩
        rw [held_deleteArtifacts] at hf
        cases hf
      · exact ⟨.nothing, fun f hf => by cases hf⟩
    | _ => cases h
  | files now found =>
    simp only [Deleter.next] at h
    split at h
    · split at h
      · rename_i hfound
        cases h
        refine ⟨.nothing, fun f hf => .inr ?_⟩
        rw [held_deleteFiles] at hf
        exact not_linked_of_matching (hfound.2.1 f hf)
      · cases h
    · split at h
      · rename_i hfound
        cases h
        refine ⟨.nothing, fun f hf => .inr ?_⟩
        rw [held_deleteFiles] at hf
        exact not_linked_of_matching (hfound.2.1 f hf)
      · cases h
    · cases h
  | artifacts found =>
    cases phase with
    | findingArtifacts =>
      simp only [Deleter.next] at h
      split at h <;> cases h
      refine ⟨.nothing, fun f hf => ?_⟩
      rw [held_deleteArtifacts] at hf
      cases hf
    | _ => cases h
  | failed =>
    cases phase <;> cases h <;> exact ⟨.nothing, fun f hf => by cases hf⟩

/-- `completeUpload` changes the status of one file at most. -/
inductive CompletionEffect (db : Tables) (call : Completion) : CompletionAnswer → Tables → Prop
  | nothing {answer : CompletionAnswer} : CompletionEffect db call answer db
  | rejects {file : File} {now : Nat} (hphase : call.phase = .rejecting file) :
      CompletionEffect db call (.statement now) (db.updateFile file.id (rejected now))
  | completes {file : File} {object : StoredObject} {now : Nat}
      (hphase : call.phase = .completing file object) :
      CompletionEffect db call (.statement now) (db.updateFile file.id (completed now object))

theorem completion_next {db db' : Tables} {call call' : Completion} {answer : CompletionAnswer}
    (h : call.next db answer = some (db', call')) : CompletionEffect db call answer db' := by
  obtain ⟨userId, input, phase⟩ := call
  cases answer with
  | statement now =>
    cases phase with
    | finding =>
      simp only [Completion.next] at h
      split at h
      · split at h <;> cases h <;> exact .nothing
      · cases h
        exact .nothing
    | rejecting file =>
      cases h
      exact .rejects rfl
    | completing file object =>
      simp only [Completion.next] at h
      split at h <;> cases h
      · exact .completes rfl
      · exact .nothing
    | _ => cases h
  | inspected object =>
    cases phase with
    | inspecting file =>
      simp only [Completion.next] at h
      split at h <;> cases h <;> exact .nothing
    | _ => cases h
  | failed =>
    cases phase <;> cases h <;> exact .nothing

end FileCalls
