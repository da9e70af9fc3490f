import ClawWork.EnqueueTask
import ClawWork.FileCalls
import ClawWork.StatusFrames
import ClawWork.Transition

/-!
# The storage quota

The two transactions that reserve storage, `createUploadUrl` and
`archiveResultArtifact`, statement by statement, beside the completion of uploads,
the jobs that delete files and artifacts and the other transactions of the service.
The quota is checked where rows are created; a failed upload counts no bytes, and its
completion brings them back.
-/

namespace StorageQuota

open JavaScript SharedTypes TaskStore TasksService ServiceTables ReadCommitted StatusFrames EnqueueTask
  FileCalls Transition

def supportedMimeTypes : List String :=
  ["image/jpeg", "image/png", "image/webp", "application/pdf", "application/msword",
    "application/vnd.openxmlformats-officedocument.wordprocessingml.document",
    "application/vnd.ms-excel",
    "application/vnd.openxmlformats-officedocument.spreadsheetml.sheet",
    "text/markdown", "text/plain", "text/csv"]

structure StorageSettings extends Settings, FileSettings where
  userStorageBytes : Nat
  maxUploadBytes : Nat

/-- The body of a request for an upload URL. -/
structure CreateUpload where
  filename : String
  mimeType : String
  sizeBytes : Nat

/-- The `await` that a reserving call has come to. -/
inductive ReservationPhase where
  | locking
  | measuringFiles
  | measuringArtifacts (fileBytes : Nat)
  | creating
  | committing
  | signing
  | failing
  | returned
  | threw
  deriving DecidableEq

/-- A call of `createUploadUrl` or `archiveResultArtifact`, with the row that its transaction creates. -/
structure Reservation where
  userId : String
  row : File ⊕ ResultArtifact
  phase : ReservationPhase

def Reservation.sizeBytes (call : Reservation) : Nat := call.row.elim File.sizeBytes ResultArtifact.sizeBytes

/-- The row of a new upload. -/
def newFile (userId fileId : String) (input : CreateUpload) (now : Nat) : File :=
  let filename := sanitizeFilename input.filename
  { id := fileId, userId, filename, mimeType := input.mimeType, sizeBytes := input.sizeBytes,
    status := .uploading, storageKey := s!"users/{userId}/{fileId}/{filename}", etag := none,
    updatedAt := now, uploadedAt := none }

/-- What a file counts for a user: its bytes, unless the upload has failed. -/
def fileWeight (userId : String) (file : File) : Nat :=
  if file.userId = userId ∧ file.status ≠ .failed then file.sizeBytes else 0

def artifactWeight (userId : String) (row : ResultArtifact) : Nat :=
  if row.userId = userId then row.sizeBytes else 0

/-- `file.aggregate`. -/
def fileBytes (db : Tables) (userId : String) : Nat := db.files.total (fileWeight userId)

/-- `resultArtifact.aggregate`. -/
def artifactBytes (db : Database) (userId : String) : Nat :=
  (db.resultArtifacts.map (artifactWeight userId)).sum

/-- The bytes that count against the quota of a user. -/
def storedBytes (db : Tables) (userId : String) : Nat :=
  fileBytes db userId + artifactBytes db.toDatabase userId

/-- `create`, in the table of the row. -/
def insert : File ⊕ ResultArtifact → Tables → Tables
  | .inl file, db => { db with files := db.files.set file.id file }
  | .inr artifact, db => { db with resultArtifacts := db.resultArtifacts ++ [artifact] }

/-- The primary keys, the unique storage keys and the foreign key of an artifact. -/
def insertable (db : Tables) : File ⊕ ResultArtifact → Bool
  | .inl file => (db.files.get file.id).isNone &&
    db.files.values.all fun row => row.storageKey ≠ file.storageKey
  | .inr artifact => (db.tasks.get artifact.taskId).isSome &&
    db.resultArtifacts.all fun row => row.id ≠ artifact.id && row.storageKey ≠ artifact.storageKey

def ReservationPhase.inTransaction : ReservationPhase → Bool
  | .locking | .measuringFiles | .measuringArtifacts _ | .creating | .committing => true
  | .signing | .failing | .returned | .threw => false

/-- What an `await` of a reserving call settles with. -/
inductive ReservationAnswer where
  | done (now : Nat)
  | failed

/-- The transaction is rolled back, and the call throws. -/
def leave (server : TaskServer) (c : Nat) (call : Reservation) : Option (TaskServer × Reservation) :=
  some (server.rollback c, { call with phase := .threw })

/-- A reserving call goes on until its next `await`; `none` while it waits for the lock. -/
def Reservation.next (settings : StorageSettings) (c : Nat) (server : TaskServer) (call : Reservation) :
    ReservationAnswer → Option (TaskServer × Reservation)
  | .done now =>
    match call.phase with
    | .locking => do
      let server ← server.acquire c (.storage call.userId)
      some (server, { call with phase := .measuringFiles })
    | .measuringFiles =>
      let bytes := fileBytes (server.view c) call.userId
      some (server, { call with phase := .measuringArtifacts bytes })
    | .measuringArtifacts bytes =>
      let usedBytes := bytes + artifactBytes (server.view c).toDatabase call.userId
      if usedBytes + call.sizeBytes > settings.userStorageBytes then leave server c call
      else some (server, { call with phase := .creating })
    | .creating =>
      if insertable (server.view c) call.row then
        some (server.write c (insert call.row), { call with phase := .committing })
      else leave server c call
    | .committing =>
      let phase := if call.row.isLeft then .signing else .returned
      some (server.commit c, { call with phase })
    | .signing => some (server, { call with phase := .returned })
    | .failing =>
      let update (db : Tables) : Tables :=
        call.row.elim (fun file => db.updateFile file.id (rejected now)) fun _ => db
      some (server.direct update, { call with phase := .threw })
    | .returned | .threw => none
  | .failed =>
    if call.phase.inTransaction then leave server c call
    else
      match call.phase with
      | .signing => some (server, { call with phase := .failing })
      | .failing => some (server, { call with phase := .threw })
      | _ => none

structure System where
  server : TaskServer
  reservations : OrderedMap Nat Reservation
  completions : OrderedMap Nat Completion
  deleters : OrderedMap Nat Deleter

def System.init : System := ⟨.start .empty, .empty, .empty, .empty⟩

def System.db (s : System) : Tables := s.server.db

/-- The transactions that are modelled by statements here. -/
def elsewhere : Transaction → Bool
  | .single (.enqueue _) | .single (.archive _) => true
  | _ => false

inductive Label where
  | createUploadUrl (c : Nat) (userId fileId : String) (input : CreateUpload) (now : Nat)
  | archiveResultArtifact (c : Nat) (artifact : ResultArtifact)
  | reservation (c : Nat) (answer : ReservationAnswer)
  | completeUpload (c : Nat) (userId : String) (input : CompleteUpload)
  | completion (c : Nat) (answer : CompletionAnswer)
  | job (d : Nat) (job : Job)
  | deleter (d : Nat) (answer : DeleterAnswer)
  /-- The statement of `deleteHistoryTask` that deletes a session. -/
  | deleteSession (id : String)
  /-- The transaction of `enqueueTask`, with the links of its files. -/
  | enqueue (new : NewTask) (files : List File)
  | transaction (tx : Transaction)

/-- An open transaction has inserted an artifact of a task of the session. -/
def keepsSession (s : System) (id : String) : Bool :=
  s.reservations.values.any fun call => call.phase = .committing &&
    call.row.elim (fun _ => false) fun artifact => inSession s.db.toDatabase id artifact.taskId

/-- A change of the tables that is committed at once. -/
def System.direct (s : System) (f : Tables → Tables) : System := { s with server := s.server.direct f }

def step (settings : StorageSettings) (s : System) : Label → Option System
  | .createUploadUrl c userId fileId input now =>
    if s.reservations.get c = none ∧ supportedMimeTypes.contains input.mimeType ∧
        input.sizeBytes ≤ settings.maxUploadBytes then
      let call := ⟨userId, .inl (newFile userId fileId input now), .locking⟩
      some { s with reservations := s.reservations.set c call }
    else none
  | .archiveResultArtifact c artifact =>
    if s.reservations.get c = none ∧ artifact.resultId = none then
      let call := ⟨artifact.userId, .inr artifact, .locking⟩
      some { s with reservations := s.reservations.set c call }
    else none
  | .reservation c answer => do
    let call ← s.reservations.get c
    let (server, call) ← call.next settings c s.server answer
    some { s with server, reservations := s.reservations.set c call }
  | .completeUpload c userId input =>
    if s.completions.get c = none then
      some { s with completions := s.completions.set c ⟨userId, input, .finding⟩ }
    else none
  | .completion c answer => do
    let call ← s.completions.get c
    let (db, call) ← call.next s.db answer
    some { s.direct fun _ => db with completions := s.completions.set c call }
  | .job d job =>
    if s.deleters.get d = none then some { s with deleters := s.deleters.set d ⟨job, .finding⟩ }
    else none
  | .deleter d answer => do
    let deleter ← s.deleters.get d
    let (db, deleter) ← deleter.next settings.toFileSettings s.db answer
    some { s.direct fun _ => db with deleters := s.deleters.set d deleter }
  | .deleteSession id =>
    if keepsSession s id then none else some (s.direct fun db => db.deleteSession id)
  | .enqueue new files =>
    if files.all fun file => (s.db.files.get file.id).isSome then do
      let db ← enqueueTransaction settings.toSettings new s.db.toDatabase
      let links := files.map fun file => ⟨new.taskId, file.id⟩
      some (s.direct fun tables => { tables.lift db with taskFiles := tables.taskFiles ++ links })
    else none
  | .transaction tx =>
    if elsewhere tx then none
    else do
      let db ← tx.apply settings.toSettings s.db.toDatabase
      some (s.direct fun tables => tables.lift db)

/-- The quota is kept. -/
def WithinQuota (settings : StorageSettings) (s : System) : Prop :=
  ∀ u, storedBytes s.db u ≤ settings.userStorageBytes

/-- The call has measured the files of its user, and its row is not committed. -/
def ReservationPhase.measured : ReservationPhase → Bool
  | .measuringArtifacts _ | .creating | .committing => true
  | .locking | .measuringFiles | .signing | .failing | .returned | .threw => false

/-- The bytes of a user that are going to be committed on a measurement made before. -/
def reservedBytes (s : System) (userId : String) : Nat := s.reservations.total fun call =>
  if call.userId = userId ∧ call.phase.measured = true then call.sizeBytes else 0

/-- The row of a failed upload that the next statement of a call completes. -/
def revived (s : System) : Label → Option File
  | .completion c (.statement _) => (s.completions.get c).bind fun call =>
    match call.phase with
    | .completing file _ => (s.db.files.get file.id).filter fun row => row.status = .failed
    | _ => none
  | _ => none

/-- A failed upload is completed only where the quota has room for it. -/
def LeavesRoom (settings : StorageSettings) (s : System) (l : Label) : Prop :=
  ∀ row ∈ revived s l,
    storedBytes s.db row.userId + reservedBytes s row.userId + row.sizeBytes ≤ settings.userStorageBytes

variable {settings : StorageSettings} {db db' : Tables} {u : String}

/-- Nobody has more bytes than before. -/
def Shrinks (db db' : Tables) : Prop := ∀ u, fileBytes db' u ≤ fileBytes db u ∧
  artifactBytes db'.toDatabase u ≤ artifactBytes db.toDatabase u

theorem Shrinks.stored (h : Shrinks db db') (u : String) : storedBytes db' u ≤ storedBytes db u :=
  Nat.add_le_add (h u).1 (h u).2

theorem artifactBytes_of_map {db db' : Database} {f : ResultArtifact → ResultArtifact}
    (h : db'.resultArtifacts = db.resultArtifacts.map f)
    (hf : ∀ row, artifactWeight u (f row) = artifactWeight u row) : artifactBytes db' u = artifactBytes db u := by
  rw [artifactBytes, h, List.map_map, artifactBytes]
  congr 1
  exact List.map_congr_left fun row _ => hf row

theorem artifactBytes_of_same {db db' : Database} (h : db'.resultArtifacts = db.resultArtifacts) :
    artifactBytes db' u = artifactBytes db u := by
  rw [artifactBytes, h, artifactBytes]

theorem artifactBytes_of_sublist {db db' : Database} (h : db'.resultArtifacts.Sublist db.resultArtifacts) :
    artifactBytes db' u ≤ artifactBytes db u := by
  apply List.Sublist.sum_le_sum
  · exact h.map _
  · exact fun n _ => Nat.zero_le n

theorem shrinks_deleteFile (db : Tables) (id : String) : Shrinks db (db.deleteFile id) := by
  intro u
  exact ⟨OrderedMap.total_delete_le _ _ _, Nat.le_refl _⟩

theorem shrinks_deleteArtifact (db : Tables) (id : String) : Shrinks db (deleteArtifact db id) := by
  intro u
  exact ⟨Nat.le_refl _, artifactBytes_of_sublist List.filter_sublist⟩

theorem shrinks_deleteSession (db : Tables) (id : String) : Shrinks db (db.deleteSession id) := by
  intro u
  refine ⟨Nat.le_refl _, ?_⟩
  let left : Database := { db.toDatabase with
    resultArtifacts := db.resultArtifacts.filter fun row => !inSession db.toDatabase id row.taskId }
  have hleft : artifactBytes left u ≤ artifactBytes db.toDatabase u :=
    artifactBytes_of_sublist List.filter_sublist
  refine Nat.le_trans (Nat.le_of_eq ?_) hleft
  apply @artifactBytes_of_map _ left _ _ rfl
  intro row
  split <;> rfl

theorem shrinks_deleter {deleter : Deleter} (h : DeleterEffect db deleter db') : Shrinks db db' := by
  cases h with
  | nothing => exact fun u => ⟨Nat.le_refl _, Nat.le_refl _⟩
  | file hheld => exact shrinks_deleteFile db _
  | artifact => exact shrinks_deleteArtifact db _

/-- The bytes of the files when one row is updated. -/
theorem fileBytes_updateFile {id : String} {row : File} (data : File → File)
    (h : db.files.get id = some row) :
    fileBytes (db.updateFile id data) u + fileWeight u row = fileBytes db u + fileWeight u (data row) := by
  have hset := OrderedMap.total_set (fileWeight u) db.files id (data row)
  rw [h, Option.map_some, Option.getD_some] at hset
  rw [fileBytes, Tables.updateFile, h]
  exact hset

theorem artifactBytes_updateFile (id : String) (data : File → File) :
    artifactBytes (db.updateFile id data).toDatabase u = artifactBytes db.toDatabase u := by
  rw [Tables.updateFile_toDatabase]

/-- An update that leaves a row no heavier. -/
theorem shrinks_updateFile {id : String} {data : File → File}
    (h : ∀ row ∈ db.files.get id, ∀ u, fileWeight u (data row) ≤ fileWeight u row) :
    Shrinks db (db.updateFile id data) := by
  intro u
  refine ⟨?_, Nat.le_of_eq (artifactBytes_updateFile id data)⟩
  cases hget : db.files.get id with
  | some row =>
    have hset := fileBytes_updateFile (u := u) data hget
    have hle := h row hget u
    omega
  | none =>
    rw [Tables.updateFile, hget]

theorem shrinks_rejected (db : Tables) (id : String) (now : Nat) :
    Shrinks db (db.updateFile id (rejected now)) := by
  apply shrinks_updateFile
  intro row _ u
  simp [fileWeight, rejected]

theorem fileWeight_completed (now : Nat) (object : StoredObject) (row : File) :
    fileWeight u (completed now object row) = if row.userId = u then row.sizeBytes else 0 := by
  simp [fileWeight, completed]

/-- The completion of an upload that has not failed changes no weight. -/
theorem shrinks_completed {id : String} {now : Nat} {object : StoredObject}
    (h : ∀ row ∈ db.files.get id, row.status ≠ .failed) :
    Shrinks db (db.updateFile id (completed now object)) := by
  apply shrinks_updateFile
  intro row hrow u
  rw [fileWeight_completed, fileWeight]
  simp [h row hrow]

theorem linkArtifacts_weights (taskId resultId : String) (db : Database) :
    artifactBytes (linkArtifacts taskId resultId db) u = artifactBytes db u := by
  apply @artifactBytes_of_map _ db _ _ rfl
  intro row
  split <;> rfl

theorem artifactBytes_project {settings : Settings} {now resultId : String} {task : Task}
    {stored : TaskStreamEvent} {db db' : Database}
    (h : projectEvent settings now resultId task stored db = some db') :
    artifactBytes db' u = artifactBytes db u := by
  unfold projectEvent at h
  split at h
  · cases h
    exact artifactBytes_of_same (Database.updateTask_resultArtifacts ..)
  · cases h
    exact artifactBytes_of_same (by simp)
  · cases h
    exact artifactBytes_of_same (by simp)
  · obtain ⟨events, -, h⟩ := Option.bind_eq_some_iff.mp h
    dsimp only at h
    split at h
    · cases h
    · cases h
      rw [artifactBytes_of_same (Database.updateSession_resultArtifacts ..),
        artifactBytes_of_same (Database.updateTask_resultArtifacts ..), linkArtifacts_weights]
      rfl
  all_goals
    cases h
    rfl

theorem artifactBytes_persist (settings : Settings) (now resultId : String) (stored : TaskStreamEvent)
    (source : Option String) (db : Database) :
    artifactBytes (persistTransaction settings now resultId stored source db).2 u = artifactBytes db u := by
  rcases persistTransaction_cases settings now resultId stored source db with
    ⟨heq, -⟩ | heq | ⟨task, db', -, -, -, hproject, heq⟩
  · rw [heq]
  · rw [heq]
    rfl
  · rw [heq]
    exact Eq.trans (artifactBytes_project hproject) rfl

/-- Only an archive adds artifacts. -/
theorem artifactBytes_apply {settings : Settings} {db db' : Database} {tx : Transaction}
    (helsewhere : elsewhere tx = false) (h : tx.apply settings db = some db') :
    artifactBytes db' u = artifactBytes db u := by
  cases tx with
  | single tx =>
    cases tx with
    | enqueue new => cases helsewhere
    | archive row => cases helsewhere
    | setSessionRunning sessionId =>
      cases h
      exact artifactBytes_of_same (Database.updateSession_resultArtifacts ..)
    | _ =>
      cases h
      exact artifactBytes_of_same (Database.updateTask_resultArtifacts ..)
  | persist event archived source now resultId =>
    obtain ⟨prepared, -, h⟩ := Option.bind_eq_some_iff.mp h
    cases h
    exact artifactBytes_persist ..
  | failTask taskId code message now resultId =>
    obtain ⟨event, -, h⟩ := Option.bind_eq_some_iff.mp h
    cases h
    exact artifactBytes_persist ..
  | cancelTask userId taskId now resultId =>
    obtain ⟨task, -, h⟩ := Option.bind_eq_some_iff.mp h
    split at h
    · cases h
      exact artifactBytes_persist ..
    · cases h

/-- The user whose bytes the row is. -/
def rowUser : File ⊕ ResultArtifact → String := Sum.elim File.userId ResultArtifact.userId

/-- The phases in which a call holds the lock of its user. -/
def ReservationPhase.locked : ReservationPhase → Bool
  | .measuringFiles | .measuringArtifacts _ | .creating | .committing => true
  | .locking | .signing | .failing | .returned | .threw => false

/-- What the call has checked of the quota. -/
def Checked (settings : StorageSettings) (db : Tables) (call : Reservation) : Prop :=
  match call.phase with
  | .measuringArtifacts bytes => fileBytes db call.userId ≤ bytes ∨
    storedBytes db call.userId + call.sizeBytes ≤ settings.userStorageBytes
  | .creating | .committing => storedBytes db call.userId + call.sizeBytes ≤ settings.userStorageBytes
  | _ => True

/-- What holds of a reserving call at any time. -/
structure CallInv (settings : StorageSettings) (server : TaskServer) (c : Nat) (call : Reservation) :
    Prop where
  owner : rowUser call.row = call.userId
  lock : call.phase.locked = true → server.locks (.storage call.userId) = some c
  writes : server.writes c = if call.phase = .committing then [insert call.row] else []
  checked : Checked settings server.db call

structure Inv (settings : StorageSettings) (s : System) : Prop where
  quota : WithinQuota settings s
  calls : ∀ c call, s.reservations.get c = some call → CallInv settings s.server c call
  unused : ∀ c, s.reservations.get c = none → s.server.writes c = []

variable {server server' : TaskServer} {c : Nat} {call call' : Reservation} {s s' : System}

theorem CallInv.writes_nil (h : CallInv settings server c call) (hphase : call.phase ≠ .committing) :
    server.writes c = [] := by
  rw [h.writes, if_neg hphase]

theorem inv_init (settings : StorageSettings) : Inv settings .init where
  quota := fun u => Nat.zero_le _
  calls := fun c call h => by cases h
  unused := fun c h => rfl

theorem locked_of_measured {phase : ReservationPhase} (h : phase.measured = true) : phase.locked = true := by
  cases phase <;> first | rfl | cases h

/-- A call keeps what it has checked when the bytes of its user do not grow, or when there is room for
its own beside them. -/
theorem CallInv.keep (h : CallInv settings server c call) (hwrites : server'.writes c = server.writes c)
    (hlocks : ∀ k, server.locks k = some c → server'.locks k = some c)
    (hroom : call.phase.measured = true →
      (fileBytes server'.db call.userId ≤ fileBytes server.db call.userId ∧
        storedBytes server'.db call.userId ≤ storedBytes server.db call.userId) ∨
      storedBytes server'.db call.userId + call.sizeBytes ≤ settings.userStorageBytes) :
    CallInv settings server' c call where
  owner := h.owner
  lock := fun hlocked => hlocks _ (h.lock hlocked)
  writes := hwrites.trans h.writes
  checked := by
    have hchecked := h.checked
    unfold Checked at hchecked ⊢
    cases hphase : call.phase with
    | measuringArtifacts bytes =>
      rw [hphase] at hchecked
      rcases hroom (by rw [hphase]; rfl) with ⟨hfiles, hstored⟩ | hroom
      · rcases hchecked with hmeasured | hfree
        · exact .inl (Nat.le_trans hfiles hmeasured)
        · exact .inr (Nat.le_trans (Nat.add_le_add_right hstored _) hfree)
      · exact .inr hroom
    | creating =>
      rw [hphase] at hchecked
      rcases hroom (by rw [hphase]; rfl) with ⟨-, hstored⟩ | hroom
      · exact Nat.le_trans (Nat.add_le_add_right hstored _) hchecked
      · exact hroom
    | committing =>
      rw [hphase] at hchecked
      rcases hroom (by rw [hphase]; rfl) with ⟨-, hstored⟩ | hroom
      · exact Nat.le_trans (Nat.add_le_add_right hstored _) hchecked
      · exact hroom
    | _ => trivial

/-- A change outside of the reserving transactions that lets no bytes grow. -/
theorem Inv.shrink (h : Inv settings s) (hreservations : s'.reservations = s.reservations)
    (hwrites : s'.server.writes = s.server.writes) (hlocks : s'.server.locks = s.server.locks)
    (hshrinks : Shrinks s.db s'.db) : Inv settings s' where
  quota := fun u => Nat.le_trans (hshrinks.stored u) (h.quota u)
  calls := by
    intro c call hget
    rw [hreservations] at hget
    refine (h.calls c call hget).keep (by rw [hwrites]) (fun k hk => by rw [hlocks]; exact hk) ?_
    exact fun _ => .inl ⟨(hshrinks call.userId).1, hshrinks.stored call.userId⟩
  unused := by
    intro c hget
    rw [hreservations] at hget
    rw [hwrites]
    exact h.unused c hget

/-- The bytes that a completion brings back. -/
theorem storedBytes_completed {id : String} {row : File} {now : Nat} {object : StoredObject}
    (hget : db.files.get id = some row) : storedBytes (db.updateFile id (completed now object)) u ≤
      storedBytes db u + if u = row.userId then row.sizeBytes else 0 := by
  have hset := fileBytes_updateFile (u := u) (completed now object) hget
  rw [fileWeight_completed] at hset
  rw [storedBytes, storedBytes, artifactBytes_updateFile]
  split at hset <;> split <;> simp_all <;> omega

/-- A completion with room for the bytes it brings back. -/
theorem Inv.revive (h : Inv settings s) {id : String} {row : File} {now : Nat} {object : StoredObject}
    {completions : OrderedMap Nat Completion} (hget : s.db.files.get id = some row)
    (hroom : storedBytes s.db row.userId + reservedBytes s row.userId + row.sizeBytes ≤
      settings.userStorageBytes) :
    Inv settings { s.direct fun _ => s.db.updateFile id (completed now object) with completions } where
  quota := by
    intro u
    have hstored := @storedBytes_completed s.db u id row now object hget
    have hquota := h.quota u
    change storedBytes (s.db.updateFile id (completed now object)) u ≤ settings.userStorageBytes
    split at hstored
    · rename_i heq
      rw [heq] at hstored ⊢
      omega
    · omega
  calls := by
    intro c call hcall
    refine (h.calls c call hcall).keep rfl (fun k hk => hk) fun hmeasured => ?_
    have hstored := @storedBytes_completed s.db call.userId id row now object hget
    change (fileBytes (s.db.updateFile id (completed now object)) call.userId ≤ _ ∧
      storedBytes (s.db.updateFile id (completed now object)) call.userId ≤ _) ∨
      storedBytes (s.db.updateFile id (completed now object)) call.userId + _ ≤ _
    by_cases huser : call.userId = row.userId
    · right
      have hreserved := OrderedMap.le_total (fun call : Reservation =>
        if call.userId = row.userId ∧ call.phase.measured = true then call.sizeBytes else 0)
        s.reservations hcall
      simp only [huser, hmeasured, and_self, if_true] at hreserved
      simp only [huser, if_true] at hstored
      rw [reservedBytes] at hroom
      rw [huser]
      omega
    · left
      have hset := fileBytes_updateFile (u := call.userId) (completed now object) hget
      rw [fileWeight_completed, if_neg (Ne.symm huser)] at hset
      rw [if_neg huser] at hstored
      refine ⟨?_, hstored⟩
      change _ ≤ fileBytes s.db call.userId
      omega
  unused := h.unused

/-- What a step of a reserving call does. -/
inductive Moves (settings : StorageSettings) (c : Nat) (server : TaskServer) (call : Reservation) :
    TaskServer → ReservationPhase → Prop
  | locks {server' : TaskServer} (hphase : call.phase = .locking)
      (hlock : server.acquire c (.storage call.userId) = some server') :
      Moves settings c server call server' .measuringFiles
  | measures (hphase : call.phase = .measuringFiles) :
      Moves settings c server call server (.measuringArtifacts (fileBytes (server.view c) call.userId))
  | fits {bytes : Nat} (hphase : call.phase = .measuringArtifacts bytes)
      (hroom : bytes + artifactBytes (server.view c).toDatabase call.userId + call.sizeBytes ≤
        settings.userStorageBytes) : Moves settings c server call server .creating
  | inserts (hphase : call.phase = .creating) :
      Moves settings c server call (server.write c (insert call.row)) .committing
  | commits {phase : ReservationPhase} (hphase : call.phase = .committing) (hlocked : phase.locked = false) :
      Moves settings c server call (server.commit c) phase
  | leaves : Moves settings c server call (server.rollback c) .threw
  /-- Outside of the transaction. -/
  | outside {f : Tables → Tables} {phase : ReservationPhase} (hold : call.phase.inTransaction = false)
      (hlocked : phase.locked = false) (hf : Shrinks server.db (f server.db)) :
      Moves settings c server call (server.direct f) phase

theorem shrinks_refl (db : Tables) : Shrinks db db := fun _ => ⟨Nat.le_refl _, Nat.le_refl _⟩

theorem moves_next {answer : ReservationAnswer}
    (h : call.next settings c server answer = some (server', call')) :
    Moves settings c server call server' call'.phase ∧ call' = { call with phase := call'.phase } := by
  obtain ⟨userId, row, phase⟩ := call
  cases answer with
  | done now =>
    cases phase with
    | locking =>
      obtain ⟨server₁, hlock, h⟩ := Option.bind_eq_some_iff.mp h
      cases h
      exact ⟨.locks rfl hlock, rfl⟩
    | measuringFiles =>
      cases h
      exact ⟨.measures rfl, rfl⟩
    | measuringArtifacts bytes =>
      simp only [Reservation.next] at h
      split at h
      · cases h
        exact ⟨.leaves, rfl⟩
      · rename_i hroom
        cases h
        exact ⟨.fits rfl (Nat.le_of_not_lt hroom), rfl⟩
    | creating =>
      simp only [Reservation.next] at h
      split at h <;> cases h
      · exact ⟨.inserts rfl, rfl⟩
      · exact ⟨.leaves, rfl⟩
    | committing =>
      cases h
      refine ⟨.commits rfl ?_, rfl⟩
      dsimp only
      split <;> rfl
    | signing =>
      cases h
      exact ⟨.outside (f := id) rfl rfl (shrinks_refl _), rfl⟩
    | failing =>
      cases h
      refine ⟨.outside rfl rfl ?_, rfl⟩
      cases row with
      | inl file => exact shrinks_rejected server.db file.id now
      | inr artifact => exact shrinks_refl _
    | returned => cases h
    | threw => cases h
  | failed =>
    cases phase with
    | signing =>
      cases h
      exact ⟨.outside (f := id) rfl rfl (shrinks_refl _), rfl⟩
    | failing =>
      cases h
      exact ⟨.outside (f := id) rfl rfl (shrinks_refl _), rfl⟩
    | returned => cases h
    | threw => cases h
    | _ =>
      cases h
      exact ⟨.leaves, rfl⟩

theorem fileWeight_le (u : String) (file : File) : fileWeight u file ≤ file.sizeBytes := by
  unfold fileWeight
  split
  · exact Nat.le_refl _
  · exact Nat.zero_le _

theorem fileBytes_insert_file (file : File) (db : Tables) (u : String) :
    fileBytes (insert (.inl file) db) u ≤ fileBytes db u + fileWeight u file := by
  have hset := OrderedMap.total_set (fileWeight u) db.files file.id file
  simp only [insert, fileBytes]
  omega

theorem artifactBytes_insert (artifact : ResultArtifact) (db : Tables) (u : String) :
    artifactBytes (insert (.inr artifact) db).toDatabase u =
      artifactBytes db.toDatabase u + artifactWeight u artifact := by
  simp [insert, artifactBytes]

/-- A new row adds its bytes to those of its user. -/
theorem storedBytes_insert (row : File ⊕ ResultArtifact) (db : Tables) :
    storedBytes (insert row db) (rowUser row) ≤
      storedBytes db (rowUser row) + row.elim File.sizeBytes ResultArtifact.sizeBytes := by
  cases row with
  | inl file =>
    have hfiles := fileBytes_insert_file file db file.userId
    have hweight := fileWeight_le file.userId file
    change fileBytes (insert (.inl file) db) file.userId + artifactBytes db.toDatabase file.userId ≤
      fileBytes db file.userId + artifactBytes db.toDatabase file.userId + file.sizeBytes
    omega
  | inr artifact =>
    change fileBytes db artifact.userId + artifactBytes (insert (.inr artifact) db).toDatabase artifact.userId ≤
      fileBytes db artifact.userId + artifactBytes db.toDatabase artifact.userId + artifact.sizeBytes
    rw [artifactBytes_insert, artifactWeight, if_pos rfl, Nat.add_assoc]

/-- It adds none to the others'. -/
theorem insert_other {row : File ⊕ ResultArtifact} (hne : rowUser row ≠ u) (db : Tables) :
    fileBytes (insert row db) u ≤ fileBytes db u ∧ storedBytes (insert row db) u ≤ storedBytes db u := by
  cases row with
  | inl file =>
    have hfiles := fileBytes_insert_file file db u
    rw [fileWeight, if_neg (fun h => hne h.1), Nat.add_zero] at hfiles
    exact ⟨hfiles, Nat.add_le_add_right hfiles _⟩
  | inr artifact =>
    refine ⟨Nat.le_refl _, Nat.add_le_add_left ?_ _⟩
    rw [artifactBytes_insert, artifactWeight, if_neg (show artifact.userId ≠ u from hne), Nat.add_zero]

/-- The invariant after one reserving call has moved, from what the move does to the others. -/
theorem Inv.move (h : Inv settings s) {phase : ReservationPhase} (hget : s.reservations.get c = some call)
    (hquota : ∀ u, storedBytes server'.db u ≤ settings.userStorageBytes)
    (hdb : ∀ u, s.server.locks (.storage u) ≠ some c → fileBytes server'.db u ≤ fileBytes s.db u ∧
      storedBytes server'.db u ≤ storedBytes s.db u)
    (hothers : ∀ d, d ≠ c → server'.writes d = s.server.writes d)
    (hlocks : ∀ d, d ≠ c → ∀ k, s.server.locks k = some d → server'.locks k = some d)
    (hlock : phase.locked = true → server'.locks (.storage call.userId) = some c)
    (hwrites : server'.writes c = if phase = .committing then [insert call.row] else [])
    (hchecked : Checked settings server'.db { call with phase }) :
    Inv settings { s with server := server', reservations := s.reservations.set c { call with phase } } where
  quota := hquota
  calls := by
    intro d other hother
    rw [OrderedMap.get_set] at hother
    split at hother
    · rename_i heq
      cases hother
      rw [heq]
      exact ⟨(h.calls c call hget).owner, hlock, hwrites, hchecked⟩
    · rename_i hne
      have hcall := h.calls d other hother
      refine hcall.keep (hothers d hne) (hlocks d hne) fun hmeasured => .inl ?_
      apply hdb
      rw [hcall.lock (locked_of_measured hmeasured)]
      exact fun heq => hne (Option.some.inj heq)
  unused := by
    intro d hd
    rw [OrderedMap.get_set] at hd
    split at hd
    · cases hd
    · rename_i hne
      change server'.writes d = []
      rw [hothers d hne]
      exact h.unused d hd

theorem inv_reservation (h : Inv settings s) {phase : ReservationPhase}
    (hget : s.reservations.get c = some call) (hmoves : Moves settings c s.server call server' phase) :
    Inv settings { s with server := server', reservations := s.reservations.set c { call with phase } } := by
  have hcall := h.calls c call hget
  have hsame : ∀ u, s.server.locks (.storage u) ≠ some c → fileBytes s.db u ≤ fileBytes s.db u ∧
      storedBytes s.db u ≤ storedBytes s.db u := fun u _ => ⟨Nat.le_refl _, Nat.le_refl _⟩
  cases hmoves with
  | locks hphase hlock =>
    obtain ⟨hdb, hwrites, hlocks⟩ := Server.acquire_eq_some hlock
    have hnone := hcall.writes_nil (by rw [hphase]; exact nofun)
    refine h.move hget (fun u => ?_) (fun u _ => ?_) (fun d _ => ?_) ?_ (fun _ => ?_) ?_ trivial
    · rw [hdb]
      exact h.quota u
    · rw [hdb]
      exact ⟨Nat.le_refl _, Nat.le_refl _⟩
    · rw [hwrites]
    · exact fun d _ k hk => Server.acquire_keeps hlock hk
    · rw [hlocks, Function.update_self]
    · rw [hwrites]
      exact hnone
  | measures hphase =>
    have hnone := hcall.writes_nil (by rw [hphase]; exact nofun)
    refine h.move hget h.quota hsame (fun d _ => rfl) (fun d _ k hk => hk) (fun _ => ?_) hnone ?_
    · exact hcall.lock (by rw [hphase]; rfl)
    · left
      rw [Server.view_of_writes_nil hnone]
  | fits hphase hroom =>
    have hnone := hcall.writes_nil (by rw [hphase]; exact nofun)
    refine h.move hget h.quota hsame (fun d _ => rfl) (fun d _ k hk => hk) (fun _ => ?_) hnone ?_
    · exact hcall.lock (by rw [hphase]; rfl)
    · have hchecked := hcall.checked
      rw [Checked, hphase] at hchecked
      rw [Server.view_of_writes_nil hnone] at hroom
      change storedBytes s.server.db call.userId + call.sizeBytes ≤ settings.userStorageBytes
      rcases hchecked with hmeasured | hfree
      · rw [storedBytes]
        omega
      · exact hfree
  | inserts hphase =>
    have hnone := hcall.writes_nil (by rw [hphase]; exact nofun)
    refine h.move hget h.quota hsame (fun d hne => ?_) (fun d _ k hk => hk) (fun _ => ?_) ?_ ?_
    · rw [Server.write_writes, if_neg hne]
    · exact hcall.lock (by rw [hphase]; rfl)
    · rw [Server.write_writes, if_pos rfl, hnone]
      rfl
    · have hchecked := hcall.checked
      rw [Checked, hphase] at hchecked
      exact hchecked
  | commits hphase hlocked =>
    have hwrites := hcall.writes
    rw [hphase, if_pos rfl] at hwrites
    have hlock := hcall.lock (by rw [hphase]; rfl)
    have hroom := hcall.checked
    rw [Checked, hphase] at hroom
    have hview : s.server.view c = insert call.row s.db := by
      rw [Server.view, hwrites]
      rfl
    refine h.move hget (fun u => ?_) (fun u hfree => ?_) (fun d hne => ?_) ?_ ?_ ?_ ?_
    · rw [Server.commit_db, hview]
      by_cases huser : rowUser call.row = u
      · have hinsert := storedBytes_insert call.row s.db
        rw [← huser]
        rw [hcall.owner] at hinsert ⊢
        exact Nat.le_trans hinsert hroom
      · exact Nat.le_trans (insert_other huser s.db).2 (h.quota u)
    · rw [Server.commit_db, hview]
      apply insert_other
      intro heq
      rw [← heq, hcall.owner] at hfree
      exact hfree hlock
    · rw [Server.commit_writes, Server.rollback_writes, if_neg hne]
    · exact fun d hne k hk => Server.rollback_locks_other hne hk
    · intro hnow
      rw [hlocked] at hnow
      cases hnow
    · rw [Server.commit_writes, Server.rollback_writes, if_pos rfl, if_neg]
      intro heq
      rw [heq] at hlocked
      cases hlocked
    · unfold Checked
      cases phase <;> trivial
  | leaves =>
    refine h.move hget h.quota hsame (fun d hne => ?_) ?_ (fun hnow => by cases hnow) ?_ trivial
    · rw [Server.rollback_writes, if_neg hne]
    · exact fun d hne k hk => Server.rollback_locks_other hne hk
    · rw [Server.rollback_writes, if_pos rfl]
      rfl
  | outside hold hlocked hf =>
    have hnone := hcall.writes_nil fun heq => by rw [heq] at hold; cases hold
    refine h.move hget (fun u => ?_) (fun u _ => ⟨(hf u).1, hf.stored u⟩) (fun d _ => rfl)
      (fun d _ k hk => hk) ?_ ?_ ?_
    · exact Nat.le_trans (hf.stored u) (h.quota u)
    · intro hnow
      rw [hlocked] at hnow
      cases hnow
    · rw [if_neg]
      · exact hnone
      · intro heq
        rw [heq] at hlocked
        cases hlocked
    · unfold Checked
      cases phase <;> trivial

/-- A new call has checked nothing. -/
theorem Inv.start (h : Inv settings s) (hnone : s.reservations.get c = none)
    (howner : rowUser call.row = call.userId) (hphase : call.phase = .locking) :
    Inv settings { s with reservations := s.reservations.set c call } where
  quota := h.quota
  calls := by
    intro d other hother
    rw [OrderedMap.get_set] at hother
    split at hother
    · rename_i heq
      cases hother
      refine ⟨howner, fun hlocked => ?_, ?_, ?_⟩
      · rw [hphase] at hlocked
        cases hlocked
      · rw [hphase, heq]
        exact h.unused c hnone
      · rw [Checked, hphase]
        trivial
    · exact h.calls d other hother
  unused := by
    intro d hd
    rw [OrderedMap.get_set] at hd
    split at hd
    · cases hd
    · exact h.unused d hd

theorem inv_completion (h : Inv settings s) {answer : CompletionAnswer} {completion completion' : Completion}
    {completions : OrderedMap Nat Completion} (hok : LeavesRoom settings s (.completion c answer))
    (hget : s.completions.get c = some completion) (hnext : completion.next s.db answer = some (db, completion')) :
    Inv settings { s.direct fun _ => db with completions } := by
  cases completion_next hnext with
  | nothing => exact h.shrink rfl rfl rfl (shrinks_refl _)
  | rejects hphase => exact h.shrink rfl rfl rfl (shrinks_rejected s.db _ _)
  | completes hphase =>
    rename_i file object now
    have hfailed : ∀ row ∈ s.db.files.get file.id, row.status = .failed →
        row ∈ revived s (.completion c (.statement now)) := by
      intro row hrow hstatus
      rw [Option.mem_def] at hrow
      simp [revived, hget, hphase, hrow, hstatus]
    by_cases hrow : ∃ row ∈ s.db.files.get file.id, row.status = .failed
    · obtain ⟨row, hrow, hstatus⟩ := hrow
      exact h.revive hrow (hok row (hfailed row hrow hstatus))
    · refine h.shrink rfl rfl rfl (shrinks_completed fun row hget hstatus => hrow ⟨row, hget, hstatus⟩)

theorem inv_step {l : Label} (h : Inv settings s) (hok : LeavesRoom settings s l)
    (hstep : step settings s l = some s') : Inv settings s' := by
  cases l with
  | createUploadUrl c userId fileId input now =>
    simp only [step] at hstep
    split at hstep
    · rename_i hnew
      cases hstep
      exact h.start hnew.1 rfl rfl
    · cases hstep
  | archiveResultArtifact c artifact =>
    simp only [step] at hstep
    split at hstep
    · rename_i hnew
      cases hstep
      exact h.start hnew.1 rfl rfl
    · cases hstep
  | reservation c answer =>
    obtain ⟨call, hget, hstep⟩ := Option.bind_eq_some_iff.mp hstep
    obtain ⟨⟨server', call'⟩, hnext, hstep⟩ := Option.bind_eq_some_iff.mp hstep
    cases hstep
    obtain ⟨hmoves, hcall⟩ := moves_next hnext
    rw [hcall]
    exact inv_reservation h hget hmoves
  | completeUpload c userId input =>
    simp only [step] at hstep
    split at hstep <;> cases hstep
    exact h.shrink rfl rfl rfl (shrinks_refl _)
  | completion c answer =>
    obtain ⟨call, hget, hstep⟩ := Option.bind_eq_some_iff.mp hstep
    obtain ⟨⟨db, call'⟩, hnext, hstep⟩ := Option.bind_eq_some_iff.mp hstep
    cases hstep
    exact inv_completion h hok hget hnext
  | job d job =>
    simp only [step] at hstep
    split at hstep <;> cases hstep
    exact h.shrink rfl rfl rfl (shrinks_refl _)
  | deleter d answer =>
    obtain ⟨deleter, hget, hstep⟩ := Option.bind_eq_some_iff.mp hstep
    obtain ⟨⟨db, deleter'⟩, hnext, hstep⟩ := Option.bind_eq_some_iff.mp hstep
    cases hstep
    exact h.shrink rfl rfl rfl (shrinks_deleter (deleter_next hnext).1)
  | deleteSession id =>
    simp only [step] at hstep
    split at hstep <;> cases hstep
    exact h.shrink rfl rfl rfl (shrinks_deleteSession s.db id)
  | enqueue new files =>
    simp only [step] at hstep
    split at hstep
    · obtain ⟨db, henqueue, hstep⟩ := Option.bind_eq_some_iff.mp hstep
      cases hstep
      refine h.shrink rfl rfl rfl fun u => ⟨Nat.le_refl _, Nat.le_of_eq ?_⟩
      exact artifactBytes_of_same (enqueue_artifacts henqueue)
    · cases hstep
  | transaction tx =>
    simp only [step] at hstep
    split at hstep
    · cases hstep
    · rename_i helsewhere
      obtain ⟨db, happly, hstep⟩ := Option.bind_eq_some_iff.mp hstep
      cases hstep
      refine h.shrink rfl rfl rfl fun u => ⟨Nat.le_refl _, Nat.le_of_eq ?_⟩
      exact artifactBytes_apply (Bool.eq_false_iff.mpr helsewhere) happly

/-- The quota is kept when every revived upload finds room. -/
theorem within_quota_of_leavesRoom (settings : StorageSettings) {ls : List Label}
    (hok : Along (step settings) (LeavesRoom settings) .init ls) :
    Throughout (step settings) (WithinQuota settings) .init ls :=
  throughout_of_along (fun _ h => h.quota) (fun _ _ _ h hok hstep => inv_step h hok hstep)
    (inv_init settings) hok

instance (settings : StorageSettings) (s : System) (l : Label) : Decidable (LeavesRoom settings s l) :=
  inferInstanceAs (Decidable (∀ row ∈ revived s l, _))

/-- Ten bytes for every user. -/
def tenBytes : StorageSettings := ⟨⟨1, fun _ => true⟩, ⟨24, 24⟩, 10, 10⟩

/-- A call asks for an upload URL and gets it. -/
def uploadUrl (c : Nat) (fileId : String) (sizeBytes : Nat) : List Label :=
  .createUploadUrl c "u" fileId ⟨"a.txt", "text/plain", sizeBytes⟩ 0 ::
    List.replicate 6 (.reservation c (.done 0))

/-- The upload of six bytes is completed, with an object of so many. -/
def completion (c sizeBytes : Nat) : List Label :=
  [.completeUpload c "u" ⟨"f", "a.txt", "text/plain", 6, "users/u/f/a.txt"⟩, .completion c (.statement 1),
    .completion c (.inspected ⟨some sizeBytes, some "text/plain", some "e"⟩), .completion c (.statement 2)]

/-- The first object is one of five bytes and is rejected; a second upload takes the place of the first,
whose object is replaced and accepted. -/
def rejectedFirst (second : Nat) : List Label :=
  uploadUrl 0 "f" 6 ++ completion 0 5 ++ uploadUrl 1 "g" second ++ completion 1 6

theorem not_within_quota_of_rejectedFirst :
    ¬ Throughout (step tenBytes) (WithinQuota tenBytes) .init (rejectedFirst 6) := by
  intro hquota
  have hend : (run (step tenBytes) .init (rejectedFirst 6)).any (fun s => storedBytes s.db "u" = 12) = true := by
    decide +kernel
  obtain ⟨s, hrun, hs⟩ := (Option.any_eq_true _ _).mp hend
  have hle := hquota.last hrun "u"
  rw [of_decide_eq_true hs] at hle
  exact absurd hle (by decide)

theorem within_quota_of_rejectedFirst :
    (run (step tenBytes) .init (rejectedFirst 4)).any (fun s => storedBytes s.db "u" = 10) = true ∧
    Throughout (step tenBytes) (WithinQuota tenBytes) .init (rejectedFirst 4) :=
  ⟨by decide +kernel, within_quota_of_leavesRoom tenBytes (by decide +kernel)⟩

end StorageQuota
