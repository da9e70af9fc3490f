import ClawWork.FaultyRuns
import ClawWork.ServiceCalls

/-!
# The archive of result artifacts

`archiveResultArtifact` downloads the file that an event of the gateway names, stores it
as an object and creates its row, or deletes the object again. It is run with a failure
at one of its calls: what is downloaded, from where, and what is left of the row and of
its object is said for each place of the failure.
-/

namespace ArtifactArchive

open JavaScript SharedTypes TaskStore TasksService ServiceTables FileCalls Isolation ServiceStore FaultyRuns

/-- What is read of a `URL`. -/
structure Url where
  protocol : String
  username : String
  password : String
  origin : String
  pathname : String
  deriving DecidableEq

structure ArchiveSettings where
  maxResultFileBytes : Nat
  userStorageBytes : Nat
  /-- `RESULT_ARTIFACT_ALLOWED_ORIGINS` and `OPENCLAW_GATEWAY_URL`. -/
  allowedOrigins : Option String
  gatewayUrl : Option String
  /-- `new URL`, and the URL after its `protocol` was set. -/
  parseUrl : String → Option Url
  withProtocol : Url → String → Url

/-- The response to a download, with the chunks that its body gives. -/
structure Response where
  ok : Bool
  status : Nat
  hasBody : Bool
  /-- `Number` of the `content-length` header, when it is finite. -/
  contentLength : Option Rat
  contentType : Option String
  chunks : List (List UInt8)
  /-- The error that the body ends with. -/
  failure : Option Failure

inductive Request where
  | fetch (source : Url)
  | randomUUID
  | newId
  | putObject (key : String) (body : List UInt8) (mimeType : String)
  | deleteObject (key : String)
  | createDownloadUrl (key : String)

/-- The answer to `putObject` is the tag of the object. -/
def Reply : Request → Type
  | .fetch _ => Except Failure Response
  | .randomUUID | .newId => String
  | .putObject _ _ _ => Except Failure (Option String)
  | .deleteObject _ => Except Failure Unit
  | .createDownloadUrl _ => Except Failure String

abbrev Call (α : Type) : Type 1 := Program Reply Failure Store α

/-- An `await` that may be rejected. -/
def settle {α : Type} : Except Failure α → Call α
  | .ok a => pure a
  | .error failure => throw failure

def query {α : Type} (q : Store → α) : Call α := Program.exec (.read q)

def asNonEmptyString (input : Option String) : String := (input.map trim).getD ""

/-- `text.split(",")`. -/
def splitCommas (text : String) : List String := (text.toList.splitOn ',').map String.ofList

section Archive

variable (settings : ArchiveSettings)

/-- The origins that artifacts are downloaded from; `none` when a URL of the configuration is invalid. -/
def resultArtifactOrigins : Option (List String) := do
  let texts := ((splitCommas (asNonEmptyString settings.allowedOrigins)).map trim).filter (· ≠ "")
  let configured ← texts.mapM fun text => (settings.parseUrl text).map Url.origin
  if configured ≠ [] then return configured
  let gatewayUrl := asNonEmptyString settings.gatewayUrl
  if gatewayUrl = "" then return []
  let url ← settings.parseUrl gatewayUrl
  if url.protocol = "ws:" then return [(settings.withProtocol url "http:").origin]
  if url.protocol = "wss:" then return [(settings.withProtocol url "https:").origin]
  return [url.origin]

/-- Artifacts are downloaded over HTTP, without credentials, and from the configured origins. -/
def isAllowed (source : Url) : Bool :=
  (source.protocol = "http:" || source.protocol = "https:") && source.username = "" && source.password = "" &&
    (resultArtifactOrigins settings).any fun origins => source.origin ∈ origins

/-- The URL of the artifact, if it may be downloaded. -/
def artifactSource (artifact : Artifact) : Except Failure Url :=
  match settings.parseUrl (artifact.downloadUrl.getD "") with
  | none => .error (.error "Invalid URL")
  | some source =>
    if (source.protocol = "http:" || source.protocol = "https:") && source.username = "" && source.password = "" then
      match resultArtifactOrigins settings with
      | none => .error (.error "Invalid URL")
      | some origins =>
        if source.origin ∈ origins then .ok source
        else .error (.error "gateway artifact URL origin is not allowed")
    else .error (.error "gateway artifact URL origin is not allowed")

/-- The loop over the chunks, with their size so far and what it has kept of them. -/
def readChunks (failure : Option Failure) :
    List (List UInt8) → Nat → List (List UInt8) → Except Failure (Nat × List (List UInt8))
  | [], sizeBytes, chunks =>
    match failure with
    | none => .ok (sizeBytes, chunks)
    | some failure => .error failure
  | value :: rest, sizeBytes, chunks =>
    if sizeBytes + value.length > settings.maxResultFileBytes then
      .error (.error "gateway artifact exceeds result file size limit")
    else readChunks failure rest (sizeBytes + value.length) (chunks ++ [value])

/-- `Buffer.concat` with a total length: what is missing is filled with zeros. -/
def concat (chunks : List (List UInt8)) (totalLength : Nat) : List UInt8 :=
  chunks.flatten.take totalLength ++ List.replicate (totalLength - chunks.flatten.length) 0

/-- The MIME type of the `content-type` header. -/
def responseMimeType (contentType : Option String) : Option String :=
  contentType.map fun text => trim (.ofList (text.toList.takeWhile (· ≠ ';')))

/-- What the response is checked for, and the file that it gives. -/
def download (artifact : Artifact) (response : Response) : Except Failure (List UInt8) :=
  if !(response.ok && response.hasBody) then
    .error (.error s!"gateway artifact download failed ({response.status})")
  else if response.contentLength.any fun length => (settings.maxResultFileBytes : Rat) < length then
    .error (.error "gateway artifact exceeds result file size limit")
  else if (responseMimeType response.contentType).any fun mimeType =>
      mimeType ≠ "" && mimeType ≠ artifact.mimeType then
    .error (.error "gateway artifact MIME type does not match result metadata")
  else
    match readChunks settings response.failure response.chunks 0 [] with
    | .error failure => .error failure
    | .ok (sizeBytes, chunks) =>
      if sizeBytes < 1 then .error (.error "gateway artifact is empty")
      else if artifact.sizeBytes.any fun expected => expected ≠ sizeBytes then
        .error (.error "gateway artifact size does not match result metadata")
      else .ok (concat chunks sizeBytes)

/-- The row of an artifact that was stored. -/
def artifactRow (task : TaskRow) (artifact : Artifact) (uuid id : String) (sizeBytes : Nat) : ResultArtifact :=
  let fileName := sanitizeFilename artifact.fileName
  { id, userId := task.userId, taskId := task.id, resultId := none, kind := artifact.kind, fileName,
    mimeType := artifact.mimeType, sizeBytes,
    storageKey := s!"users/{task.userId}/results/{task.id}/{uuid}/{fileName}", previewText := artifact.previewText }

/-- The `$transaction` of `archiveResultArtifact`. -/
def reserveArtifact (row : ResultArtifact) : Statement Unit := do
  let usedBytes ← .read fun s => s.usedBytes row.userId
  .require (usedBytes + row.sizeBytes ≤ settings.userStorageBytes) (.http 429 "user storage quota exceeded")
  createArtifact row

/-- What the call returns: the key of the object, and the artifact with its id instead of its URL. -/
structure ArchiveResult where
  storageKey : String
  artifact : Artifact
  deriving DecidableEq

def archiveResult (row : ResultArtifact) : ArchiveResult where
  storageKey := row.storageKey
  artifact :=
    { kind := row.kind, fileName := row.fileName, mimeType := row.mimeType, artifactId := some row.id,
      downloadUrl := none, previewText := row.previewText, sizeBytes := some row.sizeBytes }

/-- The transaction, and the deletion of the object if it fails. -/
def createRow (row : ResultArtifact) : Call ArchiveResult :=
  tryCatch (do Program.exec (reserveArtifact settings row); return archiveResult row) fun failure => do
    let _ ← Program.request (Request.deleteObject row.storageKey)
    throw failure

def archiveResultArtifact (taskId : String) (artifact : Artifact) : Call ArchiveResult := do
  let task ← query fun s => s.tasks.get taskId
  let task ← Program.orThrow task (.http 404 "task not found")
  let source ← settle (artifactSource settings artifact)
  let response ← settle (← Program.request (Request.fetch source))
  let body ← settle (download settings artifact response)
  let uuid ← Program.request Request.randomUUID
  let id ← Program.request Request.newId
  let row := artifactRow task artifact uuid id body.length
  let _ ← settle (← Program.request (Request.putObject row.storageKey body row.mimeType))
  createRow settings row

/-- The two forms of an event whose artifact was archived. -/
def preparedEvent (event : TaskStreamEvent) (archived : ArchiveResult) (signed : String) : Prepared where
  stored := { event with detail := .resultCreated (.artifact { archived.artifact with downloadUrl := none }) }
  published := { event with
    detail := .resultCreated (.artifact { archived.artifact with downloadUrl := some signed }) }

def prepareTaskEvent (event : TaskStreamEvent) : Call Prepared :=
  match event.detail with
  | .resultCreated (.artifact artifact) =>
    if artifact.downloadUrl.getD "" = "" then
      throw (.error "gateway artifact is missing a downloadable file URL")
    else do
      let archived ← archiveResultArtifact settings event.taskId artifact
      let signed ← settle (← Program.request (Request.createDownloadUrl archived.storageKey))
      return preparedEvent event archived signed
  | .resultCreated (.record _) => throw (.error "gateway artifact is missing a downloadable file URL")
  | _ => return ⟨event, event⟩

end Archive

/-! ## The world outside -/

structure Stored where
  body : List UInt8
  mimeType : String
  deriving DecidableEq

/-- The gateway's files, the objects of results with their tags and URLs, and the ids that are drawn next. -/
structure World where
  answer : Url → Except Failure Response
  tag : String → Option String
  sign : String → String
  uuid : String
  nextId : String
  objects : OrderedMap String Stored
  /-- The URLs that were fetched. -/
  fetched : List Url

namespace World

def fetch (source : Url) (x : World) : World := { x with fetched := x.fetched ++ [source] }

def put (key : String) (object : Stored) (x : World) : World := { x with objects := x.objects.set key object }

def remove (key : String) (x : World) : World := { x with objects := x.objects.delete key }

end World

def serve : (r : Request) → World → Reply r × World
  | .fetch source, x => (x.answer source, x.fetch source)
  | .randomUUID, x => (x.uuid, x)
  | .newId, x => (x.nextId, x)
  | .putObject key body mimeType, x => (.ok (x.tag key), x.put key ⟨body, mimeType⟩)
  | .deleteObject key, x => (.ok (), x.remove key)
  | .createDownloadUrl key, x => (.ok (x.sign key), x)

/-- Drawing an id does not fail. -/
def refusal : (r : Request) → Option (Failure → Reply r)
  | .fetch _ | .putObject _ _ _ | .deleteObject _ | .createDownloadUrl _ => some .error
  | .randomUUID | .newId => none

def world : Outside Reply Failure World := ⟨serve, refusal⟩

/-! ## What is downloaded -/

section Download

variable {settings : ArchiveSettings} {artifact : Artifact} {response : Response} {body : List UInt8}

theorem readChunks_eq_ok {failure : Option Failure} {values kept chunks : List (List UInt8)} {n sizeBytes : Nat}
    (h : readChunks settings failure values n kept = .ok (sizeBytes, chunks)) :
    failure = none ∧ chunks = kept ++ values ∧ sizeBytes = n + values.flatten.length ∧
      (n ≤ settings.maxResultFileBytes → sizeBytes ≤ settings.maxResultFileBytes) := by
  induction values generalizing n kept with
  | nil =>
    unfold readChunks at h
    cases failure with
    | none =>
      cases h
      simp
    | some failure => cases h
  | cons value values ih =>
    unfold readChunks at h
    split at h
    · cases h
    · rename_i hfits
      obtain ⟨hnone, hchunks, hsize, hle⟩ := ih h
      refine ⟨hnone, by simpa using hchunks, ?_, fun _ => hle (by omega)⟩
      rw [hsize, List.flatten_cons, List.length_append, Nat.add_assoc]

theorem concat_eq (chunks : List (List UInt8)) : concat chunks chunks.flatten.length = chunks.flatten := by
  simp [concat]

/-- The file of a response that is accepted is all that its body gave, and it is not too large. -/
theorem download_eq_ok (h : download settings artifact response = .ok body) :
    response.ok = true ∧ response.failure = none ∧ body = response.chunks.flatten ∧ 1 ≤ body.length ∧
      body.length ≤ settings.maxResultFileBytes ∧ ∀ n ∈ artifact.sizeBytes, n = body.length := by
  unfold download at h
  split at h
  · cases h
  rename_i hresponse
  split at h
  · cases h
  split at h
  · cases h
  cases hread : readChunks settings response.failure response.chunks 0 [] with
  | error failure =>
    rw [hread] at h
    cases h
  | ok read =>
    obtain ⟨hfailure, hchunks, hsize, hle⟩ := readChunks_eq_ok hread
    obtain ⟨sizeBytes, chunks⟩ := read
    rw [List.nil_append] at hchunks
    rw [Nat.zero_add] at hsize
    subst hchunks hsize
    simp only [hread] at h
    split at h
    · cases h
    rename_i hempty
    split at h
    · cases h
    rename_i hexpected
    rw [concat_eq] at h
    cases h
    refine ⟨by simp_all, hfailure, rfl, by omega, hle (Nat.zero_le _), fun n hn => ?_⟩
    rw [Option.mem_def] at hn
    simpa [hn] using hexpected

theorem artifactSource_eq_ok {source : Url} (h : artifactSource settings artifact = .ok source) :
    isAllowed settings source = true := by
  unfold artifactSource at h
  split at h
  · cases h
  split at h
  · rename_i hplain
    split at h
    · cases h
    rename_i origins horigins
    split at h
    · rename_i horigin
      cases h
      simp [isAllowed, horigins, horigin, hplain]
    · cases h
  · cases h

end Download

/-! ## What a run leaves behind -/

def withRow (row : ResultArtifact) (s : Store) : Store := { s with resultArtifacts := s.resultArtifacts ++ [row] }

section Runs

variable (settings : ArchiveSettings)

/-- The transaction creates the row. -/
def accepted (row : ResultArtifact) (s : Store) : Bool :=
  s.usedBytes row.userId + row.sizeBytes ≤ settings.userStorageBytes &&
    (s.resultArtifacts.all fun old => old.id ≠ row.id && old.storageKey ≠ row.storageKey) &&
    (s.tasks.get row.taskId).isSome

/-- The task of the artifact and the file that its URL gives, where the checks let them pass. -/
def downloaded (taskId : String) (artifact : Artifact) (s : Store) (x : World) : Option (TaskRow × List UInt8) := do
  let task ← s.tasks.get taskId
  let source ← (artifactSource settings artifact).toOption
  let response ← (x.answer source).toOption
  let body ← (download settings artifact response).toOption
  return (task, body)

end Runs

/-- The row is there after a run whose call `k` fails. -/
def rowKept (accepted : Bool) (k : Nat) (applied : Bool) : Bool := accepted && (4 ≤ k || (k = 3 && applied))

/-- The object is there after a run whose call `k` fails: `putObject` is its third call, the transaction
its fourth, and the deletion of the object its fifth, if the transaction has failed. -/
def objectKept (accepted : Bool) (k : Nat) (applied : Bool) : Bool :=
  (k = 2 && applied) || (k = 4 && !accepted && !applied) || (4 ≤ k && accepted)

variable {settings : ArchiveSettings} {taskId : String} {artifact : Artifact} {fault : Fault Failure} {k : Nat}
  {s s' : Store} {x x' : World} {row : ResultArtifact}

theorem reserveArtifact_apply (settings : ArchiveSettings) (row : ResultArtifact) (s : Store) :
    reserveArtifact settings row s =
      if s.usedBytes row.userId + row.sizeBytes ≤ settings.userStorageBytes then createArtifact row s
      else .error (.http 429 "user storage quota exceeded") := by
  by_cases hquota : s.usedBytes row.userId + row.sizeBytes ≤ settings.userStorageBytes
  · rw [if_pos hquota, reserveArtifact, Action.bind_apply]
    simp only [Action.read, Action.require, hquota, decide_true, if_true]
    rfl
  · rw [if_neg hquota, reserveArtifact, Action.bind_apply]
    simp only [Action.read, Action.require, hquota, decide_false, Bool.false_eq_true, if_false]
    rfl

/-- The transaction creates the row, or it throws and leaves the store as it is. -/
theorem reserveArtifact_eq (settings : ArchiveSettings) (row : ResultArtifact) (s : Store) :
    if accepted settings row s then reserveArtifact settings row s = .ok ((), withRow row s)
    else ∃ e, reserveArtifact settings row s = .error e := by
  rw [reserveArtifact_apply, createArtifact, insertion, accepted]
  by_cases hquota : s.usedBytes row.userId + row.sizeBytes ≤ settings.userStorageBytes
  · by_cases hunique : (s.resultArtifacts.all fun old => old.id ≠ row.id && old.storageKey ≠ row.storageKey) = true
    · by_cases htask : (s.tasks.get row.taskId).isSome = true
      · simp only [hquota, hunique, htask, decide_true, Bool.and_self, if_true]
        rfl
      · simp only [hquota, hunique, htask, decide_true, Bool.and_false, if_true, Bool.false_eq_true, if_false]
        exact ⟨_, rfl⟩
    · simp only [hquota, hunique, decide_true, Bool.and_false, Bool.false_and, if_true, Bool.false_eq_true, if_false]
      exact ⟨_, rfl⟩
  · simp only [hquota, decide_false, Bool.false_and, Bool.false_eq_true, if_false]
    exact ⟨_, rfl⟩

/-- What a run has left behind of a row and its object. -/
def Leaves (hasRow hasObject : Bool) (row : ResultArtifact) (object : Stored) (s : Store) (x : World) (s' : Store)
    (x' : World) : Prop :=
  s' = (if hasRow then withRow row s else s) ∧ x' = if hasObject then x.put row.storageKey object else x

theorem remove_put {key : String} (object : Stored) (hfresh : x.objects.get key = none) :
    (x.put key object).remove key = x := by
  have hobjects : (x.objects.set key object).delete key = x.objects := by
    rw [OrderedMap.delete_set, (OrderedMap.delete_eq_self_iff _ _).mpr hfresh]
  rw [World.put, World.remove]
  simp only [hobjects]

/-- The object is deleted, unless that is the call that fails before it has taken effect. -/
theorem ends_deleteObject {left : Option Nat} {object : Stored} (hfresh : x.objects.get row.storageKey = none)
    (failure : Failure) {returned : ArchiveResult → Option Nat → Store → World → Prop}
    {threw : Store → World → Prop} (hnext : left ≠ some 0 → threw s x)
    (hfault : left = some 0 → threw s (if fault.applied then x else x.put row.storageKey object)) :
    Ends world fault
      (do let _ ← Program.request (Request.deleteObject row.storageKey); throw failure : Call ArchiveResult) left s
      (x.put row.storageKey object) returned threw := by
  have hremoved := remove_put object hfresh
  apply Ends.bind
  apply Ends.request Except.error rfl
  · intro hdue
    apply Ends.throw
    change threw s ((x.put row.storageKey object).remove row.storageKey)
    rw [hremoved]
    exact hnext hdue
  · intro hdue
    apply Ends.throw
    change threw s (if fault.applied then (x.put row.storageKey object).remove row.storageKey else _)
    rw [hremoved]
    exact hfault hdue

theorem ends_createRow {object : Stored} (hfresh : x.objects.get row.storageKey = none) :
    Ends world fault (createRow settings row) (some k) s (x.put row.storageKey object)
      (fun result _ s' x' => result = archiveResult row ∧ Leaves true true row object s x s' x' ∧
        accepted settings row s = true ∧ 1 ≤ k)
      (Leaves (rowKept (accepted settings row s) (k + 3) fault.applied)
        (objectKept (accepted settings row s) (k + 3) fault.applied) row object s x) := by
  have hreserve := reserveArtifact_eq settings row s
  refine Ends.recover_exec (f := fun _ => archiveResult row) ?_ ?_ ?_
  · intro _ s' haction hdue
    have hpos : 1 ≤ k := Nat.one_le_iff_ne_zero.mpr fun hk => hdue (hk ▸ rfl)
    split at hreserve
    · rename_i haccepted
      rw [hreserve] at haction
      cases haction
      exact ⟨rfl, ⟨rfl, rfl⟩, haccepted, hpos⟩
    · obtain ⟨e, he⟩ := hreserve
      rw [he] at haction
      cases haction
  · intro e haction hdue
    have hpos : 1 ≤ k := Nat.one_le_iff_ne_zero.mpr fun hk => hdue (hk ▸ rfl)
    have haccepted : accepted settings row s = false := by
      by_contra haccepted
      rw [if_pos (Bool.eq_true_of_not_eq_false haccepted)] at hreserve
      rw [hreserve] at haction
      cases haction
    obtain ⟨j, rfl⟩ := Nat.exists_eq_add_of_le' hpos
    rw [haccepted]
    refine ends_deleteObject hfresh e (fun hnext => ?_) fun hfault => ?_
    · have hj : j ≠ 0 := fun hj => hnext (by rw [hj]; rfl)
      simp [Leaves, rowKept, objectKept, hj]
    · have hj : j = 0 := by simpa [tick] using hfault
      cases happlied : fault.applied <;> simp [Leaves, rowKept, objectKept, hj]
  · intro hdue
    obtain rfl : k = 0 := Option.some.inj hdue
    refine ends_deleteObject hfresh fault.error (fun _ => ?_) fun hfault => by cases hfault
    have heffect : effect (reserveArtifact settings row) s =
        if accepted settings row s then withRow row s else s := by
      split at hreserve
      · rename_i haccepted
        rw [effect, hreserve, if_pos haccepted]
      · rename_i haccepted
        obtain ⟨e, he⟩ := hreserve
        rw [effect, he, if_neg haccepted]
    rw [heffect]
    cases happlied : fault.applied <;> cases haccepted : accepted settings row s <;>
      simp [Leaves, rowKept, objectKept]

/-! ## The whole call -/

/-- The row of a file that was downloaded, and its object. -/
def newRow (artifact : Artifact) (x : World) (task : TaskRow) (body : List UInt8) : ResultArtifact :=
  artifactRow task artifact x.uuid x.nextId body.length

def newObject (artifact : Artifact) (body : List UInt8) : Stored := ⟨body, artifact.mimeType⟩

/-- At most one file is fetched, and from an origin that is allowed. -/
def Fetches (settings : ArchiveSettings) (x x' : World) : Prop :=
  x'.fetched = x.fetched ∨ ∃ source, isAllowed settings source = true ∧ x'.fetched = x.fetched ++ [source]

/-- What a run whose call `k` fails leaves behind. -/
structure Outcome (settings : ArchiveSettings) (taskId : String) (artifact : Artifact) (s : Store) (x : World)
    (k : Nat) (applied : Bool) (s' : Store) (x' : World) : Prop where
  fetched : Fetches settings x x'
  sign : x'.sign = x.sign
  nothing : downloaded settings taskId artifact s x = none → s' = s ∧ x'.objects = x.objects
  stored : ∀ task body, downloaded settings taskId artifact s x = some (task, body) →
    let row := newRow artifact x task body
    (s' = if rowKept (accepted settings row s) k applied then withRow row s else s) ∧
      x'.objects = if objectKept (accepted settings row s) k applied then
        x.objects.set row.storageKey (newObject artifact body) else x.objects

theorem outcome_early {applied : Bool} (hfetched : Fetches settings x x') (hsign : x'.sign = x.sign)
    (hobjects : x'.objects = x.objects) (h : downloaded settings taskId artifact s x = none ∨ k < 2) :
    Outcome settings taskId artifact s x k applied s x' where
  fetched := hfetched
  sign := hsign
  nothing _ := ⟨rfl, hobjects⟩
  stored task body hdownloaded := by
    have hk : k < 2 := h.resolve_left (by rw [hdownloaded]; exact Option.some_ne_none _)
    have hne : k ≠ 2 ∧ k ≠ 3 ∧ k ≠ 4 ∧ ¬ 4 ≤ k := by omega
    simp [rowKept, objectKept, hne, hobjects]

theorem ends_archiveResultArtifact
    (hfresh : ∀ task body, x.objects.get (newRow artifact x task body).storageKey = none) :
    Ends world fault (archiveResultArtifact settings taskId artifact) (some k) s x
      (fun result _ s' x' => Outcome settings taskId artifact s x k fault.applied s' x' ∧
        ∃ task body, downloaded settings taskId artifact s x = some (task, body) ∧
          result = archiveResult (newRow artifact x task body) ∧
          accepted settings (newRow artifact x task body) s = true ∧ 4 ≤ k)
      (Outcome settings taskId artifact s x k fault.applied) := by
  apply Ends.bind
  refine Ends.read_some (fun j₀ hj₀ => ?_) fun hk => outcome_early (.inl rfl) rfl rfl (.inr (by omega))
  apply Ends.bind
  refine Ends.orThrow (fun task htask => ?_) fun hnone => outcome_early (.inl rfl) rfl rfl (.inl ?_)
  swap
  · simp [downloaded, hnone]
  apply Ends.bind
  cases hsource : artifactSource settings artifact with
  | error failure =>
    refine Ends.throw (outcome_early (.inl rfl) rfl rfl (.inl ?_))
    simp [downloaded, hsource, Except.toOption]
  | ok source =>
  have hallowed := artifactSource_eq_ok hsource
  refine Ends.pure (Ends.bind (Ends.request_some Except.error rfl (fun j₁ hj₁ => ?_) fun hk => ?_))
  swap
  · refine Ends.bind (Ends.throw (outcome_early ?_ ?_ ?_ (.inr (by omega))))
    · cases fault.applied
      · exact .inl rfl
      · exact .inr ⟨source, hallowed, rfl⟩
    · cases fault.applied <;> rfl
    · cases fault.applied <;> rfl
  have hfetched : Fetches settings x (x.fetch source) := .inr ⟨source, hallowed, rfl⟩
  apply Ends.bind
  change Ends world fault (settle (x.answer source)) (some j₁) s (x.fetch source) _ _
  cases hanswer : x.answer source with
  | error failure =>
    refine Ends.throw (outcome_early hfetched rfl rfl (.inl ?_))
    simp [downloaded, htask, hsource, hanswer, Except.toOption]
  | ok response =>
  refine Ends.pure (Ends.bind ?_)
  cases hbody : download settings artifact response with
  | error failure =>
    refine Ends.throw (outcome_early hfetched rfl rfl (.inl ?_))
    simp [downloaded, htask, hsource, hanswer, hbody, Except.toOption]
  | ok body =>
  have hdownloaded : downloaded settings taskId artifact s x = some (task, body) := by
    simp [downloaded, htask, hsource, hanswer, hbody, Except.toOption]
  have houtcome : ∀ {hasRow hasObject : Bool} {s' : Store} {x' : World},
      Leaves hasRow hasObject (newRow artifact x task body) (newObject artifact body) s (x.fetch source) s' x' →
      hasRow = rowKept (accepted settings (newRow artifact x task body) s) k fault.applied →
      hasObject = objectKept (accepted settings (newRow artifact x task body) s) k fault.applied →
      Outcome settings taskId artifact s x k fault.applied s' x' := by
    rintro hasRow hasObject s' x' ⟨rfl, rfl⟩ hrow hobject
    refine ⟨?_, ?_, fun hnone => ?_, fun task' body' hsome => ?_⟩
    · cases hasObject <;> exact hfetched
    · cases hasObject <;> rfl
    · rw [hdownloaded] at hnone
      cases hnone
    · rw [hdownloaded] at hsome
      cases hsome
      dsimp only
      rw [← hrow, ← hobject]
      exact ⟨rfl, by cases hasObject <;> rfl⟩
  refine Ends.pure (Ends.bind (Ends.ask rfl (Ends.bind (Ends.ask rfl (Ends.bind ?_)))))
  change Ends world fault (Program.request (Request.putObject (newRow artifact x task body).storageKey body
    artifact.mimeType)) (some j₁) s (x.fetch source) _ _
  refine Ends.request_some Except.error rfl (fun j₂ hj₂ => ?_) fun hk => ?_
  swap
  · obtain rfl : k = 2 := by omega
    refine Ends.bind (Ends.throw ?_)
    have hleaves : Leaves false fault.applied (newRow artifact x task body) (newObject artifact body) s
        (x.fetch source) s (if fault.applied then _ else _) := ⟨rfl, rfl⟩
    exact houtcome hleaves (by simp [rowKept]) (by simp [objectKept])
  refine Ends.bind (Ends.pure ?_)
  obtain rfl : k = j₂ + 3 := by omega
  refine Ends.mono (ends_createRow (hfresh task body)) ?_ fun s' x' hleaves => houtcome hleaves rfl rfl
  rintro result left' s' x' ⟨hresult, hleaves, haccepted, hpos⟩
  change accepted settings (newRow artifact x task body) s = true at haccepted
  have hlate : 4 ≤ j₂ + 3 := by omega
  refine ⟨houtcome hleaves ?_ ?_, task, body, hdownloaded, hresult, haccepted, hlate⟩
  · simp [rowKept, haccepted, hlate]
  · simp [objectKept, haccepted, hlate]

/-! ## Results -/

/-- The rows of results and their objects answer to each other, in size and in type. -/
def Matched (s : Store) (x : World) : Prop :=
  ∀ key, (x.objects.get key).map (fun object => (object.body.length, object.mimeType)) =
    (s.resultArtifacts.find? fun row => row.storageKey = key).map fun row => (row.sizeBytes, row.mimeType)

/-- The failure at call `k` leaves neither the row nor the object without the other. -/
def harmless (accepted : Bool) (k : Nat) (applied : Bool) : Prop :=
  (k = 2 → applied = false) ∧ (k = 3 → accepted = true → applied = false) ∧ (k = 4 → accepted = false → applied = true)

instance (accepted : Bool) (k : Nat) (applied : Bool) : Decidable (harmless accepted k applied) :=
  inferInstanceAs (Decidable (_ ∧ _ ∧ _))

theorem rowKept_eq_objectKept_iff (accepted : Bool) (k : Nat) (applied : Bool) :
    rowKept accepted k applied = objectKept accepted k applied ↔ harmless accepted k applied := by
  unfold rowKept objectKept harmless
  rcases Nat.lt_or_ge k 5 with hk | hk
  · have hcases : k = 0 ∨ k = 1 ∨ k = 2 ∨ k = 3 ∨ k = 4 := by omega
    rcases hcases with rfl | rfl | rfl | rfl | rfl <;> cases accepted <;> cases applied <;> decide
  · have hne : k ≠ 2 ∧ k ≠ 3 ∧ k ≠ 4 ∧ 4 ≤ k := by omega
    cases accepted <;> simp [hne]

/-- A row and an object under a key that was free, each of them added or not. -/
theorem matched_add_iff (hmatched : Matched s x) {object : Stored} (hfresh : x.objects.get row.storageKey = none)
    (hsize : row.sizeBytes = object.body.length) (hmimeType : row.mimeType = object.mimeType) (hasRow hasObject : Bool)
    (hs : s' = if hasRow then withRow row s else s)
    (hx : x'.objects = if hasObject then x.objects.set row.storageKey object else x.objects) :
    Matched s' x' ↔ hasRow = hasObject := by
  have hnoRow : s.resultArtifacts.find? (fun old => old.storageKey = row.storageKey) = none := by
    have hkey := hmatched row.storageKey
    rw [hfresh, Option.map_none, eq_comm, Option.map_eq_none_iff] at hkey
    exact hkey
  have hrowAt : s'.resultArtifacts.find? (fun old => old.storageKey = row.storageKey) =
      if hasRow then some row else none := by
    rw [hs]
    cases hasRow with
    | true => simp [withRow, List.find?_append, hnoRow]
    | false => exact hnoRow
  have hobjectAt : x'.objects.get row.storageKey = if hasObject then some object else none := by
    rw [hx]
    cases hasObject with
    | true => simp
    | false => exact hfresh
  constructor
  · intro h
    have hkey := h row.storageKey
    rw [hrowAt, hobjectAt] at hkey
    cases hasRow <;> cases hasObject <;> simp at hkey ⊢
  · rintro rfl key
    by_cases hkey : key = row.storageKey
    · rw [hkey, hrowAt, hobjectAt]
      cases hasRow <;> simp [hsize, hmimeType]
    · have hobject : x'.objects.get key = x.objects.get key := by
        rw [hx]
        cases hasRow with
        | true => exact OrderedMap.get_set_other _ _ hkey
        | false => rfl
      have hrow : s'.resultArtifacts.find? (fun old => old.storageKey = key) =
          s.resultArtifacts.find? fun old => old.storageKey = key := by
        rw [hs]
        cases hasRow with
        | true => simp [withRow, List.find?_append, Ne.symm hkey]
        | false => rfl
      rw [hobject, hrow]
      exact hmatched key

/-- Rows and objects are still matched after a run unless one of three calls fails: `putObject` after it has
stored the object, the transaction after it has committed, or the deletion of the object of a refused row. -/
theorem matched_iff_harmless (hmatched : Matched s x)
    (hfresh : ∀ task body, x.objects.get (newRow artifact x task body).storageKey = none)
    {result : Except Failure ArchiveResult} {left' : Option Nat}
    (hrun : run world fault (archiveResultArtifact settings taskId artifact) (some k) s x = (result, left', s', x')) :
    Matched s' x' ↔ ∀ task body, downloaded settings taskId artifact s x = some (task, body) →
      harmless (accepted settings (newRow artifact x task body) s) k fault.applied := by
  have houtcome : Outcome settings taskId artifact s x k fault.applied s' x' := by
    have hends : Ends world fault (archiveResultArtifact settings taskId artifact) (some k) s x _ _ :=
      ends_archiveResultArtifact hfresh
    rw [Ends, hrun] at hends
    cases result with
    | ok archived => exact hends.1
    | error failure => exact hends
  cases hdownloaded : downloaded settings taskId artifact s x with
  | none =>
    obtain ⟨rfl, hobjects⟩ := houtcome.nothing hdownloaded
    refine iff_of_true ?_ fun task body hsome => by cases hsome
    intro key
    rw [hobjects]
    exact hmatched key
  | some found =>
    obtain ⟨task, body⟩ := found
    obtain ⟨hs, hx⟩ := houtcome.stored task body hdownloaded
    rw [matched_add_iff hmatched (hfresh task body) rfl rfl _ _ hs hx, rowKept_eq_objectKept_iff]
    constructor
    · intro h task' body' hsome
      cases hsome
      exact h
    · intro h
      exact h task body rfl

def exampleSettings : ArchiveSettings where
  maxResultFileBytes := 4
  userStorageBytes := 10
  allowedOrigins := none
  gatewayUrl := some " ws://gateway "
  parseUrl text :=
    if text = "ws://gateway" then some ⟨"ws:", "", "", "ws://gateway", "/"⟩
    else if text = "http://gateway/a.pdf" then some ⟨"http:", "", "", "http://gateway", "/a.pdf"⟩
    else none
  withProtocol url protocol := { url with protocol, origin := protocol ++ "//gateway" }

def exampleTask : TaskRow where
  id := "t"
  sessionId := "c"
  userId := "u"
  parentTaskId := none
  status := .running
  inputText := "report"
  runId := none
  adapterStreamUrl := none
  errorCode := none
  errorMessage := none
  startedAt := none
  completedAt := none
  queueJobId := none
  attemptCount := 1
  taskType := "chat"
  preferredTone := "neutral"
  preferredLength := "medium"
  createdAt := 0
  updatedAt := 0

def exampleStore : Store := { Store.empty with tasks := OrderedMap.empty.set "t" exampleTask }

def exampleArtifact : Artifact :=
  ⟨.pdf, "a.pdf", "application/pdf", none, some "http://gateway/a.pdf", "", some 3⟩

def exampleWorld : World where
  answer _ := .ok ⟨true, 200, true, some 3, some "application/pdf; v=1", [[1, 2], [3]], none⟩
  tag _ := none
  sign key := "https://storage/" ++ key
  uuid := "uuid"
  nextId := "artifact"
  objects := .empty
  fetched := []

/-- The transaction has committed, but its answer is lost: the object is deleted, and the row stays. -/
def lostAnswer : FaultyRuns.Outcome Failure Store World ArchiveResult :=
  run world ⟨.error "", true⟩ (archiveResultArtifact exampleSettings "t" exampleArtifact) (some 3)
    exampleStore exampleWorld

theorem matched_iff_harmless_lostAnswer : ¬ Matched lostAnswer.2.2.1 lostAnswer.2.2.2 := by
  have hmatched : Matched exampleStore exampleWorld := fun _ => rfl
  have hrun : lostAnswer = (lostAnswer.1, lostAnswer.2.1, lostAnswer.2.2.1, lostAnswer.2.2.2) := rfl
  rw [matched_iff_harmless hmatched (fun _ _ => rfl) hrun]
  intro h
  have hdownloaded : downloaded exampleSettings "t" exampleArtifact exampleStore exampleWorld =
      some (exampleTask, [1, 2, 3]) := by decide +kernel
  have hbad : ¬ harmless (accepted exampleSettings (newRow exampleArtifact exampleWorld exampleTask [1, 2, 3])
      exampleStore) 3 true := by decide +kernel
  exact hbad (h _ _ hdownloaded)

theorem usedBytes_withRow (row : ResultArtifact) (s : Store) :
    (withRow row s).usedBytes row.userId = s.usedBytes row.userId + row.sizeBytes := by
  simp [Store.usedBytes, withRow, StorageQuota.artifactWeight, Nat.add_assoc]

/-- What the archive of an artifact comes to when it succeeds. -/
structure IsArchived (settings : ArchiveSettings) (artifact : Artifact) (s : Store) (x : World) (s' : Store)
    (x' : World) (row : ResultArtifact) : Prop where
  created : s' = withRow row s
  within : s'.usedBytes row.userId ≤ settings.userStorageBytes
  /-- The object has what the body of the response gave, and no more than it may. -/
  stored : ∃ source response, isAllowed settings source = true ∧ x.answer source = .ok response ∧
    response.failure = none ∧ x'.objects.get row.storageKey = some ⟨response.chunks.flatten, artifact.mimeType⟩ ∧
    row.sizeBytes = response.chunks.flatten.length ∧ 1 ≤ row.sizeBytes ∧
    row.sizeBytes ≤ settings.maxResultFileBytes ∧ ∀ n ∈ artifact.sizeBytes, n = row.sizeBytes

theorem downloaded_eq_some {task : TaskRow} {body : List UInt8}
    (h : downloaded settings taskId artifact s x = some (task, body)) :
    s.tasks.get taskId = some task ∧ ∃ source response, artifactSource settings artifact = .ok source ∧
      x.answer source = .ok response ∧ download settings artifact response = .ok body := by
  unfold downloaded at h
  obtain ⟨task', htask, h⟩ := Option.bind_eq_some_iff.mp h
  obtain ⟨source, hsource, h⟩ := Option.bind_eq_some_iff.mp h
  obtain ⟨response, hresponse, h⟩ := Option.bind_eq_some_iff.mp h
  obtain ⟨body', hbody, h⟩ := Option.bind_eq_some_iff.mp h
  cases h
  have of_toOption : ∀ {α : Type} {e : Except Failure α} {a : α}, e.toOption = some a → e = .ok a := by
    intro α e a he
    cases e with
    | ok b => exact congrArg Except.ok (Option.some.inj he)
    | error failure => cases he
  exact ⟨htask, source, response, of_toOption hsource, of_toOption hresponse, of_toOption hbody⟩

theorem isArchived_of_outcome {task : TaskRow} {body : List UInt8}
    (houtcome : Outcome settings taskId artifact s x k fault.applied s' x')
    (hdownloaded : downloaded settings taskId artifact s x = some (task, body))
    (haccepted : accepted settings (newRow artifact x task body) s = true) (hk : 4 ≤ k) :
    IsArchived settings artifact s x s' x' (newRow artifact x task body) := by
  obtain ⟨hs, hx⟩ := houtcome.stored task body hdownloaded
  have hrow : rowKept (accepted settings (newRow artifact x task body) s) k fault.applied = true := by
    simp [rowKept, haccepted, hk]
  have hobject : objectKept (accepted settings (newRow artifact x task body) s) k fault.applied = true := by
    simp [objectKept, haccepted, hk]
  rw [if_pos hrow] at hs
  rw [if_pos hobject] at hx
  obtain ⟨-, source, response, hsource, hresponse, hbody⟩ := downloaded_eq_some hdownloaded
  obtain ⟨-, hfailure, rfl, hpos, hle, hexpected⟩ := download_eq_ok hbody
  simp only [accepted, Bool.and_eq_true, decide_eq_true_eq] at haccepted
  refine ⟨hs, ?_, source, response, artifactSource_eq_ok hsource, hresponse, hfailure, ?_, rfl, hpos, hle, hexpected⟩
  · rw [hs, usedBytes_withRow]
    exact haccepted.1.1
  · rw [hx, OrderedMap.get_set_same]
    rfl

/-- What is told of an archive, with the URL that was signed for it. -/
def archivedOf (row : ResultArtifact) (signedUrl : String) : Archived where
  artifactId := row.id
  fileName := row.fileName
  sizeBytes := row.sizeBytes
  storageKey := row.storageKey
  signedUrl := signedUrl

theorem prepareTaskEvent_eq (x : World) (task : TaskRow) (body : List UInt8) {event : TaskStreamEvent}
    (hevent : event.detail = .resultCreated (.artifact artifact)) (hurl : artifact.downloadUrl.getD "" ≠ "")
    (signed : String) :
    TasksService.prepareTaskEvent (some (archivedOf (newRow artifact x task body) signed)) event =
      some (preparedEvent event (archiveResult (newRow artifact x task body)) signed) := by
  simp only [TasksService.prepareTaskEvent, hevent, if_neg hurl, Option.map_some, preparedEvent, archiveResult,
    archivedOf, newRow, artifactRow]

/-- Whichever call fails, an event with an artifact leads to no more than one download, from an allowed origin;
and when it is prepared, its two forms are those of an artifact that is stored in full, within the limits. -/
theorem prepared_archived {event : TaskStreamEvent} (hevent : event.detail = .resultCreated (.artifact artifact))
    (hfresh : ∀ task body, x.objects.get (newRow artifact x task body).storageKey = none)
    {result : Except Failure Prepared} {left' : Option Nat}
    (hrun : run world fault (prepareTaskEvent settings event) (some k) s x = (result, left', s', x')) :
    Fetches settings x x' ∧ ∀ prepared, result = .ok prepared → ∃ row,
      TasksService.prepareTaskEvent (some (archivedOf row (x.sign row.storageKey))) event = some prepared ∧
        IsArchived settings artifact s x s' x' row := by
  have hends : Ends world fault (prepareTaskEvent settings event) (some k) s x
      (fun prepared _ s' x' => Fetches settings x x' ∧ ∃ row,
        TasksService.prepareTaskEvent (some (archivedOf row (x.sign row.storageKey))) event = some prepared ∧
          IsArchived settings artifact s x s' x' row)
      (fun _ x' => Fetches settings x x') := by
    unfold prepareTaskEvent
    rw [hevent]
    dsimp only
    split
    · exact Ends.throw (.inl rfl)
    rename_i hurl
    apply Ends.bind
    refine Ends.mono (ends_archiveResultArtifact hfresh) ?_ fun s' x' houtcome => houtcome.fetched
    rintro archived left' s' x' ⟨houtcome, task, body, hdownloaded, rfl, haccepted, hk⟩
    have harchived := isArchived_of_outcome houtcome hdownloaded haccepted hk
    apply Ends.bind
    refine Ends.request Except.error rfl (fun _ => ?_) fun _ => Ends.bind (Ends.throw ?_)
    · change Ends world fault (settle (.ok (x'.sign _)) >>= fun signed =>
        Pure.pure (preparedEvent event (archiveResult (newRow artifact x task body)) signed)) _ _ _ _ _
      refine Ends.bind (Ends.pure (Ends.pure ⟨houtcome.fetched, _, ?_, harchived⟩))
      rw [houtcome.sign]
      exact prepareTaskEvent_eq x task body hevent hurl _
    · cases fault.applied <;> exact houtcome.fetched
  rw [Ends, hrun] at hends
  cases result with
  | ok prepared => exact ⟨hends.1, fun _ heq => Except.ok.inj heq ▸ hends.2⟩
  | error failure => exact ⟨hends, fun _ heq => by cases heq⟩

def exampleEvent : TaskStreamEvent := ⟨.resultCreated (.artifact exampleArtifact), "t", "c", "r", "now"⟩

def prepared : FaultyRuns.Outcome Failure Store World Prepared :=
  run world ⟨.error "", true⟩ (prepareTaskEvent exampleSettings exampleEvent) (some 9) exampleStore exampleWorld

theorem prepared_archived_example : ∃ row, IsArchived exampleSettings exampleArtifact exampleStore exampleWorld
    prepared.2.2.1 prepared.2.2.2 row := by
  have hrun : prepared = (prepared.1, prepared.2.1, prepared.2.2.1, prepared.2.2.2) := rfl
  have hok : prepared.1.toOption.isSome = true := by decide +kernel
  obtain ⟨-, hprepared⟩ := prepared_archived rfl (fun _ _ => rfl) hrun
  cases hresult : prepared.1 with
  | error failure =>
    rw [hresult] at hok
    cases hok
  | ok value =>
    obtain ⟨row, -, harchived⟩ := hprepared value hresult
    exact ⟨row, harchived⟩

end ArtifactArchive
