import ClawWork.SharedTypes
import ClawWork.Utf8

/-!
# The payload of an execution request

What the adapter does with the body of `POST /gateway/tasks/execute` before the
gateway client sees it: the body is collected up to 1 MiB, parsed and validated. A
payload that is returned has the members that the client reads, in the types that
the validator has checked.
-/

namespace ExecutePayload

open JavaScript SharedTypes

structure PayloadSettings where
  /-- `JSON.parse`, or the message of the error that it throws. -/
  jsonParse : String → Except String Json
  /-- `new URL(value).origin`; `none` when the constructor throws. -/
  urlOrigin : Json → Option String
  allowedContentOrigin : Option String

/-- An error with the `code` that the handler answers with. -/
structure TypedError where
  code : Option String
  message : String
  deriving DecidableEq

def payloadTooLarge : TypedError := ⟨"PAYLOAD_TOO_LARGE", "request body exceeds 1 MiB"⟩

def invalidPayload : TypedError := ⟨"INVALID_INPUT", "invalid task execution payload"⟩

def invalidMetadata : TypedError := ⟨"INVALID_INPUT", "invalid task file metadata"⟩

def invalidUrl : TypedError := ⟨"INVALID_INPUT", "invalid task file URL"⟩

def invalidFileOrigin : TypedError := ⟨"INVALID_FILE_ORIGIN", "task file URL is outside object storage"⟩

/-- `new URL` of the configured origin. -/
def invalidAllowedOrigin : TypedError := ⟨"ERR_INVALID_URL", "Invalid URL"⟩

def nullFile : TypedError := ⟨none, "Cannot read properties of null (reading 'fileId')"⟩

def TypedError.statusCode (e : TypedError) : Nat :=
  if e.code = "PAYLOAD_TOO_LARGE" then 413
  else if e.code = "INVALID_INPUT" ∨ e.code = "INVALID_FILE_ORIGIN" then 400
  else 502

def maxBodyBytes : Nat := 1024 * 1024

def maxFileBytes : Nat := 25 * 1024 * 1024

def maxMessageLength : Nat := 30000

def maxFiles : Nat := 10

structure GatewayTaskFile where
  fileId : String
  filename : String
  mimeType : String
  sizeBytes : Nat
  storageKey : String
  contentUrl : Option Json
  contentPath : Option Json

structure ExecuteTaskPayload where
  taskId : String
  sessionId : String
  message : String
  files : List GatewayTaskFile

/-- The chunks of the body, after `size` bytes. -/
def collect (size : Nat) : List (List UInt8) → Except TypedError (List UInt8)
  | [] => .ok []
  | chunk :: chunks =>
    if maxBodyBytes < size + chunk.length then .error payloadTooLarge
    else (collect (size + chunk.length) chunks).map (chunk ++ ·)

def readJsonBody (settings : PayloadSettings) (chunks : List (List UInt8)) : Except TypedError Json := do
  let body ← collect 0 chunks
  match settings.jsonParse (.ofList (Utf8.decode body)) with
  | .ok json => .ok json
  | .error message => .error ⟨none, message⟩

/-- `Number.isSafeInteger`. -/
def safeInteger : Option Json → Option Int
  | some (.num x) => if x.den = 1 ∧ x.num.natAbs < 2 ^ 53 then some x.num else none
  | _ => none

/-- The members of a file that are checked first. -/
def fileMetadata (file : Json) : Option GatewayTaskFile := do
  let fileId ← parseString (memberOf file "fileId")
  let filename ← parseString (memberOf file "filename")
  let mimeType ← parseString (memberOf file "mimeType")
  let sizeBytes ← safeInteger (memberOf file "sizeBytes")
  let storageKey ← parseString (memberOf file "storageKey")
  if sizeBytes < 1 ∨ maxFileBytes < sizeBytes then none
  else some ⟨fileId, filename, mimeType, sizeBytes.toNat, storageKey, memberOf file "contentUrl",
    memberOf file "contentPath"⟩

/-- The value of `contentUrl`, when it has one. -/
def validateUrl (settings : PayloadSettings) (contentUrl : Json) : Except TypedError Unit :=
  match settings.urlOrigin contentUrl, settings.allowedContentOrigin with
  | none, _ => .error invalidUrl
  | some _, none => .ok ()
  | some origin, some allowed =>
    if allowed = "" then .ok ()
    else match settings.urlOrigin (.str allowed) with
      | none => .error invalidAllowedOrigin
      | some allowedOrigin => if origin = allowedOrigin then .ok () else .error invalidFileOrigin

def validateFile (settings : PayloadSettings) (json : Json) : Except TypedError GatewayTaskFile :=
  match json with
  | .null => .error nullFile
  | json =>
    match fileMetadata json with
    | none => .error invalidMetadata
    | some file =>
      match file.contentUrl with
      | none => .ok file
      | some contentUrl =>
        if isTruthy contentUrl then (validateUrl settings contentUrl).map fun _ => file else .ok file

/-- `payload.files ?? []`; `none` when it is not an array. -/
def filesOf (payload : Json) : Option (List Json) :=
  match memberOf payload "files" with
  | none | some .null => some []
  | some (.arr files) => some files
  | _ => none

/-- The members of the payload itself. -/
def payloadMembers (payload : Json) : Option (String × String × String × List Json) := do
  let taskId ← parseString (memberOf payload "taskId")
  let sessionId ← parseString (memberOf payload "sessionId")
  let message ← parseString (memberOf payload "message")
  let files ← filesOf payload
  if taskId = "" ∨ sessionId = "" ∨ maxMessageLength < utf16Length message ∨ maxFiles < files.length then none
  else some (taskId, sessionId, message, files)

def validateExecutePayload (settings : PayloadSettings) (payload : Json) :
    Except TypedError ExecuteTaskPayload :=
  match payloadMembers payload with
  | none => .error invalidPayload
  | some (taskId, sessionId, message, files) => do
    let files ← files.mapM (validateFile settings)
    .ok ⟨taskId, sessionId, message, files⟩

variable {settings : PayloadSettings}

theorem size_of_fileMetadata {json : Json} {file : GatewayTaskFile} (h : fileMetadata json = some file) :
    1 ≤ file.sizeBytes ∧ file.sizeBytes ≤ maxFileBytes := by
  simp only [fileMetadata, Option.bind_eq_bind, Option.bind_eq_some_iff] at h
  obtain ⟨fileId, -, filename, -, mimeType, -, size, -, storageKey, -, h⟩ := h
  split at h
  · cases h
  · cases h
    rename_i hsize
    dsimp only
    omega

/-- What the validator has checked of a file. -/
structure Validated (settings : PayloadSettings) (file : GatewayTaskFile) : Prop where
  size : 1 ≤ file.sizeBytes ∧ file.sizeBytes ≤ maxFileBytes
  url : ∀ contentUrl, file.contentUrl = some contentUrl → isTruthy contentUrl = true →
    validateUrl settings contentUrl = .ok ()

theorem validated_of_validateFile {json : Json} {file : GatewayTaskFile}
    (h : validateFile settings json = .ok file) : Validated settings file := by
  unfold validateFile at h
  split at h
  · cases h
  · cases hmeta : fileMetadata json with
    | none =>
      rw [hmeta] at h
      cases h
    | some metadata =>
      rw [hmeta] at h
      have hsize := size_of_fileMetadata hmeta
      dsimp only at h
      cases hurl : metadata.contentUrl with
      | none =>
        rw [hurl] at h
        cases h
        exact ⟨hsize, by simp [hurl]⟩
      | some contentUrl =>
        rw [hurl] at h
        dsimp only at h
        split at h
        · cases hvalid : validateUrl settings contentUrl with
          | error e =>
            rw [hvalid] at h
            cases h
          | ok u =>
            rw [hvalid] at h
            cases h
            refine ⟨hsize, fun value hvalue htruthy => ?_⟩
            rw [hurl] at hvalue
            cases hvalue
            exact hvalid
        · cases h
          rename_i hfalsy
          refine ⟨hsize, fun value hvalue htruthy => ?_⟩
          rw [hurl] at hvalue
          cases hvalue
          exact absurd htruthy hfalsy

theorem validated_of_mapM {jsons : List Json} {files : List GatewayTaskFile}
    (h : jsons.mapM (validateFile settings) = .ok files) : ∀ file ∈ files, Validated settings file := by
  induction jsons generalizing files with
  | nil =>
    cases h
    simp
  | cons json jsons ih =>
    rw [List.mapM_cons] at h
    cases hfile : validateFile settings json with
    | error e =>
      rw [hfile] at h
      cases h
    | ok file =>
      cases hrest : jsons.mapM (validateFile settings) with
      | error e =>
        rw [hfile, hrest] at h
        cases h
      | ok rest =>
        rw [hfile, hrest] at h
        cases h
        intro other hother
        rcases List.mem_cons.mp hother with rfl | hother
        · exact validated_of_validateFile hfile
        · exact ih hrest other hother

/-- Every file of an accepted payload is validated. -/
theorem validated_of_accepted {body : Json} {payload : ExecuteTaskPayload}
    (h : validateExecutePayload settings body = .ok payload) :
    ∀ file ∈ payload.files, Validated settings file := by
  unfold validateExecutePayload at h
  split at h
  · cases h
  · rename_i taskId sessionId message jsons _
    cases hfiles : jsons.mapM (validateFile settings) with
    | error e =>
      rw [hfiles] at h
      cases h
    | ok files =>
      rw [hfiles] at h
      cases h
      exact validated_of_mapM hfiles

/-- A URL that is accepted while an origin is configured has this origin. -/
theorem origin_of_validateUrl {contentUrl : Json} {allowed : String}
    (hallowed : settings.allowedContentOrigin = some allowed) (hconfigured : allowed ≠ "")
    (h : validateUrl settings contentUrl = .ok ()) :
    settings.urlOrigin contentUrl = settings.urlOrigin (.str allowed) := by
  rw [validateUrl, hallowed] at h
  cases horigin : settings.urlOrigin contentUrl with
  | none =>
    rw [horigin] at h
    cases h
  | some origin =>
    simp only [horigin, if_neg hconfigured] at h
    cases hallowedOrigin : settings.urlOrigin (.str allowed) with
    | none =>
      rw [hallowedOrigin] at h
      cases h
    | some allowedOrigin =>
      rw [hallowedOrigin] at h
      dsimp only at h
      split at h
      · rename_i heq
        rw [heq]
      · cases h

end ExecutePayload
