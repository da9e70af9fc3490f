import ClawWork.ExecutePayload
import ClawWork.JsonText
import ClawWork.ServiceCalls
import Mathlib.Data.List.Dedup

/-!
# The limits of the API and of the adapter

The API admits a task by the number of the characters of its text and of its files;
the adapter admits the request for its execution by the UTF-16 length of the message
and the bytes of the body. Whatever the API admits fits the limit on the body, so
that the adapter accepts it exactly when the message is not too long.
-/

namespace AdmittedPayloads

open JavaScript ServiceTables FileCalls StorageQuota ServiceStore ExecutePayload JsonText
open ServiceCalls (CreateTask EnqueueOptions newTaskRow routeTask)

/-- `Length` of the validation library, which counts a surrogate pair as one character. -/
def hasLength (low high : Nat) (s : String) : Bool := low ≤ s.length && s.length ≤ high

def tones : List String := ["default", "balanced", "formal", "concise", "friendly"]

def lengths : List String := ["short", "medium", "standard", "long"]

/-- `CreateTaskDto` and `TaskInputDto`. -/
structure ValidTask (input : CreateTask) : Prop where
  text : hasLength 1 20000 input.text = true
  fileIds : input.fileIds.length ≤ 10
  preferredTone : ∀ tone, input.preferredTone = some tone → tone ∈ tones
  preferredLength : ∀ length, input.preferredLength = some length → length ∈ lengths

/-- `CreateUploadDto` with the check of the type. -/
structure ValidUpload (input : CreateUpload) : Prop where
  filename : hasLength 1 255 input.filename = true
  mimeType : input.mimeType ∈ supportedMimeTypes
  sizeBytes : 1 ≤ input.sizeBytes ∧ input.sizeBytes ≤ maxFileBytes

/-- An id that the database or `randomUUID` makes. -/
structure IsId (id : String) : Prop where
  nonempty : id ≠ ""
  length : id.length ≤ 36
  plain : id.toList.all isPlain = true

/-- The rows that come from uploads. -/
inductive Uploaded : File → Prop
  | created {userId fileId : String} {input : CreateUpload} (now : Nat) (hinput : ValidUpload input)
      (huser : IsId userId) (hfile : IsId fileId) : Uploaded (newFile userId fileId input now)
  | completed {file : File} (now : Nat) (object : StoredObject) (h : Uploaded file) :
      Uploaded (completed now object file)
  | rejected {file : File} (now : Nat) (h : Uploaded file) : Uploaded (rejected now file)

/-- A URL of the internal presigner, for the origin that the adapter is configured with. -/
structure Presigned (settings : PayloadSettings) (url : String) : Prop where
  length : url.length ≤ 64 * 1024
  plain : url.toList.all isPlain = true
  origin : ∃ origin, settings.urlOrigin (.str url) = some origin ∧
    ∀ allowed, settings.allowedContentOrigin = some allowed → allowed ≠ "" →
      settings.urlOrigin (.str allowed) = some origin

def buildExecutionMessage (text taskType tone length : String) : String :=
  "\n".intercalate
    [trim text,
      "",
      "ClawWork delivery requirements:",
      "- task type: " ++ taskType,
      "- preferred tone: " ++ tone,
      "- preferred length: " ++ length,
      "Return a useful deliverable first; the user may request revisions afterward."]

/-- A file of the request, with its internal URL. -/
def gatewayFile (file : File) (contentUrl : String) : Json :=
  .obj [("fileId", .str file.id), ("filename", .str file.filename), ("mimeType", .str file.mimeType),
    ("sizeBytes", .num file.sizeBytes), ("storageKey", .str file.storageKey), ("contentUrl", .str contentUrl)]

/-- The body of `requestGatewayExecution`. -/
def executeBody (task : TaskRow) (files : List (File × String)) : Json :=
  .obj [("taskId", .str task.id), ("sessionId", .str task.sessionId),
    ("message", .str (buildExecutionMessage task.inputText task.taskType task.preferredTone task.preferredLength)),
    ("files", .arr (files.map fun file => gatewayFile file.1 file.2))]

/-- The adapter reads and validates the chunks of a body. -/
def receivePayload (settings : PayloadSettings) (chunks : List (List UInt8)) :
    Except TypedError ExecuteTaskPayload := do
  let json ← readJsonBody settings chunks
  validateExecutePayload settings json

/-! ## The size of the files -/

theorem length_collapseSpaces_le (inside : Bool) (text : List Char) :
    (collapseSpaces inside text).length ≤ text.length := by
  induction text generalizing inside with
  | nil => simp [collapseSpaces]
  | cons c text ih =>
    have hinside := ih true
    have houtside := ih false
    unfold collapseSpaces
    split
    · split
      · exact Nat.le_succ_of_le hinside
      · exact Nat.succ_le_succ hinside
    · exact Nat.succ_le_succ houtside

theorem length_trim_le (s : String) : (trim s).length ≤ s.length := by
  have hend := (List.dropWhile_sublist (p := isSpace) (l := (s.toList.dropWhile isSpace).reverse)).length_le
  have hstart := (List.dropWhile_sublist (p := isSpace) (l := s.toList)).length_le
  simp only [List.length_reverse] at hend
  simp only [trim, trimEnd, trimStart, String.length_ofList, String.toList_ofList, List.length_reverse]
  rw [← String.length_toList]
  omega

theorem length_sanitizeFilename_le (filename : String) :
    (sanitizeFilename filename).length ≤ max 4 filename.length := by
  have hcollapse := length_collapseSpaces_le false
    ((trim filename).toList.map fun c => if isReserved c then '-' else c)
  have htrim := length_trim_le filename
  rw [List.length_map, String.length_toList] at hcollapse
  unfold sanitizeFilename orElse
  dsimp only
  split
  · exact le_max_left 4 _
  · rw [String.length_ofList]
    omega

/-- What is known of the row of an upload. -/
structure Bounded (file : File) : Prop where
  id : IsId file.id
  filename : file.filename.length ≤ 255
  mimeType : file.mimeType ∈ supportedMimeTypes
  sizeBytes : 1 ≤ file.sizeBytes ∧ file.sizeBytes ≤ maxFileBytes
  storageKey : file.storageKey.length ≤ 335

theorem Uploaded.bounded {file : File} (h : Uploaded file) : Bounded file := by
  induction h with
  | @created userId fileId input now hinput huser hfile =>
    have hname : (sanitizeFilename input.filename).length ≤ 255 := by
      have hle := length_sanitizeFilename_le input.filename
      have hlength := hinput.filename
      simp only [hasLength, Bool.and_eq_true, decide_eq_true_eq] at hlength
      omega
    have hkey : "users/".length + userId.length + "/".length + fileId.length + "/".length + 255 ≤ 335 := by
      have huserLength := huser.length
      have hfileLength := hfile.length
      have husers : "users/".length = 6 := rfl
      have hslash : "/".length = 1 := rfl
      omega
    rw [newFile]
    generalize sanitizeFilename input.filename = name at hname
    refine ⟨hfile, hname, hinput.mimeType, hinput.sizeBytes, ?_⟩
    change ("users/" ++ userId ++ "/" ++ fileId ++ "/" ++ name).length ≤ 335
    simp only [String.length_append]
    omega
  | completed now object _ ih => exact ⟨ih.id, ih.filename, ih.mimeType, ih.sizeBytes, ih.storageKey⟩
  | rejected now _ ih => exact ⟨ih.id, ih.filename, ih.mimeType, ih.sizeBytes, ih.storageKey⟩

variable {settings : PayloadSettings} {format : NumberFormat} {file : File} {url : String}

theorem bytes_quote_id_le {id : String} (h : IsId id) : bytes (quote id) ≤ 38 := by
  have hquote := bytes_quote_plain h.plain
  have hlength := h.length
  omega

theorem bytes_gatewayFile_le (hfile : Bounded file) (hurl : Presigned settings url) :
    bytes (stringify format (gatewayFile file url)) ≤ 70000 := by
  have hid := bytes_quote_id_le hfile.id
  have hname := bytes_quote_le file.filename
  have hmime : bytes (quote file.mimeType) ≤ 100 :=
    (by decide +kernel : ∀ m ∈ supportedMimeTypes, bytes (quote m) ≤ 100) _ hfile.mimeType
  have hkey := bytes_quote_le file.storageKey
  have hcontentUrl := bytes_quote_plain hurl.plain
  have hnameLength := hfile.filename
  have hkeyLength := hfile.storageKey
  have hurlLength := hurl.length
  have hsize : bytes (format.print file.sizeBytes) ≤ 32 := by
    have hbound : file.sizeBytes < 10 ^ 8 := Nat.lt_of_le_of_lt hfile.sizeBytes.2 (by decide)
    have hdigits : (Nat.toDigits 10 file.sizeBytes).length ≤ 8 :=
      (Nat.length_toDigits_le_iff (by decide) (by decide)).mpr hbound
    have hbytes := bytes_le_length (Nat.toDigits 10 file.sizeBytes)
    rw [format.digits _ (Nat.lt_of_lt_of_le hbound (by decide))]
    omega
  have hkeys : bytes (quote "fileId") = 8 ∧ bytes (quote "filename") = 10 ∧ bytes (quote "mimeType") = 10 ∧
      bytes (quote "sizeBytes") = 11 ∧ bytes (quote "storageKey") = 12 ∧ bytes (quote "contentUrl") = 12 := by
    decide +kernel
  apply Nat.le_trans (bytes_stringify_obj_le format _)
  simp only [List.map_cons, List.map_nil, List.sum_cons, List.sum_nil, stringify]
  omega

/-! ## The message -/

theorem utf16Length_append (a b : String) : utf16Length (a ++ b) = utf16Length a + utf16Length b := by
  simp [utf16Length]

theorem length_le_utf16Length (s : String) : s.length ≤ utf16Length s := by
  rw [utf16Length, ← String.length_toList]
  induction s.toList with
  | nil => simp
  | cons c text ih =>
    simp only [List.length_cons, List.map_cons, List.sum_cons]
    split <;> omega

/-- The length of the lines that are put around the text. -/
theorem utf16Length_buildExecutionMessage (text taskType tone length : String) :
    utf16Length (buildExecutionMessage text taskType tone length) =
      utf16Length (trim text) + utf16Length taskType + utf16Length tone + utf16Length length + 164 := by
  have hnewline : utf16Length "\n" = 1 := by decide +kernel
  have hempty : utf16Length "" = 0 := by decide +kernel
  have hheading : utf16Length "ClawWork delivery requirements:" = 31 := by decide +kernel
  have htype : utf16Length "- task type: " = 13 := by decide +kernel
  have htone : utf16Length "- preferred tone: " = 18 := by decide +kernel
  have hlength : utf16Length "- preferred length: " = 20 := by decide +kernel
  have hfooter : utf16Length
      "Return a useful deliverable first; the user may request revisions afterward." = 76 := by decide +kernel
  simp only [buildExecutionMessage, String.intercalate_cons_cons, String.intercalate_singleton, utf16Length_append]
  omega

/-! ## What the adapter accepts -/

theorem flatten_of_collect {size : Nat} {chunks : List (List UInt8)} {body : List UInt8}
    (h : collect size chunks = .ok body) : body = chunks.flatten := by
  induction chunks generalizing size body with
  | nil =>
    cases h
    rfl
  | cons chunk chunks ih =>
    rw [collect] at h
    split at h
    · cases h
    · cases hrest : collect (size + chunk.length) chunks with
      | error e =>
        rw [hrest] at h
        cases h
      | ok rest =>
        rw [hrest] at h
        cases h
        rw [List.flatten_cons, ih hrest]

theorem collect_of_le {size : Nat} {chunks : List (List UInt8)}
    (h : size + chunks.flatten.length ≤ maxBodyBytes) : collect size chunks = .ok chunks.flatten := by
  induction chunks generalizing size with
  | nil => rfl
  | cons chunk chunks ih =>
    rw [List.flatten_cons, List.length_append] at h
    rw [collect, if_neg (by omega), ih (by omega)]
    rfl

/-- Reading the chunks gives the value whose text was sent. -/
theorem readJsonBody_of_collect {json : Json} {body : List UInt8} {chunks : List (List UInt8)}
    (hcollect : collect 0 chunks = .ok body) (hparse : settings.jsonParse (.ofList (Utf8.decode body)) = .ok json) :
    readJsonBody settings chunks = .ok json := by
  simp only [readJsonBody, hcollect, bind, Except.bind, hparse]

theorem readJsonBody_stringify {json : Json} {chunks : List (List UInt8)}
    (hchunks : chunks.flatten = Utf8.encode (stringify format json))
    (hparse : settings.jsonParse (.ofList (stringify format json)) = .ok json) :
    (bytes (stringify format json) ≤ maxBodyBytes → readJsonBody settings chunks = .ok json) ∧
      ∀ other, readJsonBody settings chunks = .ok other → other = json := by
  have hdecoded : settings.jsonParse (.ofList (Utf8.decode chunks.flatten)) = .ok json := by
    rw [hchunks, Utf8.decode_encode, hparse]
  constructor
  · intro hbytes
    have hcollect : collect 0 chunks = .ok chunks.flatten :=
      collect_of_le (by rw [hchunks, Nat.zero_add]; exact hbytes)
    exact readJsonBody_of_collect hcollect hdecoded
  · intro other hother
    cases hcollect : collect 0 chunks with
    | error e =>
      rw [readJsonBody, hcollect] at hother
      cases hother
    | ok body =>
      rw [← flatten_of_collect hcollect] at hdecoded
      rw [readJsonBody_of_collect hcollect hdecoded] at hother
      exact (Except.ok.inj hother).symm

variable {task : TaskRow} {files : List (File × String)} {chunks : List (List UInt8)}

def messageOf (task : TaskRow) : String :=
  buildExecutionMessage task.inputText task.taskType task.preferredTone task.preferredLength

/-- A message within the limit fits the body, however it is escaped and whatever files come with it. -/
theorem bytes_executeBody_le (htask : IsId task.id) (hsession : IsId task.sessionId) (hcount : files.length ≤ 10)
    (hfiles : ∀ file ∈ files, Bounded file.1 ∧ Presigned settings file.2)
    (hmessage : utf16Length (messageOf task) ≤ maxMessageLength) :
    bytes (stringify format (executeBody task files)) ≤ maxBodyBytes := by
  have hid := bytes_quote_id_le htask
  have hsid := bytes_quote_id_le hsession
  have htext : bytes (quote (messageOf task)) ≤ 6 * maxMessageLength + 2 := by
    have hquote := bytes_quote_le (messageOf task)
    have hlength := length_le_utf16Length (messageOf task)
    omega
  have hitems : bytes (stringify format (.arr (files.map fun file => gatewayFile file.1 file.2))) ≤
      70001 * files.length + 2 := by
    have hall : ∀ item ∈ files.map fun file => gatewayFile file.1 file.2,
        bytes (stringify format item) ≤ 70000 := by
      intro item hitem
      obtain ⟨file, hfile, rfl⟩ := List.mem_map.mp hitem
      exact bytes_gatewayFile_le (hfiles file hfile).1 (hfiles file hfile).2
    simpa using bytes_stringify_arr_le hall
  have hkeys : bytes (quote "taskId") = 8 ∧ bytes (quote "sessionId") = 11 ∧ bytes (quote "message") = 9 ∧
      bytes (quote "files") = 7 := by
    decide +kernel
  apply Nat.le_trans (bytes_stringify_obj_le format _)
  simp only [List.map_cons, List.map_nil, List.sum_cons, List.sum_nil]
  rw [stringify, stringify, stringify, ← messageOf]
  unfold maxBodyBytes
  unfold maxMessageLength at htext
  omega

theorem validateUrl_presigned (hurl : Presigned settings url) : validateUrl settings (.str url) = .ok () := by
  obtain ⟨origin, horigin, hallowed⟩ := hurl.origin
  rw [validateUrl, horigin]
  cases hconfigured : settings.allowedContentOrigin with
  | none => rfl
  | some allowed =>
    dsimp only
    split
    · rfl
    · rename_i hne
      rw [hallowed allowed hconfigured hne]
      dsimp only
      rw [if_pos rfl]

theorem validateFile_gatewayFile (hfile : Bounded file) (hurl : Presigned settings url) :
    ∃ accepted, validateFile settings (gatewayFile file url) = .ok accepted := by
  have hsize := hfile.sizeBytes
  have hsafe : safeInteger (some (.num file.sizeBytes)) = some (file.sizeBytes : Int) := by
    have hbound : file.sizeBytes < 9007199254740992 := Nat.lt_of_le_of_lt hsize.2 (by decide)
    simp [safeInteger, hbound]
  have hmeta : fileMetadata (gatewayFile file url) = some ⟨file.id, file.filename, file.mimeType, file.sizeBytes,
      file.storageKey, some (.str url), none⟩ := by
    have hlow : (1 : Int) ≤ file.sizeBytes := by omega
    have hpos : file.sizeBytes ≠ 0 := by omega
    simp [fileMetadata, gatewayFile, memberOf, member, SharedTypes.parseString, hsafe, hlow, hpos, hsize.2]
  rw [validateFile, hmeta]
  · dsimp only
    split
    · exact ⟨_, by rw [validateUrl_presigned hurl]; rfl⟩
    · exact ⟨_, rfl⟩
  · simp [gatewayFile]

theorem mapM_validateFile (hfiles : ∀ file ∈ files, Bounded file.1 ∧ Presigned settings file.2) :
    ∃ accepted, (files.map fun file => gatewayFile file.1 file.2).mapM (validateFile settings) = .ok accepted := by
  induction files with
  | nil => exact ⟨[], rfl⟩
  | cons file files ih =>
    have hfile := hfiles file (by simp)
    obtain ⟨first, hfirst⟩ := validateFile_gatewayFile hfile.1 hfile.2
    obtain ⟨rest, hrest⟩ := ih fun other hother => hfiles other (by simp [hother])
    refine ⟨first :: rest, ?_⟩
    rw [List.map_cons, List.mapM_cons, hfirst, hrest]
    rfl

theorem payloadMembers_executeBody (htask : IsId task.id) (hsession : IsId task.sessionId)
    (hcount : files.length ≤ 10) :
    payloadMembers (executeBody task files) =
      if utf16Length (messageOf task) ≤ maxMessageLength then
        some (task.id, task.sessionId, messageOf task, files.map fun file => gatewayFile file.1 file.2)
      else none := by
  have hfiles : filesOf (executeBody task files) = some (files.map fun file => gatewayFile file.1 file.2) := by
    simp [filesOf, executeBody, memberOf, member]
  have htaskId : SharedTypes.parseString (memberOf (executeBody task files) "taskId") = some task.id := by
    simp [executeBody, memberOf, member, SharedTypes.parseString]
  have hsessionId : SharedTypes.parseString (memberOf (executeBody task files) "sessionId") =
      some task.sessionId := by
    simp [executeBody, memberOf, member, SharedTypes.parseString]
  have hmessage : SharedTypes.parseString (memberOf (executeBody task files) "message") =
      some (messageOf task) := by
    simp [executeBody, memberOf, member, SharedTypes.parseString, messageOf]
  simp only [payloadMembers, htaskId, hsessionId, hmessage, hfiles, Option.bind_eq_bind, Option.bind_some,
    htask.nonempty, hsession.nonempty, false_or, List.length_map, maxFiles]
  by_cases hshort : utf16Length (messageOf task) ≤ maxMessageLength
  · rw [if_pos hshort, if_neg (by omega)]
  · rw [if_neg hshort, if_pos (by omega)]

/-- The body of an uploaded set of files is accepted exactly when its message is short enough. -/
theorem admit_iff_message (htask : IsId task.id) (hsession : IsId task.sessionId) (hcount : files.length ≤ 10)
    (hfiles : ∀ file ∈ files, Bounded file.1 ∧ Presigned settings file.2)
    (hchunks : chunks.flatten = Utf8.encode (stringify format (executeBody task files)))
    (hparse : settings.jsonParse (.ofList (stringify format (executeBody task files))) =
      .ok (executeBody task files)) :
    (∃ payload, receivePayload settings chunks = .ok payload) ↔ utf16Length (messageOf task) ≤ maxMessageLength := by
  obtain ⟨hread, hother⟩ := readJsonBody_stringify hchunks hparse
  have hmembers : payloadMembers (executeBody task files) = _ := payloadMembers_executeBody htask hsession hcount
  constructor
  · rintro ⟨payload, hpayload⟩
    cases hjson : readJsonBody settings chunks with
    | error e =>
      rw [receivePayload, hjson] at hpayload
      cases hpayload
    | ok json =>
      rw [receivePayload, hjson, hother json hjson] at hpayload
      by_contra hlong
      rw [if_neg hlong] at hmembers
      change validateExecutePayload settings (executeBody task files) = _ at hpayload
      rw [validateExecutePayload, hmembers] at hpayload
      cases hpayload
  · intro hshort
    obtain ⟨accepted, haccepted⟩ := mapM_validateFile hfiles
    rw [if_pos hshort] at hmembers
    refine ⟨⟨task.id, task.sessionId, messageOf task, accepted⟩, ?_⟩
    rw [receivePayload, hread (bytes_executeBody_le htask hsession hcount hfiles hshort)]
    change validateExecutePayload settings (executeBody task files) = _
    rw [validateExecutePayload, hmembers]
    dsimp only
    rw [haccepted]
    rfl

/-! ## The tasks of the API -/

/-- The row that `enqueueTask` creates in a session. -/
def createdTask (userId taskId sessionId : String) (input : CreateTask) (options : EnqueueOptions)
    (defaults : UserSettings) (session : SessionRow) (clock : Nat) : TaskRow :=
  let new := newTaskRow userId taskId input options defaults session clock
  { new with toTask := { new.toTask with sessionId } }

/-- The rows of the files of a task, each with its URL. -/
def attachedFiles (db : Tables) (userId : String) (input : CreateTask) (url : File → String) :
    List (File × String) :=
  (EnqueueTask.uploadedFiles db userId input.fileIds).map fun file => (file, url file)

theorem length_attachedFiles_le {db : Tables} {userId : String} {input : CreateTask} {url : File → String}
    (hinput : ValidTask input) : (attachedFiles db userId input url).length ≤ 10 := by
  have hfilter := List.length_filter_le (fun file : File => file.userId = userId && file.status = .uploaded)
    (input.fileIds.dedup.filterMap db.files.get)
  have hmap := List.length_filterMap_le db.files.get input.fileIds.dedup
  have hdedup := (List.dedup_sublist input.fileIds).length_le
  have hids := hinput.fileIds
  rw [attachedFiles, List.length_map]
  unfold EnqueueTask.uploadedFiles
  omega

theorem attachedFiles_bounded {db : Tables} {userId : String} {input : CreateTask} {url : File → String}
    (hdb : ∀ id file, db.files.get id = some file → Uploaded file)
    (hurl : ∀ file ∈ EnqueueTask.uploadedFiles db userId input.fileIds, Presigned settings (url file)) :
    ∀ file ∈ attachedFiles db userId input url, Bounded file.1 ∧ Presigned settings file.2 := by
  intro pair hpair
  obtain ⟨file, hfile, rfl⟩ := List.mem_map.mp hpair
  obtain ⟨id, -, hget⟩ := List.mem_filterMap.mp (List.mem_of_mem_filter hfile)
  exact ⟨(hdb id file hget).bounded, hurl file hfile⟩

theorem utf16Length_messageOf_createdTask (userId taskId sessionId : String) (input : CreateTask)
    (options : EnqueueOptions) (defaults : UserSettings) (session : SessionRow) (clock : Nat) :
    utf16Length (messageOf (createdTask userId taskId sessionId input options defaults session clock)) =
      utf16Length (trim input.text) + utf16Length (routeTask input.text input.fileIds).taskType +
        utf16Length (input.preferredTone.getD defaults.preferredTone) +
        utf16Length (input.preferredLength.getD defaults.preferredLength) + 164 := by
  rw [messageOf, utf16Length_buildExecutionMessage]
  change utf16Length (trim (trim input.text)) + _ + _ + _ + 164 = _
  rw [trim_trim]
  rfl

/-- **The limits agree.** The adapter accepts the request for an admitted task, whatever its files and
however the body arrives in chunks, exactly when the trimmed text leaves room for the lines around it
in 30,000 UTF-16 units. -/
theorem admitted_iff (settings : PayloadSettings) (format : NumberFormat) (db : Tables)
    (userId taskId sessionId : String) (input : CreateTask) (options : EnqueueOptions) (defaults : UserSettings)
    (session : SessionRow) (clock : Nat) (url : File → String) (chunks : List (List UInt8))
    (hinput : ValidTask input) (htask : IsId taskId) (hsession : IsId sessionId)
    (hdb : ∀ id file, db.files.get id = some file → Uploaded file)
    (hurl : ∀ file ∈ EnqueueTask.uploadedFiles db userId input.fileIds, Presigned settings (url file))
    (hchunks : chunks.flatten = Utf8.encode (stringify format (executeBody
      (createdTask userId taskId sessionId input options defaults session clock)
      (attachedFiles db userId input url))))
    (hparse : settings.jsonParse (.ofList (stringify format (executeBody
      (createdTask userId taskId sessionId input options defaults session clock)
      (attachedFiles db userId input url)))) =
        .ok (executeBody (createdTask userId taskId sessionId input options defaults session clock)
          (attachedFiles db userId input url))) :
    (∃ payload, receivePayload settings chunks = .ok payload) ↔
      utf16Length (trim input.text) + utf16Length (routeTask input.text input.fileIds).taskType +
        utf16Length (input.preferredTone.getD defaults.preferredTone) +
        utf16Length (input.preferredLength.getD defaults.preferredLength) + 164 ≤ 30000 := by
  rw [admit_iff_message htask hsession (length_attachedFiles_le hinput) (attachedFiles_bounded hdb hurl) hchunks
    hparse, utf16Length_messageOf_createdTask]
  rfl

/-! ## A long text of characters beyond the basic plane -/

def demoFormat : NumberFormat where
  print x := Nat.toDigits 10 x.num.toNat
  digits := toDigits_num

/-- A parser that knows one text. -/
def demoSettings (json : Json) : PayloadSettings where
  jsonParse text := if text = .ofList (stringify demoFormat json) then .ok json else .error "unexpected token"
  urlOrigin _ := some "http://minio:9000"
  allowedContentOrigin := some "http://minio:9000"

def demoInput (text : String) : CreateTask := ⟨text, [], none, none⟩

/-- The body for a task without files. -/
def demoBody (text : String) : Json :=
  executeBody (createdTask "u1" "t1" "s1" (demoInput text) {} ⟨"u1", "balanced", "standard"⟩
    (ServiceCalls.newSessionRow "u1" "s1" (demoInput text) 0) 0) []

def demoChunks (text : String) : List (List UInt8) := [Utf8.encode (stringify demoFormat (demoBody text))]

theorem demoChunks_flatten (text : String) :
    (demoChunks text).flatten = Utf8.encode (stringify demoFormat (demoBody text)) := by
  simp [demoChunks]

theorem jsonParse_demoBody (text : String) : (demoSettings (demoBody text)).jsonParse
    (.ofList (stringify demoFormat (demoBody text))) = .ok (demoBody text) := by
  simp only [demoSettings, if_true]

theorem validTask_demoInput {text : String} (h : hasLength 1 20000 text = true) : ValidTask (demoInput text) where
  text := h
  fileIds := Nat.zero_le 10
  preferredTone := by simp [demoInput]
  preferredLength := by simp [demoInput]

theorem uploaded_of_empty (id : String) (file : File) (h : Tables.empty.files.get id = some file) :
    Uploaded file := by
  cases h

theorem admitted_iff_hi :
    (∃ payload, receivePayload (demoSettings (demoBody "hi")) (demoChunks "hi") = .ok payload) ↔
      utf16Length (trim "hi") + utf16Length (routeTask "hi" []).taskType + utf16Length "balanced" +
        utf16Length "standard" + 164 ≤ 30000 :=
  admitted_iff (demoSettings (demoBody "hi")) demoFormat Tables.empty "u1" "t1" "s1" (demoInput "hi") {}
    ⟨"u1", "balanced", "standard"⟩ (ServiceCalls.newSessionRow "u1" "s1" (demoInput "hi") 0) 0 (fun _ => "")
    (demoChunks "hi") (validTask_demoInput rfl) ⟨by decide, by decide, by decide⟩ ⟨by decide, by decide, by decide⟩
    uploaded_of_empty (by intro file hfile; cases hfile) (demoChunks_flatten "hi") (jsonParse_demoBody "hi")

def emoji (n : Nat) : String := .ofList (List.replicate n (Char.ofNat 0x1F600))

theorem length_emoji (n : Nat) : (emoji n).length = n := by
  simp [emoji]

theorem utf16Length_trim_emoji (n : Nat) : utf16Length (trim (emoji n)) = n * 2 := by
  have hspace : isSpace (Char.ofNat 0x1F600) = false := by decide
  simp [emoji, trim, trimStart, trimEnd, hspace, utf16Length]

theorem demoBody_rejected {text : String} (h : 30000 < utf16Length (trim text)) :
    ¬ ∃ payload, receivePayload (demoSettings (demoBody text)) (demoChunks text) = .ok payload := by
  have hid : IsId "t1" := ⟨by decide, by decide, by decide⟩
  have hsession : IsId "s1" := ⟨by decide, by decide, by decide⟩
  have hcount : ([] : List (File × String)).length ≤ 10 := Nat.zero_le 10
  rw [admit_iff_message hid hsession hcount (by simp) (demoChunks_flatten text) (jsonParse_demoBody text),
    utf16Length_messageOf_createdTask]
  change ¬ utf16Length (trim text) + _ + _ + _ + 164 ≤ 30000
  omega

/-- Characters that the API counts once have two units for the adapter. -/
theorem emoji_rejected :
    ¬ ∀ (settings : PayloadSettings) (format : NumberFormat) (db : Tables) (userId taskId sessionId : String)
      (input : CreateTask) (options : EnqueueOptions) (defaults : UserSettings) (session : SessionRow)
      (clock : Nat) (url : File → String) (chunks : List (List UInt8)),
      ValidTask input → IsId taskId → IsId sessionId →
      (∀ id file, db.files.get id = some file → Uploaded file) →
      (∀ file ∈ EnqueueTask.uploadedFiles db userId input.fileIds, Presigned settings (url file)) →
      chunks.flatten = Utf8.encode (stringify format (executeBody
        (createdTask userId taskId sessionId input options defaults session clock)
        (attachedFiles db userId input url))) →
      settings.jsonParse (.ofList (stringify format (executeBody
        (createdTask userId taskId sessionId input options defaults session clock)
        (attachedFiles db userId input url)))) =
          .ok (executeBody (createdTask userId taskId sessionId input options defaults session clock)
            (attachedFiles db userId input url)) →
      ∃ payload, receivePayload settings chunks = .ok payload := by
  intro h
  have hlong : 30000 < utf16Length (trim (emoji 20000)) := by
    rw [utf16Length_trim_emoji]
    decide
  have hlength : hasLength 1 20000 (emoji 20000) = true := by
    rw [hasLength, length_emoji]
    decide
  generalize emoji 20000 = text at hlong hlength
  exact demoBody_rejected hlong
    (h (demoSettings (demoBody text)) demoFormat Tables.empty "u1" "t1" "s1" (demoInput text) {}
      ⟨"u1", "balanced", "standard"⟩ (ServiceCalls.newSessionRow "u1" "s1" (demoInput text) 0) 0 (fun _ => "")
      (demoChunks text) (validTask_demoInput hlength) ⟨by decide, by decide, by decide⟩
      ⟨by decide, by decide, by decide⟩ uploaded_of_empty (by intro file hfile; cases hfile)
      (demoChunks_flatten text) (jsonParse_demoBody text))

end AdmittedPayloads
