import ClawWork.TaskStore

/-!
# The conversation store of the app

`taskStore` keeps the conversation on the screen: the current task with its status, and the
messages. A conversation is built up by the events of a stream, or all at once from what the
server has kept of it.
-/

namespace ConversationStore

open JavaScript SharedTypes TaskStore

/-- The artifact of a message; `artifactId` and `sizeBytes` are handed on unchecked. -/
structure ShownArtifact where
  artifactId : Option Json
  kind : ArtifactKind
  fileName : String
  mimeType : String
  sizeBytes : Option Json
  previewText : String
  downloadUrl : String

inductive ConversationMessage where
  | user (text : String)
  | assistant (text : String) (runId : Option String)
  | artifact (artifact : ShownArtifact) (runId : Option String)

inductive UploadStatus where
  | uploading | uploaded | failed
  deriving DecidableEq, Repr

structure PendingAttachment where
  clientId : String
  fileId : Option String
  status : UploadStatus
  deriving DecidableEq, Repr

structure TaskState where
  lastSubmittedTaskText : Option String
  submitCount : Nat
  currentTaskId : Option String
  currentSessionId : Option String
  currentStatus : Option TaskStatus
  currentError : Option String
  currentRunId : Option String
  messages : List ConversationMessage
  pendingAttachments : List PendingAttachment
  resultVersions : List TaskResult
  selectedVersionNo : Option Nat

/-- What the server answers to a new task. -/
structure TaskMutationResult where
  taskId : String
  sessionId : String
  initialStatus : TaskStatus
  errorMessage : Option String
  deriving DecidableEq, Repr

/-- One task of `GET /history/tasks/:id`. -/
structure HistoryTask where
  taskId : String
  inputText : String
  status : TaskStatus
  errorMessage : Option String
  result : Option TaskResult

structure HistoryTaskDetail where
  sessionId : String
  status : TaskStatus
  currentTaskId : Option String
  tasks : List HistoryTask
  versions : List TaskResult

/-- `initialState`. -/
def initialState : TaskState where
  lastSubmittedTaskText := none
  submitCount := 0
  currentTaskId := none
  currentSessionId := none
  currentStatus := none
  currentError := none
  currentRunId := none
  messages := [.assistant "你好呀！很高兴认识你😊" none]
  pendingAttachments := []
  resultVersions := []
  selectedVersionNo := none

/-- The artifact of a result: its literals and five of its members are checked. -/
def extractArtifactFromResult (result : Json) : Option ShownArtifact :=
  if isArtifactLiteral (memberOf (some result) "type") then do
    let artifact := memberOf (some result) "artifact"
    let kind ← (memberOf artifact "kind").bind parseKind
    let fileName ← parseString (memberOf artifact "fileName")
    let mimeType ← parseString (memberOf artifact "mimeType")
    let downloadUrl ← parseString (memberOf artifact "downloadUrl")
    let previewText ← parseString (memberOf artifact "previewText")
    some { artifactId := memberOf artifact "artifactId", kind, fileName, mimeType
           sizeBytes := memberOf artifact "sizeBytes", previewText, downloadUrl }
  else none

/-- The delta goes on with the last message if that is of the same run. -/
def appendAssistantDelta (runId delta : String) (messages : List ConversationMessage) :
    List ConversationMessage :=
  if delta = "" then messages
  else
    match messages.getLast? with
    | some (.assistant text last) =>
      if last = some runId then messages.dropLast ++ [.assistant (text ++ delta) last]
      else messages ++ [.assistant delta (some runId)]
    | _ => messages ++ [.assistant delta (some runId)]

/-- An artifact directly after itself is left out. -/
def appendArtifactMessage (runId : String) (artifact : ShownArtifact) (messages : List ConversationMessage) :
    List ConversationMessage :=
  match messages.getLast? with
  | some (.artifact shown last) =>
    if last = some runId ∧ shown.downloadUrl = artifact.downloadUrl then messages
    else messages ++ [.artifact artifact (some runId)]
  | _ => messages ++ [.artifact artifact (some runId)]

namespace TaskState

def getUploadedPendingFileIds (s : TaskState) : List String :=
  s.pendingAttachments.filterMap fun attachment =>
    if attachment.status = .uploaded then attachment.fileId else none

/-- What the attachment functions of the store change. -/
def setPendingAttachments (s : TaskState) (pending : List PendingAttachment) : TaskState :=
  { s with pendingAttachments := pending }

def startConversation (s : TaskState) (text : String) : TaskState :=
  let prompt := trim text
  if prompt = "" then s
  else { s with
    lastSubmittedTaskText := some prompt, submitCount := s.submitCount + 1, currentTaskId := none,
    currentSessionId := none, currentStatus := some .queued, currentError := none, currentRunId := none,
    pendingAttachments := [], resultVersions := [], selectedVersionNo := none, messages := [.user prompt] }

def appendFollowUp (s : TaskState) (text : String) : TaskState :=
  let prompt := trim text
  if prompt = "" then s
  else { s with
    lastSubmittedTaskText := some prompt, submitCount := s.submitCount + 1, currentTaskId := none,
    currentStatus := some .queued, currentError := none, currentRunId := none, pendingAttachments := [],
    messages := s.messages ++ [.user prompt] }

def setExecutionMeta (s : TaskState) (input : TaskMutationResult) : TaskState :=
  { s with
    currentTaskId := some input.taskId, currentSessionId := some input.sessionId,
    currentStatus := some input.initialStatus, currentError := input.errorMessage }

def applyStreamEvent (s : TaskState) (event : TaskStreamEvent) : TaskState :=
  let s := { s with
    currentTaskId := some event.taskId, currentSessionId := some event.sessionId,
    currentRunId := some event.runId }
  match event.detail with
  | .accepted | .stageChanged _ => { s with currentStatus := some .running }
  | .resultCreated result =>
    match extractArtifactFromResult result.toJson with
    | some artifact => { s with
        currentStatus := some .running, messages := appendArtifactMessage event.runId artifact s.messages }
    | none => { s with currentStatus := some .running }
  | .delta delta => { s with
      currentStatus := some .running, messages := appendAssistantDelta event.runId delta s.messages }
  | .completed => { s with currentStatus := some .completed }
  | .cancelled _ => { s with currentStatus := some .cancelled, currentError := none }
  | .failed _ message => { s with currentStatus := some .failed, currentError := some message }

def setTaskError (s : TaskState) (message : String) : TaskState :=
  { s with currentStatus := some .failed, currentError := some message }

/-- The messages of one task of the history. -/
def historyMessages (task : HistoryTask) : List ConversationMessage :=
  let text := (task.result.map TaskResult.outputText).filter fun text => text ≠ ""
  let artifact := task.result.bind fun result => extractArtifactFromResult result.outputJson
  [.user task.inputText] ++ (text.map fun text => .assistant text (some task.taskId)).toList ++
    (artifact.map fun artifact => .artifact artifact (some task.taskId)).toList

def hydrateServerConversation (s : TaskState) (detail : HistoryTaskDetail) : TaskState :=
  let latest := detail.tasks.getLast?
  { s with
    currentTaskId := detail.currentTaskId <|> latest.map HistoryTask.taskId,
    currentSessionId := some detail.sessionId,
    currentStatus := some ((latest.map HistoryTask.status).getD detail.status),
    currentError := latest.bind HistoryTask.errorMessage, currentRunId := none,
    lastSubmittedTaskText := latest.map HistoryTask.inputText, pendingAttachments := [],
    messages := detail.tasks.flatMap historyMessages, resultVersions := detail.versions,
    selectedVersionNo := detail.versions.getLast?.map TaskResult.versionNo }

variable (s : TaskState)

/-- A message that is sent leaves the conversation without a current task. -/
theorem appendFollowUp_currentTaskId {text : String} (h : trim text ≠ "") :
    (s.appendFollowUp text).currentTaskId = none := by
  rw [appendFollowUp, if_neg h]

theorem mem_currentTaskId_appendFollowUp {text t : String} (h : t ∈ (s.appendFollowUp text).currentTaskId) :
    t ∈ s.currentTaskId := by
  unfold appendFollowUp at h
  dsimp only at h
  split at h
  · exact h
  · cases h

@[simp] theorem setExecutionMeta_currentTaskId (input : TaskMutationResult) :
    (s.setExecutionMeta input).currentTaskId = some input.taskId := rfl

@[simp] theorem setTaskError_currentTaskId (message : String) :
    (s.setTaskError message).currentTaskId = s.currentTaskId := rfl

/-- Every event makes its task the current one. -/
@[simp] theorem applyStreamEvent_currentTaskId (event : TaskStreamEvent) :
    (s.applyStreamEvent event).currentTaskId = some event.taskId := by
  unfold applyStreamEvent
  dsimp only
  split
  case h_3 => split <;> rfl
  all_goals rfl

end TaskState

end ConversationStore
