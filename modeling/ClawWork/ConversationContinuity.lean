import ClawWork.ConversationStore
import ClawWork.PersistWrites
import ClawWork.Transition

/-!
# The tasks of one open conversation

`sendMessage` follows up on the task that the screen was rendered with, and creates a new task
when it was rendered without one. The messages of a conversation share a session as long as
none of them is sent from a screen without a current task.
-/

namespace ConversationContinuity

open JavaScript SharedTypes TaskStore TasksService PersistCalls ConversationStore
open PersistWrites (AllWritten home home_enqueue allWritten_init allWritten_step step_home)
open Transition (run run_nil run_cons Along Throughout)

/-- What a message asks of the server: `createTask`, or `followUpTask` on a task. -/
inductive Purpose where
  | create
  | followUp (parent : String)
  deriving DecidableEq, Repr

/-- A message and what has become of its request. A request can reach the server more than once. -/
structure Submission where
  purpose : Purpose
  text : String
  fileIds : List String
  results : List TaskMutationResult
  /-- Whether the screen has its answer. -/
  settled : Bool
  deriving DecidableEq, Repr

structure State where
  server : System
  store : TaskState
  /-- `taskState.currentTaskId`, as the screen was last rendered. -/
  rendered : Option String
  submissions : List Submission
  /-- The tasks that the server has created from this conversation. -/
  tasks : List String

/-- `taskState.currentTaskId ? followUpTask(...) : createTask(...)`. -/
def purposeOf (currentTaskId : Option String) : Purpose :=
  match truthy currentTaskId with
  | some taskId => .followUp taskId
  | none => .create

def sendMessage (s : State) (draft : String) : State :=
  let text := trim draft
  if text = "" then s
  else
    let submission := ⟨purposeOf s.rendered, text, s.store.getUploadedPendingFileIds, [], false⟩
    { s with store := s.store.appendFollowUp text, submissions := s.submissions ++ [submission] }

/-- The task that `createTask` or `createFollowUp` of the server enqueues; `none` when it finds no parent. -/
def newTask (db : Database) (userId taskId sessionId : String) (submission : Submission) : Option NewTask :=
  match submission.purpose with
  | .create =>
    let title := .ofList ((trim submission.text).toList.take 40)
    some ⟨taskId, userId, none, submission.text, .inr (sessionId, title)⟩
  | .followUp parent => do
    let parentTask ← db.tasks.get parent
    if parentTask.userId = userId then
      some ⟨taskId, userId, some parentTask.id, submission.text, .inl parentTask.sessionId⟩
    else none

/-- The answer of `enqueueTask`, by whether the task could be put into the queue. -/
def mutationResult (new : NewTask) : Option String → TaskMutationResult
  | none => ⟨new.taskId, PersistWrites.NewTask.sessionId new, .queued, none⟩
  | some message => ⟨new.taskId, PersistWrites.NewTask.sessionId new, .failed, some message⟩

inductive Label where
  /-- The attachments of the next message change. -/
  | attach (pending : List PendingAttachment)
  | send (draft : String)
  | render
  /-- The server executes a request, with the ids that the database generates. -/
  | serve (n : Nat) (taskId sessionId : String) (queueError : Option String)
  /-- An answer of the server arrives. -/
  | answer (n k : Nat)
  /-- The request fails, whether or not the server has executed it. -/
  | fail (n : Nat) (message : String)
  /-- An event of a task of the conversation. -/
  | event (event : TaskStreamEvent)
  /-- The stream of the current task gives up. -/
  | streamError (message : String)
  /-- Any other step of the server. -/
  | server (l : PersistCalls.Label)

def setSubmission (s : State) (n : Nat) (submission : Submission) : State :=
  { s with submissions := s.submissions.set n submission }

def serve (settings : Settings) (userId : String) (s : State) (n : Nat) (taskId sessionId : String)
    (queueError : Option String) : Option State := do
  let submission ← s.submissions[n]?
  let new ← newTask s.server.db userId taskId sessionId submission
  let server ← PersistCalls.step settings s.server (.single (.enqueue new))
  let results := submission.results ++ [mutationResult new queueError]
  some { s with server, submissions := s.submissions.set n { submission with results }
                tasks := s.tasks ++ [taskId] }

def step (settings : Settings) (userId : String) (s : State) : Label → Option State
  | .attach pending => some { s with store := s.store.setPendingAttachments pending }
  | .send draft => some (sendMessage s draft)
  | .render => some { s with rendered := s.store.currentTaskId }
  | .serve n taskId sessionId queueError => serve settings userId s n taskId sessionId queueError
  | .answer n k => do
    let submission ← s.submissions[n]?
    let result ← submission.results[k]?
    if submission.settled then none
    else some { setSubmission s n { submission with settled := true } with
      store := s.store.setExecutionMeta result }
  | .fail n message => do
    let submission ← s.submissions[n]?
    if submission.settled then none
    else some { setSubmission s n { submission with settled := true } with
      store := s.store.setTaskError message }
  | .event event =>
    if event.taskId ∈ s.tasks then some { s with store := s.store.applyStreamEvent event } else none
  | .streamError message => some { s with store := s.store.setTaskError message }
  | .server l => do
    let server ← PersistCalls.step settings s.server l
    some { s with server }

/-! ## One session -/

/-- The message is a follow-up on a task of the conversation. -/
def FollowsUp (tasks : List String) (submission : Submission) : Prop :=
  ∃ parent ∈ tasks, submission.purpose = .followUp parent

/-- All messages are follow-ups, and all tasks of the conversation are in one session. -/
structure Continuous (session : String) (s : State) : Prop where
  messages : ∀ submission ∈ s.submissions, FollowsUp s.tasks submission
  tasks : ∀ t ∈ s.tasks, home s.server.db t = some session

/-- A message with a text is sent only while the screen shows a current task. -/
def SentWithTask (s : State) : Label → Prop
  | .send draft => trim draft = "" ∨ (truthy s.rendered).isSome
  | _ => True

/-- The conversation has its first task, and no message besides. -/
structure Opened (session : String) (s : State) : Prop where
  first : s.tasks ≠ []
  tasks : ∀ t ∈ s.tasks, home s.server.db t = some session
  current : ∀ t ∈ s.store.currentTaskId, t ∈ s.tasks
  rendered : ∀ t ∈ s.rendered, t ∈ s.tasks
  messages : s.submissions = []
  written : AllWritten s.server

structure Inv (session : String) (s : State) : Prop where
  tasks : ∀ t ∈ s.tasks, home s.server.db t = some session
  current : ∀ t ∈ s.store.currentTaskId, t ∈ s.tasks
  rendered : ∀ t ∈ s.rendered, t ∈ s.tasks
  messages : ∀ submission ∈ s.submissions, FollowsUp s.tasks submission
  results : ∀ submission ∈ s.submissions, ∀ result ∈ submission.results, result.taskId ∈ s.tasks
  written : AllWritten s.server

variable {settings : Settings} {userId session : String} {s s' : State} {l : Label}

theorem Opened.inv (h : Opened session s) : Inv session s where
  tasks := h.tasks
  current := h.current
  rendered := h.rendered
  messages := by simp [h.messages]
  results := by simp [h.messages]
  written := h.written

theorem Inv.continuous (h : Inv session s) : Continuous session s := ⟨h.messages, h.tasks⟩

theorem FollowsUp.mono {tasks more : List String} {submission : Submission} (h : FollowsUp tasks submission) :
    FollowsUp (tasks ++ more) submission := by
  obtain ⟨parent, hparent, hpurpose⟩ := h
  exact ⟨parent, List.mem_append_left _ hparent, hpurpose⟩

theorem enqueued {server server' : System} {new : NewTask}
    (hstep : PersistCalls.step settings server (.single (.enqueue new)) = some server') :
    enqueueTransaction settings new server.db = some server'.db := by
  obtain ⟨-, db, hdb, rfl⟩ := step_single_eq_some hstep
  exact hdb

/-- A new task is not one of those that are there. -/
theorem home_fresh {db db' : Database} {new : NewTask} (h : enqueueTransaction settings new db = some db') :
    home db new.taskId = none := by
  rw [home, (enqueueTransaction_eq_some h).1]
  rfl

/-- The server does not move a task to another session. -/
theorem home_kept {server server' : System} {l : PersistCalls.Label} (h : AllWritten server)
    (hstep : PersistCalls.step settings server l = some server') {t : String}
    (ht : home server.db t = some session) : home server'.db t = some session := by
  rcases step_home h hstep t with hsame | ⟨new, rfl, -⟩
  · exact hsame.trans ht
  · have hdb := enqueued hstep
    have hne : t ≠ new.taskId := by
      rintro rfl
      rw [home_fresh hdb] at ht
      cases ht
    rw [home_enqueue hdb t, if_neg hne]
    exact ht

/-! ## The steps -/

/-- A change of the screen alone. -/
theorem Inv.screen (h : Inv session s) {store : TaskState} {rendered : Option String}
    (hcurrent : ∀ t ∈ store.currentTaskId, t ∈ s.tasks) (hrendered : ∀ t ∈ rendered, t ∈ s.tasks) :
    Inv session { s with store, rendered } :=
  ⟨h.tasks, hcurrent, hrendered, h.messages, h.results, h.written⟩

/-- A message whose request has been answered, or has failed. -/
theorem Inv.settle (h : Inv session s) {n : Nat} {submission : Submission}
    (hn : s.submissions[n]? = some submission) {store : TaskState}
    (hcurrent : ∀ t ∈ store.currentTaskId, t ∈ s.tasks) :
    Inv session { setSubmission s n { submission with settled := true } with store } := by
  have hmem : submission ∈ s.submissions := List.mem_of_getElem? hn
  refine ⟨h.tasks, hcurrent, h.rendered, fun x hx => ?_, fun x hx => ?_, h.written⟩
  · rcases List.mem_or_eq_of_mem_set hx with hx | rfl
    · exact h.messages x hx
    · exact h.messages submission hmem
  · rcases List.mem_or_eq_of_mem_set hx with hx | rfl
    · exact h.results x hx
    · exact h.results submission hmem

theorem followsUp_purposeOf {tasks : List String} {submission : Submission} {currentTaskId : Option String}
    (hpurpose : submission.purpose = purposeOf currentTaskId) (hcurrent : ∀ t ∈ currentTaskId, t ∈ tasks) :
    FollowsUp tasks submission ↔ (truthy currentTaskId).isSome := by
  rw [FollowsUp, hpurpose]
  unfold purposeOf
  cases htruthy : truthy currentTaskId with
  | none => simp
  | some t =>
    have ht : currentTaskId = some t := (Option.filter_eq_some_iff.mp htruthy).1
    simp only [Option.isSome_some, iff_true]
    exact ⟨t, hcurrent t ht, rfl⟩

theorem inv_sendMessage (h : Inv session s) {draft : String} (hok : SentWithTask s (.send draft)) :
    Inv session (sendMessage s draft) := by
  unfold sendMessage
  dsimp only
  split
  · exact h
  · rename_i htext
    have hcurrent : ∀ t ∈ (s.store.appendFollowUp (trim draft)).currentTaskId, t ∈ s.tasks :=
      fun t ht => h.current t (s.store.mem_currentTaskId_appendFollowUp ht)
    refine ⟨h.tasks, hcurrent, h.rendered, fun x hx => ?_, fun x hx result hresult => ?_, h.written⟩
    · rcases List.mem_append.mp hx with hx | hx
      · exact h.messages x hx
      · rw [List.mem_singleton.mp hx]
        exact (followsUp_purposeOf rfl h.rendered).mpr (hok.resolve_left htext)
    · rcases List.mem_append.mp hx with hx | hx
      · exact h.results x hx result hresult
      · rw [List.mem_singleton.mp hx] at hresult
        cases hresult

theorem sessionId_newTask (h : Inv session s) {n : Nat} {submission : Submission}
    (hn : s.submissions[n]? = some submission) {taskId sessionId : String} {new : NewTask}
    (hnew : newTask s.server.db userId taskId sessionId submission = some new) :
    new.taskId = taskId ∧ PersistWrites.NewTask.sessionId new = session := by
  obtain ⟨parent, hparent, hpurpose⟩ := h.messages submission (List.mem_of_getElem? hn)
  rw [newTask, hpurpose] at hnew
  obtain ⟨task, htask, hnew⟩ := Option.bind_eq_some_iff.mp hnew
  have hhome := h.tasks parent hparent
  rw [home, htask, Option.map_some, Option.some.injEq] at hhome
  split at hnew <;> cases hnew
  exact ⟨rfl, hhome⟩

/-- A follow-up is put into the session of its parent. -/
theorem inv_serve (h : Inv session s) {n : Nat} {taskId sessionId : String} {queueError : Option String}
    (hstep : serve settings userId s n taskId sessionId queueError = some s') : Inv session s' := by
  obtain ⟨submission, hn, hstep⟩ := Option.bind_eq_some_iff.mp hstep
  obtain ⟨new, hnew, hstep⟩ := Option.bind_eq_some_iff.mp hstep
  obtain ⟨server, hserver, hstep⟩ := Option.bind_eq_some_iff.mp hstep
  cases hstep
  have hmem : submission ∈ s.submissions := List.mem_of_getElem? hn
  obtain ⟨rfl, hsession⟩ := sessionId_newTask h hn hnew
  have hadded : home server.db new.taskId = some session := by
    rw [home_enqueue (enqueued hserver), if_pos rfl, hsession]
  refine ⟨fun t ht => ?_, fun t ht => List.mem_append_left _ (h.current t ht),
    fun t ht => List.mem_append_left _ (h.rendered t ht), fun x hx => ?_, fun x hx result hresult => ?_,
    allWritten_step h.written hserver⟩
  · rcases List.mem_append.mp ht with ht | ht
    · exact home_kept h.written hserver (h.tasks t ht)
    · rw [List.mem_singleton.mp ht]
      exact hadded
  · rcases List.mem_or_eq_of_mem_set hx with hx | rfl
    · exact (h.messages x hx).mono
    · exact (h.messages submission hmem).mono
  · rcases List.mem_or_eq_of_mem_set hx with hx | rfl
    · exact List.mem_append_left _ (h.results x hx result hresult)
    · rcases List.mem_append.mp hresult with hresult | hresult
      · exact List.mem_append_left _ (h.results submission hmem result hresult)
      · rw [List.mem_singleton.mp hresult]
        refine List.mem_append_right _ (List.mem_singleton.mpr ?_)
        cases queueError <;> rfl

/-- What a step keeps, unless a message is sent from a screen without a current task. -/
theorem inv_step (h : Inv session s) (hok : SentWithTask s l) (hstep : step settings userId s l = some s') :
    Inv session s' := by
  cases l with
  | attach pending =>
    simp only [step, Option.some.injEq] at hstep
    subst hstep
    exact h.screen h.current h.rendered
  | send draft =>
    simp only [step, Option.some.injEq] at hstep
    subst hstep
    exact inv_sendMessage h hok
  | render =>
    simp only [step, Option.some.injEq] at hstep
    subst hstep
    exact h.screen h.current h.current
  | serve n taskId sessionId queueError => exact inv_serve h hstep
  | answer n k =>
    obtain ⟨submission, hn, hstep⟩ := Option.bind_eq_some_iff.mp hstep
    obtain ⟨result, hk, hstep⟩ := Option.bind_eq_some_iff.mp hstep
    split at hstep <;> cases hstep
    refine h.settle hn fun t ht => ?_
    rw [TaskState.setExecutionMeta_currentTaskId, Option.mem_some_iff] at ht
    rw [← ht]
    exact h.results submission (List.mem_of_getElem? hn) result (List.mem_of_getElem? hk)
  | fail n message =>
    obtain ⟨submission, hn, hstep⟩ := Option.bind_eq_some_iff.mp hstep
    split at hstep <;> cases hstep
    exact h.settle hn h.current
  | event event =>
    simp only [step] at hstep
    split at hstep
    · rename_i hmem
      cases hstep
      refine h.screen (fun t ht => ?_) h.rendered
      rw [TaskState.applyStreamEvent_currentTaskId, Option.mem_some_iff] at ht
      rwa [← ht]
    · cases hstep
  | streamError message =>
    simp only [step, Option.some.injEq] at hstep
    subst hstep
    exact h.screen h.current h.rendered
  | server l =>
    obtain ⟨server, hserver, hstep⟩ := Option.bind_eq_some_iff.mp hstep
    cases hstep
    exact ⟨fun t ht => home_kept h.written hserver (h.tasks t ht), h.current, h.rendered, h.messages,
      h.results, allWritten_step h.written hserver⟩

/-- A message that is sent from a screen without a current task creates a task of its own. -/
theorem sentWithTask_of_continuous (h : Inv session s) (hstep : step settings userId s l = some s')
    (hgood : Continuous session s') : SentWithTask s l := by
  cases l with
  | send draft =>
    simp only [step, Option.some.injEq] at hstep
    subst hstep
    refine or_iff_not_imp_left.mpr fun htext => ?_
    have hlast := hgood.messages
    rw [sendMessage, if_neg htext] at hlast
    have hsent := hlast _ (List.mem_append_right _ List.mem_cons_self)
    exact (followsUp_purposeOf rfl h.rendered).mp hsent
  | _ => trivial

/-! ## Between a message and its answer -/

/-- Neither the store nor the screen has a current task. -/
def Waiting (s : State) : Prop := s.store.currentTaskId = none ∧ s.rendered = none

def Label.restores : Label → Bool
  | .answer _ _ | .event _ => true
  | _ => false

theorem sendMessage_currentTaskId {draft : String} (hdraft : trim draft ≠ "") :
    (sendMessage s draft).store.currentTaskId = none := by
  have hprompt : trim (trim draft) ≠ "" := by rwa [trim_trim]
  have hcleared : (s.store.appendFollowUp (trim draft)).currentTaskId = none :=
    s.store.appendFollowUp_currentTaskId hprompt
  rw [sendMessage, if_neg hdraft]
  exact hcleared

theorem waiting_of_sent {draft : String} (hdraft : trim draft ≠ "")
    (hrun : run (step settings userId) s [.send draft, .render] = some s') : Waiting s' := by
  obtain ⟨u, hu, hrun⟩ := Option.bind_eq_some_iff.mp hrun
  obtain ⟨v, hv, hrun⟩ := Option.bind_eq_some_iff.mp hrun
  simp only [step, Option.some.injEq] at hu hv
  rw [run_nil, Option.some.injEq] at hrun
  have hcleared : u.store.currentTaskId = none := by
    rw [← hu]
    exact sendMessage_currentTaskId hdraft
  rw [← hrun, ← hv]
  exact ⟨hcleared, hcleared⟩

/-- Only an answer or an event brings a current task back; a failure does not. -/
theorem waiting_step (h : Waiting s) (hl : l.restores = false) (hstep : step settings userId s l = some s') :
    Waiting s' := by
  cases l with
  | attach pending =>
    simp only [step, Option.some.injEq] at hstep
    subst hstep
    exact h
  | send draft =>
    simp only [step, Option.some.injEq] at hstep
    subst hstep
    unfold sendMessage
    dsimp only
    split
    · exact h
    · have hcleared : (s.store.appendFollowUp (trim draft)).currentTaskId = none := by
        refine Option.eq_none_iff_forall_not_mem.mpr fun t ht => ?_
        have hcurrent := s.store.mem_currentTaskId_appendFollowUp ht
        rw [h.1] at hcurrent
        cases hcurrent
      exact ⟨hcleared, h.2⟩
  | render =>
    simp only [step, Option.some.injEq] at hstep
    subst hstep
    exact ⟨h.1, h.1⟩
  | serve n taskId sessionId queueError =>
    obtain ⟨submission, -, hstep⟩ := Option.bind_eq_some_iff.mp hstep
    obtain ⟨new, -, hstep⟩ := Option.bind_eq_some_iff.mp hstep
    obtain ⟨server, -, hstep⟩ := Option.bind_eq_some_iff.mp hstep
    cases hstep
    exact h
  | answer n k => cases hl
  | fail n message =>
    obtain ⟨submission, -, hstep⟩ := Option.bind_eq_some_iff.mp hstep
    split at hstep <;> cases hstep
    exact h
  | event event => cases hl
  | streamError message =>
    simp only [step, Option.some.injEq] at hstep
    subst hstep
    exact h
  | server l =>
    obtain ⟨server, -, hstep⟩ := Option.bind_eq_some_iff.mp hstep
    cases hstep
    exact h

theorem waiting_run (h : Waiting s) {ls : List Label} (hls : ∀ l ∈ ls, l.restores = false)
    (hrun : run (step settings userId) s ls = some s') : Waiting s' := by
  induction ls generalizing s with
  | nil =>
    rw [run_nil, Option.some.injEq] at hrun
    exact hrun ▸ h
  | cons l ls ih =>
    obtain ⟨u, hu, hrun⟩ := Option.bind_eq_some_iff.mp hrun
    exact ih (waiting_step h (hls l List.mem_cons_self) hu) (fun m hm => hls m (List.mem_cons_of_mem _ hm)) hrun

/-- Once the screen has rendered a message, every other one creates a task of its own until an answer
or an event arrives. -/
theorem creates_until_restored {draft : String} (hdraft : trim draft ≠ "") {ls : List Label}
    (hls : ∀ l ∈ ls, l.restores = false)
    (hrun : run (step settings userId) s ([.send draft, .render] ++ ls) = some s') :
    purposeOf s'.rendered = .create := by
  rw [Transition.run_append] at hrun
  obtain ⟨u, hu, hrun⟩ := Option.bind_eq_some_iff.mp hrun
  have hend : Waiting s' := waiting_run (waiting_of_sent hdraft hu) hls hrun
  rw [hend.2]
  rfl

/-! ## Opening a conversation -/

/-- The screen after `beginConversation`, when the answer to its task has arrived. -/
def begun (server : System) (new : NewTask) : State where
  server
  store := (initialState.startConversation new.inputText).setExecutionMeta (mutationResult new none)
  rendered := some new.taskId
  submissions := []
  tasks := [new.taskId]

theorem opened_begun {server server' : System} (h : AllWritten server) {new : NewTask}
    (hstep : PersistCalls.step settings server (.single (.enqueue new)) = some server') :
    Opened (PersistWrites.NewTask.sessionId new) (begun server' new) where
  first := by simp [begun]
  tasks := by
    intro t ht
    rw [List.mem_singleton.mp ht, begun, home_enqueue (enqueued hstep), if_pos rfl]
  current := by
    intro t ht
    rw [← Option.mem_some_iff.mp ht]
    exact List.mem_singleton_self _
  rendered := by
    intro t ht
    rw [← Option.mem_some_iff.mp ht]
    exact List.mem_singleton_self _
  messages := rfl
  written := allWritten_step h hstep

/-- The screen of a conversation that has been opened from the history. -/
def reopened (server : System) (store : TaskState) (detail : HistoryTaskDetail) : State where
  server
  store := store.hydrateServerConversation detail
  rendered := (store.hydrateServerConversation detail).currentTaskId
  submissions := []
  tasks := detail.tasks.map HistoryTask.taskId

theorem opened_reopened {server : System} (h : AllWritten server) (store : TaskState)
    {detail : HistoryTaskDetail} (hfirst : detail.tasks ≠ [])
    (htasks : ∀ task ∈ detail.tasks, home server.db task.taskId = some detail.sessionId)
    (hcurrent : ∀ t ∈ detail.currentTaskId, ∃ task ∈ detail.tasks, task.taskId = t) :
    Opened detail.sessionId (reopened server store detail) := by
  have hknown : ∀ t ∈ (store.hydrateServerConversation detail).currentTaskId,
      t ∈ detail.tasks.map HistoryTask.taskId := by
    intro t ht
    cases hid : detail.currentTaskId with
    | some t' =>
      rw [TaskState.hydrateServerConversation, hid] at ht
      obtain ⟨task, htask, hname⟩ := hcurrent t' hid
      exact List.mem_map.mpr ⟨task, htask, hname.trans (Option.mem_some_iff.mp ht)⟩
    | none =>
      rw [TaskState.hydrateServerConversation, hid] at ht
      obtain ⟨task, hlast, hname⟩ := Option.map_eq_some_iff.mp ht
      exact List.mem_map.mpr ⟨task, List.mem_of_getLast? hlast, hname⟩
  refine ⟨fun hnil => hfirst (List.map_eq_nil_iff.mp hnil), fun t ht => ?_, hknown, hknown, rfl, h⟩
  obtain ⟨task, htask, rfl⟩ := List.mem_map.mp ht
  exact htasks task htask

/-! ## Whole runs -/

/-- An open conversation stays in one session, with all its messages follow-ups, exactly when no
message is sent from a screen that shows no current task. -/
theorem continuous_iff (hopened : Opened session s) {ls : List Label}
    (hrun : run (step settings userId) s ls = some s') :
    Throughout (step settings userId) (Continuous session) s ls ↔
      Along (step settings userId) SentWithTask s ls :=
  Transition.throughout_iff_along (fun _ h => h.continuous) (fun _ _ _ h hok hstep => inv_step h hok hstep)
    (fun _ _ _ h hstep hgood => sentWithTask_of_continuous h hstep hgood) hopened.inv hrun

instance decidableSentWithTask (s : State) : ∀ l, Decidable (SentWithTask s l)
  | .send draft => inferInstanceAs (Decidable (trim draft = "" ∨ (truthy s.rendered).isSome))
  | .attach _ | .render | .serve _ _ _ _ | .answer _ _ | .fail _ _ | .event _ | .streamError _ | .server _ =>
    .isTrue trivial

def demoSettings : Settings := ⟨3, fun _ => true⟩

def firstTask : NewTask := ⟨"t0", "u", none, "hi", .inr ("s0", "hi")⟩

def demoServer : System :=
  (PersistCalls.step demoSettings .init (.single (.enqueue firstTask))).get (by decide +kernel)

theorem opened_demo : Opened "s0" (begun demoServer firstTask) := by
  have hstep : PersistCalls.step demoSettings .init (.single (.enqueue firstTask)) = some demoServer :=
    (Option.some_get _).symm
  exact opened_begun allWritten_init hstep

/-- The second message is sent when the answer to the first one is on the screen. -/
def patientRun : List Label :=
  [.send "more", .render, .serve 0 "t1" "s1" none, .answer 0 0, .render, .send "again", .serve 1 "t2" "s2" none]

/-- The second message is sent before that. -/
def impatientRun : List Label :=
  [.send "more", .render, .send "again", .serve 0 "t1" "s1" none, .serve 1 "t2" "s2" none]

def stateAfter (ls : List Label) : Option State := run (step demoSettings "u") (begun demoServer firstTask) ls

theorem continuous_patientRun :
    Throughout (step demoSettings "u") (Continuous "s0") (begun demoServer firstTask) patientRun := by
  obtain ⟨s', hrun⟩ := Option.isSome_iff_exists.mp
    (by decide +kernel : (stateAfter patientRun).isSome = true)
  exact (continuous_iff opened_demo hrun).mpr (by decide +kernel)

/-- The second message creates a task of its own, in a session of its own. -/
theorem not_continuous_impatientRun :
    (¬ ∀ settings userId session s s' ls, Opened session s → run (step settings userId) s ls = some s' →
      ∀ submission ∈ s'.submissions, FollowsUp s'.tasks submission) ∧
    ¬ ∀ settings userId session s s' ls, Opened session s → run (step settings userId) s ls = some s' →
      ∀ t ∈ s'.tasks, home s'.server.db t = some session := by
  obtain ⟨s', hrun⟩ := Option.isSome_iff_exists.mp
    (by decide +kernel : (stateAfter impatientRun).isSome = true)
  have hpurposes : (stateAfter impatientRun).map (fun s => s.submissions.map Submission.purpose) =
      some [.followUp "t0", .create] := by decide +kernel
  have hsessions : (stateAfter impatientRun).map (fun s => s.tasks.map fun t => (t, home s.server.db t)) =
      some [("t0", some "s0"), ("t1", some "s0"), ("t2", some "s2")] := by decide +kernel
  rw [stateAfter] at hrun hpurposes hsessions
  rw [hrun, Option.map_some, Option.some.injEq] at hpurposes hsessions
  constructor
  · intro hall
    have hmessages := hall _ _ _ _ _ _ opened_demo hrun
    have hcreate : Purpose.create ∈ s'.submissions.map Submission.purpose := by simp [hpurposes]
    obtain ⟨submission, hmem, hpurpose⟩ := List.mem_map.mp hcreate
    obtain ⟨parent, -, hfollow⟩ := hmessages submission hmem
    rw [hpurpose] at hfollow
    cases hfollow
  · intro hall
    have htasks := hall _ _ _ _ _ _ opened_demo hrun
    have hstray : ("t2", some "s2") ∈ s'.tasks.map fun t => (t, home s'.server.db t) := by simp [hsessions]
    obtain ⟨t, hmem, heq⟩ := List.mem_map.mp hstray
    obtain ⟨rfl, hhome⟩ := Prod.mk.inj heq
    have hfirst := (htasks _ hmem).symm.trans hhome
    exact absurd hfirst (by decide)

/-- After a message that has failed, the next one creates a task as well. -/
example : (stateAfter [.send "more", .render, .fail 0 "offline", .render, .send "again"]).map
    (fun s => s.submissions.map Submission.purpose) = some [.followUp "t0", .create] := by decide +kernel

end ConversationContinuity
