import ClawWork.ConversationStore
import ClawWork.OrderedMap
import ClawWork.Transition

/-!
# Attachments of the next message

Picked files are uploaded one after the other while the user goes on: he removes attachments,
sends messages and opens other conversations, and answers come in when their attachment may be
gone. Every uploaded file ends up in one place: it is sent with one message, still pending, was
removed or cleared, or its answer came too late.
-/

namespace ConversationStore.TaskState

open JavaScript SharedTypes TaskStore

def beginPendingAttachment (s : TaskState) (clientId : String) : TaskState :=
  s.setPendingAttachments (s.pendingAttachments ++ [⟨clientId, none, .uploading⟩])

/-- `replacePendingAttachment`. -/
def replacePendingAttachment (clientId : String) (next : PendingAttachment) (pending : List PendingAttachment) :
    List PendingAttachment :=
  pending.map fun attachment => if attachment.clientId = clientId then next else attachment

/-- What the server answers to an upload that is complete. -/
structure FileRecord where
  fileId : String
  status : UploadStatus
  deriving DecidableEq

def completePendingAttachment (s : TaskState) (clientId : String) (file : FileRecord) : TaskState :=
  s.setPendingAttachments
    (replacePendingAttachment clientId ⟨clientId, some file.fileId, file.status⟩ s.pendingAttachments)

def failPendingAttachment (s : TaskState) (clientId : String) : TaskState :=
  match s.pendingAttachments.find? fun attachment => attachment.clientId = clientId with
  | none => s
  | some current =>
    s.setPendingAttachments (replacePendingAttachment clientId { current with status := .failed } s.pendingAttachments)

def removePendingAttachment (s : TaskState) (clientId : String) : TaskState :=
  s.setPendingAttachments (s.pendingAttachments.filter fun attachment => attachment.clientId ≠ clientId)

/-- An active task of the server. -/
structure ActiveTask where
  id : String
  sessionId : String
  inputText : String
  status : TaskStatus

def recoverActiveTask (s : TaskState) (task : ActiveTask) : TaskState :=
  if s.currentTaskId = some task.id then s
  else { s with
    currentTaskId := some task.id, currentSessionId := some task.sessionId, currentStatus := some task.status,
    currentError := none, currentRunId := none, lastSubmittedTaskText := some task.inputText,
    pendingAttachments := [], messages := [.user task.inputText] }

def beginRetry (s : TaskState) : TaskState := { s with currentStatus := some .queued, currentError := none }

def markCancelled (s : TaskState) : TaskState := { s with currentStatus := some .cancelled, currentError := none }

def setResultVersions (s : TaskState) (versions : List TaskResult) : TaskState :=
  { s with resultVersions := versions, selectedVersionNo := versions.getLast?.map TaskResult.versionNo }

def selectResultVersion (s : TaskState) (versionNo : Nat) : TaskState :=
  if s.resultVersions.any fun version => version.versionNo = versionNo then
    { s with selectedVersionNo := some versionNo }
  else s

end ConversationStore.TaskState

namespace Attachments

open JavaScript SharedTypes TaskStore ConversationStore TaskState Transition

/-- The operations of the store that no message is sent with. -/
inductive Operation where
  | setExecutionMeta (input : TaskMutationResult)
  | applyStreamEvent (event : TaskStreamEvent)
  | setTaskError (message : String)
  | beginRetry
  | markCancelled
  | setResultVersions (versions : List TaskResult)
  | selectResultVersion (versionNo : Nat)
  | hydrateServerConversation (detail : HistoryTaskDetail)
  | recoverActiveTask (task : ActiveTask)
  | reset

def Operation.apply (s : TaskState) : Operation → TaskState
  | .setExecutionMeta input => s.setExecutionMeta input
  | .applyStreamEvent event => s.applyStreamEvent event
  | .setTaskError message => s.setTaskError message
  | .beginRetry => s.beginRetry
  | .markCancelled => s.markCancelled
  | .setResultVersions versions => s.setResultVersions versions
  | .selectResultVersion versionNo => s.selectResultVersion versionNo
  | .hydrateServerConversation detail => s.hydrateServerConversation detail
  | .recoverActiveTask task => s.recoverActiveTask task
  | .reset => initialState

/-- A run of `attachFiles`: the attachment that is being uploaded, and the number of files after it. -/
structure Loop where
  clientId : String
  remaining : Nat
  deriving DecidableEq

structure System where
  store : TaskState
  loops : OrderedMap Nat Loop
  /-- The ids of the attachments so far. -/
  drawn : List String
  /-- The files whose upload the server has confirmed. -/
  completed : List String
  /-- The `fileIds` of each message. -/
  submissions : List (List String)
  /-- The uploaded files whose attachment the user has removed. -/
  removed : List String
  /-- The uploaded files that another conversation has replaced. -/
  cleared : List String
  /-- The uploaded files whose attachment was gone when the answer came. -/
  late : List String

def System.init : System := ⟨initialState, .empty, [], [], [], [], [], []⟩

inductive Label where
  /-- `pickAttachments` returns a file and `remaining` others. -/
  | attach (i : Nat) (remaining : Nat) (clientId : String)
  /-- `uploadAttachment` settles; the next attachment has the id `nextId`. -/
  | settled (i : Nat) (result : Option FileRecord) (nextId : String)
  | remove (clientId : String)
  /-- `beginConversation` of the home screen. -/
  | beginConversation (prompt : String)
  /-- `sendMessage` of the conversation screen. -/
  | sendMessage (draft : String)
  | other (operation : Operation)

/-- The id of an uploaded file. -/
def uploadedId (attachment : PendingAttachment) : Option String :=
  if attachment.status = .uploaded then attachment.fileId else none

def System.begin (s : System) (i remaining : Nat) (clientId : String) : System :=
  { s with
    store := s.store.beginPendingAttachment clientId
    loops := s.loops.set i ⟨clientId, remaining⟩
    drawn := s.drawn ++ [clientId] }

/-- The loop goes on with the next file. -/
def System.next (s : System) (i : Nat) (loop : Loop) (nextId : String) : System :=
  match loop.remaining with
  | 0 => { s with loops := s.loops.delete i }
  | remaining + 1 => s.begin i remaining nextId

/-- The answer to an upload. -/
def System.answer (s : System) (clientId : String) : Option FileRecord → System
  | none => { s with store := s.store.failPendingAttachment clientId }
  | some file =>
    let gone := clientId ∉ s.store.pendingAttachments.map PendingAttachment.clientId
    { s with
      store := s.store.completePendingAttachment clientId file
      completed := if file.status = .uploaded then s.completed ++ [file.fileId] else s.completed
      late := if file.status = .uploaded ∧ gone then s.late ++ [file.fileId] else s.late }

/-- The request of a message has the files that are uploaded when it is sent. -/
def System.submit (s : System) (text : String) (store : TaskState) : System :=
  if trim text = "" then s
  else { s with store, submissions := s.submissions ++ [s.store.getUploadedPendingFileIds] }

def step (s : System) : Label → Option System
  | .attach i remaining clientId =>
    if (s.loops.get i).isNone then some (s.begin i remaining clientId) else none
  | .settled i result nextId => do
    let loop ← s.loops.get i
    some ((s.answer loop.clientId result).next i loop nextId)
  | .remove clientId =>
    some { s with
      store := s.store.removePendingAttachment clientId
      removed := s.removed ++ (s.store.pendingAttachments.filter fun attachment =>
        attachment.clientId = clientId).filterMap uploadedId }
  | .beginConversation prompt => some (s.submit prompt (s.store.startConversation (trim prompt)))
  | .sendMessage draft => some (s.submit draft (s.store.appendFollowUp (trim draft)))
  | .other operation =>
    let store := operation.apply s.store
    some { s with
      store
      cleared := s.cleared ++
        if store.pendingAttachments = [] then s.store.getUploadedPendingFileIds else [] }

/-- The ids of new attachments and of confirmed files are new. -/
def Fresh (s : System) : Label → Prop
  | .attach _ _ clientId => clientId ∉ s.drawn
  | .settled _ result nextId => nextId ∉ s.drawn ∧ ∀ file ∈ result, file.fileId ∉ s.completed
  | _ => True

instance (s : System) (l : Label) : Decidable (Fresh s l) := by
  unfold Fresh
  split <;> infer_instance

/-! ## The uploaded files of a list of attachments -/

variable {s s' : System} {pending : List PendingAttachment} {clientId : String}

theorem getUploadedPendingFileIds_eq (store : TaskState) :
    store.getUploadedPendingFileIds = store.pendingAttachments.filterMap uploadedId := rfl

def clientIds (pending : List PendingAttachment) : List String := pending.map PendingAttachment.clientId

theorem clientIds_replace (clientId : String) (next : PendingAttachment) (hnext : next.clientId = clientId)
    (pending : List PendingAttachment) :
    clientIds (replacePendingAttachment clientId next pending) = clientIds pending := by
  unfold clientIds replacePendingAttachment
  rw [List.map_map]
  apply List.map_congr_left
  intro attachment _
  by_cases h : attachment.clientId = clientId <;> simp [h, hnext]

theorem replace_of_notMem (next : PendingAttachment) (h : clientId ∉ clientIds pending) :
    replacePendingAttachment clientId next pending = pending := by
  conv_rhs => rw [← List.map_id pending]
  apply List.map_congr_left
  intro attachment hattachment
  have hne : attachment.clientId ≠ clientId := by
    intro heq
    rw [← heq] at h
    exact h (List.mem_map_of_mem hattachment)
  rw [if_neg hne, id]

/-- An attachment that is being uploaded is replaced by one with its file. -/
theorem count_replace {next : PendingAttachment} (f : String) (hnodup : (clientIds pending).Nodup)
    (hmem : clientId ∈ clientIds pending)
    (huploading : ∀ attachment ∈ pending, attachment.clientId = clientId → attachment.status = .uploading) :
    ((replacePendingAttachment clientId next pending).filterMap uploadedId).count f =
      (pending.filterMap uploadedId).count f + (uploadedId next).toList.count f := by
  induction pending with
  | nil => cases hmem
  | cons first rest ih =>
    rw [List.forall_mem_cons] at huploading
    rw [clientIds, List.map_cons, ← clientIds, List.nodup_cons] at hnodup
    by_cases hfirst : first.clientId = clientId
    · have hrest : clientId ∉ clientIds rest := hfirst ▸ hnodup.1
      have hnone : uploadedId first = none := by simp [uploadedId, huploading.1 hfirst]
      have hreplace := replace_of_notMem next hrest
      unfold replacePendingAttachment at hreplace ⊢
      rw [List.map_cons, if_pos hfirst, hreplace, List.filterMap_cons, List.filterMap_cons_none hnone]
      cases uploadedId next with
      | none => simp
      | some file => simp [List.count_cons]
    · have hrest : clientId ∈ clientIds rest := by
        rw [clientIds, List.map_cons, List.mem_cons] at hmem
        exact hmem.resolve_left (Ne.symm hfirst)
      have hcount := ih hnodup.2 hrest huploading.2
      unfold replacePendingAttachment at hcount ⊢
      rw [List.map_cons, if_neg hfirst, List.filterMap_cons, List.filterMap_cons]
      cases uploadedId first with
      | none => exact hcount
      | some file =>
        simp only [List.count_cons, hcount]
        omega

theorem count_filter (f : String) (p : PendingAttachment → Bool) (pending : List PendingAttachment) :
    (pending.filterMap uploadedId).count f = ((pending.filter p).filterMap uploadedId).count f +
      ((pending.filter fun attachment => !p attachment).filterMap uploadedId).count f := by
  have hperm := (List.filter_append_perm p pending).filterMap uploadedId
  rw [List.filterMap_append] at hperm
  rw [← hperm.count_eq, List.count_append]

/-! ## The invariant -/

/-- Where the uploaded files are. -/
def System.places (s : System) : List String :=
  s.submissions.flatten ++ s.store.getUploadedPendingFileIds ++ s.removed ++ s.cleared ++ s.late

/-- The attachments and the ledger, and the uploads in progress. -/
structure Inv (s : System) (loops : Nat → Option Loop) : Prop where
  nodup : (clientIds s.store.pendingAttachments).Nodup
  drawn : ∀ clientId ∈ clientIds s.store.pendingAttachments, clientId ∈ s.drawn
  /-- The attachment of a loop is being uploaded, if it is still there. -/
  uploading : ∀ i loop, loops i = some loop → loop.clientId ∈ s.drawn ∧
    ∀ attachment ∈ s.store.pendingAttachments, attachment.clientId = loop.clientId → attachment.status = .uploading
  distinct : ∀ i j loop other, loops i = some loop → loops j = some other → loop.clientId = other.clientId → i = j
  completed : s.completed.Nodup
  ledger : ∀ f, s.completed.count f = s.places.count f

variable {loops loops' : Nat → Option Loop}

theorem inv_init : Inv .init (OrderedMap.get .empty) where
  nodup := List.nodup_nil
  drawn := fun clientId h => by cases h
  uploading := fun i loop h => by cases h
  distinct := fun i j loop other h => by cases h
  completed := List.nodup_nil
  ledger := fun f => rfl

theorem Inv.congr {loops loops' : Nat → Option Loop} (h : Inv s loops)
    (hloops : ∀ i, loops' i = loops i) : Inv s loops' :=
  (funext hloops : loops' = loops) ▸ h

/-- A step that leaves a part of the attachments and notes where the others have gone. -/
theorem Inv.shrink (h : Inv s loops) (hsublist : s'.store.pendingAttachments.Sublist s.store.pendingAttachments)
    (hdrawn : s'.drawn = s.drawn) (hcompleted : s'.completed = s.completed)
    (hplaces : ∀ f, s'.places.count f = s.places.count f) : Inv s' loops where
  nodup := h.nodup.sublist (hsublist.map _)
  drawn := by
    rw [hdrawn]
    exact fun clientId hmem => h.drawn clientId ((hsublist.map _).subset hmem)
  uploading := by
    rw [hdrawn]
    intro i loop hget
    obtain ⟨hold, huploading⟩ := h.uploading i loop hget
    exact ⟨hold, fun attachment hmem => huploading attachment (hsublist.subset hmem)⟩
  distinct := h.distinct
  completed := by
    rw [hcompleted]
    exact h.completed
  ledger := by
    intro f
    rw [hcompleted, hplaces, h.ledger f]

theorem inv_submit (h : Inv s loops) {text : String} {store : TaskState}
    (hstore : trim text ≠ "" → store.pendingAttachments = []) : Inv (s.submit text store) loops := by
  unfold System.submit
  split
  · exact h
  · rename_i htext
    have hnil := hstore htext
    refine h.shrink ?_ rfl rfl fun f => ?_
    · rw [hnil]
      exact List.nil_sublist _
    · have hempty : store.getUploadedPendingFileIds = [] := by rw [getUploadedPendingFileIds_eq, hnil]; rfl
      simp only [System.places, hempty, List.flatten_append, List.flatten_singleton, List.count_append, List.count_nil]
      omega

/-- An operation of the store keeps the attachments or drops all of them. -/
theorem operation_pending (store : TaskState) (operation : Operation) :
    (operation.apply store).pendingAttachments = store.pendingAttachments ∨
      (operation.apply store).pendingAttachments = [] := by
  cases operation with
  | applyStreamEvent event =>
    left
    change (store.applyStreamEvent event).pendingAttachments = _
    unfold applyStreamEvent
    dsimp only
    split
    case h_3 => split <;> rfl
    all_goals rfl
  | hydrateServerConversation detail => exact .inr rfl
  | recoverActiveTask task =>
    change (store.recoverActiveTask task).pendingAttachments = _ ∨ (store.recoverActiveTask task).pendingAttachments = _
    unfold recoverActiveTask
    split
    · exact .inl rfl
    · exact .inr rfl
  | selectResultVersion versionNo =>
    left
    change (store.selectResultVersion versionNo).pendingAttachments = _
    unfold selectResultVersion
    split <;> rfl
  | reset => exact .inr rfl
  | _ => exact .inl rfl

theorem inv_other (h : Inv s loops) (operation : Operation) (hstep : step s (.other operation) = some s') :
    Inv s' loops := by
  cases hstep
  rcases operation_pending s.store operation with hsame | hnil
  · refine h.shrink (by rw [hsame]) rfl rfl fun f => ?_
    have hids : (operation.apply s.store).getUploadedPendingFileIds = s.store.getUploadedPendingFileIds := by
      rw [getUploadedPendingFileIds_eq, hsame, ← getUploadedPendingFileIds_eq]
    have hgone : (if (operation.apply s.store).pendingAttachments = [] then s.store.getUploadedPendingFileIds
        else []) = [] := by
      split
      · rename_i hempty
        rw [getUploadedPendingFileIds_eq, ← hsame, hempty]
        rfl
      · rfl
    simp only [System.places, hids, hgone, List.append_nil]
  · refine h.shrink (by rw [hnil]; exact List.nil_sublist _) rfl rfl fun f => ?_
    have hids : (operation.apply s.store).getUploadedPendingFileIds = [] := by
      rw [getUploadedPendingFileIds_eq, hnil]
      rfl
    simp only [System.places, hids, hnil, if_true, List.count_append, List.count_nil]
    omega

theorem inv_remove (h : Inv s loops) (clientId : String) (hstep : step s (.remove clientId) = some s') :
    Inv s' loops := by
  cases hstep
  refine h.shrink List.filter_sublist rfl rfl fun f => ?_
  have hcount := count_filter f (fun attachment => attachment.clientId = clientId) s.store.pendingAttachments
  have hkept : (s.store.removePendingAttachment clientId).getUploadedPendingFileIds =
      (s.store.pendingAttachments.filter fun attachment =>
        !decide (attachment.clientId = clientId)).filterMap uploadedId := by
    simp [getUploadedPendingFileIds_eq, removePendingAttachment, setPendingAttachments]
  simp only [System.places, hkept, List.count_append, getUploadedPendingFileIds_eq] at hcount ⊢
  omega

theorem inv_begin (h : Inv s loops) {i remaining : Nat} (hfresh : clientId ∉ s.drawn)
    (hloops : ∀ j, j ≠ i → loops j = s.loops.get j) :
    Inv (s.begin i remaining clientId) (s.begin i remaining clientId).loops.get := by
  have hpending : (s.begin i remaining clientId).store.pendingAttachments =
      s.store.pendingAttachments ++ [⟨clientId, none, .uploading⟩] := rfl
  have hget : ∀ j loop, (s.begin i remaining clientId).loops.get j = some loop →
      (j = i ∧ loop.clientId = clientId) ∨ (j ≠ i ∧ loops j = some loop) := by
    intro j loop hj
    rw [System.begin, OrderedMap.get_set] at hj
    split at hj
    · rename_i hji
      cases hj
      exact .inl ⟨hji, rfl⟩
    · rename_i hji
      exact .inr ⟨hji, (hloops j hji).trans hj⟩
  have hnew : clientId ∉ clientIds s.store.pendingAttachments := fun hmem => hfresh (h.drawn clientId hmem)
  refine ⟨?_, ?_, ?_, ?_, h.completed, ?_⟩
  · rw [hpending, clientIds, List.map_append, ← clientIds]
    refine List.nodup_append.mpr ⟨h.nodup, List.nodup_singleton _, fun a ha b hb heq => hnew ?_⟩
    rw [heq, List.mem_singleton.mp hb] at ha
    exact ha
  · rw [hpending, clientIds, List.map_append, ← clientIds]
    exact List.forall_mem_append.mpr ⟨fun c hc => List.mem_append_left _ (h.drawn c hc), fun c hc =>
      List.mem_append_right _ hc⟩
  · intro j loop hj
    rw [hpending]
    rcases hget j loop hj with ⟨-, hclient⟩ | ⟨-, hold⟩
    · refine ⟨List.mem_append_right _ (List.mem_singleton.mpr hclient), List.forall_mem_append.mpr
        ⟨fun attachment hmem heq => ?_, fun attachment hmem _ => ?_⟩⟩
      · exact absurd (List.mem_map_of_mem hmem) (heq.trans hclient ▸ hnew)
      · rw [List.mem_singleton.mp hmem]
    · obtain ⟨hdrawn, huploading⟩ := h.uploading j loop hold
      refine ⟨List.mem_append_left _ hdrawn, List.forall_mem_append.mpr ⟨huploading, fun attachment hmem _ => ?_⟩⟩
      rw [List.mem_singleton.mp hmem]
  · intro j k loop other hj hk hclient
    rcases hget j loop hj with ⟨hji, hloop⟩ | ⟨hji, hold⟩ <;> rcases hget k other hk with ⟨hki, hother⟩ | ⟨hki, hold'⟩
    · exact hji.trans hki.symm
    · exact absurd (h.uploading k other hold').1 (by rw [← hclient, hloop]; exact hfresh)
    · exact absurd (h.uploading j loop hold).1 (by rw [hclient, hother]; exact hfresh)
    · exact h.distinct j k loop other hold hold' hclient
  · intro f
    refine (h.ledger f).trans ?_
    simp [System.places, System.begin, beginPendingAttachment, setPendingAttachments, getUploadedPendingFileIds_eq,
      uploadedId]

theorem mem_replace {next attachment : PendingAttachment}
    (h : attachment ∈ replacePendingAttachment clientId next pending) :
    attachment = next ∨ (attachment ∈ pending ∧ attachment.clientId ≠ clientId) := by
  obtain ⟨old, hold, rfl⟩ := List.mem_map.mp h
  by_cases hclient : old.clientId = clientId
  · rw [if_pos hclient]
    exact .inl rfl
  · rw [if_neg hclient]
    exact .inr ⟨hold, hclient⟩

/-- The attachment of one upload is replaced; its loop has nothing to do with what follows. -/
theorem inv_replace (h : Inv s loops) {i : Nat} {loop : Loop} (hget : loops i = some loop) (next : PendingAttachment)
    (hnext : next.clientId = loop.clientId)
    (hpending : s'.store.pendingAttachments =
      replacePendingAttachment loop.clientId next s.store.pendingAttachments)
    (hdrawn : s'.drawn = s.drawn) (hcompleted : s'.completed.Nodup)
    (hledger : ∀ f, s'.completed.count f = s'.places.count f) :
    Inv s' (fun j => if j = i then none else loops j) where
  nodup := by
    rw [hpending, clientIds_replace _ _ hnext]
    exact h.nodup
  drawn := by
    rw [hpending, clientIds_replace _ _ hnext, hdrawn]
    exact h.drawn
  uploading := by
    intro j other hj
    split at hj
    · cases hj
    · rename_i hji
      obtain ⟨hold, huploading⟩ := h.uploading j other hj
      refine ⟨hdrawn ▸ hold, fun attachment hmem hclient => ?_⟩
      rw [hpending] at hmem
      rcases mem_replace hmem with rfl | ⟨hmem, -⟩
      · exact absurd (h.distinct j i other loop hj hget (hclient.symm.trans hnext)) hji
      · exact huploading attachment hmem hclient
  distinct := by
    intro j k first second hj hk hclient
    split at hj
    · cases hj
    · split at hk
      · cases hk
      · exact h.distinct j k first second hj hk hclient
  completed := hcompleted
  ledger := hledger

theorem inv_answer (h : Inv s loops) {i : Nat} {loop : Loop} {result : Option FileRecord} (hget : loops i = some loop)
    (hfresh : ∀ file ∈ result, file.fileId ∉ s.completed) :
    Inv (s.answer loop.clientId result) (fun j => if j = i then none else loops j) := by
  obtain ⟨-, huploading⟩ := h.uploading i loop hget
  have hcount : ∀ (next : PendingAttachment) (f : String), loop.clientId ∈ clientIds s.store.pendingAttachments →
      ((replacePendingAttachment loop.clientId next s.store.pendingAttachments).filterMap uploadedId).count f =
        s.store.getUploadedPendingFileIds.count f + (uploadedId next).toList.count f :=
    fun next f hmem => count_replace f h.nodup hmem huploading
  cases result with
  | none =>
    unfold System.answer failPendingAttachment
    cases hfind : s.store.pendingAttachments.find? fun attachment => attachment.clientId = loop.clientId with
    | none =>
      have habsent : loop.clientId ∉ clientIds s.store.pendingAttachments := by
        intro hmem
        obtain ⟨attachment, hattachment, hclient⟩ := List.mem_map.mp hmem
        exact absurd (decide_eq_true hclient) (List.find?_eq_none.mp hfind attachment hattachment)
      exact inv_replace h hget ⟨loop.clientId, none, .failed⟩ rfl (replace_of_notMem _ habsent).symm rfl
        h.completed h.ledger
    | some current =>
      have hclient : current.clientId = loop.clientId := by simpa using List.find?_some hfind
      have hmem : loop.clientId ∈ clientIds s.store.pendingAttachments :=
        hclient ▸ List.mem_map_of_mem (List.mem_of_find?_eq_some hfind)
      refine inv_replace h hget { current with status := .failed } hclient rfl rfl h.completed fun f => ?_
      have hsame := hcount { current with status := .failed } f hmem
      simp only [System.places, setPendingAttachments, List.count_append, h.ledger f, getUploadedPendingFileIds_eq]
        at hsame ⊢
      simp [uploadedId] at hsame ⊢
      omega
  | some file =>
    have hnew : file.fileId ∉ s.completed := hfresh file rfl
    let next : PendingAttachment := ⟨loop.clientId, some file.fileId, file.status⟩
    have hpending : (s.store.completePendingAttachment loop.clientId file).getUploadedPendingFileIds =
        (replacePendingAttachment loop.clientId next s.store.pendingAttachments).filterMap uploadedId := rfl
    unfold System.answer
    by_cases huploaded : file.status = .uploaded
    · have hnodup : (s.completed ++ [file.fileId]).Nodup :=
        List.nodup_append.mpr ⟨h.completed, List.nodup_singleton _, fun a ha b hb heq => by
          rw [heq, List.mem_singleton.mp hb] at ha
          exact hnew ha⟩
      have hid : uploadedId next = some file.fileId := by simp [next, uploadedId, huploaded]
      simp only [huploaded, if_true, true_and]
      refine inv_replace h hget next rfl rfl rfl hnodup fun f => ?_
      have hledger := h.ledger f
      by_cases hmem : loop.clientId ∈ clientIds s.store.pendingAttachments
      · have hsame := hcount next f hmem
        rw [hid] at hsame
        have hlate : ¬ loop.clientId ∉ s.store.pendingAttachments.map PendingAttachment.clientId := not_not_intro hmem
        simp only [System.places, hpending, hlate, if_false, List.count_append, hsame, Option.toList_some] at hledger ⊢
        omega
      · have hlate : loop.clientId ∉ s.store.pendingAttachments.map PendingAttachment.clientId := hmem
        simp only [System.places, hpending, hlate, not_false_eq_true, if_true, List.count_append,
          replace_of_notMem next hmem, getUploadedPendingFileIds_eq] at hledger ⊢
        omega
    · have hid : uploadedId next = none := by simp [next, uploadedId, huploaded]
      simp only [huploaded, if_false, false_and]
      refine inv_replace h hget next rfl rfl rfl h.completed fun f => ?_
      have hledger := h.ledger f
      have hsame : ((replacePendingAttachment loop.clientId next s.store.pendingAttachments).filterMap
          uploadedId).count f = s.store.getUploadedPendingFileIds.count f := by
        by_cases hmem : loop.clientId ∈ clientIds s.store.pendingAttachments
        · rw [hcount next f hmem, hid]
          rfl
        · rw [replace_of_notMem next hmem]
          rfl
      simp only [System.places, hpending, List.count_append, hsame] at hledger ⊢
      omega

theorem inv_next {i : Nat} (h : Inv s (fun j => if j = i then none else s.loops.get j)) {loop : Loop}
    {nextId : String} (hfresh : nextId ∉ s.drawn) : Inv (s.next i loop nextId) (s.next i loop nextId).loops.get := by
  unfold System.next
  split
  · have hsame : Inv { s with loops := s.loops.delete i } (fun j => if j = i then none else s.loops.get j) :=
      ⟨h.nodup, h.drawn, h.uploading, h.distinct, h.completed, h.ledger⟩
    exact hsame.congr fun j => OrderedMap.get_delete _ _ _
  · exact inv_begin h hfresh fun j hji => if_neg hji

@[simp] theorem answer_loops (s : System) (clientId : String) (result : Option FileRecord) :
    (s.answer clientId result).loops = s.loops := by cases result <;> rfl

@[simp] theorem answer_drawn (s : System) (clientId : String) (result : Option FileRecord) :
    (s.answer clientId result).drawn = s.drawn := by cases result <;> rfl

@[simp] theorem submit_loops (s : System) (text : String) (store : TaskState) :
    (s.submit text store).loops = s.loops := by
  unfold System.submit
  split <;> rfl

theorem startConversation_pending (store : TaskState) (text : String) (h : trim text ≠ "") :
    (store.startConversation (trim text)).pendingAttachments = [] := by
  unfold startConversation
  dsimp only
  rw [trim_trim, if_neg h]

theorem appendFollowUp_pending (store : TaskState) (text : String) (h : trim text ≠ "") :
    (store.appendFollowUp (trim text)).pendingAttachments = [] := by
  unfold appendFollowUp
  dsimp only
  rw [trim_trim, if_neg h]

theorem inv_step (h : Inv s s.loops.get) {l : Label} (hfresh : Fresh s l) (hstep : step s l = some s') :
    Inv s' s'.loops.get := by
  cases l with
  | attach i remaining clientId =>
    simp only [step] at hstep
    split at hstep <;> cases hstep
    exact inv_begin h hfresh fun _ _ => rfl
  | settled i result nextId =>
    obtain ⟨loop, hget, hstep⟩ := Option.bind_eq_some_iff.mp hstep
    cases hstep
    have hanswer := inv_answer h hget hfresh.2
    rw [← answer_loops s loop.clientId result] at hanswer
    exact inv_next hanswer (by rw [answer_drawn]; exact hfresh.1)
  | remove clientId =>
    have hinv := inv_remove h clientId hstep
    cases hstep
    exact hinv
  | beginConversation prompt =>
    have hinv := inv_submit h (startConversation_pending s.store prompt)
    rw [← Option.some.inj hstep, submit_loops]
    exact hinv
  | sendMessage draft =>
    have hinv := inv_submit h (appendFollowUp_pending s.store draft)
    rw [← Option.some.inj hstep, submit_loops]
    exact hinv
  | other operation =>
    have hinv := inv_other h operation hstep
    cases hstep
    exact hinv

/-! ## Answers that come in time -/

/-- Nothing that is still being uploaded is removed, sent without or cleared. -/
def Patient (s : System) : Label → Prop
  | .remove clientId => ∀ loop ∈ s.loops.values, loop.clientId ≠ clientId
  | .beginConversation text | .sendMessage text => trim text = "" ∨ s.loops.values = []
  | .other operation =>
    (operation.apply s.store).pendingAttachments = s.store.pendingAttachments ∨ s.loops.values = []
  | _ => True

instance (s : System) (l : Label) : Decidable (Patient s l) := by
  unfold Patient
  split <;> infer_instance

/-- The attachment of every upload is there. -/
def Present (s : System) : Prop :=
  s.late = [] ∧ ∀ i loop, s.loops.get i = some loop → loop.clientId ∈ clientIds s.store.pendingAttachments

theorem Present.keep (h : Present s) (hlate : s'.late = s.late) (hloops : s'.loops = s.loops)
    (hpending : ∀ i loop, s.loops.get i = some loop → loop.clientId ∈ clientIds s.store.pendingAttachments →
      loop.clientId ∈ clientIds s'.store.pendingAttachments) : Present s' := by
  refine ⟨hlate.trans h.1, fun i loop hget => ?_⟩
  rw [hloops] at hget
  exact hpending i loop hget (h.2 i loop hget)

theorem no_loop (h : s.loops.values = []) {i : Nat} {loop : Loop} (hget : s.loops.get i = some loop) : False := by
  have hmem : loop ∈ s.loops.values := (s.loops.mem_values_iff loop).mpr ⟨i, hget⟩
  rw [h] at hmem
  cases hmem

theorem present_begin (h : Present s) (i remaining : Nat) (clientId : String) :
    Present (s.begin i remaining clientId) := by
  refine ⟨h.1, fun j loop hj => ?_⟩
  have hpending : clientIds (s.begin i remaining clientId).store.pendingAttachments =
      clientIds s.store.pendingAttachments ++ [clientId] := List.map_append
  rw [hpending, List.mem_append, List.mem_singleton]
  rw [System.begin, OrderedMap.get_set] at hj
  split at hj
  · cases hj
    exact .inr rfl
  · exact .inl (h.2 j loop hj)

theorem clientIds_fail (store : TaskState) (clientId : String) :
    clientIds (store.failPendingAttachment clientId).pendingAttachments = clientIds store.pendingAttachments := by
  unfold failPendingAttachment
  split
  · rfl
  · rename_i current hfind
    have hclient : current.clientId = clientId := by simpa using List.find?_some hfind
    exact clientIds_replace clientId { current with status := .failed } hclient store.pendingAttachments

theorem present_answer (h : Present s) {i : Nat} {loop : Loop} (hget : s.loops.get i = some loop)
    (result : Option FileRecord) : Present (s.answer loop.clientId result) := by
  cases result with
  | none =>
    refine h.keep rfl rfl fun j other _ hmem => ?_
    rw [System.answer, clientIds_fail]
    exact hmem
  | some file =>
    refine h.keep ?_ rfl fun j other _ hmem => ?_
    · have hthere : loop.clientId ∈ s.store.pendingAttachments.map PendingAttachment.clientId := h.2 i loop hget
      exact if_neg fun hgone => hgone.2 hthere
    · have hids : clientIds (s.store.completePendingAttachment loop.clientId file).pendingAttachments =
          clientIds s.store.pendingAttachments :=
        clientIds_replace loop.clientId ⟨loop.clientId, some file.fileId, file.status⟩ rfl s.store.pendingAttachments
      rw [System.answer, hids]
      exact hmem

theorem present_next (h : Present s) (i : Nat) (loop : Loop) (nextId : String) : Present (s.next i loop nextId) := by
  unfold System.next
  split
  · refine ⟨h.1, fun j other hj => ?_⟩
    rw [OrderedMap.get_delete] at hj
    split at hj
    · cases hj
    · exact h.2 j other hj
  · exact present_begin h i _ nextId

theorem present_submit (h : Present s) {text : String} {store : TaskState}
    (hpatient : trim text = "" ∨ s.loops.values = []) : Present (s.submit text store) := by
  unfold System.submit
  split
  · exact h
  · rename_i htext
    exact h.keep rfl rfl fun i loop hget => (no_loop (hpatient.resolve_left htext) hget).elim

theorem present_step (h : Present s) {l : Label} (hpatient : Patient s l) (hstep : step s l = some s') :
    Present s' := by
  cases l with
  | attach i remaining clientId =>
    simp only [step] at hstep
    split at hstep <;> cases hstep
    exact present_begin h i remaining clientId
  | settled i result nextId =>
    obtain ⟨loop, hget, hstep⟩ := Option.bind_eq_some_iff.mp hstep
    cases hstep
    exact present_next (present_answer h hget result) i loop nextId
  | remove clientId =>
    cases hstep
    refine h.keep rfl rfl fun i loop hget hmem => ?_
    obtain ⟨attachment, hattachment, hclient⟩ := List.mem_map.mp hmem
    have hother : loop.clientId ≠ clientId :=
      hpatient loop ((s.loops.mem_values_iff loop).mpr ⟨i, hget⟩)
    refine List.mem_map.mpr ⟨attachment, List.mem_filter.mpr ⟨hattachment, ?_⟩, hclient⟩
    simpa [hclient] using hother
  | beginConversation prompt =>
    rw [← Option.some.inj hstep]
    exact present_submit h hpatient
  | sendMessage draft =>
    rw [← Option.some.inj hstep]
    exact present_submit h hpatient
  | other operation =>
    cases hstep
    refine h.keep rfl rfl fun i loop hget hmem => ?_
    rcases hpatient with hsame | hnone
    · exact hsame ▸ hmem
    · exact (no_loop hnone hget).elim

/-! ## The whole run -/

/-- Every file whose upload was confirmed is in one place: it was sent with one message, once, it is still
pending, its attachment was removed or cleared, or its answer came when the attachment was gone; that does
not happen when nothing that is still being uploaded is removed, sent without or cleared. -/
theorem uploads_accounted {ls : List Label} (hrun : run step .init ls = some s) (hfresh : Along step Fresh .init ls) :
    s.completed.Perm
        (s.submissions.flatten ++ s.store.getUploadedPendingFileIds ++ s.removed ++ s.cleared ++ s.late) ∧
      (s.submissions.flatten ++ s.store.getUploadedPendingFileIds ++ s.removed ++ s.cleared ++ s.late).Nodup ∧
      (Along step Patient .init ls → s.late = []) := by
  have hstep : ∀ s l s', Inv s s.loops.get → Fresh s l → step s l = some s' → Inv s' s'.loops.get :=
    fun s l s' h hok hstep => inv_step h hok hstep
  have h := invariant_along hstep inv_init hfresh hrun
  have hperm : s.completed.Perm s.places := List.perm_iff_count.mpr h.ledger
  refine ⟨hperm, hperm.nodup_iff.mp h.completed, fun hpatient => ?_⟩
  have hinit : Present .init := ⟨rfl, fun i loop hget => by cases hget⟩
  exact (invariant_along (fun s l s' h hok hstep => present_step h hok hstep) hinit hpatient hrun).1

/-- Two files are picked; the first is uploaded and sent while the second is on its way. -/
def sentEarly : List Label :=
  [.attach 0 1 "c0", .settled 0 (some ⟨"f0", .uploaded⟩) "c1", .beginConversation "look",
    .settled 0 (some ⟨"f1", .uploaded⟩) "c2"]

theorem uploads_accounted_sentEarly : ∃ s, run step .init sentEarly = some s ∧ s.submissions = [["f0"]] ∧
    s.late = ["f1"] ∧ s.completed.Perm ["f0", "f1"] := by
  have hrun : (run step .init sentEarly).any (fun s => s.submissions = [["f0"]] ∧ s.late = ["f1"] ∧
      s.store.getUploadedPendingFileIds = [] ∧ s.removed = [] ∧ s.cleared = []) = true := by decide +kernel
  obtain ⟨s, hrun, hs⟩ := (Option.any_eq_true _ _).mp hrun
  obtain ⟨hsent, hlate, hpending, hremoved, hcleared⟩ := of_decide_eq_true hs
  obtain ⟨hperm, -⟩ := uploads_accounted hrun (by decide +kernel)
  rw [hsent, hlate, hpending, hremoved, hcleared] at hperm
  exact ⟨s, hrun, hsent, hlate, hperm⟩

end Attachments
