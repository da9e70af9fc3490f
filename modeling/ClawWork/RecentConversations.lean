import ClawWork.ConversationStore
import ClawWork.ListFrame
import ClawWork.Transition

/-!
# The list of recent conversations

A message that is sent gets an entry at the front of the list, and what comes in for a task is
written to the entry that is in front at that time. Lists of the server replace or extend the list
in between. The machine follows for which submission each entry was created, so that the entries
an operation is about can be told from the others.
-/

namespace RecentConversations

open JavaScript SharedTypes TaskStore ConversationStore ListFrame Transition

structure RecentConversation where
  id : String
  sessionId : Option String
  title : String
  subtitle : String
  status : String
  prompt : String
  deriving DecidableEq

/-- `slice(0, n)`; a character that the cut goes through is left out. -/
def takeUnits (n : Nat) : List Char → List Char
  | [] => []
  | c :: cs =>
    let units := if c.toNat < 0x10000 then 1 else 2
    if units ≤ n then c :: takeUnits (n - units) cs else []

def buildTitle (text : String) : String :=
  let trimmed := trim text
  if trimmed = "" then "新对话"
  else if 10 < utf16Length trimmed then .ofList (takeUnits 10 trimmed.toList) ++ "…"
  else trimmed

def statusText : TaskStatus → String
  | .queued => "queued"
  | .running => "running"
  | .completed => "completed"
  | .failed => "failed"
  | .cancelled => "cancelled"

/-- The entry of a prompt keeps the id of the one that had the prompt before. -/
def nextItem (prompt status recentId : String) (recent : List RecentConversation) : RecentConversation where
  id := ((recent.find? fun item => item.prompt = prompt).map RecentConversation.id).getD recentId
  sessionId := none
  title := buildTitle prompt
  subtitle := "刚刚"
  status := status
  prompt := prompt

def upsertRecent (prompt status recentId : String) (recent : List RecentConversation) :
    List RecentConversation :=
  nextItem prompt status recentId recent :: recent.eraseP fun item => item.prompt = prompt

def RecentConversation.withMeta (input : TaskMutationResult) (item : RecentConversation) : RecentConversation :=
  { item with id := input.taskId, sessionId := some input.sessionId, status := statusText input.initialStatus }

def RecentConversation.withStatus (status : String) (item : RecentConversation) : RecentConversation :=
  { item with status := status }

/-- The status that an event gives to the first entry, if it gives one. -/
def eventStatus : TaskEventDetail → Option String
  | .accepted => some "处理中"
  | .completed => some "已完成"
  | .cancelled _ => some "已取消"
  | .failed _ _ => some "失败"
  | _ => none

/-! ## The store -/

structure StoreState where
  conversation : TaskState
  currentTitle : String
  recentConversations : List RecentConversation

namespace StoreState

def init : StoreState := ⟨initialState, "新对话", []⟩

def startConversation (s : StoreState) (text recentId : String) : StoreState :=
  let prompt := trim text
  if prompt = "" then s
  else {
    conversation := s.conversation.startConversation text
    currentTitle := buildTitle prompt
    recentConversations := upsertRecent prompt "处理中" recentId s.recentConversations }

def appendFollowUp (s : StoreState) (text recentId : String) : StoreState :=
  let prompt := trim text
  if prompt = "" then s
  else { s with
    conversation := s.conversation.appendFollowUp text
    recentConversations := upsertRecent prompt "处理中" recentId s.recentConversations }

def setExecutionMeta (s : StoreState) (input : TaskMutationResult) : StoreState :=
  { s with
    conversation := s.conversation.setExecutionMeta input
    recentConversations := s.recentConversations.modifyHead (.withMeta input) }

def applyStreamEvent (s : StoreState) (event : TaskStreamEvent) : StoreState :=
  { s with
    conversation := s.conversation.applyStreamEvent event
    recentConversations :=
      match eventStatus event.detail with
      | some status => s.recentConversations.modifyHead (.withStatus status)
      | none => s.recentConversations }

def setTaskError (s : StoreState) (message : String) : StoreState :=
  { s with
    conversation := s.conversation.setTaskError message
    recentConversations := s.recentConversations.modifyHead (.withStatus "失败") }

def markCancelled (s : StoreState) : StoreState :=
  { s with
    conversation := { s.conversation with currentStatus := some .cancelled, currentError := none }
    recentConversations := s.recentConversations.modifyHead (.withStatus "已取消") }

def hydrateRecentConversations (s : StoreState) (items : List RecentConversation) : StoreState :=
  { s with recentConversations := items }

def appendRecentConversations (s : StoreState) (items : List RecentConversation) : StoreState :=
  let existing := s.recentConversations.map RecentConversation.id
  { s with recentConversations := s.recentConversations ++ items.filter fun item => item.id ∉ existing }

def removeRecentConversation (s : StoreState) (taskId : String) : StoreState :=
  { s with recentConversations := s.recentConversations.filter fun item => item.id ≠ taskId }

end StoreState

/-! ## What an operation is about -/

/-- A message that was sent, by its `submitCount`, or a task. -/
inductive Subject where
  | submission (p : Nat)
  | task (t : String)

/-- A call of the store, with what its caller calls it for. -/
inductive Operation where
  | startConversation (text recentId : String)
  | appendFollowUp (text recentId : String)
  /-- The answer to a submission, or to `regenerateTask` of a task. -/
  | setExecutionMeta (about : Subject) (input : TaskMutationResult)
  | applyStreamEvent (event : TaskStreamEvent)
  | setTaskError (about : Subject) (message : String)
  | markCancelled (taskId : String)
  | hydrateRecentConversations (items : List RecentConversation)
  | appendRecentConversations (items : List RecentConversation)
  | removeRecentConversation (taskId : String)

def StoreState.apply (s : StoreState) : Operation → StoreState
  | .startConversation text recentId => s.startConversation text recentId
  | .appendFollowUp text recentId => s.appendFollowUp text recentId
  | .setExecutionMeta _ input => s.setExecutionMeta input
  | .applyStreamEvent event => s.applyStreamEvent event
  | .setTaskError _ message => s.setTaskError message
  | .markCancelled _ => s.markCancelled
  | .hydrateRecentConversations items => s.hydrateRecentConversations items
  | .appendRecentConversations items => s.appendRecentConversations items
  | .removeRecentConversation taskId => s.removeRecentConversation taskId

/-- An entry of the list, with the submission that it was created for. -/
structure Entry where
  item : RecentConversation
  submission : Option Nat
  deriving DecidableEq

def Entry.update (f : RecentConversation → RecentConversation) (e : Entry) : Entry := { e with item := f e.item }

/-- The store, its list with the submissions, and the tasks that submissions were answered with. -/
structure System where
  store : StoreState
  entries : List Entry
  answered : List (Nat × String)

namespace System

def init : System := ⟨.init, [], []⟩

/-- The entries are those of the list. -/
def Tracked (s : System) : Prop := s.entries.map Entry.item = s.store.recentConversations

def nextSubmission (s : System) : Nat := s.store.conversation.submitCount + 1

/-- The entry of a message that is sent. -/
def submit (s : System) (text recentId : String) : List Entry :=
  let prompt := trim text
  if prompt = "" then s.entries
  else ⟨nextItem prompt "处理中" recentId s.store.recentConversations, some s.nextSubmission⟩ ::
    s.entries.eraseP fun e => e.item.prompt = prompt

def nextEntries (s : System) : Operation → List Entry
  | .startConversation text recentId | .appendFollowUp text recentId => s.submit text recentId
  | .setExecutionMeta _ input => s.entries.modifyHead (.update (.withMeta input))
  | .applyStreamEvent event =>
    match eventStatus event.detail with
    | some status => s.entries.modifyHead (.update (.withStatus status))
    | none => s.entries
  | .setTaskError _ _ => s.entries.modifyHead (.update (.withStatus "失败"))
  | .markCancelled _ => s.entries.modifyHead (.update (.withStatus "已取消"))
  | .hydrateRecentConversations items => items.map fun item => ⟨item, none⟩
  | .appendRecentConversations items =>
    let existing := s.store.recentConversations.map RecentConversation.id
    s.entries ++ (items.filter fun item => item.id ∉ existing).map fun item => ⟨item, none⟩
  | .removeRecentConversation taskId => s.entries.filter fun e => e.item.id ≠ taskId

def nextAnswered (s : System) : Operation → List (Nat × String)
  | .setExecutionMeta (.submission p) input => (p, input.taskId) :: s.answered
  | _ => s.answered

def next (s : System) (op : Operation) : System := ⟨s.store.apply op, s.nextEntries op, s.nextAnswered op⟩

def step (s : System) (op : Operation) : Option System := some (s.next op)

/-- The entry was created for the submission, or carries the id of the task. Through its answer a
submission stands for its task as well. -/
def Belongs (s : System) : Subject → Entry → Prop
  | .submission p, e => e.submission = some p ∨ (p, e.item.id) ∈ s.answered
  | .task t, e => e.item.id = t ∨ ∃ p ∈ e.submission, (p, t) ∈ s.answered

/-- The submissions and tasks of an operation; a list of the server in place of the old one is about all. -/
def subjects (s : System) : Operation → Option (List Subject)
  | .startConversation _ _ | .appendFollowUp _ _ => some [.submission s.nextSubmission]
  | .setExecutionMeta about input => some [about, .task input.taskId]
  | .applyStreamEvent event => some [.task event.taskId]
  | .setTaskError about _ => some [about]
  | .markCancelled taskId | .removeRecentConversation taskId => some [.task taskId]
  | .appendRecentConversations _ => some []
  | .hydrateRecentConversations _ => none

/-- The operation concerns the entry. -/
def Concerns (s : System) (op : Operation) (e : Entry) : Prop :=
  ∀ about ∈ s.subjects op, ∃ subject ∈ about, s.Belongs subject e

instance (s : System) : (subject : Subject) → (e : Entry) → Decidable (s.Belongs subject e)
  | .submission p, e => inferInstanceAs (Decidable (e.submission = some p ∨ (p, e.item.id) ∈ s.answered))
  | .task t, e => inferInstanceAs (Decidable (e.item.id = t ∨ ∃ p ∈ e.submission, (p, t) ∈ s.answered))

instance (s : System) (op : Operation) : DecidablePred (s.Concerns op) := fun e =>
  inferInstanceAs (Decidable (∀ about ∈ s.subjects op, ∃ subject ∈ about, s.Belongs subject e))

/-- The operation leaves the entries that it does not concern as they are. -/
def Attributed (s : System) (op : Operation) : Prop := Frames (s.Concerns op) s.entries (s.nextEntries op)

instance (s : System) (op : Operation) : Decidable (s.Attributed op) :=
  inferInstanceAs (Decidable (List.Sublist (s.entries.filter fun e => ¬ s.Concerns op e) (s.nextEntries op)))

/-- The entry that the operation writes to is one that it concerns, or has what is written already. -/
def Aimed (s : System) (op : Operation) : Prop :=
  match op with
  | .startConversation text _ | .appendFollowUp text _ =>
    trim text ≠ "" → ∀ e ∈ s.entries.find? fun e => e.item.prompt = trim text, s.Concerns op e
  | .setExecutionMeta _ _ => ∀ e ∈ s.entries.head?, s.Concerns op e
  | .applyStreamEvent event =>
    ∀ status ∈ eventStatus event.detail, ∀ e ∈ s.entries.head?, s.Concerns op e ∨ e.item.status = status
  | .setTaskError _ _ => ∀ e ∈ s.entries.head?, s.Concerns op e ∨ e.item.status = "失败"
  | .markCancelled _ => ∀ e ∈ s.entries.head?, s.Concerns op e ∨ e.item.status = "已取消"
  | _ => True

end System

variable {s : System} {op : Operation}

/-! ## The entries are those of the store -/

theorem map_eraseP_item (entries : List Entry) (p : RecentConversation → Bool) :
    (entries.eraseP fun e => p e.item).map Entry.item = (entries.map Entry.item).eraseP p :=
  (List.eraseP_map ..).symm

theorem map_modifyHead_update (entries : List Entry) (f : RecentConversation → RecentConversation) :
    (entries.modifyHead (.update f)).map Entry.item = (entries.map Entry.item).modifyHead f := by
  cases entries <;> rfl

theorem map_submit (h : s.Tracked) (text recentId : String) :
    (s.submit text recentId).map Entry.item =
      if trim text = "" then s.store.recentConversations
      else upsertRecent (trim text) "处理中" recentId s.store.recentConversations := by
  unfold System.submit
  dsimp only
  split
  · exact h
  · rw [List.map_cons, map_eraseP_item s.entries fun item => decide (item.prompt = trim text), h]
    rfl

theorem tracked_next (h : s.Tracked) (op : Operation) : (s.next op).Tracked := by
  change (s.nextEntries op).map Entry.item = (s.store.apply op).recentConversations
  unfold System.Tracked at h
  have hadded : ∀ items : List RecentConversation,
      (items.map fun item => (⟨item, none⟩ : Entry)).map Entry.item = items := by
    intro items
    rw [List.map_map]
    exact List.map_id items
  cases op with
  | startConversation text recentId =>
    refine (map_submit h text recentId).trans ?_
    simp only [StoreState.apply, StoreState.startConversation]
    split <;> rfl
  | appendFollowUp text recentId =>
    refine (map_submit h text recentId).trans ?_
    simp only [StoreState.apply, StoreState.appendFollowUp]
    split <;> rfl
  | setExecutionMeta about input => exact (map_modifyHead_update ..).trans (by rw [h]; rfl)
  | applyStreamEvent event =>
    simp only [System.nextEntries, StoreState.apply, StoreState.applyStreamEvent]
    split
    · rw [map_modifyHead_update, h]
    · exact h
  | setTaskError about message => exact (map_modifyHead_update ..).trans (by rw [h]; rfl)
  | markCancelled taskId => exact (map_modifyHead_update ..).trans (by rw [h]; rfl)
  | hydrateRecentConversations items => exact hadded items
  | appendRecentConversations items =>
    simp only [System.nextEntries, StoreState.apply, StoreState.appendRecentConversations, List.map_append, h,
      hadded]
  | removeRecentConversation taskId =>
    simp only [System.nextEntries, StoreState.apply, StoreState.removeRecentConversation, ← h, List.filter_map]
    rfl

/-! ## The entry that is written to -/

/-- An entry that an operation about the task writes its id to, is one of the operation. -/
theorem concerns_of_withMeta {about : Subject} {input : TaskMutationResult} {e : Entry}
    (h : e.update (.withMeta input) = e) : s.Concerns (.setExecutionMeta about input) e := by
  intro subjects hsubjects
  cases hsubjects
  have hid : input.taskId = e.item.id := congrArg (fun e => e.item.id) h
  exact ⟨.task input.taskId, by simp, .inl hid.symm⟩

theorem update_withStatus_eq_iff {e : Entry} {status : String} :
    e.update (.withStatus status) = e ↔ e.item.status = status := by
  constructor
  · intro h
    exact (congrArg (fun e => e.item.status) h).symm
  · rintro rfl
    rfl

/-- A status that is written to the first entry. -/
theorem frames_withStatus_iff {status : String} :
    Frames (s.Concerns op) s.entries (s.entries.modifyHead (.update (.withStatus status))) ↔
      ∀ e ∈ s.entries.head?, s.Concerns op e ∨ e.item.status = status := by
  simp only [frames_modifyHead_iff, update_withStatus_eq_iff]

theorem frames_submit_iff {text recentId : String}
    (hop : s.subjects op = some [.submission s.nextSubmission]) :
    Frames (s.Concerns op) s.entries (s.submit text recentId) ↔
      (trim text ≠ "" → ∀ e ∈ s.entries.find? fun e => e.item.prompt = trim text, s.Concerns op e) := by
  unfold System.submit
  dsimp only
  split
  · rename_i hempty
    exact iff_of_true (frames_refl _) fun h => absurd hempty h
  · rename_i hprompt
    rw [frames_replace_iff]
    · exact ⟨fun h _ => h, fun h => h hprompt⟩
    · intro subjects hsubjects
      rw [hop] at hsubjects
      cases hsubjects
      exact ⟨_, List.mem_singleton_self _, .inl rfl⟩

theorem concerns_of_id {t : String} {e : Entry} (h : e.item.id = t) :
    s.Concerns (.removeRecentConversation t) e := by
  intro subjects hsubjects
  cases hsubjects
  exact ⟨.task t, by simp, .inl h⟩

/-- An operation leaves all entries of others alone exactly where its first entry is one of its own. -/
theorem attributed_iff_aimed (s : System) (op : Operation) : s.Attributed op ↔ s.Aimed op := by
  unfold System.Attributed System.Aimed System.nextEntries
  cases op with
  | startConversation text recentId => exact frames_submit_iff rfl
  | appendFollowUp text recentId => exact frames_submit_iff rfl
  | setExecutionMeta about input =>
    dsimp only
    rw [frames_modifyHead_iff]
    constructor
    · intro h e he
      exact (h e he).elim id concerns_of_withMeta
    · intro h e he
      exact .inl (h e he)
  | applyStreamEvent event =>
    dsimp only
    cases eventStatus event.detail with
    | none => exact iff_of_true (frames_refl _) fun status hstatus => by cases hstatus
    | some status => simpa using frames_withStatus_iff
  | setTaskError about message => exact frames_withStatus_iff
  | markCancelled taskId => exact frames_withStatus_iff
  | hydrateRecentConversations items =>
    exact iff_of_true (frames_of_forall (fun e _ about habout => by cases habout) _) trivial
  | appendRecentConversations items => exact iff_of_true (frames_append _ _) trivial
  | removeRecentConversation taskId =>
    refine iff_of_true (frames_filter fun e _ hkeep => concerns_of_id ?_) trivial
    simpa using hkeep

/-! ## The newest submission -/

/-- The first entry was created for the submission. -/
def System.Newest (p : Nat) (s : System) : Prop := ∃ e ∈ s.entries.head?, e.submission = some p

/-- The operation is about the submission, or about its task once it was answered. -/
def System.About (s : System) (p : Nat) : Subject → Prop
  | .submission q => q = p
  | .task t => (p, t) ∈ s.answered

/-- No other message is sent, the first entry is not removed, and the list is not replaced. -/
def System.Undisturbed (p : Nat) (s : System) : Operation → Prop
  | .setExecutionMeta about _ => about = .submission p
  | .applyStreamEvent event => s.About p (.task event.taskId)
  | .setTaskError about _ => s.About p about
  | .markCancelled taskId => s.About p (.task taskId)
  | .appendRecentConversations _ => True
  | .removeRecentConversation taskId => ∀ e ∈ s.entries.head?, e.item.id ≠ taskId
  | .startConversation _ _ | .appendFollowUp _ _ | .hydrateRecentConversations _ => False

variable {p : Nat}

theorem newest_modifyHead {f : RecentConversation → RecentConversation} {store : StoreState}
    {answered : List (Nat × String)} (h : s.Newest p) :
    (⟨store, s.entries.modifyHead (.update f), answered⟩ : System).Newest p := by
  obtain ⟨e, he, hsubmission⟩ := h
  obtain ⟨rest, hentries⟩ := List.head?_eq_some_iff.mp he
  exact ⟨e.update f, by simp [hentries], hsubmission⟩

theorem newest_next (h : s.Newest p) (hop : s.Undisturbed p op) : (s.next op).Newest p := by
  have hkept : (⟨s.store.apply op, s.entries, s.nextAnswered op⟩ : System).Newest p := h
  obtain ⟨e, he, hsubmission⟩ := h
  obtain ⟨rest, hentries⟩ := List.head?_eq_some_iff.mp he
  unfold System.next System.nextEntries
  cases op with
  | startConversation text recentId => cases hop
  | appendFollowUp text recentId => cases hop
  | setExecutionMeta about input => exact newest_modifyHead hkept
  | applyStreamEvent event =>
    dsimp only
    cases eventStatus event.detail with
    | none => exact hkept
    | some status => exact newest_modifyHead hkept
  | setTaskError about message => exact newest_modifyHead hkept
  | markCancelled taskId => exact newest_modifyHead hkept
  | hydrateRecentConversations items => cases hop
  | appendRecentConversations items => exact ⟨e, by simp [hentries], hsubmission⟩
  | removeRecentConversation taskId => exact ⟨e, by simp [hentries, hop e he], hsubmission⟩

theorem belongs_of_about {about : Subject} {e : Entry} (h : s.About p about) (he : e.submission = some p) :
    s.Belongs about e := by
  cases about with
  | submission q =>
    cases h
    exact .inl he
  | task t => exact .inr ⟨p, he, h⟩

theorem aimed_of_newest (h : s.Newest p) (hop : s.Undisturbed p op) : s.Aimed op := by
  obtain ⟨first, hfirst, hsubmission⟩ := h
  have howned : ∀ about rest, s.subjects op = some (about :: rest) → s.About p about →
      ∀ e ∈ s.entries.head?, s.Concerns op e := by
    intro about rest hsubjects habout e he subjects hmem
    cases Option.mem_unique hfirst he
    cases hsubjects.symm.trans hmem
    exact ⟨about, List.mem_cons_self, belongs_of_about habout hsubmission⟩
  unfold System.Aimed
  cases op with
  | startConversation text recentId => cases hop
  | appendFollowUp text recentId => cases hop
  | setExecutionMeta about input => exact howned about _ rfl (by rw [show about = .submission p from hop]; rfl)
  | applyStreamEvent event => exact fun status _ e he => .inl (howned _ _ rfl hop e he)
  | setTaskError about message => exact fun e he => .inl (howned _ _ rfl hop e he)
  | markCancelled taskId => exact fun e he => .inl (howned _ _ rfl hop e he)
  | hydrateRecentConversations items => trivial
  | appendRecentConversations items => trivial
  | removeRecentConversation taskId => trivial

/-- After a message that was sent, the list is right as long as nothing gets between the message and
what comes in for it. -/
theorem attributed_of_undisturbed {ops : List Operation} (h : s.Newest p)
    (hops : Along System.step (System.Undisturbed p) s ops) : Along System.step System.Attributed s ops :=
  along_of_invariant (fun s op t hnewest hop hstep => by
    cases hstep
    exact newest_next hnewest hop)
    (fun s op hnewest hop => (attributed_iff_aimed s op).mpr (aimed_of_newest hnewest hop)) h hops

theorem newest_startConversation {text recentId : String} (h : trim text ≠ "") :
    (s.next (.startConversation text recentId)).Newest s.nextSubmission := by
  refine ⟨⟨nextItem (trim text) "处理中" recentId s.store.recentConversations, some s.nextSubmission⟩, ?_, rfl⟩
  simp [System.next, System.nextEntries, System.submit, h]

/-! ## Every sequence of calls -/

theorem store_run {ops : List Operation} {t : System} (h : run System.step s ops = some t) :
    t.store = ops.foldl StoreState.apply s.store := by
  induction ops generalizing s with
  | nil =>
    cases h
    rfl
  | cons op ops ih => exact ih h

/-- **Attribution.** The entries are those of the store, and over every sequence of calls each call leaves
the entries of others as they are exactly if each finds an entry of its own where it writes. -/
theorem attributed_iff (ops : List Operation) :
    (∀ s, run System.step .init ops = some s → s.store = ops.foldl StoreState.apply .init ∧
      s.Tracked) ∧
    (Along System.step System.Attributed .init ops ↔ Along System.step System.Aimed .init ops) := by
  refine ⟨fun s hrun => ⟨?_, ?_⟩, ?_, ?_⟩
  · exact store_run hrun
  · have htracked : System.init.Tracked := rfl
    refine invariant_run (fun s op t h hstep => ?_) htracked hrun
    cases hstep
    exact tracked_next h op
  · exact Along.mono fun s op => (attributed_iff_aimed s op).mp
  · exact Along.mono fun s op => (attributed_iff_aimed s op).mpr

/-- A conversation that the server lists. -/
def olderItem : RecentConversation := ⟨"older", some "s", "会议纪要", "2026-01-01", "已完成", "会议纪要"⟩

/-- The history is opened before the answer to a message comes in. -/
def lateResponse : List Operation :=
  [.startConversation "weekly report" "recent-1", .hydrateRecentConversations [olderItem],
    .setExecutionMeta (.submission 1) ⟨"t", "new", .queued, none⟩]

/-- The entry of an older conversation gets the id of the new task. -/
theorem misattributed_lateResponse : (¬ ∀ ops, Along System.step System.Attributed .init ops) ∧
    (lateResponse.foldl StoreState.apply .init).recentConversations =
      [{ olderItem with id := "t", sessionId := some "new", status := "queued" }] := by
  refine ⟨fun h => ?_, by decide +kernel⟩
  have hlast := (((h lateResponse).2 _ rfl).2 _ rfl).1
  exact absurd hlast (by decide +kernel)

end RecentConversations
