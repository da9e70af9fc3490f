import ClawWork.EnqueueTask
import ClawWork.FileCalls
import ClawWork.Transition

/-!
# Links of tasks against the deletion of files

The calls of `enqueueTask`, statement by statement, beside the completion of uploads
and the jobs that delete files. A job tests a file for links, has its object deleted
and then deletes the row, which takes the links with it; a task that is committed in
between has linked the file.
-/

namespace FileLinks

open TaskStore TasksService ServiceTables DailyQuota ReadCommitted EnqueueTask FileCalls Transition

structure System where
  service : EnqueueTask.System
  completions : OrderedMap Nat Completion
  deleters : OrderedMap Nat Deleter
  /-- The files whose objects the storage was asked to delete. -/
  deletedObjects : List File

def System.init : System := ⟨.init, .empty, .empty, []⟩

def System.db (s : System) : Tables := s.service.db

/-- The rows that an open transaction has written on its own. -/
def pending (s : System) (i : Nat) : Tables := applyWrites (s.service.server.writes i) .empty

/-- An open transaction has linked the file; the foreign key keeps its row until the end. -/
def keepsFile (s : System) (id : String) : Bool :=
  s.service.calls.entries.any fun entry => (pending s entry.1).linked id

/-- An open transaction has created a task of the session. -/
def keepsSession (s : System) (id : String) : Bool :=
  s.service.calls.entries.any fun entry =>
    (pending s entry.1).tasks.values.any fun task => task.sessionId = id

inductive Label where
  | enqueue (l : EnqueueTask.Label)
  /-- The transaction of `createUploadUrl`, and the update when no URL could be signed. -/
  | createUploadUrl (file : File)
  | failUpload (now : Nat) (id : String)
  | completeUpload (c : Nat) (userId : String) (input : CompleteUpload)
  | completion (c : Nat) (answer : CompletionAnswer)
  | job (d : Nat) (job : Job)
  | deleter (d : Nat) (answer : DeleterAnswer)
  /-- The statement of `deleteHistoryTask` that deletes a session. -/
  | deleteSession (id : String)

/-- The row that the next statement of a job deletes. -/
def deletesRow (deleter : Deleter) : DeleterAnswer → Option File
  | .done =>
    match deleter.phase with
    | .deletingFile file _ => some file
    | _ => none
  | _ => none

/-- A change of the tables that is committed at once. -/
def System.direct (s : System) (f : Tables → Tables) : System :=
  { s with service := { s.service with server := s.service.server.direct f } }

def step (settings : QuotaSettings) (retention : FileSettings) (s : System) : Label → Option System
  | .enqueue l => do
    let service ← EnqueueTask.step settings s.service l
    some { s with service }
  | .createUploadUrl file =>
    if (s.db.files.get file.id).isNone ∧ file.status = .uploading then
      some (s.direct fun db => { db with files := db.files.set file.id file })
    else none
  | .failUpload now id => some (s.direct fun db => db.updateFile id (rejected now))
  | .completeUpload c userId input =>
    if s.completions.get c = none then
      some { s with completions := s.completions.set c ⟨userId, input, .finding⟩ }
    else none
  | .completion c answer => do
    let call ← s.completions.get c
    let (db, call) ← call.next s.db answer
    some { s.direct fun _ => db with completions := s.completions.set c call }
  | .job d job =>
    if s.deleters.get d = none then some { s with deleters := s.deleters.set d ⟨job, .finding⟩ }
    else none
  | .deleter d answer => do
    let deleter ← s.deleters.get d
    if (deletesRow deleter answer).any fun file => keepsFile s file.id then none
    else
      let (db, deleter') ← deleter.next retention s.db answer
      some { s.direct fun _ => db with
        deleters := s.deleters.set d deleter'
        deletedObjects := deleter.deletesObject.toList ++ s.deletedObjects }
  | .deleteSession id =>
    if keepsSession s id then none else some (s.direct fun db => db.deleteSession id)

/-- The storage was not asked to delete the object of a linked file. -/
def Intact (s : System) : Prop := ∀ file ∈ s.deletedObjects, s.db.linked file.id = false

/-- A task that is left has the links that it had. -/
def KeepsLinks (db db' : Tables) : Prop :=
  ∀ t, (db'.tasks.get t).isSome = true → ∀ f ∈ db.filesOf t, f ∈ db'.filesOf t

/-- The step takes no link from a task. -/
def StepKeepsLinks (settings : QuotaSettings) (retention : FileSettings) (s : System) (l : Label) : Prop :=
  ∀ s' ∈ step settings retention s l, KeepsLinks s.db s'.db

/-- The links that a step of `enqueueTask` commits. -/
def committedLinks (s : System) : Label → List TaskFile
  | .enqueue (.advance i .statement) => (s.service.calls.get i).toList.flatMap fun call =>
    match call.phase with
    | .committing _ => (pending s i).taskFiles
    | _ => []
  | _ => []

/-- A deletion of the file has begun and not ended, or its object is gone. -/
def beingDeleted (s : System) (fileId : String) : Bool :=
  (s.deleters.values.any fun deleter => deleter.held.any fun file => file.id = fileId) ||
    s.deletedObjects.any fun file => file.id = fileId

/-- No task is committed with a link to a file that is being deleted. -/
def InTime (s : System) (l : Label) : Prop :=
  ∀ link ∈ committedLinks s l, beingDeleted s link.fileId = false

variable {settings : QuotaSettings} {retention : FileSettings} {s s' : System} {db db' : Tables}

theorem linked_eq_false_iff {f : String} : db.linked f = false ↔ ∀ link ∈ db.taskFiles, link.fileId ≠ f := by
  simp [Tables.linked]

theorem linked_of_subset {f : String} (h : ∀ link ∈ db'.taskFiles, link ∈ db.taskFiles)
    (hfree : db.linked f = false) : db'.linked f = false := by
  rw [linked_eq_false_iff] at hfree ⊢
  exact fun link hlink => hfree link (h link hlink)

/-- Writes that append links and change no others. -/
def Appends (w : Tables → Tables) : Prop :=
  ∀ db, (w db).taskFiles = db.taskFiles ++ (w .empty).taskFiles

theorem appends_nil : Appends (applyWrites []) := by
  intro db
  exact (List.append_nil _).symm

theorem appends_of_same {w : Tables → Tables} (h : ∀ db, (w db).taskFiles = db.taskFiles) : Appends w := by
  intro db
  rw [h db, h .empty]
  exact (List.append_nil _).symm

theorem Appends.snoc {ws : List (Tables → Tables)} {w : Tables → Tables} (h : Appends (applyWrites ws))
    (hw : Appends w) : Appends (applyWrites (ws ++ [w])) := by
  intro db
  simp only [applyWrites_append, applyWrites_cons, applyWrites_nil]
  rw [hw (applyWrites ws db), hw (applyWrites ws .empty), h db, List.append_assoc]

/-- What a step of a call of `enqueueTask` does on the server. -/
inductive Moves (i : Nat) (server : TaskServer) (call : Call) : Answer → TaskServer → Prop
  | stays {answer : Answer} {server' : TaskServer} (hdb : server'.db = server.db)
      (hwrites : server'.writes = server.writes) : Moves i server call answer server'
  | writes {answer : Answer} {w : Tables → Tables} (hw : Appends w) :
      Moves i server call answer (server.write i w)
  | leaves {answer : Answer} : Moves i server call answer (server.rollback i)
  | commits {task : Task} (hphase : call.phase = .committing task) :
      Moves i server call .statement (server.commit i)

variable {server server' : TaskServer} {redis redis' : Redis} {i : Nat} {call call' : Call}

theorem moves_next {answer : Answer}
    (h : call.next settings i server redis answer = some (server', redis', call')) :
    Moves i server call answer server' := by
  have hmoves := callMoves_next h
  generalize hphase : call.phase = phase at hmoves
  cases hmoves with
  | found | missing | reserved | refused | counts | findsSession | released | fails => exact .stays rfl rfl
  | locks hlock =>
    obtain ⟨hdb, hwrites, -⟩ := Server.acquire_eq_some hlock
    exact .stays hdb hwrites
  | createsSession | updatesSession => exact .writes (appends_of_same fun db => rfl)
  | createsTask => exact .writes fun db => rfl
  | commits => exact .commits hphase
  | leaves => exact .leaves

structure Inv (s : System) : Prop where
  appends : ∀ i, Appends (applyWrites (s.service.server.writes i))
  held : ∀ d deleter, s.deleters.get d = some deleter → ∀ file ∈ deleter.held, s.db.linked file.id = false
  intact : Intact s

theorem inv_init : Inv .init where
  appends := fun _ => appends_nil
  held := fun d deleter h => by cases h
  intact := fun file h => by cases h

/-- A file that is being deleted has no links. -/
theorem Inv.not_linked (h : Inv s) {f : String} (hf : beingDeleted s f = true) : s.db.linked f = false := by
  rcases Bool.or_eq_true_iff.mp hf with hheld | hdeleted
  · obtain ⟨deleter, hmem, hheld⟩ := List.any_eq_true.mp hheld
    obtain ⟨file, hfile, hid⟩ := List.any_eq_true.mp hheld
    obtain ⟨d, hget⟩ := (OrderedMap.mem_values_iff _ _).mp hmem
    rw [← of_decide_eq_true hid]
    exact h.held d deleter hget file hfile
  · obtain ⟨file, hfile, hid⟩ := List.any_eq_true.mp hdeleted
    rw [← of_decide_eq_true hid]
    exact h.intact file hfile

theorem beingDeleted_held {d : Nat} {deleter : Deleter} {file : File} (hget : s.deleters.get d = some deleter)
    (hfile : file ∈ deleter.held) : beingDeleted s file.id = true := by
  apply Bool.or_eq_true_iff.mpr
  left
  apply List.any_eq_true.mpr
  refine ⟨deleter, (OrderedMap.mem_values_iff _ _).mpr ⟨d, hget⟩, ?_⟩
  exact List.any_eq_true.mpr ⟨file, hfile, decide_eq_true rfl⟩

theorem beingDeleted_deleted {file : File} (hfile : file ∈ s.deletedObjects) :
    beingDeleted s file.id = true := by
  apply Bool.or_eq_true_iff.mpr
  right
  exact List.any_eq_true.mpr ⟨file, hfile, decide_eq_true rfl⟩

theorem appends_set {server : TaskServer} {w : List (Tables → Tables)}
    (h : ∀ j, Appends (applyWrites (server.writes j))) (hw : Appends (applyWrites w)) (j : Nat) :
    Appends (applyWrites (if j = i then w else server.writes j)) := by
  split
  · exact hw
  · exact h j

/-- The links after a step of `enqueueTask` are those before it and those that it commits. -/
theorem enqueue_links (h : Inv s) {l : EnqueueTask.Label} {service : EnqueueTask.System}
    (hstep : EnqueueTask.step settings s.service l = some service) :
    (∀ link ∈ s.db.taskFiles, link ∈ service.db.taskFiles) ∧
      (∀ link ∈ service.db.taskFiles, link ∈ s.db.taskFiles ∨ link ∈ committedLinks s (.enqueue l)) ∧
      ∀ i, Appends (applyWrites (service.server.writes i)) := by
  cases l with
  | call i new fileIds =>
    simp only [EnqueueTask.step] at hstep
    split at hstep <;> cases hstep
    exact ⟨fun link hl => hl, fun link hl => .inl hl, h.appends⟩
  | advance i answer =>
    obtain ⟨call, hget, hstep⟩ := Option.bind_eq_some_iff.mp hstep
    obtain ⟨⟨server, redis, call'⟩, hnext, hstep⟩ := Option.bind_eq_some_iff.mp hstep
    cases hstep
    cases moves_next hnext with
    | stays hdb hwrites =>
      refine ⟨fun link hl => ?_, fun link hl => .inl ?_, fun j => ?_⟩
      · change link ∈ server.db.taskFiles
        rw [hdb]
        exact hl
      · change link ∈ server.db.taskFiles at hl
        rw [hdb] at hl
        exact hl
      · rw [hwrites]
        exact h.appends j
    | writes hw =>
      refine ⟨fun link hl => hl, fun link hl => .inl hl, fun j => ?_⟩
      rw [Server.write_writes]
      exact appends_set h.appends ((h.appends i).snoc hw) j
    | leaves =>
      refine ⟨fun link hl => hl, fun link hl => .inl hl, fun j => ?_⟩
      rw [Server.rollback_writes]
      exact appends_set h.appends appends_nil j
    | commits hphase =>
      have hlinks : (s.service.server.view i).taskFiles = s.db.taskFiles ++ (pending s i).taskFiles :=
        h.appends i s.db
      refine ⟨fun link hl => ?_, fun link hl => ?_, fun j => ?_⟩
      · exact hlinks ▸ List.mem_append_left _ hl
      · rcases List.mem_append.mp (hlinks ▸ hl) with hold | hnew
        · exact .inl hold
        · right
          simp only [committedLinks, hget, Option.toList_some, List.flatMap_singleton, hphase]
          exact hnew
      · rw [Server.commit_writes, Server.rollback_writes]
        exact appends_set h.appends appends_nil j
  | transaction tx =>
    simp only [EnqueueTask.step] at hstep
    split at hstep
    · cases hstep
    · obtain ⟨db, -, hstep⟩ := Option.bind_eq_some_iff.mp hstep
      cases hstep
      exact ⟨fun link hl => hl, fun link hl => .inl hl, h.appends⟩
  | wait ms =>
    cases hstep
    exact ⟨fun link hl => hl, fun link hl => .inl hl, h.appends⟩

/-- A step whose new links are of files that are not being deleted, and after which no file is being
deleted that had a link. -/
theorem Inv.move (h : Inv s) (happends : ∀ i, Appends (applyWrites (s'.service.server.writes i)))
    (hlinks : ∀ link ∈ s'.db.taskFiles, link ∈ s.db.taskFiles ∨ beingDeleted s link.fileId = false)
    (hheld : ∀ d deleter, s'.deleters.get d = some deleter → ∀ file ∈ deleter.held,
      beingDeleted s file.id = true ∨ s'.db.linked file.id = false)
    (hdeleted : ∀ file ∈ s'.deletedObjects, beingDeleted s file.id = true) : Inv s' := by
  have hfree : ∀ f, beingDeleted s f = true → s'.db.linked f = false := by
    intro f hf
    have hold := linked_eq_false_iff.mp (h.not_linked hf)
    apply linked_eq_false_iff.mpr
    intro link hlink heq
    rcases hlinks link hlink with hmem | hnot
    · exact hold link hmem heq
    · rw [heq, hf] at hnot
      cases hnot
  refine ⟨happends, fun d deleter hget file hfile => ?_, fun file hfile => hfree _ (hdeleted file hfile)⟩
  rcases hheld d deleter hget file hfile with hbefore | hnow
  · exact hfree _ hbefore
  · exact hnow

/-- A change outside of `enqueueTask` that adds no link and begins no deletion. -/
theorem Inv.shrink (h : Inv s) (hwrites : s'.service.server.writes = s.service.server.writes)
    (hlinks : ∀ link ∈ s'.db.taskFiles, link ∈ s.db.taskFiles)
    (hdeleters : s'.deleters = s.deleters) (hdeleted : s'.deletedObjects = s.deletedObjects) : Inv s' := by
  refine h.move (fun i => ?_) (fun link hl => .inl (hlinks link hl)) ?_ ?_
  · rw [hwrites]
    exact h.appends i
  · intro d deleter hget file hfile
    rw [hdeleters] at hget
    exact .inl (beingDeleted_held hget hfile)
  · intro file hfile
    rw [hdeleted] at hfile
    exact beingDeleted_deleted hfile

theorem deletesObject_mem {deleter : Deleter} {file : File} (h : file ∈ deleter.deletesObject) :
    file ∈ deleter.held := by
  unfold Deleter.deletesObject at h
  split at h
  · rename_i hphase
    cases h
    rw [Deleter.held, hphase]
    exact List.mem_cons_self
  · cases h

theorem deleterEffect_links {deleter : Deleter} (h : DeleterEffect db deleter db') :
    ∀ link ∈ db'.taskFiles, link ∈ db.taskFiles := by
  cases h with
  | nothing => exact fun link hl => hl
  | file hheld => exact fun link hl => (List.mem_filter.mp hl).1
  | artifact => exact fun link hl => hl

theorem completionEffect_links {call : Completion} {answer : CompletionAnswer}
    (h : CompletionEffect db call answer db') : db'.taskFiles = db.taskFiles := by
  cases h with
  | nothing => rfl
  | rejects hphase => exact Tables.updateFile_taskFiles ..
  | completes hphase => exact Tables.updateFile_taskFiles ..

theorem inv_step {l : Label} (h : Inv s) (hok : InTime s l) (hstep : step settings retention s l = some s') :
    Inv s' := by
  cases l with
  | enqueue l =>
    obtain ⟨service, hservice, hstep⟩ := Option.bind_eq_some_iff.mp hstep
    cases hstep
    obtain ⟨-, hlinks, happends⟩ := enqueue_links h hservice
    refine h.move happends (fun link hl => ?_) ?_ fun file hfile => beingDeleted_deleted hfile
    · rcases hlinks link hl with hold | hnew
      · exact .inl hold
      · exact .inr (hok link hnew)
    · exact fun d deleter hget file hfile => .inl (beingDeleted_held hget hfile)
  | createUploadUrl file =>
    simp only [step] at hstep
    split at hstep <;> cases hstep
    exact h.shrink rfl (fun link hl => hl) rfl rfl
  | failUpload now id =>
    cases hstep
    exact h.shrink rfl (fun link hl => Tables.updateFile_taskFiles s.db id _ ▸ hl) rfl rfl
  | completeUpload c userId input =>
    simp only [step] at hstep
    split at hstep <;> cases hstep
    exact h.shrink rfl (fun link hl => hl) rfl rfl
  | completion c answer =>
    obtain ⟨call, hget, hstep⟩ := Option.bind_eq_some_iff.mp hstep
    obtain ⟨⟨db, call'⟩, hnext, hstep⟩ := Option.bind_eq_some_iff.mp hstep
    cases hstep
    exact h.shrink rfl (fun link hl => completionEffect_links (completion_next hnext) ▸ hl) rfl rfl
  | job d job =>
    simp only [step] at hstep
    split at hstep <;> cases hstep
    refine h.move h.appends (fun link hl => .inl hl) ?_ fun file hfile => beingDeleted_deleted hfile
    intro e deleter hget file hfile
    rw [OrderedMap.get_set] at hget
    split at hget
    · cases hget
      cases hfile
    · exact .inl (beingDeleted_held hget hfile)
  | deleter d answer =>
    obtain ⟨deleter, hget, hstep⟩ := Option.bind_eq_some_iff.mp hstep
    dsimp only at hstep
    split at hstep
    · cases hstep
    obtain ⟨⟨db, deleter'⟩, hnext, hstep⟩ := Option.bind_eq_some_iff.mp hstep
    cases hstep
    obtain ⟨heffect, hheld⟩ := deleter_next hnext
    have hlinks := deleterEffect_links heffect
    refine h.move h.appends (fun link hl => .inl (hlinks link hl)) ?_ ?_
    · intro e other hother file hfile
      rw [OrderedMap.get_set] at hother
      split at hother
      · cases hother
        rcases hheld file hfile with hbefore | hfree
        · exact .inl (beingDeleted_held hget hbefore)
        · exact .inr (linked_of_subset hlinks hfree)
      · exact .inl (beingDeleted_held hother hfile)
    · intro file hfile
      rcases List.mem_append.mp hfile with hnow | hbefore
      · exact beingDeleted_held hget (deletesObject_mem (Option.mem_toList.mp hnow))
      · exact beingDeleted_deleted hbefore
  | deleteSession id =>
    simp only [step] at hstep
    split at hstep <;> cases hstep
    exact h.shrink rfl (fun link hl => (List.mem_filter.mp hl).1) rfl rfl

theorem keepsLinks_of_subset (h : ∀ link ∈ db.taskFiles, link ∈ db'.taskFiles) : KeepsLinks db db' := by
  intro t _ f hf
  obtain ⟨link, hlink, rfl⟩ := List.mem_map.mp hf
  obtain ⟨hmem, htask⟩ := List.mem_filter.mp hlink
  exact List.mem_map.mpr ⟨link, List.mem_filter.mpr ⟨h link hmem, htask⟩, rfl⟩

/-- The links that go with a session are of tasks that go with it. -/
theorem keepsLinks_deleteSession (db : Tables) (id : String) : KeepsLinks db (db.deleteSession id) := by
  intro t hleft f hf
  obtain ⟨link, hlink, rfl⟩ := List.mem_map.mp hf
  obtain ⟨hmem, htask⟩ := List.mem_filter.mp hlink
  have htask := of_decide_eq_true htask
  have hnot : inSession db.toDatabase id link.taskId = false := by
    rw [htask]
    change ((deleteSession db.toDatabase id).tasks.get t).isSome = true at hleft
    rw [deleteSession_get, Option.isSome_map, Option.isSome_filter] at hleft
    rw [inSession]
    obtain ⟨task, hget, hsession⟩ := (Option.any_eq_true ..).mp hleft
    rw [hget]
    simpa using hsession
  refine List.mem_map.mpr ⟨link, List.mem_filter.mpr ⟨?_, decide_eq_true htask⟩, rfl⟩
  exact List.mem_filter.mpr ⟨hmem, by rw [hnot]; rfl⟩

theorem Inv.keepsLinks (h : Inv s) (l : Label) : StepKeepsLinks settings retention s l := by
  intro s' hstep
  cases l with
  | enqueue l =>
    obtain ⟨service, hservice, hstep⟩ := Option.bind_eq_some_iff.mp hstep
    cases hstep
    exact keepsLinks_of_subset (enqueue_links h hservice).1
  | completion c answer =>
    obtain ⟨call, hget, hstep⟩ := Option.bind_eq_some_iff.mp hstep
    obtain ⟨⟨db, call'⟩, hnext, hstep⟩ := Option.bind_eq_some_iff.mp hstep
    cases hstep
    apply keepsLinks_of_subset
    exact fun link hl => (completionEffect_links (completion_next hnext)).symm ▸ hl
  | deleter d answer =>
    obtain ⟨deleter, hget, hstep⟩ := Option.bind_eq_some_iff.mp hstep
    dsimp only at hstep
    split at hstep
    · cases hstep
    obtain ⟨⟨db, deleter'⟩, hnext, hstep⟩ := Option.bind_eq_some_iff.mp hstep
    cases hstep
    apply keepsLinks_of_subset
    intro link hl
    cases (deleter_next hnext).1 with
    | nothing => exact hl
    | file hheld =>
      have hfree := linked_eq_false_iff.mp (h.held d deleter hget _ hheld) link hl
      exact List.mem_filter.mpr ⟨hl, decide_eq_true hfree⟩
    | artifact => exact hl
  | deleteSession id =>
    simp only [step, Option.mem_def] at hstep
    split at hstep <;> cases hstep
    exact keepsLinks_deleteSession s.db id
  | failUpload now id =>
    cases hstep
    exact keepsLinks_of_subset fun link hl => (Tables.updateFile_taskFiles s.db id _).symm ▸ hl
  | _ =>
    simp only [step, Option.mem_def] at hstep
    split at hstep <;> cases hstep
    exact keepsLinks_of_subset fun link hl => hl

/-- Linked files are kept when every step is in time. -/
theorem links_kept_of_inTime (settings : QuotaSettings) (retention : FileSettings) {ls : List Label}
    (hok : Along (step settings retention) InTime .init ls) :
    Throughout (step settings retention) Intact .init ls ∧
      Along (step settings retention) (StepKeepsLinks settings retention) .init ls :=
  ⟨throughout_of_along (fun _ h => h.intact) (fun _ _ _ h hok hstep => inv_step h hok hstep) inv_init hok,
    along_of_invariant (fun _ _ _ h hok hstep => inv_step h hok hstep) (fun _ l h _ => h.keepsLinks l)
      inv_init hok⟩

instance (s : System) : Decidable (Intact s) :=
  inferInstanceAs (Decidable (∀ file ∈ s.deletedObjects, _))

instance (s : System) (l : Label) : Decidable (InTime s l) :=
  inferInstanceAs (Decidable (∀ link ∈ committedLinks s l, _))

def oneTask : QuotaSettings := ⟨⟨1, fun _ => true⟩, 1⟩

def oneDay : FileSettings := ⟨24, 24⟩

/-- A file is uploaded, and a task that uses it comes to its commit. -/
def taskCreated : List Label :=
  [.createUploadUrl ⟨"f", "u", "a.txt", "text/plain", 3, .uploading, "users/u/f/a.txt", none, 0, none⟩,
    .completeUpload 0 "u" ⟨"f", "a.txt", "text/plain", 3, "users/u/f/a.txt"⟩,
    .completion 0 (.statement 1), .completion 0 (.inspected ⟨some 3, some "text/plain", some "e"⟩),
    .completion 0 (.statement 2),
    .enqueue (.call 0 ⟨"t", "u", none, "hello", .inr ("s", "hello")⟩ ["f"]),
    .enqueue (.advance 0 .statement), .enqueue (.advance 0 (.script 0 false))] ++
    List.replicate 5 (.enqueue (.advance 0 .statement))

/-- The user deletes the file; its links are counted before the commit. -/
def deletedDuring : List Label := taskCreated ++
  [.job 0 (.deleteFile "u" "f"), .deleter 0 .done, .enqueue (.advance 0 .statement), .deleter 0 .done]

/-- The object of a linked file is deleted. -/
theorem not_intact_of_deletedDuring :
    ¬ Throughout (step oneTask oneDay) Intact .init deletedDuring := by
  intro hintact
  have hend : (run (step oneTask oneDay) .init deletedDuring).any (fun s => decide (¬ Intact s)) = true := by
    decide +kernel
  obtain ⟨s, hrun, hs⟩ := (Option.any_eq_true _ _).mp hend
  exact of_decide_eq_true hs (hintact.last hrun)

/-- The links are counted after the commit, and the file is kept. -/
def deletedAfter : List Label := taskCreated ++
  [.enqueue (.advance 0 .statement), .job 0 (.deleteFile "u" "f"), .deleter 0 .done]

theorem links_kept_of_deletedAfter :
    (run (step oneTask oneDay) .init deletedAfter).any (fun s => s.db.linked "f") = true ∧
    Throughout (step oneTask oneDay) Intact .init deletedAfter ∧
    Along (step oneTask oneDay) (StepKeepsLinks oneTask oneDay) .init deletedAfter :=
  ⟨by decide +kernel, links_kept_of_inTime oneTask oneDay (by decide +kernel)⟩

end FileLinks
