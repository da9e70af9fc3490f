import ClawWork.FaultyRuns
import ClawWork.TenantIsolation

/-!
# Deletions that fail

The operations that delete rows and their objects, run with a failure at one of their
calls. Everywhere the object is deleted before its row, and nothing is undone: the row
is kept as long as its object may be there, and a failed deletion can be repeated. What
that means for the rows that are left is said exactly, for each place of the failure.
-/

namespace FailedDeletions

open SharedTypes TaskStore ServiceTables FileCalls Isolation ServiceStore ServiceCalls FaultyRuns

/-! ## The storage -/

structure Storage where
  /-- The keys of the objects. -/
  objects : List String
  /-- The readings of the clock that are to come. -/
  readings : Nat → Nat

namespace Storage

def remove (key : String) (x : Storage) : Storage := { x with objects := x.objects.filter fun k => k ≠ key }

theorem mem_remove {key k : String} {x : Storage} :
    k ∈ (x.remove key).objects ↔ k ∈ x.objects ∧ k ≠ key := by
  simp [remove]

end Storage

section Outside

variable (others : (r : Request) → Reply r)

def serve : (r : Request) → Storage → Reply r × Storage
  | .now, x => (x.readings 0, { x with readings := fun n => x.readings (n + 1) })
  | .deleteObject key, x => (.ok (), x.remove key)
  | r, x => (others r, x)

/-- The deletions send two kinds of requests; reading the clock does not fail. -/
def refusal : (r : Request) → Option (Failure → Reply r)
  | .deleteObject _ => some .error
  | _ => none

def storage : Outside Reply Failure Storage := ⟨serve others, refusal⟩

end Outside

/-! ## The operations -/

section Operations

variable (settings : ServiceSettings) (createdAt : ResultArtifact → Nat)

/-- The first query of `cleanupStaleFiles`. -/
def staleFiles (clock : Nat) (s : Store) : List File :=
  (s.files.values.filter fun row =>
    (row.status = .uploading || row.status = .failed) &&
      olderThan settings.staleUploadRetentionHours clock row && !s.linked row.id).take cleanupBatch

/-- The query for the artifacts without a result, of a task that has failed or was cancelled. -/
def abandonedArtifacts (clock : Nat) (s : Store) : List ResultArtifact :=
  (s.resultArtifacts.filter fun row =>
    row.resultId = none &&
      createdAt row + settings.staleUploadRetentionHours * 60 * 60000 < clock &&
      (s.tasks.get row.taskId).any fun task => task.status = .failed || task.status = .cancelled).take cleanupBatch

/-- `resultArtifact.delete`. -/
def deleteArtifactRow (artifactId : String) : Statement Unit :=
  attempt fun s =>
    if s.resultArtifacts.any fun row => row.id = artifactId then
      some { s with resultArtifacts := s.resultArtifacts.filter fun row => row.id ≠ artifactId }
    else none

/-- A round of the loops over files. -/
def deleteFileRound (row : File) : Call Unit := do
  deleteObject row.storageKey
  Program.exec (ServiceStore.deleteFile row.id)

def deleteArtifactRound (row : ResultArtifact) : Call Unit := do
  deleteObject row.storageKey
  Program.exec (deleteArtifactRow row.id)

/-- `cleanupStaleFiles`; the time of the creation of an artifact is not among the columns. -/
def cleanupStaleFiles : Call Nat := do
  let clock ← now
  let stale ← query (staleFiles settings clock)
  let _ ← Program.traverse deleteFileRound stale
  let abandoned ← query (abandonedArtifacts settings createdAt clock)
  let _ ← Program.traverse deleteArtifactRound abandoned
  let unreferenced ← cleanupUnreferencedFiles settings ""
  return stale.length + abandoned.length + unreferenced

inductive Operation where
  | deleteHistoryTask (userId taskId : String)
  | deleteFile (userId fileId : String)
  /-- The id is empty when the clean-up is for the files of all users. -/
  | cleanupUnreferencedFiles (userId : String)
  | cleanupStaleFiles

def Operation.call : Operation → Call Unit
  | .deleteHistoryTask userId taskId => do
    let _ ← ServiceCalls.deleteHistoryTask settings userId taskId
    return ()
  | .deleteFile userId fileId => do
    let _ ← ServiceCalls.deleteFile userId fileId
    return ()
  | .cleanupUnreferencedFiles userId => do
    let _ ← ServiceCalls.cleanupUnreferencedFiles settings userId
    return ()
  | .cleanupStaleFiles => do
    let _ ← FailedDeletions.cleanupStaleFiles settings createdAt
    return ()

end Operations

/-! ## Rows and objects -/

def fileKeys (s : Store) : List String := s.files.values.map File.storageKey

def artifactKeys (s : Store) : List String := s.resultArtifacts.map ResultArtifact.storageKey

def uploadedKeys (s : Store) : List String :=
  (s.files.values.filter fun row => row.status = .uploaded).map File.storageKey

/-- The objects that answers of the service lead to. -/
def offered (s : Store) : List String := uploadedKeys s ++ artifactKeys s

/-- Every artifact and every uploaded file has its object. -/
def Intact (s : Store) (x : Storage) : Prop := ∀ key ∈ offered s, key ∈ x.objects

/-- Rows are found by their ids, and no two have the same storage key. -/
structure Keyed (s : Store) : Prop where
  fileIds : ∀ id row, s.files.get id = some row → row.id = id
  artifactIds : (s.resultArtifacts.map ResultArtifact.id).Nodup
  keys : (fileKeys s ++ artifactKeys s).Nodup

/-- The foreign key of the tasks besides. -/
structure Consistent (s : Store) : Prop extends Keyed s where
  sessions : ∀ id task, s.tasks.get id = some task → (s.sessions.get task.sessionId).isSome

theorem uploadedKeys_sublist (s : Store) : (uploadedKeys s).Sublist (fileKeys s) :=
  List.filter_sublist.map _

/-- An object that is gone is missed when a row leads to it. -/
theorem intact_remove {s : Store} {x : Storage} (key : String) :
    Intact s (x.remove key) ↔ Intact s x ∧ key ∉ offered s := by
  constructor
  · intro h
    refine ⟨fun k hk => (Storage.mem_remove.mp (h k hk)).1, fun hkey => ?_⟩
    exact (Storage.mem_remove.mp (h key hkey)).2 rfl
  · rintro ⟨h, hkey⟩ k hk
    exact Storage.mem_remove.mpr ⟨h k hk, fun heq => hkey (heq ▸ hk)⟩

instance (s : Store) (x : Storage) : Decidable (Intact s x) :=
  inferInstanceAs (Decidable (∀ key ∈ offered s, key ∈ x.objects))

theorem Intact.mono {s s' : Store} {x : Storage} (h : Intact s x) (hsub : ∀ key ∈ offered s', key ∈ offered s) :
    Intact s' x := fun key hkey => h key (hsub key hkey)

/-! ## Files -/

/-- The store without a file. -/
def withoutFile (id : String) (s : Store) : Store :=
  { s with
    files := s.files.delete id
    taskFiles := s.taskFiles.filter fun link => link.fileId ≠ id }

theorem deleteFile_ok {s : Store} {file : File} (h : s.files.get file.id = some file) :
    ServiceStore.deleteFile file.id s = .ok ((), withoutFile file.id s) := by
  rw [ServiceStore.deleteFile, attempt, h]
  rfl

theorem values_delete_sublist (s : Store) (id : String) : (s.files.delete id).values.Sublist s.files.values :=
  List.filter_sublist.map _

theorem fileKeys_withoutFile (s : Store) (id : String) : (fileKeys (withoutFile id s)).Sublist (fileKeys s) :=
  (values_delete_sublist s id).map _

theorem uploadedKeys_withoutFile (s : Store) (id : String) :
    (uploadedKeys (withoutFile id s)).Sublist (uploadedKeys s) :=
  ((values_delete_sublist s id).filter _).map _

namespace Keyed

variable {s : Store}

theorem withoutFile (h : Keyed s) (id : String) : Keyed (withoutFile id s) where
  fileIds k row hrow := by
    rw [FailedDeletions.withoutFile, OrderedMap.get_delete] at hrow
    split at hrow
    · cases hrow
    · exact h.fileIds k row hrow
  artifactIds := h.artifactIds
  keys := h.keys.sublist ((fileKeys_withoutFile s id).append_right _)

theorem eq_of_fileKey (h : Keyed s) {a b : File} (ha : a ∈ s.files.values) (hb : b ∈ s.files.values)
    (hkey : a.storageKey = b.storageKey) : a = b :=
  List.inj_on_of_nodup_map (List.nodup_append.mp h.keys).1 ha hb hkey

theorem eq_of_artifactKey (h : Keyed s) {a b : ResultArtifact} (ha : a ∈ s.resultArtifacts)
    (hb : b ∈ s.resultArtifacts) (hkey : a.storageKey = b.storageKey) : a = b :=
  List.inj_on_of_nodup_map (List.nodup_append.mp h.keys).2.1 ha hb hkey

theorem fileKey_notMem (h : Keyed s) {file : File} (hfile : file ∈ s.files.values) :
    file.storageKey ∉ artifactKeys s :=
  fun hmem => (List.nodup_append.mp h.keys).2.2 _ (List.mem_map_of_mem hfile) _ hmem rfl

theorem artifactKey_notMem (h : Keyed s) {row : ResultArtifact} (hrow : row ∈ s.resultArtifacts) :
    row.storageKey ∉ uploadedKeys s := fun hmem =>
  (List.nodup_append.mp h.keys).2.2 _ ((uploadedKeys_sublist s).subset hmem) _ (List.mem_map_of_mem hrow) rfl

/-- The object of a file is offered when the file is uploaded, and only then. -/
theorem fileKey_offered (h : Keyed s) {file : File} (hfile : s.files.get file.id = some file) :
    file.storageKey ∈ offered s ↔ file.status = .uploaded := by
  have hmem : file ∈ s.files.values := (s.files.mem_values_iff file).mpr ⟨_, hfile⟩
  constructor
  · intro hkey
    rcases List.mem_append.mp hkey with hup | hart
    · obtain ⟨other, hother, heq⟩ := List.mem_map.mp hup
      obtain ⟨hvalue, hstatus⟩ := List.mem_filter.mp hother
      rw [h.eq_of_fileKey hmem hvalue heq.symm]
      exact of_decide_eq_true hstatus
    · exact absurd hart (h.fileKey_notMem hmem)
  · intro hstatus
    apply List.mem_append_left
    exact List.mem_map_of_mem (List.mem_filter.mpr ⟨hmem, decide_eq_true hstatus⟩)

/-- Nothing leads to the object of a file that is deleted. -/
theorem fileKey_gone (h : Keyed s) {file : File} (hfile : s.files.get file.id = some file) :
    file.storageKey ∉ offered (FailedDeletions.withoutFile file.id s) := by
  have hmem : file ∈ s.files.values := (s.files.mem_values_iff file).mpr ⟨_, hfile⟩
  intro hkey
  rcases List.mem_append.mp hkey with hup | hart
  · obtain ⟨other, hother, heq⟩ := List.mem_map.mp hup
    obtain ⟨id, hid⟩ := (OrderedMap.mem_values_iff _ other).mp (List.mem_filter.mp hother).1
    have hvalue := (values_delete_sublist s file.id).subset (List.mem_filter.mp hother).1
    obtain rfl := h.eq_of_fileKey hvalue hmem heq
    have hidFile : s.files.get id = some other := by
      rw [FailedDeletions.withoutFile, OrderedMap.get_delete] at hid
      split at hid
      · cases hid
      · exact hid
    rw [FailedDeletions.withoutFile, OrderedMap.get_delete, if_pos (h.fileIds id other hidFile).symm] at hid
    cases hid
  · exact h.fileKey_notMem hmem hart

end Keyed

theorem intact_withoutFile {s : Store} {x : Storage} (hkeyed : Keyed s) (hintact : Intact s x) {file : File}
    (hfile : s.files.get file.id = some file) : Intact (withoutFile file.id s) (x.remove file.storageKey) := by
  apply (intact_remove _).mpr
  refine ⟨hintact.mono fun key hkey => ?_, hkeyed.fileKey_gone hfile⟩
  rcases List.mem_append.mp hkey with hup | hart
  · exact List.mem_append_left _ ((uploadedKeys_withoutFile s file.id).subset hup)
  · exact List.mem_append_right _ hart

/-! ## Artifacts -/

def withoutArtifact (id : String) (s : Store) : Store :=
  { s with resultArtifacts := s.resultArtifacts.filter fun row => row.id ≠ id }

theorem deleteArtifactRow_ok {s : Store} {row : ResultArtifact} (h : row ∈ s.resultArtifacts) :
    deleteArtifactRow row.id s = .ok ((), withoutArtifact row.id s) := by
  have hany : (s.resultArtifacts.any fun other => other.id = row.id) = true :=
    List.any_eq_true.mpr ⟨row, h, decide_eq_true rfl⟩
  rw [deleteArtifactRow, attempt, if_pos hany]
  rfl

theorem Keyed.withoutArtifact {s : Store} (h : Keyed s) (id : String) : Keyed (withoutArtifact id s) where
  fileIds := h.fileIds
  artifactIds := h.artifactIds.sublist (List.filter_sublist.map _)
  keys := h.keys.sublist ((List.filter_sublist.map _).append_left _)

theorem artifactKey_offered {s : Store} {row : ResultArtifact} (hrow : row ∈ s.resultArtifacts) :
    row.storageKey ∈ offered s := List.mem_append_right _ (List.mem_map_of_mem hrow)

theorem intact_withoutArtifact {s : Store} {x : Storage} (hkeyed : Keyed s) (hintact : Intact s x)
    {row : ResultArtifact} (hrow : row ∈ s.resultArtifacts) :
    Intact (withoutArtifact row.id s) (x.remove row.storageKey) := by
  apply (intact_remove _).mpr
  constructor
  · apply hintact.mono
    intro key hkey
    rcases List.mem_append.mp hkey with hup | hart
    · exact List.mem_append_left _ hup
    · exact List.mem_append_right _ ((List.filter_sublist.map _).subset hart)
  · intro hkey
    rcases List.mem_append.mp hkey with hup | hart
    · exact hkeyed.artifactKey_notMem hrow hup
    · obtain ⟨other, hother, heq⟩ := List.mem_map.mp hart
      obtain ⟨hmem, hid⟩ := List.mem_filter.mp hother
      rw [hkeyed.eq_of_artifactKey hmem hrow heq] at hid
      exact of_decide_eq_true hid rfl

/-! ## Sessions -/

theorem deleteSession_ok {s : Store} {sessionId : String} (h : (s.sessions.get sessionId).isSome = true) :
    ServiceStore.deleteSession sessionId s = .ok ((), withoutSession sessionId s) := by
  rw [ServiceStore.deleteSession, attempt, if_pos h]

section WithoutSession

variable (s : Store) (sessionId : String)

theorem artifactIds_withoutSession :
    ((withoutSession sessionId s).resultArtifacts.map ResultArtifact.id).Sublist
      (s.resultArtifacts.map ResultArtifact.id) := by
  rw [withoutSession, List.map_map]
  have hid : (s.resultArtifacts.filter fun row => !s.inSession sessionId row.taskId).map ResultArtifact.id =
      (s.resultArtifacts.filter fun row => !s.inSession sessionId row.taskId).map
        (ResultArtifact.id ∘ fun row : ResultArtifact =>
          if s.taskResults.any fun result => row.resultId = some result.id &&
              (result.sessionId = sessionId || s.inSession sessionId result.taskId) then
            { row with resultId := none }
          else row) := by
    apply List.map_congr_left
    intro row _
    simp only [Function.comp_apply]
    split <;> rfl
  rw [← hid]
  exact List.filter_sublist.map _

theorem artifactKeys_withoutSession : artifactKeys (withoutSession sessionId s) =
    (s.resultArtifacts.filter fun row => !s.inSession sessionId row.taskId).map ResultArtifact.storageKey := by
  rw [artifactKeys, withoutSession, List.map_map]
  apply List.map_congr_left
  intro row _
  simp only [Function.comp_apply]
  split <;> rfl

end WithoutSession

theorem Keyed.withoutSession {s : Store} (h : Keyed s) (sessionId : String) :
    Keyed (withoutSession sessionId s) where
  fileIds := h.fileIds
  artifactIds := h.artifactIds.sublist (artifactIds_withoutSession s sessionId)
  keys := by
    rw [artifactKeys_withoutSession]
    exact h.keys.sublist ((List.filter_sublist.map _).append_left _)

theorem offered_withoutSession {s : Store} {sessionId key : String}
    (h : key ∈ offered (withoutSession sessionId s)) : key ∈ offered s := by
  rcases List.mem_append.mp h with hup | hart
  · exact List.mem_append_left _ hup
  · rw [artifactKeys_withoutSession] at hart
    exact List.mem_append_right _ ((List.filter_sublist.map _).subset hart)

theorem inSession_of_mem {s : Store} {userId sessionId : String} {row : ResultArtifact}
    (h : row ∈ s.sessionArtifacts userId sessionId) : s.inSession sessionId row.taskId = true := by
  have hquery := (List.mem_filter.mp h).2
  rw [Store.inSession]
  cases htask : s.tasks.get row.taskId with
  | none =>
    rw [htask] at hquery
    cases hquery
  | some task =>
    rw [htask] at hquery
    exact (Bool.and_eq_true _ _ ▸ hquery).1

/-- The deletion of the session deletes the artifacts whose objects were deleted before it. -/
theorem sessionKey_gone {s : Store} (hkeyed : Keyed s) {userId sessionId : String} {row : ResultArtifact}
    (h : row ∈ s.sessionArtifacts userId sessionId) :
    row.storageKey ∉ offered (withoutSession sessionId s) := by
  have hrow : row ∈ s.resultArtifacts := (List.mem_filter.mp h).1
  intro hkey
  rcases List.mem_append.mp hkey with hup | hart
  · exact hkeyed.artifactKey_notMem hrow hup
  · rw [artifactKeys_withoutSession] at hart
    obtain ⟨other, hother, heq⟩ := List.mem_map.mp hart
    obtain ⟨hmem, hout⟩ := List.mem_filter.mp hother
    rw [hkeyed.eq_of_artifactKey hmem hrow heq, inSession_of_mem h] at hout
    cases hout

/-! ## Rounds -/

section Rounds

variable {others : (r : Request) → Reply r} {fault : Fault Failure} {k : Nat} {s : Store} {x : Storage}

theorem ends_now {returned : Nat → Option Nat → Store → Storage → Prop} {threw : Store → Storage → Prop}
    (h : ∀ x' : Storage, x'.objects = x.objects → returned (x.readings 0) (some k) s x') :
    Ends (storage others) fault now (some k) s x returned threw := by
  apply Ends.ask rfl
  exact h _ rfl

theorem ends_query {α : Type} {q : Store → α} {returned : α → Option Nat → Store → Storage → Prop}
    {threw : Store → Storage → Prop} (hnext : ∀ j, k = j + 1 → returned (q s) (some j) s x)
    (hfault : k = 0 → threw s x) :
    Ends (storage others) fault (query q) (some k) s x returned threw := by
  apply Ends.read
  · intro hdue
    obtain ⟨j, rfl⟩ := Nat.exists_eq_succ_of_ne_zero fun h : k = 0 => hdue (h ▸ rfl)
    exact hnext j rfl
  · intro hdue
    exact hfault (Option.some.inj hdue)

theorem ends_exec {α : Type} {statement : Statement α} {a : α} {s' : Store}
    {returned : α → Option Nat → Store → Storage → Prop} {threw : Store → Storage → Prop}
    (hstatement : statement s = .ok (a, s')) (hnext : ∀ j, k = j + 1 → returned a (some j) s' x)
    (hfault : k = 0 → threw (if fault.applied then s' else s) x) :
    Ends (storage others) fault (Program.exec statement) (some k) s x returned threw := by
  apply Ends.exec hstatement
  · intro hdue
    obtain ⟨j, rfl⟩ := Nat.exists_eq_succ_of_ne_zero fun h : k = 0 => hdue (h ▸ rfl)
    exact hnext j rfl
  · intro hdue
    exact hfault (Option.some.inj hdue)

theorem ends_deleteObject {key : String} {returned : Unit → Option Nat → Store → Storage → Prop}
    {threw : Store → Storage → Prop} (hnext : ∀ j, k = j + 1 → returned () (some j) s (x.remove key))
    (hfault : k = 0 → threw s (if fault.applied then x.remove key else x)) :
    Ends (storage others) fault (deleteObject key) (some k) s x returned threw := by
  apply Ends.bind
  apply Ends.request Except.error rfl
  · intro hdue
    obtain ⟨j, rfl⟩ := Nat.exists_eq_succ_of_ne_zero fun h : k = 0 => hdue (h ▸ rfl)
    exact Ends.pure (hnext j rfl)
  · intro hdue
    exact Ends.throw (hfault (Option.some.inj hdue))

/-- The failure at a call of the loops that delete an object and its row in turn leaves no row behind: an
object is kept, or its row is gone too. -/
def harmless (k : Nat) (applied : Bool) : Prop := applied = decide (k % 2 = 1)

instance (k : Nat) (applied : Bool) : Decidable (harmless k applied) := inferInstanceAs (Decidable (_ = _))

theorem harmless_add (k n : Nat) (applied : Bool) : harmless (k + 2 * n) applied ↔ harmless k applied := by
  rw [harmless, harmless, Nat.add_mul_mod_self_left]

/-- A round of a loop: the object, then the row. -/
theorem ends_round {statement : Statement Unit} {key : String} {s' : Store}
    {returned : Unit → Option Nat → Store → Storage → Prop} {threw : Store → Storage → Prop}
    (hstatement : statement s = .ok ((), s'))
    (hnext : ∀ j, k = j + 2 → returned () (some j) s' (x.remove key))
    (hobject : k = 0 → threw s (if fault.applied then x.remove key else x))
    (hrow : k = 1 → threw (if fault.applied then s' else s) (x.remove key)) :
    Ends (storage others) fault
      (do deleteObject key; Program.exec statement) (some k) s x returned threw := by
  apply Ends.bind
  apply ends_deleteObject _ hobject
  rintro j rfl
  apply ends_exec hstatement
  · rintro i rfl
    exact hnext i rfl
  · rintro rfl
    exact hrow rfl

theorem not_intact_remove {key : String} (hkey : key ∈ offered s) : ¬ Intact s (x.remove key) :=
  fun h => ((intact_remove key).mp h).2 hkey

theorem object_verdict {key : String} (hintact : Intact s x) (hkey : key ∈ offered s) (applied : Bool) :
    Intact s (if applied then x.remove key else x) ↔ harmless 0 applied := by
  cases applied with
  | true => exact iff_of_false (not_intact_remove hkey) (by decide)
  | false => exact iff_of_true hintact (by decide)

theorem row_verdict {key : String} {s' : Store} (hkey : key ∈ offered s) (hintact' : Intact s' (x.remove key))
    (applied : Bool) : Intact (if applied then s' else s) (x.remove key) ↔ harmless 1 applied := by
  cases applied with
  | true => exact iff_of_true hintact' (by decide)
  | false => exact iff_of_false (not_intact_remove hkey) (by decide)

/-- A round whose object is offered as long as the row is there. -/
theorem ends_offeredRound {statement : Statement Unit} {key : String} {s' : Store}
    {returned : Unit → Option Nat → Store → Storage → Prop} {threw : Store → Storage → Prop}
    (hstatement : statement s = .ok ((), s')) (hintact : Intact s x) (hkey : key ∈ offered s)
    (hintact' : Intact s' (x.remove key)) (hnext : ∀ j, k = j + 2 → returned () (some j) s' (x.remove key))
    (hthrew : ∀ s x, k < 2 → (Intact s x ↔ harmless k fault.applied) → threw s x) :
    Ends (storage others) fault
      (do deleteObject key; Program.exec statement) (some k) s x returned threw := by
  apply ends_round hstatement hnext
  · rintro rfl
    exact hthrew _ _ (by decide) (object_verdict hintact hkey _)
  · rintro rfl
    exact hthrew _ _ (by decide) (row_verdict hkey hintact' _)

end Rounds

/-! ## Loops -/

/-- The files that a loop has still to delete. -/
structure Pending (files : List File) (s : Store) : Prop where
  distinct : (files.map File.id).Nodup
  present : ∀ file ∈ files, s.files.get file.id = some file

theorem Pending.next {file : File} {files : List File} {s : Store} (h : Pending (file :: files) s) :
    Pending files (withoutFile file.id s) where
  distinct := (List.nodup_cons.mp h.distinct).2
  present other hother := by
    have hid : other.id ≠ file.id := fun heq =>
      (List.nodup_cons.mp h.distinct).1 (heq ▸ List.mem_map_of_mem hother)
    rw [withoutFile, OrderedMap.get_delete_other _ hid]
    exact h.present other (List.mem_cons_of_mem _ hother)

/-- What a query of files finds is there. -/
theorem pending_of_query {s : Store} (hkeyed : Keyed s) (p : File → Bool) (n : Nat) :
    Pending ((s.files.values.filter p).take n) s where
  distinct := by
    have hsub : ((s.files.values.filter p).take n).Sublist s.files.values :=
      (List.take_sublist _ _).trans List.filter_sublist
    have hids : (s.files.values.map File.id).Nodup := s.files.nodup_map_values hkeyed.fileIds
    exact hids.sublist (hsub.map _)
  present file hfile := by
    have hvalue : file ∈ s.files.values := (List.mem_filter.mp (List.mem_of_mem_take hfile)).1
    obtain ⟨id, hid⟩ := (s.files.mem_values_iff file).mp hvalue
    rwa [hkeyed.fileIds id file hid]

section Loops

variable {others : (r : Request) → Reply r} {fault : Fault Failure} {k : Nat} {s : Store} {x : Storage}
  {threw : Store → Storage → Prop}

/-- The loop over files that were never uploaded: nothing leads to their objects. -/
theorem ends_staleLoop {files : List File} {returned : List Unit → Option Nat → Store → Storage → Prop}
    (hkeyed : Keyed s) (hintact : Intact s x) (hpending : Pending files s)
    (hstale : ∀ file ∈ files, file.status ≠ .uploaded)
    (hreturned : ∀ us j s' x', k = j + 2 * files.length → Keyed s' → Intact s' x' →
      s'.resultArtifacts = s.resultArtifacts → s'.tasks = s.tasks → returned us (some j) s' x')
    (hthrew : ∀ s' x', k < 2 * files.length → Intact s' x' → threw s' x') :
    Ends (storage others) fault (Program.traverse deleteFileRound files) (some k) s x returned threw := by
  refine Ends.traverse (fun rest left s' x' => ∃ j, left = some j ∧ k + 2 * rest.length = j + 2 * files.length ∧
    Keyed s' ∧ Intact s' x' ∧ Pending rest s' ∧ (∀ file ∈ rest, file.status ≠ .uploaded) ∧
    s'.resultArtifacts = s.resultArtifacts ∧ s'.tasks = s.tasks) ?_ ?_
    ⟨k, rfl, rfl, hkeyed, hintact, hpending, hstale, rfl, rfl⟩
  · rintro file rest - s' x' ⟨j, rfl, hj, hkeyed', hintact', hpending', hstale', hartifacts, htasks⟩
    have hfile : s'.files.get file.id = some file := hpending'.present file (List.mem_cons_self ..)
    have hkey : file.storageKey ∉ offered s' := fun h =>
      hstale' file (List.mem_cons_self ..) ((hkeyed'.fileKey_offered hfile).mp h)
    have hremoved : Intact s' (x'.remove file.storageKey) := (intact_remove _).mpr ⟨hintact', hkey⟩
    have hdeleted := intact_withoutFile hkeyed' hintact' hfile
    rw [List.length_cons] at hj
    apply ends_round (deleteFile_ok hfile)
    · rintro i rfl
      exact ⟨i, rfl, by omega, hkeyed'.withoutFile _, hdeleted, hpending'.next,
        fun other hother => hstale' other (List.mem_cons_of_mem _ hother), hartifacts, htasks⟩
    · rintro rfl
      apply hthrew _ _ (by omega)
      split
      · exact hremoved
      · exact hintact'
    · rintro rfl
      apply hthrew _ _ (by omega)
      split
      · exact hdeleted
      · exact hremoved
  · rintro us - s' x' ⟨j, rfl, hj, hkeyed', hintact', -, -, hartifacts, htasks⟩
    exact hreturned us j s' x' hj hkeyed' hintact' hartifacts htasks

/-- The loop over uploaded files. -/
theorem ends_unreferencedLoop {files : List File} {returned : List Unit → Option Nat → Store → Storage → Prop}
    (hkeyed : Keyed s) (hintact : Intact s x) (hpending : Pending files s)
    (huploaded : ∀ file ∈ files, file.status = .uploaded)
    (hreturned : ∀ us left s' x', returned us left s' x')
    (hthrew : ∀ s' x', (Intact s' x' ↔ harmless k fault.applied) → threw s' x') :
    Ends (storage others) fault (Program.traverse deleteFileRound files) (some k) s x returned threw := by
  refine Ends.traverse (fun rest left s' x' => ∃ j n, left = some j ∧ k = j + 2 * n ∧ Keyed s' ∧
    Intact s' x' ∧ Pending rest s' ∧ ∀ file ∈ rest, file.status = .uploaded) ?_ ?_
    ⟨k, 0, rfl, rfl, hkeyed, hintact, hpending, huploaded⟩
  · rintro file rest - s' x' ⟨j, n, rfl, rfl, hkeyed', hintact', hpending', huploaded'⟩
    have hfile : s'.files.get file.id = some file := hpending'.present file (List.mem_cons_self ..)
    have hkey : file.storageKey ∈ offered s' :=
      (hkeyed'.fileKey_offered hfile).mpr (huploaded' file (List.mem_cons_self ..))
    have hdeleted := intact_withoutFile hkeyed' hintact' hfile
    apply ends_offeredRound (deleteFile_ok hfile) hintact' hkey hdeleted
    · rintro i rfl
      exact ⟨i, n + 1, rfl, by omega, hkeyed'.withoutFile _, hdeleted, hpending'.next,
        fun other hother => huploaded' other (List.mem_cons_of_mem _ hother)⟩
    · intro s x _ h
      exact hthrew s x (h.trans (harmless_add j n fault.applied).symm)
  · rintro us left s' x' -
    exact hreturned us left s' x'

/-- The loop over artifacts. -/
theorem ends_abandonedLoop {artifacts : List ResultArtifact}
    {returned : List Unit → Option Nat → Store → Storage → Prop} (hkeyed : Keyed s) (hintact : Intact s x)
    (hpresent : ∀ row ∈ artifacts, row ∈ s.resultArtifacts)
    (hdistinct : (artifacts.map ResultArtifact.id).Nodup)
    (hreturned : ∀ us j s' x', k = j + 2 * artifacts.length → Keyed s' → Intact s' x' →
      returned us (some j) s' x')
    (hthrew : ∀ s' x', k < 2 * artifacts.length → (Intact s' x' ↔ harmless k fault.applied) → threw s' x') :
    Ends (storage others) fault (Program.traverse deleteArtifactRound artifacts) (some k) s x returned threw := by
  refine Ends.traverse (fun rest left s' x' => ∃ j n, left = some j ∧ k = j + 2 * n ∧
    n + rest.length = artifacts.length ∧ Keyed s' ∧ Intact s' x' ∧
    (∀ row ∈ rest, row ∈ s'.resultArtifacts) ∧ (rest.map ResultArtifact.id).Nodup) ?_ ?_
    ⟨k, 0, rfl, rfl, Nat.zero_add _, hkeyed, hintact, hpresent, hdistinct⟩
  · rintro row rest - s' x' ⟨j, n, rfl, rfl, hn, hkeyed', hintact', hpresent', hdistinct'⟩
    have hrow : row ∈ s'.resultArtifacts := hpresent' row (List.mem_cons_self ..)
    have hdeleted := intact_withoutArtifact hkeyed' hintact' hrow
    rw [List.length_cons] at hn
    apply ends_offeredRound (deleteArtifactRow_ok hrow) hintact' (artifactKey_offered hrow) hdeleted
    · rintro i rfl
      obtain ⟨hnew, hrest⟩ := List.nodup_cons.mp hdistinct'
      refine ⟨i, n + 1, rfl, by omega, by omega, hkeyed'.withoutArtifact _, hdeleted, ?_, hrest⟩
      intro other hother
      have hid : other.id ≠ row.id := fun heq => hnew (heq ▸ List.mem_map_of_mem hother)
      exact List.mem_filter.mpr ⟨hpresent' other (List.mem_cons_of_mem _ hother), decide_eq_true hid⟩
    · intro s x hlt h
      exact hthrew s x (by omega) (h.trans (harmless_add j n fault.applied).symm)
  · rintro us - s' x' ⟨j, n, rfl, rfl, hn, hkeyed', hintact', -, -⟩
    obtain rfl : n = artifacts.length := hn
    exact hreturned us j s' x' rfl hkeyed' hintact'

/-- The loop over the objects of a session, whose rows are deleted after all of them. -/
theorem ends_objectsLoop {artifacts : List ResultArtifact}
    {returned : List Unit → Option Nat → Store → Storage → Prop} (hintact : Intact s x)
    (hpresent : ∀ row ∈ artifacts, row ∈ s.resultArtifacts)
    (hreturned : ∀ us j x', k = j + artifacts.length →
      (∀ key ∈ offered s, key ∈ x'.objects ∨ ∃ row ∈ artifacts, row.storageKey = key) →
      (∀ row ∈ artifacts, row.storageKey ∉ x'.objects) → returned us (some j) s x')
    (hthrew : ∀ x', k < artifacts.length → (Intact s x' ↔ k = 0 ∧ fault.applied = false) → threw s x') :
    Ends (storage others) fault (Program.traverse (fun row : ResultArtifact =>
    deleteObject row.storageKey) artifacts)
      (some k) s x returned threw := by
  refine Ends.traverse (fun rest left s' x' => ∃ j done, left = some j ∧ artifacts = done ++ rest ∧
    k = j + done.length ∧ s' = s ∧
    (∀ key ∈ offered s, key ∈ x'.objects ∨ ∃ row ∈ done, row.storageKey = key) ∧
    ∀ row ∈ done, row.storageKey ∉ x'.objects) ?_ ?_
    ⟨k, [], rfl, rfl, rfl, rfl, fun key hkey => .inl (hintact key hkey), fun _ h => by cases h⟩
  · rintro row rest - s' x' ⟨j, done, rfl, hsplit, hk, rfl, hkept, hgone⟩
    have hrow : row ∈ artifacts := by simp [hsplit]
    have hlength : artifacts.length = done.length + rest.length + 1 := by simp [hsplit]; omega
    apply ends_deleteObject
    · rintro i rfl
      refine ⟨i, done ++ [row], rfl, by simp [hsplit], by simp; omega, rfl, ?_, ?_⟩
      · intro key hkey
        by_cases heq : key = row.storageKey
        · exact .inr ⟨row, by simp, heq.symm⟩
        · rcases hkept key hkey with hobject | ⟨other, hother, hother'⟩
          · exact .inl (Storage.mem_remove.mpr ⟨hobject, heq⟩)
          · exact .inr ⟨other, List.mem_append_left _ hother, hother'⟩
      · intro other hother hobject
        obtain ⟨hobject, hne⟩ := Storage.mem_remove.mp hobject
        rcases List.mem_append.mp hother with hdone | hlast
        · exact hgone other hdone hobject
        · exact hne (List.mem_singleton.mp hlast ▸ rfl)
    · rintro rfl
      apply hthrew _ (by omega)
      cases fault.applied with
      | true =>
        refine iff_of_false (fun h => ?_) (fun h => by cases h.2)
        exact ((intact_remove _).mp h).2 (artifactKey_offered (hpresent row hrow))
      | false =>
        rw [and_iff_left rfl, hk, Nat.zero_add]
        constructor
        · intro h
          cases done with
          | nil => rfl
          | cons first done =>
            have hfirst : first ∈ artifacts := by simp [hsplit]
            exact absurd (h _ (artifactKey_offered (hpresent first hfirst))) (hgone first (List.mem_cons_self ..))
        · intro h key hkey
          rw [List.length_eq_zero_iff.mp h] at hkept
          exact (hkept key hkey).resolve_right fun ⟨_, hmem, _⟩ => by cases hmem
  · rintro us - s' x' ⟨j, done, rfl, hsplit, hk, rfl, hkept, hgone⟩
    rw [List.append_nil] at hsplit
    subst hsplit
    exact hreturned us j x' hk hkept hgone

end Loops

/-! ## The place of the failure -/

/-- A failure of the clean-up of unreferenced files: its query, then its rounds. -/
def cleanupHarmless (k : Nat) (applied : Bool) : Prop := k = 0 ∨ (0 < k ∧ harmless (k - 1) applied)

/-- A failure of the deletion of a session with `n` artifacts: three queries, their objects, the session, and
the clean-up. -/
def historyHarmless (n k : Nat) (applied : Bool) : Prop :=
  k < 3 ∨ (k = 3 ∧ 0 < n ∧ applied = false) ∨ (k = n + 3 ∧ (n = 0 ∨ applied = true)) ∨
    (n + 4 ≤ k ∧ cleanupHarmless (k - (n + 4)) applied)

/-- A failure of the clean-up of `m` stale files and `n` artifacts. -/
def staleHarmless (m n k : Nat) (applied : Bool) : Prop :=
  k < 2 * m + 2 ∨ (2 * m + 2 ≤ k ∧ k < 2 * m + 2 * n + 2 ∧ harmless (k - (2 * m + 2)) applied) ∨
    (2 * m + 2 * n + 2 ≤ k ∧ cleanupHarmless (k - (2 * m + 2 * n + 2)) applied)

theorem historyHarmless_object {n k : Nat} {applied : Bool} (h : k < n) :
    historyHarmless n (k + 3) applied ↔ k = 0 ∧ applied = false := by
  unfold historyHarmless
  have hsession : k ≠ n := by omega
  have hcleanup : ¬ n + 4 ≤ k + 3 := by omega
  have hpos : 0 < n := by omega
  simp [hsession, hcleanup, hpos]

theorem historyHarmless_session (n : Nat) (applied : Bool) :
    historyHarmless n (n + 3) applied ↔ n = 0 ∨ applied = true := by
  unfold historyHarmless
  have hlt : ¬ n + 3 < 3 := by omega
  have hobject : ¬ (n + 3 = 3 ∧ 0 < n ∧ applied = false) := by omega
  have hcleanup : ¬ n + 4 ≤ n + 3 := by omega
  simp only [hlt, hobject, hcleanup, false_and, false_or, or_false, true_and]

theorem historyHarmless_cleanup (n k : Nat) (applied : Bool) :
    historyHarmless n (n + 4 + k) applied ↔ cleanupHarmless k applied := by
  unfold historyHarmless
  have hlt : ¬ n + 4 + k < 3 := by omega
  have hobject : ¬ n + 4 + k = 3 := by omega
  have hsession : ¬ n + 4 + k = n + 3 := by omega
  simp only [hlt, hobject, hsession, false_and, false_or, Nat.le_add_right, true_and, Nat.add_sub_cancel_left]

theorem staleHarmless_artifact (m : Nat) {n k : Nat} {applied : Bool} (h : k < 2 * n) :
    staleHarmless m n (2 * m + 2 + k) applied ↔ harmless k applied := by
  unfold staleHarmless
  have hstale : ¬ 2 * m + 2 + k < 2 * m + 2 := by omega
  have hartifact : 2 * m + 2 + k < 2 * m + 2 * n + 2 := by omega
  have hcleanup : ¬ 2 * m + 2 * n + 2 ≤ 2 * m + 2 + k := by omega
  simp only [hstale, hartifact, hcleanup, false_and, false_or, or_false, Nat.le_add_right, true_and,
    Nat.add_sub_cancel_left]

theorem staleHarmless_cleanup (m n k : Nat) (applied : Bool) :
    staleHarmless m n (2 * m + 2 * n + 2 + k) applied ↔ cleanupHarmless k applied := by
  unfold staleHarmless
  have hstale : ¬ 2 * m + 2 * n + 2 + k < 2 * m + 2 := by omega
  have hartifact : ¬ 2 * m + 2 * n + 2 + k < 2 * m + 2 * n + 2 := by omega
  simp only [hstale, hartifact, false_and, and_false, false_or, Nat.le_add_right, true_and,
    Nat.add_sub_cancel_left]

section Failures

variable (settings : ServiceSettings) (createdAt : ResultArtifact → Nat)

/-- The failure of the call that follows `k` others leaves every row that is offered with its object. -/
def Operation.harmless (s : Store) (x : Storage) (k : Nat) (applied : Bool) : Operation → Prop
  | .deleteHistoryTask userId taskId => ∀ task, s.findTask userId taskId = some task →
    s.activeInSession task.sessionId = 0 →
      historyHarmless (s.sessionArtifacts userId task.sessionId).length k applied
  | .deleteFile userId fileId => ∀ file, s.findFile userId fileId = some file → s.linked file.id = false →
    file.status = .uploaded → cleanupHarmless k applied
  | .cleanupUnreferencedFiles _ => cleanupHarmless k applied
  | .cleanupStaleFiles => staleHarmless (staleFiles settings (x.readings 0) s).length
    (abandonedArtifacts settings createdAt (x.readings 0) s).length k applied

variable {settings createdAt} {others : (r : Request) → Reply r} {fault : Fault Failure} {k : Nat} {s : Store}
  {x : Storage} {threw : Store → Storage → Prop}

theorem intact_of_objects {x' : Storage} (hintact : Intact s x) (h : x'.objects = x.objects) : Intact s x' :=
  fun key hkey => h ▸ hintact key hkey

theorem status_of_unreferenced {userId : String} {clock : Nat} {file : File}
    (h : file ∈ unreferencedFiles settings userId clock s) : file.status = .uploaded := by
  have hquery := (List.mem_filter.mp (List.mem_of_mem_take h)).2
  simp only [Bool.and_eq_true, decide_eq_true_eq] at hquery
  exact hquery.1.1.2

theorem status_of_stale {clock : Nat} {file : File} (h : file ∈ staleFiles settings clock s) :
    file.status ≠ .uploaded := by
  have hquery := (List.mem_filter.mp (List.mem_of_mem_take h)).2
  simp only [Bool.and_eq_true, Bool.or_eq_true, decide_eq_true_eq] at hquery
  rcases hquery.1.1 with hstatus | hstatus <;> rw [hstatus] <;> decide

theorem ends_cleanupUnreferencedFiles {userId : String} {returned : Nat → Option Nat → Store → Storage → Prop}
    (hkeyed : Keyed s) (hintact : Intact s x) (hreturned : ∀ n left s' x', returned n left s' x')
    (hthrew : ∀ s' x', (Intact s' x' ↔ cleanupHarmless k fault.applied) → threw s' x') :
    Ends (storage others) fault (cleanupUnreferencedFiles settings userId) (some k) s x returned threw := by
  apply Ends.bind
  apply ends_now
  intro x' hobjects
  have hintact' := intact_of_objects hintact hobjects
  apply Ends.bind
  apply ends_query
  · rintro j rfl
    apply Ends.bind
    apply ends_unreferencedLoop hkeyed hintact' (pending_of_query hkeyed _ _)
    · exact fun file hfile => status_of_unreferenced hfile
    · exact fun _ _ _ _ => Ends.pure (hreturned _ _ _ _)
    · intro s' x'' h
      apply hthrew
      rw [h, cleanupHarmless, Nat.add_sub_cancel]
      simp
  · rintro rfl
    exact hthrew _ _ (iff_of_true hintact' (.inl rfl))

theorem ends_deleteFile {userId fileId : String} {returned : DeletedFile → Option Nat → Store → Storage → Prop}
    (hkeyed : Keyed s) (hintact : Intact s x) (hreturned : ∀ d left s' x', returned d left s' x')
    (hthrew : ∀ s' x', (Intact s' x' ↔ (Operation.deleteFile userId fileId).harmless settings createdAt s x k
      fault.applied) → threw s' x') :
    Ends (storage others) fault (ServiceCalls.deleteFile userId fileId) (some k) s x returned threw := by
  apply Ends.bind
  apply ends_query
  · rintro j rfl
    apply Ends.bind
    apply Ends.orThrow
    · rintro ⟨file, linked⟩ hfound
      obtain ⟨row, hrow, heq⟩ := Option.map_eq_some_iff.mp hfound
      cases heq
      have hget : s.files.get file.id = some file := by
        have hget := (Option.filter_eq_some_iff.mp hrow).1
        rwa [hkeyed.fileIds _ _ hget]
      have hdeleted := intact_withoutFile hkeyed hintact hget
      apply Ends.bind
      apply Ends.require
      · intro hlinked
        have hunlinked : s.linked file.id = false := by simpa using hlinked
        have hharmless : (Operation.deleteFile userId fileId).harmless settings createdAt s x (j + 1)
            fault.applied ↔ (file.status = .uploaded → harmless j fault.applied) := by
          constructor
          · intro h hstatus
            exact ((h file hrow hunlinked hstatus).resolve_left (Nat.succ_ne_zero j)).2
          · rintro h other hother - hstatus
            rw [hrow] at hother
            cases hother
            exact .inr ⟨Nat.succ_pos j, h hstatus⟩
        have hkept (hstatus : file.status ≠ .uploaded) : Intact s (x.remove file.storageKey) :=
          (intact_remove _).mpr ⟨hintact, fun h => hstatus ((hkeyed.fileKey_offered hget).mp h)⟩
        apply Ends.bind
        apply ends_deleteObject
        · rintro i rfl
          apply Ends.bind
          apply ends_exec (deleteFile_ok hget)
          · rintro _ rfl
            exact Ends.pure (hreturned _ _ _ _)
          · rintro rfl
            apply hthrew
            rw [hharmless]
            by_cases hstatus : file.status = .uploaded
            · rw [row_verdict ((hkeyed.fileKey_offered hget).mpr hstatus) hdeleted]
              exact ⟨fun h _ => h, fun h => h hstatus⟩
            · refine iff_of_true ?_ fun h => absurd h hstatus
              split
              · exact hdeleted
              · exact hkept hstatus
        · rintro rfl
          apply hthrew
          rw [hharmless]
          by_cases hstatus : file.status = .uploaded
          · rw [object_verdict hintact ((hkeyed.fileKey_offered hget).mpr hstatus)]
            exact ⟨fun h _ => h, fun h => h hstatus⟩
          · refine iff_of_true ?_ fun h => absurd h hstatus
            split
            · exact hkept hstatus
            · exact hintact
      · intro hlinked
        apply hthrew
        apply iff_of_true hintact
        intro other hother hunlinked
        rw [hrow] at hother
        cases hother
        rw [hunlinked] at hlinked
        cases hlinked
    · intro hnone
      apply hthrew
      apply iff_of_true hintact
      intro file hfile
      rw [hfile] at hnone
      cases hnone
  · rintro rfl
    exact hthrew _ _ (iff_of_true hintact fun _ _ _ _ => .inl rfl)

theorem ends_deleteHistoryTask {userId taskId : String}
    {returned : DeletedHistory → Option Nat → Store → Storage → Prop} (hstore : Consistent s)
    (hintact : Intact s x) (hreturned : ∀ d left s' x', returned d left s' x')
    (hthrew : ∀ s' x', (Intact s' x' ↔
    (Operation.deleteHistoryTask userId taskId).harmless settings createdAt s x k
      fault.applied) → threw s' x') :
    Ends (storage others) fault (ServiceCalls.deleteHistoryTask settings userId taskId) (some k) s x returned
      threw := by
  apply Ends.bind
  apply ends_query
  swap
  · rintro rfl
    exact hthrew _ _ (iff_of_true hintact fun _ _ _ => .inl (by decide))
  rintro k rfl
  apply Ends.bind
  apply Ends.orThrow
  swap
  · intro hnone
    apply hthrew _ _ (iff_of_true hintact ?_)
    intro task htask
    rw [hnone] at htask
    cases htask
  intro task htask
  apply Ends.bind
  apply ends_query
  swap
  · rintro rfl
    exact hthrew _ _ (iff_of_true hintact fun _ _ _ => .inl (by decide))
  rintro k rfl
  apply Ends.bind
  apply Ends.require
  swap
  · intro hactive
    apply hthrew _ _ (iff_of_true hintact ?_)
    intro other hother hidle
    rw [htask] at hother
    cases hother
    exact absurd hidle (of_decide_eq_false hactive)
  intro hidle
  apply Ends.bind
  apply ends_query
  swap
  · rintro rfl
    exact hthrew _ _ (iff_of_true hintact fun _ _ _ => .inl (by decide))
  rintro k rfl
  have hharmless : (Operation.deleteHistoryTask userId taskId).harmless settings createdAt s x (k + 1 + 1 + 1)
      fault.applied ↔
      historyHarmless (s.sessionArtifacts userId task.sessionId).length (k + 3) fault.applied := by
    constructor
    · intro h
      exact h task htask (of_decide_eq_true hidle)
    · rintro h other hother -
      rw [htask] at hother
      cases hother
      exact h
  rw [hharmless] at hthrew
  have hpresent (row : ResultArtifact) (hrow : row ∈ s.sessionArtifacts userId task.sessionId) :
      row ∈ s.resultArtifacts := (List.mem_filter.mp hrow).1
  apply Ends.bind
  apply ends_objectsLoop hintact hpresent
  · intro us j x' hj hkept hgone
    have hsession := hstore.sessions _ _ (Option.filter_eq_some_iff.mp htask).1
    have hintact' : Intact (withoutSession task.sessionId s) x' := by
      intro key hkey
      rcases hkept key (offered_withoutSession hkey) with hobject | ⟨row, hrow, rfl⟩
      · exact hobject
      · exact absurd hkey (sessionKey_gone hstore.toKeyed hrow)
    apply Ends.bind
    apply ends_exec (deleteSession_ok hsession)
    · rintro j rfl
      apply Ends.bind
      apply ends_cleanupUnreferencedFiles (hstore.toKeyed.withoutSession _) hintact'
      · exact fun _ _ _ _ => Ends.pure (hreturned _ _ _ _)
      · intro s' x'' h
        apply hthrew
        rw [h, hj, show j + 1 + (s.sessionArtifacts userId task.sessionId).length + 3 =
          (s.sessionArtifacts userId task.sessionId).length + 4 + j by omega, historyHarmless_cleanup]
    · rintro rfl
      apply hthrew
      rw [hj, Nat.zero_add, historyHarmless_session]
      cases fault.applied with
      | true => exact iff_of_true hintact' (.inr rfl)
      | false =>
        rw [or_iff_left Bool.false_ne_true]
        constructor
        · intro h
          by_contra hne
          obtain ⟨row, hrow⟩ := List.exists_mem_of_length_pos (Nat.pos_of_ne_zero hne)
          exact hgone row hrow (h _ (artifactKey_offered (hpresent row hrow)))
        · intro h key hkey
          rw [List.length_eq_zero_iff.mp h] at hkept
          exact (hkept key hkey).resolve_right fun ⟨_, hmem, _⟩ => by cases hmem
  · intro x' hlt h
    apply hthrew
    rw [h, historyHarmless_object hlt]

theorem ends_cleanupStaleFiles {returned : Nat → Option Nat → Store → Storage → Prop} (hkeyed : Keyed s)
    (hintact : Intact s x) (hreturned : ∀ n left s' x', returned n left s' x')
    (hthrew : ∀ s' x', (Intact s' x' ↔ Operation.cleanupStaleFiles.harmless settings createdAt s x k
      fault.applied) → threw s' x') :
    Ends (storage others) fault (FailedDeletions.cleanupStaleFiles settings createdAt) (some k) s x returned
      threw := by
  change ∀ s' x', (Intact s' x' ↔ staleHarmless (staleFiles settings (x.readings 0) s).length
    (abandonedArtifacts settings createdAt (x.readings 0) s).length k fault.applied) → threw s' x' at hthrew
  apply Ends.bind
  apply ends_now
  intro x' hobjects
  have hintact' := intact_of_objects hintact hobjects
  apply Ends.bind
  apply ends_query
  swap
  · rintro rfl
    exact hthrew _ _ (iff_of_true hintact' (.inl (by omega)))
  rintro k rfl
  apply Ends.bind
  apply ends_staleLoop hkeyed hintact' (pending_of_query hkeyed _ _) fun file hfile => status_of_stale hfile
  swap
  · intro s' x'' hlt h
    exact hthrew _ _ (iff_of_true h (.inl (by rw [staleFiles]; omega)))
  intro us j s' x'' hj hkeyed' hintact'' hartifacts htasks
  change k = j + 2 * (staleFiles settings (x.readings 0) s).length at hj
  have habandoned : abandonedArtifacts settings createdAt (x.readings 0) s' =
      abandonedArtifacts settings createdAt (x.readings 0) s := by
    rw [abandonedArtifacts, hartifacts, htasks, abandonedArtifacts]
  apply Ends.bind
  apply ends_query
  swap
  · rintro rfl
    exact hthrew _ _ (iff_of_true hintact'' (.inl (by omega)))
  rintro j rfl
  rw [habandoned]
  have hsub : (abandonedArtifacts settings createdAt (x.readings 0) s).Sublist s'.resultArtifacts := by
    rw [hartifacts]
    exact (List.take_sublist _ _).trans List.filter_sublist
  apply Ends.bind
  apply ends_abandonedLoop hkeyed' hintact'' (fun row hrow => hsub.subset hrow)
    (hkeyed'.artifactIds.sublist (hsub.map _))
  · intro us' i s'' x''' hi hkeyed'' hintact'''
    apply Ends.bind
    apply ends_cleanupUnreferencedFiles hkeyed'' hintact'''
    · exact fun _ _ _ _ => Ends.pure (hreturned _ _ _ _)
    · intro s3 x3 h
      apply hthrew
      rw [h, hj, hi, ← staleHarmless_cleanup (staleFiles settings (x.readings 0) s).length
        (abandonedArtifacts settings createdAt (x.readings 0) s).length]
      exact iff_of_eq (congrArg (staleHarmless _ _ · _) (by omega))
  · intro s'' x''' hlt h
    apply hthrew
    rw [h, hj, ← staleHarmless_artifact (staleFiles settings (x.readings 0) s).length hlt]
    exact iff_of_eq (congrArg (staleHarmless _ _ · _) (by omega))

theorem ends_call (operation : Operation) (hstore : Consistent s) (hintact : Intact s x) :
    Ends (storage others) fault (operation.call settings createdAt) (some k) s x (fun _ _ _ _ => True)
      (fun s' x' => Intact s' x' ↔ operation.harmless settings createdAt s x k fault.applied) := by
  cases operation with
  | deleteHistoryTask userId taskId =>
    exact .bind (ends_deleteHistoryTask hstore hintact (fun _ _ _ _ => .pure trivial) fun _ _ h => h)
  | deleteFile userId fileId =>
    exact .bind (ends_deleteFile hstore.toKeyed hintact (fun _ _ _ _ => .pure trivial) fun _ _ h => h)
  | cleanupUnreferencedFiles userId =>
    exact .bind (ends_cleanupUnreferencedFiles hstore.toKeyed hintact (fun _ _ _ _ => .pure trivial)
      fun _ _ h => h)
  | cleanupStaleFiles =>
    exact .bind (ends_cleanupStaleFiles hstore.toKeyed hintact (fun _ _ _ _ => .pure trivial) fun _ _ h => h)

/-- A deletion that throws leaves every row that is offered with its object exactly when the place of the failure
is harmless. -/
theorem intact_iff_harmless (operation : Operation) (hstore : Consistent s) (hintact : Intact s x) {e : Failure}
    {left : Option Nat} {s' : Store} {x' : Storage}
    (hrun : run (storage others) fault (operation.call settings createdAt) (some k) s x =
      (.error e, left, s', x')) :
    Intact s' x' ↔ operation.harmless settings createdAt s x k fault.applied :=
  (ends_call operation hstore hintact).of_threw hrun

end Failures

/-! ## A session with two artifacts -/

def demoTask : TaskRow where
  id := "t"
  sessionId := "s"
  userId := "u"
  parentTaskId := none
  status := .completed
  inputText := "weekly report"
  runId := none
  adapterStreamUrl := none
  errorCode := none
  errorMessage := none
  startedAt := none
  completedAt := none
  queueJobId := none
  attemptCount := 1
  taskType := "document_summary"
  preferredTone := "balanced"
  preferredLength := "standard"
  createdAt := 0
  updatedAt := 0

def demoArtifact (id : String) : ResultArtifact where
  id := id
  userId := "u"
  taskId := "t"
  resultId := some "r"
  kind := .docx
  fileName := "report.docx"
  mimeType := "application/vnd.openxmlformats-officedocument.wordprocessingml.document"
  sizeBytes := 1
  storageKey := "users/u/results/t/" ++ id ++ "/report.docx"
  previewText := ""

def demoStore : Store := { Store.empty with
  users := ["u"]
  sessions := OrderedMap.empty.set "s" ⟨⟨"s", "u", "weekly report", .completed, some "t"⟩, 0⟩
  tasks := OrderedMap.empty.set "t" demoTask
  resultArtifacts := [demoArtifact "a", demoArtifact "b"] }

def demoStorage : Storage where
  objects := ["users/u/results/t/a/report.docx", "users/u/results/t/b/report.docx"]
  readings := fun _ => 0

/-- The storage does not answer. -/
def unavailable : Fault Failure := ⟨.http 503 "failed to delete stored object", false⟩

theorem consistent_demo : Consistent demoStore where
  fileIds id row hrow := by cases hrow
  artifactIds := by decide
  keys := by decide +kernel
  sessions id task htask := by
    rw [demoStore, OrderedMap.get_set] at htask
    split at htask
    · cases htask
      rfl
    · cases htask

/-- The first object is gone. -/
def demoRemaining : Storage := { demoStorage with objects := ["users/u/results/t/b/report.docx"] }

theorem run_demo : run (storage (TenantIsolation.exampleReplies 0)) unavailable
    ((Operation.deleteHistoryTask "u" "t").call TenantIsolation.exampleSettings fun _ => 0) (some 4) demoStore
    demoStorage = (.error unavailable.error, none, demoStore, demoRemaining) := by
  rfl

/-- The deletion of the second object fails, and the row of the first is still there. -/
theorem halfDeleted_dangles : Consistent demoStore ∧ Intact demoStore demoStorage ∧
    (∃ e left s' x', run (storage (TenantIsolation.exampleReplies 0)) unavailable
      ((Operation.deleteHistoryTask "u" "t").call TenantIsolation.exampleSettings fun _ => 0) (some 4) demoStore
      demoStorage = (.error e, left, s', x') ∧ ¬ Intact s' x') :=
  ⟨consistent_demo, by decide +kernel, _, _, _, _, run_demo, by decide +kernel⟩

theorem intact_iff_harmless_demo : Intact demoStore demoRemaining ↔
    (Operation.deleteHistoryTask "u" "t").harmless TenantIsolation.exampleSettings (fun _ =>
    0) demoStore demoStorage
      4 false :=
  intact_iff_harmless (.deleteHistoryTask "u" "t") consistent_demo (by decide +kernel) run_demo

end FailedDeletions
