import ClawWork.PersistWrites
import ClawWork.ServiceTables
import ClawWork.Transition

/-!
# Deletion of a session against its tasks

`deleteHistoryTask` counts the active tasks of the session, deletes the objects of its
artifacts and then the session, in separate statements. Beside it run the calls of
`persistTaskEvent`, statement by statement, and the transactions that create and
dispatch tasks. The clean-up of files after the deletion touches no session.
-/

namespace HistoryDeletion

open SharedTypes TaskStore TasksService ServiceTables PersistCalls PersistWrites LogCommits StatusFrames
  Transition

/-- The `await` that a call of `deleteHistoryTask` has come to. -/
inductive DeletionPhase where
  | finding
  | counting (sessionId : String)
  | findingArtifacts (sessionId : String)
  | deletingObjects (sessionId : String) (storageKeys : List String)
  | deletingSession (sessionId : String)
  | returned (sessionId : String)
  | threw

structure Deletion where
  userId : String
  taskId : String
  phase : DeletionPhase

structure System where
  service : PersistCalls.System
  /-- The numbers of the calls of `persistTaskEvent`. -/
  started : List Nat
  deletions : OrderedMap Nat Deletion

def System.init : System := ⟨.init, [], .empty⟩

def System.db (s : System) : Database := s.service.db

/-- An open transaction has inserted an event of a task of the session; the foreign key keeps the row
of the task, and with it the session, until the transaction ends. -/
def keepsRow (service : PersistCalls.System) (sessionId : String) (c : Nat) : Bool :=
  (service.calls c).any fun call =>
    match call.phase with
    | .project _ task _ _ => task.sessionId = sessionId
    | _ => false

/-- The insertion of an event violates the foreign key when its task is gone. -/
def orphan (service : PersistCalls.System) : PersistCalls.Label → Option (Nat × Call)
  | .advance c => (service.calls c).bind fun call =>
    match call.phase with
    | .create prepared _ _ =>
      if (service.db.tasks.get prepared.stored.taskId).isNone then some (c, call) else none
    | _ => none
  | _ => none

/-- A call of `deleteHistoryTask` goes on until its next `await`; `ok` says that the statement or the
deletion of an object succeeds. -/
def Deletion.next (db : Database) (deletion : Deletion) (ok : Bool) : Option (Database × Deletion) :=
  if ok then
    match deletion.phase with
    | .finding =>
      match db.tasks.get deletion.taskId with
      | some task =>
        if task.userId = deletion.userId then
          some (db, { deletion with phase := .counting task.sessionId })
        else some (db, { deletion with phase := .threw })
      | none => some (db, { deletion with phase := .threw })
    | .counting sessionId =>
      if activeInSession db sessionId > 0 then some (db, { deletion with phase := .threw })
      else some (db, { deletion with phase := .findingArtifacts sessionId })
    | .findingArtifacts sessionId =>
      let artifacts := db.resultArtifacts.filter fun row => (db.tasks.get row.taskId).any fun task =>
        task.sessionId = sessionId && task.userId = deletion.userId
      let phase := .deletingObjects sessionId (artifacts.map ResultArtifact.storageKey)
      some (db, { deletion with phase })
    | .deletingObjects sessionId (_ :: storageKeys) =>
      some (db, { deletion with phase := .deletingObjects sessionId storageKeys })
    | .deletingObjects sessionId [] => some (db, { deletion with phase := .deletingSession sessionId })
    | .deletingSession sessionId =>
      if (db.sessions.get sessionId).isSome then
        some (deleteSession db sessionId, { deletion with phase := .returned sessionId })
      else some (db, { deletion with phase := .threw })
    | .returned _ | .threw => none
  else
    match deletion.phase with
    | .returned _ | .threw => none
    | _ => some (db, { deletion with phase := .threw })

inductive Label where
  /-- The calls of `persistTaskEvent`, and the transactions of one statement. -/
  | service (l : PersistCalls.Label)
  | delete (d : Nat) (userId taskId : String)
  | advance (d : Nat) (ok : Bool)

def starts : PersistCalls.Label → List Nat
  | .call c _ _ _ _ _ => [c]
  | _ => []

/-- The session that the next statement of a call deletes. -/
def deletes (s : System) : Label → Option String
  | .advance d true => (s.deletions.get d).bind fun deletion =>
    match deletion.phase with
    | .deletingSession sessionId => some sessionId
    | _ => none
  | _ => none

/-- A deletion waits for the rows of its session. -/
def waits (s : System) (l : Label) : Bool :=
  (deletes s l).any fun sessionId => s.started.any (keepsRow s.service sessionId)

def step (settings : Settings) (s : System) (l : Label) : Option System :=
  if waits s l then none
  else
    match l with
    | .service l =>
      match orphan s.service l with
      | some (c, call) => some { s with service := s.service.leave c call }
      | none => do
        let service ← PersistCalls.step settings s.service l
        some { s with service, started := starts l ++ s.started }
    | .delete d userId taskId =>
      if s.deletions.get d = none then
        some { s with deletions := s.deletions.set d ⟨userId, taskId, .finding⟩ }
      else none
    | .advance d ok => do
      let deletion ← s.deletions.get d
      let (db, deletion) ← deletion.next s.db ok
      some { s with
        service := { s.service with server := s.service.server.direct fun _ => db }
        deletions := s.deletions.set d deletion }

/-- All tasks of the session have ended. -/
def Idle (db : Database) (sessionId : String) : Prop :=
  ∀ task ∈ db.tasks.values, task.sessionId = sessionId → task.status.isTerminal = true

/-- A session is deleted only when none of its tasks is queued or running. -/
def DeletesIdle (s : System) (l : Label) : Prop := ∀ sessionId ∈ deletes s l, Idle s.db sessionId

/-- The session whose active tasks the call has counted and which it is going to delete. -/
def counted : DeletionPhase → Option String
  | .findingArtifacts sessionId | .deletingObjects sessionId _ | .deletingSession sessionId =>
    some sessionId
  | .finding | .counting _ | .returned _ | .threw => none

/-- No task is created in a session between the count and the deletion, and a transaction that makes
its task running finds it not ended. -/
def InTime (s : System) : Label → Prop
  | .service (.single (.enqueue new)) => ∀ deletion ∈ s.deletions.values,
    counted deletion.phase ≠ some (NewTask.sessionId new)
  | .service l => ∀ row ∈ committing s.service l, rowStatus row = some .running →
    ∀ status ∈ s.db.status row.taskId, status.isTerminal = false
  | _ => True

variable {settings : Settings} {s s' : System} {db db' : Database} {sessionId : String}

theorem idle_iff : Idle db sessionId ↔
    ∀ t, home db t = some sessionId → ∀ status ∈ db.status t, status.isTerminal = true := by
  constructor
  · intro h t hhome status hstatus
    obtain ⟨task, htask, hsession⟩ := Option.map_eq_some_iff.mp hhome
    rw [Database.status, htask] at hstatus
    cases hstatus
    exact h task ((OrderedMap.mem_values_iff _ _).mpr ⟨t, htask⟩) hsession
  · intro h task hmem hsession
    obtain ⟨t, htask⟩ := (OrderedMap.mem_values_iff _ _).mp hmem
    exact h t (by rw [home, htask, ← hsession]; rfl) task.status (by rw [Database.status, htask]; rfl)

theorem idle_of_activeInSession (h : activeInSession db sessionId = 0) : Idle db sessionId := by
  intro task hmem hsession
  have := List.countP_eq_zero.mp h task hmem
  simpa [hsession] using this

theorem keyed_deleteSession (hk : Keyed db) : Keyed (deleteSession db sessionId) := by
  intro t task htask
  rw [deleteSession_get] at htask
  obtain ⟨old, hold, rfl⟩ := Option.map_eq_some_iff.mp htask
  have hid := hk t old (Option.filter_eq_some_iff.mp hold).1
  split
  · exact hid
  · exact hid

/-- The deletion of a session makes no task active. -/
theorem Idle.delete {other : String} (h : Idle db sessionId) : Idle (deleteSession db other) sessionId := by
  intro task hmem hsession
  obtain ⟨t, htask⟩ := (OrderedMap.mem_values_iff _ _).mp hmem
  rw [deleteSession_get] at htask
  obtain ⟨old, hold, rfl⟩ := Option.map_eq_some_iff.mp htask
  have hold := (Option.filter_eq_some_iff.mp hold).1
  have hidle := h old ((OrderedMap.mem_values_iff _ _).mpr ⟨t, hold⟩)
  split at hsession <;> split <;> exact hidle hsession

/-- A call of `deleteHistoryTask` changes the tables only by its last statement, and comes to a session
by a count of its active tasks. -/
theorem deletion_next {deletion deletion' : Deletion} {ok : Bool}
    (h : deletion.next db ok = some (db', deletion')) :
    (db' = db ∨ ∃ sessionId, db' = deleteSession db sessionId) ∧
      ∀ sessionId, counted deletion'.phase = some sessionId →
        db' = db ∧ (counted deletion.phase = some sessionId ∨ Idle db sessionId) := by
  obtain ⟨userId, taskId, phase⟩ := deletion
  cases ok with
  | false => cases phase <;> cases h <;> exact ⟨.inl rfl, fun σ hσ => by cases hσ⟩
  | true =>
    cases phase with
    | finding =>
      simp only [Deletion.next, if_true] at h
      split at h
      · split at h <;> cases h <;> exact ⟨.inl rfl, fun σ hσ => by cases hσ⟩
      · cases h
        exact ⟨.inl rfl, fun σ hσ => by cases hσ⟩
    | counting sessionId =>
      simp only [Deletion.next, if_true] at h
      split at h
      · cases h
        exact ⟨.inl rfl, fun σ hσ => by cases hσ⟩
      · rename_i hnone
        cases h
        refine ⟨.inl rfl, fun σ hσ => ?_⟩
        cases hσ
        exact ⟨rfl, .inr (idle_of_activeInSession (Nat.eq_zero_of_not_pos hnone))⟩
    | findingArtifacts sessionId =>
      cases h
      exact ⟨.inl rfl, fun σ hσ => ⟨rfl, .inl hσ⟩⟩
    | deletingObjects sessionId storageKeys =>
      cases storageKeys <;> cases h <;> exact ⟨.inl rfl, fun σ hσ => ⟨rfl, .inl hσ⟩⟩
    | deletingSession sessionId =>
      simp only [Deletion.next, if_true] at h
      split at h <;> cases h
      · exact ⟨.inr ⟨sessionId, rfl⟩, fun σ hσ => by cases hσ⟩
      · exact ⟨.inl rfl, fun σ hσ => by cases hσ⟩
    | returned sessionId => cases h
    | threw => cases h

theorem rowStatus_cases {row : TaskEvent} {status : TaskStatus} (h : rowStatus row = some status) :
    status = .running ∨ status.isTerminal = true := by
  unfold rowStatus at h
  split at h
  · cases h
    exact .inl rfl
  · repeat' split at h
    all_goals cases h <;> exact .inr rfl

structure Inv (s : System) : Prop where
  tracked : Tracked s.service
  written : AllWritten s.service
  idle : ∀ d deletion sessionId, s.deletions.get d = some deletion →
    counted deletion.phase = some sessionId → Idle s.db sessionId

theorem inv_init : Inv .init where
  tracked := tracked_init
  written := allWritten_init
  idle := fun d deletion sessionId h => by cases h

/-- A step of the service keeps a session idle that is going to be deleted. -/
theorem idle_service (h : Inv s) {l : PersistCalls.Label} {service : PersistCalls.System}
    (hok : InTime s (.service l)) (hstep : PersistCalls.step settings s.service l = some service)
    (hidle : Idle s.db sessionId)
    (hcounted : ∃ deletion ∈ s.deletions.values, counted deletion.phase = some sessionId) :
    Idle service.db sessionId := by
  rw [idle_iff] at hidle ⊢
  intro t hhome status hstatus
  rcases step_home h.written hstep t with hsame | ⟨new, rfl, hnew⟩
  · rw [hsame] at hhome
    have hended := hidle t hhome
    obtain ⟨task, htask, -⟩ := Option.map_eq_some_iff.mp hhome
    have hold : s.service.db.status t = some task.status := by
      rw [Database.status, htask]
      rfl
    have hterm := hended task.status hold
    cases hcommit : committing s.service l with
    | some row =>
      have hmove := (step_commit h.tracked hstep hcommit).2.2 t
      rw [hold, Option.map_some] at hmove
      rw [hmove] at hstatus
      split at hstatus
      · rename_i heq
        cases hstatus
        cases hrow : rowStatus row with
        | none => exact hterm
        | some new =>
          rcases rowStatus_cases hrow with rfl | hnew
          · have hopen : task.status.isTerminal = false := by
              have hlive : ∀ row ∈ committing s.service l, rowStatus row = some .running →
                  ∀ status ∈ s.db.status row.taskId, status.isTerminal = false := by
                cases l with
                | single tx => cases hcommit
                | _ => exact hok
              exact hlive row hcommit hrow task.status (by rw [← heq]; exact hold)
            rw [hterm] at hopen
            cases hopen
          · exact hnew
      · cases hstatus
        exact hterm
    | none =>
      have hmove := (step_quiet hstep hcommit).2.1 t
      rw [hmove.keeps_terminal hold hterm] at hstatus
      cases hstatus
      exact hterm
  · obtain ⟨deletion, hmem, hphase⟩ := hcounted
    rw [hhome] at hnew
    cases hnew
    exact absurd hphase (hok deletion hmem)

theorem inv_step {l : Label} (h : Inv s) (hok : InTime s l) (hstep : step settings s l = some s') :
    Inv s' := by
  unfold step at hstep
  split at hstep
  · cases hstep
  cases l with
  | service l =>
    dsimp only at hstep
    split at hstep
    · cases hstep
      exact ⟨h.tracked.leave rfl rfl rfl, h.written.rollback rfl rfl, h.idle⟩
    · obtain ⟨service, hservice, hstep⟩ := Option.bind_eq_some_iff.mp hstep
      cases hstep
      refine ⟨tracked_step h.tracked hservice, allWritten_step h.written hservice, ?_⟩
      intro d deletion σ hget hcounted
      exact idle_service h hok hservice (h.idle d deletion σ hget hcounted)
        ⟨deletion, (OrderedMap.mem_values_iff _ _).mpr ⟨d, hget⟩, hcounted⟩
  | delete d userId taskId =>
    dsimp only at hstep
    split at hstep
    · cases hstep
      refine ⟨h.tracked, h.written, fun e deletion σ hget hcounted => ?_⟩
      rw [OrderedMap.get_set] at hget
      split at hget
      · cases hget
        cases hcounted
      · exact h.idle e deletion σ hget hcounted
    · cases hstep
  | advance d ok =>
    obtain ⟨deletion, hget, hstep⟩ := Option.bind_eq_some_iff.mp hstep
    obtain ⟨⟨db, deletion'⟩, hnext, hstep⟩ := Option.bind_eq_some_iff.mp hstep
    cases hstep
    obtain ⟨hdb, hcomes⟩ := deletion_next hnext
    have hkeep : ∀ σ, Idle s.db σ → Idle db σ := by
      intro σ hidle
      rcases hdb with rfl | ⟨other, rfl⟩
      · exact hidle
      · exact hidle.delete
    have hkeyed : Keyed db := by
      rcases hdb with rfl | ⟨other, rfl⟩
      · exact h.tracked.keyed
      · exact keyed_deleteSession h.tracked.keyed
    refine ⟨⟨hkeyed, h.tracked.pending, h.tracked.unused⟩, h.written.same rfl, ?_⟩
    intro e other σ hother hcounted
    rw [OrderedMap.get_set] at hother
    split at hother
    · cases hother
      rcases (hcomes σ hcounted).2 with hbefore | hidle
      · exact hkeep σ (h.idle d deletion σ hget hbefore)
      · exact hkeep σ hidle
    · exact hkeep σ (h.idle e other σ hother hcounted)

theorem Inv.deletesIdle (h : Inv s) (l : Label) : DeletesIdle s l := by
  intro sessionId hdeletes
  unfold deletes at hdeletes
  split at hdeletes
  · obtain ⟨deletion, hget, hphase⟩ := Option.bind_eq_some_iff.mp hdeletes
    refine h.idle _ deletion sessionId hget ?_
    split at hphase
    · rename_i hdeleting
      cases hphase
      rw [hdeleting]
      rfl
    · cases hphase
  · cases hdeletes

/-- No active work is destroyed when every step is in time. -/
theorem deletes_idle_of_inTime (settings : Settings) {ls : List Label}
    (hok : Along (step settings) InTime .init ls) : Along (step settings) DeletesIdle .init ls :=
  along_of_invariant (fun _ _ _ h hok hstep => inv_step h hok hstep) (fun _ l h _ => h.deletesIdle l)
    inv_init hok

instance (db : Database) (sessionId : String) : Decidable (Idle db sessionId) :=
  inferInstanceAs (Decidable (∀ task ∈ db.tasks.values, _))

instance (s : System) (l : Label) : Decidable (DeletesIdle s l) :=
  inferInstanceAs (Decidable (∀ sessionId ∈ deletes s l, _))

instance decidableInTime (s : System) : (l : Label) → Decidable (InTime s l)
  | .service (.single (.enqueue new)) => inferInstanceAs (Decidable (∀ deletion ∈ s.deletions.values,
      counted deletion.phase ≠ some (NewTask.sessionId new)))
  | .service (.call _ _ _ _ _ _) | .service (.abort _) | .service (.single (.setQueueJobId _ _))
  | .service (.single (.incrementAttempt _)) | .service (.single (.dispatch _ _ _ _))
  | .service (.single (.setSessionRunning _)) | .service (.single (.archive _)) =>
    .isTrue fun row hrow => by cases hrow
  | .service (.advance c) => inferInstanceAs (Decidable (∀ row ∈ committing s.service (.advance c),
      rowStatus row = some .running → ∀ status ∈ s.db.status row.taskId, status.isTerminal = false))
  | .delete _ _ _ | .advance _ _ => .isTrue trivial

/-- The only task of a session is cancelled, and the user begins to delete the session. -/
def deletionCounted : List Label :=
  [.service (.single (.enqueue ⟨"t", "u", none, "hello", .inr ("s", "hello")⟩)),
    .service (.call 0 ⟨.cancelled "task cancelled by user", "t", "s", "t", "2026-01-01"⟩ none none
      "2026-01-01" "r")] ++
    List.replicate 9 (.service (.advance 0)) ++
    [.delete 0 "u" "t", .advance 0 true, .advance 0 true]

/-- The artifacts are found, their objects deleted, and then the session. -/
def deletionGoesOn : List Label := List.replicate 3 (.advance 0 true)

/-- A follow-up is created between the count and the deletion, and destroyed. -/
theorem follow_up_destroyed : ¬ Along (step ⟨1, fun _ => true⟩) DeletesIdle .init (deletionCounted ++
    [.service (.single (.enqueue ⟨"t'", "u", some "t", "again", .inl "s"⟩))] ++ deletionGoesOn) := by
  decide +kernel

/-- Without it an idle session is deleted. -/
theorem idle_session_deleted :
    (run (step ⟨1, fun _ => true⟩) .init (deletionCounted ++ deletionGoesOn)).any
      (fun s => (s.db.sessions.get "s").isNone) = true ∧
    Along (step ⟨1, fun _ => true⟩) DeletesIdle .init (deletionCounted ++ deletionGoesOn) :=
  ⟨by decide +kernel, deletes_idle_of_inTime ⟨1, fun _ => true⟩ (by decide +kernel)⟩

end HistoryDeletion
