import ClawWork.DispatchTask
import ClawWork.SessionBoard
import ClawWork.Transition

/-!
# The status of a session and of its current task

The transactions of the service, each atomic, and the attempts of `processQueuedTask`,
which update a task and its session in two statements. A session is coherent when its
status is that of its current task, and that is a task of the session.
-/

namespace SessionCoherence

open SharedTypes TaskStore TasksService StatusFrames DispatchTask SessionBoard Transition

structure System where
  db : Database
  attempts : OrderedMap Nat Attempt

def System.init : System := ⟨.empty, .empty⟩

def System.board (s : System) : Board := boardOf s.db

/-- The two updates of `dispatchTask`, which only an attempt makes. -/
def dispatches : Transaction → Bool
  | .single (.dispatch _ _ _ _) | .single (.setSessionRunning _) => true
  | _ => false

inductive Label where
  | transaction (tx : Transaction)
  | take (attempt : Nat) (taskId : String)
  | attempt (attempt : Nat) (answer : Answer)

def step (settings : DispatchSettings) (s : System) : Label → Option System
  | .transaction tx =>
    if dispatches tx then none
    else do
      let db ← tx.apply settings.toSettings s.db
      some { s with db }
  | .take a taskId =>
    if s.attempts.get a = none then
      some { s with attempts := s.attempts.set a ⟨taskId, "", .finding⟩ }
    else none
  | .attempt a answer => do
    let attempt ← s.attempts.get a
    let (db, attempt, _) ← attempt.next settings s.db answer
    some ⟨db, s.attempts.set a attempt⟩

/-- The attempt has come to its end. -/
def Attempt.atRest (attempt : Attempt) : Bool :=
  match attempt.phase with
  | .returned | .threw _ _ => true
  | _ => false

/-- The current task of every session is one of its tasks, and has the status of the session. -/
def Coherent (db : Database) : Prop := ∀ σ session, db.sessions.get σ = some session →
  ∃ t task, session.currentTaskId = some t ∧ db.tasks.get t = some task ∧ task.sessionId = σ ∧
    session.status = task.status

/-- Whenever no attempt is in progress, the sessions are coherent. -/
def CoherentAtRest (s : System) : Prop :=
  (∀ attempt ∈ s.attempts.values, Attempt.atRest attempt = true) → Coherent s.db

/-- The current task, if any, is a task of the session with this status. -/
def currentIs (b : Board) (σ : String) (current : Option String) (status : TaskStatus) : Bool :=
  current.any fun t => b.task t = some (σ, status)

/-- What an event has to find: `status` is that of its task `t`, `current` the current task of the
session. -/
def Suits (b : Board) (t σ : String) (status : TaskStatus) (current : Option String) :
    TaskEventDetail → Prop
  | .accepted => current = some t → status = .running
  | .failed _ _ => current = some t ∨ currentIs b σ current .failed = true
  | .cancelled _ => current = some t ∨ currentIs b σ current .cancelled = true
  | _ => True

/-- The event that a transaction persists, with its source event id. -/
def eventOf (db : Database) : Transaction → Option (TaskStreamEvent × Option String)
  | .persist event archived source _ _ =>
    (prepareTaskEvent archived event).map fun prepared => (prepared.stored, source)
  | .failTask taskId code message now _ =>
    (failTaskEvent db taskId code message now).map fun event => (event, none)
  | .cancelTask userId taskId now _ => do
    let task ← db.tasks.get taskId
    if task.userId = userId ∧ task.status.isTerminal = false then some (cancelTaskEvent task now, none)
    else none
  | .single _ => none

/-- The attempt is about to update the session. -/
def Attempt.updatesSession (attempt : Attempt) : Bool :=
  match attempt.phase with
  | .updatingSession _ => true
  | _ => false

/-- An acceptance of the current task finds it running; a task that fails or is cancelled is the current
one of its session, or that has the same status; and when an attempt sets a session running, its
current task is running. -/
def InStep (s : System) : Label → Prop
  | .transaction tx => ∀ e ∈ eventOf s.db tx, s.db.violatesSource e.1.taskId e.2 = false →
    ∀ entry ∈ s.board.task e.1.taskId, entry.2.isTerminal = false → ∀ pair ∈ s.board.session entry.1,
      Suits s.board e.1.taskId entry.1 entry.2 pair.1 e.1.detail
  | .attempt a (.database _) => ∀ attempt ∈ s.attempts.get a, Attempt.updatesSession attempt = true →
    ∀ pair ∈ s.board.session attempt.sessionId,
      currentIs s.board attempt.sessionId pair.1 .running = true
  | _ => True

/-- The current task of every session is one of its tasks; their statuses agree, or the session is one
of `pending`. -/
def Linked (b : Board) (pending : String → Prop) : Prop := ∀ σ current status,
  b.session σ = some (current, status) → ∃ t old, current = some t ∧ b.task t = some (σ, old) ∧
    (status = old ∨ pending σ)

variable {b b' : Board} {pending pending' : String → Prop} {t σ : String} {status : TaskStatus}
  {db db' : Database} {settings : DispatchSettings} {s s' : System}

theorem Linked.mono (h : Linked b pending) (hsub : ∀ σ, pending σ → pending' σ) : Linked b pending' := by
  intro σ current status hsession
  obtain ⟨t, old, hcurrent, htask, hstatus⟩ := h σ current status hsession
  exact ⟨t, old, hcurrent, htask, hstatus.imp_right (hsub σ)⟩

/-- Only the task `t` of the session `σ` gets another status. -/
theorem Linked.setTask (h : Linked b pending) (htask : b.task t = some (σ, status)) {new : TaskStatus}
    (hfits : ∀ current old, b.session σ = some (current, old) → current = some t →
      old = new ∨ pending σ) : Linked (b.setTask t new) pending := by
  intro τ current old hsession
  obtain ⟨u, st, hcurrent, hu, hstatus⟩ := h τ current old hsession
  by_cases hut : u = t
  · rw [hut] at hu hcurrent
    rw [htask] at hu
    cases hu
    exact ⟨t, new, hcurrent, Board.setTask_self htask new, hfits current old hsession hcurrent⟩
  · exact ⟨u, st, hcurrent, by rw [Board.setTask_task, if_neg hut]; exact hu, hstatus⟩

/-- The task and its session get the same status. -/
theorem Linked.setBoth (h : Linked b pending) (htask : b.task t = some (σ, status)) {new : TaskStatus}
    {f : Option String → Option String}
    (hfits : ∀ current old, b.session σ = some (current, old) → f current = some t ∨
      f current = current ∧ currentIs b σ current new = true) :
    Linked ((b.setTask t new).setSession σ f new) pending := by
  intro τ current old hsession
  rw [Board.setSession_session, Board.setTask_session] at hsession
  rw [Board.setSession_task]
  split at hsession
  · rename_i hτ
    obtain ⟨⟨cur, st⟩, hold, heq⟩ := Option.map_eq_some_iff.mp hsession
    cases heq
    rw [hτ]
    rcases hfits cur st hold with hself | ⟨hkeep, his⟩
    · exact ⟨t, new, hself, Board.setTask_self htask new, .inl rfl⟩
    · obtain ⟨u, hu, hstatus⟩ := (Option.any_eq_true _ _).mp his
      refine ⟨u, new, by rw [hkeep]; exact hu, ?_, .inl rfl⟩
      by_cases hut : u = t
      · rw [hut]
        exact Board.setTask_self htask new
      · rw [Board.setTask_task, if_neg hut]
        exact of_decide_eq_true hstatus
  · rename_i hτ
    obtain ⟨u, st, hcurrent, hu, hstatus⟩ := h τ current old hsession
    have hut : u ≠ t := by
      rintro rfl
      rw [htask] at hu
      cases hu
      exact hτ rfl
    exact ⟨u, st, hcurrent, by rw [Board.setTask_task, if_neg hut]; exact hu, hstatus⟩

theorem linked_event (h : Linked b pending) {detail : TaskEventDetail}
    (heffect : EventEffect t σ b detail b') (htask : b.task t = some (σ, status))
    (hsuits : ∀ current old, b.session σ = some (current, old) → Suits b t σ status current detail) :
    Linked b' pending := by
  cases heffect with
  | accepted =>
    refine h.setTask htask fun current old hsession hcurrent => ?_
    have hrunning := hsuits current old hsession hcurrent
    obtain ⟨u, st, hu, hut, hstatus⟩ := h σ current old hsession
    rw [hcurrent] at hu
    cases hu
    rw [htask] at hut
    cases hut
    rwa [hrunning] at hstatus
  | failed =>
    refine h.setBoth htask fun current old hsession => ?_
    exact (hsuits current old hsession).imp (fun hself => hself) fun his => ⟨rfl, his⟩
  | cancelled =>
    refine h.setBoth htask fun current old hsession => ?_
    exact (hsuits current old hsession).imp (fun hself => hself) fun his => ⟨rfl, his⟩
  | completed => exact h.setBoth htask fun _ _ _ => .inl rfl
  | other hdetail => exact h

/-- A new task becomes the current one of its session, and both are queued. -/
theorem linked_enqueue (h : Linked b pending) (hfresh : b.task t = none)
    (htask : b'.task = Function.update b.task t (some (σ, .queued)))
    (hsession : b'.session = Function.update b.session σ (some (some t, .queued))) :
    Linked b' pending := by
  intro τ current old hget
  rw [hsession, Function.update_apply] at hget
  rw [htask]
  split at hget
  · rename_i hτ
    cases hget
    exact ⟨t, .queued, rfl, by rw [hτ, Function.update_self], .inl rfl⟩
  · obtain ⟨u, st, hcurrent, hu, hstatus⟩ := h τ current old hget
    refine ⟨u, st, hcurrent, ?_, hstatus⟩
    rw [Function.update_of_ne]
    · exact hu
    · rintro rfl
      rw [hfresh] at hu
      cases hu

/-- The session is set running when its current task is; it need not be pending any more. -/
theorem linked_sessionRunning (h : Linked b pending)
    (hcurrent : ∀ current old, b.session σ = some (current, old) → currentIs b σ current .running = true)
    (hsub : ∀ τ, τ ≠ σ → pending τ → pending' τ) : Linked (b.setSession σ id .running) pending' := by
  intro τ current old hsession
  rw [Board.setSession_session] at hsession
  rw [Board.setSession_task]
  split at hsession
  · rename_i hτ
    obtain ⟨⟨cur, st⟩, hold, heq⟩ := Option.map_eq_some_iff.mp hsession
    cases heq
    obtain ⟨u, hu, hstatus⟩ := (Option.any_eq_true _ _).mp (hcurrent cur st hold)
    exact ⟨u, .running, hu, by rw [hτ]; exact of_decide_eq_true hstatus, .inl rfl⟩
  · rename_i hτ
    obtain ⟨u, st, hcurrent, hu, hstatus⟩ := h τ current old hsession
    exact ⟨u, st, hcurrent, hu, hstatus.imp_right (hsub τ hτ)⟩

/-- The tasks stay in their sessions. -/
def Stays (b b' : Board) : Prop :=
  ∀ t σ status, b.task t = some (σ, status) → ∃ status', b'.task t = some (σ, status')

theorem stays_setTask (b : Board) (t : String) (status : TaskStatus) : Stays b (b.setTask t status) := by
  intro u σ old hu
  rw [Board.setTask_task]
  split
  · rename_i heq
    rw [← heq, hu]
    exact ⟨status, rfl⟩
  · exact ⟨old, hu⟩

theorem stays_event {detail : TaskEventDetail} (heffect : EventEffect t σ b detail b') : Stays b b' := by
  cases heffect with
  | accepted => exact stays_setTask b t .running
  | failed => exact stays_setTask b t .failed
  | cancelled => exact stays_setTask b t .cancelled
  | completed => exact stays_setTask b t .completed
  | other hdetail => exact fun u τ old hu => ⟨old, hu⟩

/-- What a transaction does to the board. -/
theorem effect_apply (hk : Keyed db) {tx : Transaction} {inner : Settings} (hdispatch : dispatches tx = false)
    (h : tx.apply inner db = some db') : boardOf db' = boardOf db ∨
    (∃ e ∈ eventOf db tx, ∃ σ status, db.violatesSource e.1.taskId e.2 = false ∧
      (boardOf db).task e.1.taskId = some (σ, status) ∧ status.isTerminal = false ∧
      EventEffect e.1.taskId σ (boardOf db) e.1.detail (boardOf db')) ∨
    ∃ t σ, (boardOf db).task t = none ∧
      (boardOf db').task = Function.update (boardOf db).task t (some (σ, .queued)) ∧
      (boardOf db').session = Function.update (boardOf db).session σ (some (some t, .queued)) := by
  have hpersist : ∀ now resultId stored source, (stored, source) ∈ eventOf db tx →
      db' = (persistTransaction inner now resultId stored source db).2 → boardOf db' = boardOf db ∨
      ∃ e ∈ eventOf db tx, ∃ σ status, db.violatesSource e.1.taskId e.2 = false ∧
        (boardOf db).task e.1.taskId = some (σ, status) ∧ status.isTerminal = false ∧
        EventEffect e.1.taskId σ (boardOf db) e.1.detail (boardOf db') := by
    intro now resultId stored source hevent heq
    rw [heq]
    rcases effect_persist inner now resultId stored source hk with
      hsame | ⟨σ, status, htask, hopen, hfresh, heffect⟩
    · exact .inl hsame
    · exact .inr ⟨_, hevent, σ, status, hfresh, htask, hopen, heffect⟩
  cases tx with
  | single tx =>
    cases tx with
    | enqueue new =>
      obtain ⟨σ, hfresh, htask, hsession⟩ := effect_enqueue h
      exact .inr (.inr ⟨_, σ, hfresh, htask, hsession⟩)
    | setQueueJobId taskId jobId =>
      cases h
      exact .inl (board_updateTask_same fun row => ⟨rfl, rfl⟩)
    | incrementAttempt taskId =>
      cases h
      exact .inl (board_updateTask_same fun row => ⟨rfl, rfl⟩)
    | dispatch taskId runId streamUrl now => cases hdispatch
    | setSessionRunning sessionId => cases hdispatch
    | archive row =>
      cases h
      exact .inl rfl
  | persist event archived source now resultId =>
    obtain ⟨prepared, hprepared, h⟩ := Option.bind_eq_some_iff.mp h
    cases h
    have hevent : (prepared.stored, source) ∈ eventOf db (.persist event archived source now resultId) := by
      simp [eventOf, hprepared]
    exact (hpersist now resultId _ _ hevent rfl).imp_right .inl
  | failTask taskId code message now resultId =>
    obtain ⟨event, hevent, h⟩ := Option.bind_eq_some_iff.mp h
    cases h
    have hmem : (event, none) ∈ eventOf db (.failTask taskId code message now resultId) := by
      simp [eventOf, hevent]
    exact (hpersist now resultId _ _ hmem rfl).imp_right .inl
  | cancelTask userId taskId now resultId =>
    obtain ⟨task, htask, h⟩ := Option.bind_eq_some_iff.mp h
    split at h
    · rename_i hguard
      cases h
      have hmem : (cancelTaskEvent task now, none) ∈ eventOf db (.cancelTask userId taskId now resultId) := by
        simp [eventOf, htask, hguard]
      exact (hpersist now resultId _ _ hmem rfl).imp_right .inl
    · cases h

/-- The attempt has read its task. -/
def Attempt.hasFound (attempt : Attempt) : Bool :=
  match attempt.phase with
  | .finding | .returned | .threw _ _ => false
  | _ => true

/-- What one step of an attempt does to the board. -/
inductive Moves (db : Database) (attempt : Attempt) : Answer → Database → Attempt → Prop
  | quiet {answer : Answer} {db' : Database} {next : Attempt} (hkeyed : Keyed db') (hboard : boardOf db' = boardOf db)
      (hold : Attempt.updatesSession attempt = false) (hnew : Attempt.updatesSession next = false)
      (hfound : Attempt.hasFound next = true → next.taskId = attempt.taskId ∧
        (Attempt.hasFound attempt = true ∧ next.sessionId = attempt.sessionId ∨
          ∃ status, (boardOf db).task attempt.taskId = some (next.sessionId, status))) :
      Moves db attempt answer db' next
  | dispatch {answer : Answer} {db' : Database} {next : Attempt} (hkeyed : Keyed db')
      (hboard : boardOf db' = (boardOf db).setTask attempt.taskId .running)
      (hold : Attempt.hasFound attempt = true) (hsession : Attempt.updatesSession attempt = false)
      (hnew : Attempt.updatesSession next = true)
      (htask : next.taskId = attempt.taskId ∧ next.sessionId = attempt.sessionId) :
      Moves db attempt answer db' next
  | session {now : String} {db' : Database} {next : Attempt} (hkeyed : Keyed db')
      (hboard : boardOf db' = (boardOf db).setSession attempt.sessionId id .running)
      (hold : Attempt.updatesSession attempt = true) (hnew : Attempt.atRest next = true) :
      Moves db attempt (.database now) db' next

theorem moves_next {attempt next : Attempt} {answer : Answer} {outputs : List Output} (hk : Keyed db)
    (h : attempt.next settings db answer = some (db', next, outputs)) : Moves db attempt answer db' next := by
  have hmoves := attemptMoves_next h
  obtain ⟨taskId, sessionId, phase⟩ := attempt
  cases hmoves with
  | skip => exact .quiet hk rfl rfl rfl fun hfound => by cases hfound
  | @found now task htask =>
    refine .quiet hk rfl rfl rfl fun _ => ⟨rfl, .inr ⟨task.status, ?_⟩⟩
    simp [boardOf, htask]
  | count hdb =>
    have hkeyed := (unlogged_single hdb).keyed hk
    cases hdb
    exact .quiet hkeyed (board_updateTask_same fun row => ⟨rfl, rfl⟩) rfl rfl fun _ => ⟨rfl, .inl ⟨rfl, rfl⟩⟩
  | unfit => exact .quiet hk rfl rfl rfl fun hfound => by cases hfound
  | execute => exact .quiet hk rfl rfl rfl fun _ => ⟨rfl, .inl ⟨rfl, rfl⟩⟩
  | unavailable => exact .quiet hk rfl rfl rfl fun hfound => by cases hfound
  | responded => exact .quiet hk rfl rfl rfl fun _ => ⟨rfl, .inl ⟨rfl, rfl⟩⟩
  | failed => exact .quiet hk rfl rfl rfl fun hfound => by cases hfound
  | dispatch hqueued hdb =>
    have hkeyed := (unlogged_single hdb).keyed hk
    cases hdb
    refine .dispatch hkeyed ?_ rfl rfl rfl ⟨rfl, rfl⟩
    rw [effect_dispatch, if_pos hqueued]
  | tooLate => exact .quiet hk rfl rfl rfl fun _ => ⟨rfl, .inl ⟨rfl, rfl⟩⟩
  | relay hdb =>
    have hkeyed := (unlogged_single hdb).keyed hk
    cases hdb
    exact .session hkeyed (board_updateSession fun row => ⟨rfl, rfl⟩) rfl rfl
  | settled => exact .quiet hk rfl rfl rfl fun hfound => by cases hfound

/-- An attempt has still to set the session running. -/
def Pending (attempts : OrderedMap Nat Attempt) (σ : String) : Prop := ∃ a attempt,
  attempts.get a = some attempt ∧ Attempt.updatesSession attempt = true ∧ attempt.sessionId = σ

structure Inv (s : System) : Prop where
  keyed : Keyed s.db
  linked : Linked s.board (Pending s.attempts)
  attempts : ∀ a attempt, s.attempts.get a = some attempt → Attempt.hasFound attempt = true →
    ∃ status, s.board.task attempt.taskId = some (attempt.sessionId, status)

theorem inv_init : Inv .init where
  keyed := fun u task h => by cases h
  linked := fun σ current status h => by cases h
  attempts := fun a attempt h => by cases h

theorem Inv.coherentAtRest (h : Inv s) : CoherentAtRest s := by
  intro hrest σ session hget
  have hsession : s.board.session σ = some (session.currentTaskId, session.status) := by
    simp [System.board, boardOf, hget]
  obtain ⟨t, status, hcurrent, htask, hstatus⟩ := h.linked σ _ _ hsession
  obtain ⟨task, hrow, heq⟩ := Option.map_eq_some_iff.mp htask
  cases heq
  refine ⟨t, task, hcurrent, hrow, rfl, hstatus.resolve_right ?_⟩
  rintro ⟨a, attempt, hattempt, hupdates, -⟩
  have := hrest attempt ((OrderedMap.mem_values_iff _ _).mpr ⟨a, hattempt⟩)
  cases hphase : attempt.phase <;> simp [Attempt.updatesSession, Attempt.atRest, hphase] at hupdates this

/-- The attempts that the invariant speaks of, after one of them has moved. -/
theorem Inv.found_set (h : Inv s) (hstays : Stays s.board b') {a : Nat} {next : Attempt}
    (hnext : Attempt.hasFound next = true → ∃ status, b'.task next.taskId = some (next.sessionId, status)) :
    ∀ c attempt, (s.attempts.set a next).get c = some attempt → Attempt.hasFound attempt = true →
      ∃ status, b'.task attempt.taskId = some (attempt.sessionId, status) := by
  intro c attempt hget hfound
  rw [OrderedMap.get_set] at hget
  split at hget
  · cases hget
    exact hnext hfound
  · obtain ⟨status, htask⟩ := h.attempts c attempt hget hfound
    exact hstays _ _ _ htask

/-- An attempt that does not update a session keeps the others pending. -/
theorem pending_set {attempts : OrderedMap Nat Attempt} {a : Nat} {attempt next : Attempt}
    (hget : attempts.get a = some attempt) (hold : Attempt.updatesSession attempt = false)
    (h : Pending attempts σ) : Pending (attempts.set a next) σ := by
  obtain ⟨c, other, hother, hupdates, hsession⟩ := h
  refine ⟨c, other, ?_, hupdates, hsession⟩
  rw [OrderedMap.get_set_other]
  · exact hother
  · rintro rfl
    rw [hget] at hother
    cases hother
    rw [hold] at hupdates
    cases hupdates

theorem inv_transaction (h : Inv s) {tx : Transaction} (hok : InStep s (.transaction tx))
    (hdispatch : dispatches tx = false) {db : Database}
    (hdb : tx.apply settings.toSettings s.db = some db) : Inv { s with db } := by
  have hkeyed := (apply_keeps h.keyed hdb).keyed
  rcases effect_apply h.keyed hdispatch hdb with
    hsame | ⟨e, he, σ, status, hfresh, htask, hopen, heffect⟩ | ⟨t, σ, hfresh, htask, hsession⟩
  · have hboard : ({ s with db } : System).board = s.board := hsame
    exact ⟨hkeyed, by rw [hboard]; exact h.linked, by rw [hboard]; exact h.attempts⟩
  · refine ⟨hkeyed, linked_event h.linked heffect htask fun current old hget => ?_, ?_⟩
    · exact hok e he hfresh (σ, status) htask hopen (current, old) hget
    · intro a attempt hget hfound
      obtain ⟨old, hold⟩ := h.attempts a attempt hget hfound
      exact stays_event heffect _ _ _ hold
  · refine ⟨hkeyed, linked_enqueue h.linked hfresh htask hsession, fun a attempt hget hfound => ?_⟩
    obtain ⟨old, hold⟩ := h.attempts a attempt hget hfound
    refine ⟨old, ?_⟩
    rw [System.board, htask, Function.update_of_ne]
    · exact hold
    · intro heq
      rw [heq] at hold
      exact absurd (hfresh.symm.trans hold) (by simp)

theorem inv_attempt (h : Inv s) {a : Nat} {answer : Answer} {attempt next : Attempt} {db : Database}
    (hok : InStep s (.attempt a answer)) (hget : s.attempts.get a = some attempt)
    (hmoves : Moves s.db attempt answer db next) : Inv ⟨db, s.attempts.set a next⟩ := by
  cases hmoves with
  | quiet hkeyed hboard hold hnew hfound =>
    refine ⟨hkeyed, ?_, h.found_set (fun t σ status ht => ⟨status, ?_⟩) fun hnext => ?_⟩
    · rw [System.board, hboard]
      exact h.linked.mono fun σ => pending_set hget hold
    · rw [System.board, hboard]
      exact ht
    · obtain ⟨htask, hcase⟩ := hfound hnext
      rw [System.board, hboard, htask]
      rcases hcase with ⟨hattempt, hsession⟩ | hread
      · rw [hsession]
        exact h.attempts a attempt hget hattempt
      · exact hread
  | dispatch hkeyed hboard hold hsession hnew htask =>
    obtain ⟨status, hstatus⟩ := h.attempts a attempt hget hold
    have hpending : Pending (s.attempts.set a next) attempt.sessionId :=
      ⟨a, next, OrderedMap.get_set_same .., hnew, htask.2⟩
    refine ⟨hkeyed, ?_, h.found_set (show Stays s.board (boardOf db) from ?_) fun _ => ?_⟩
    · rw [System.board, hboard]
      have hlinked : Linked s.board (Pending (s.attempts.set a next)) := h.linked.mono fun σ =>
        pending_set hget hsession
      exact hlinked.setTask hstatus fun _ _ _ _ => .inr hpending
    · rw [hboard]
      exact stays_setTask _ _ _
    · rw [hboard, htask.1, htask.2]
      exact ⟨.running, Board.setTask_self hstatus .running⟩
  | session hkeyed hboard hold hnew =>
    refine ⟨hkeyed, ?_, h.found_set (show Stays s.board (boardOf db) from ?_) fun hfound => ?_⟩
    · rw [System.board, hboard]
      refine linked_sessionRunning h.linked (fun current old hsession => ?_) fun τ hτ => ?_
      · exact hok attempt hget hold (current, old) hsession
      · rintro ⟨c, other, hother, hupdates, hsession⟩
        refine ⟨c, other, ?_, hupdates, hsession⟩
        rw [OrderedMap.get_set_other]
        · exact hother
        · rintro rfl
          rw [hget] at hother
          cases hother
          exact hτ hsession.symm
    · rw [hboard]
      exact fun t σ status ht => ⟨status, ht⟩
    · cases hphase : next.phase <;> simp [Attempt.hasFound, Attempt.atRest, hphase] at hfound hnew

theorem inv_step {l : Label} (h : Inv s) (hok : InStep s l) (hstep : step settings s l = some s') : Inv s' := by
  cases l with
  | transaction tx =>
    simp only [step] at hstep
    split at hstep
    · cases hstep
    · rename_i hdispatch
      obtain ⟨db, hdb, hstep⟩ := Option.bind_eq_some_iff.mp hstep
      cases hstep
      exact inv_transaction h hok (by simpa using hdispatch) hdb
  | take a taskId =>
    simp only [step] at hstep
    split at hstep
    · rename_i hfresh
      cases hstep
      refine ⟨h.keyed, h.linked.mono fun σ => ?_, h.found_set (fun t σ status ht => ⟨status, ht⟩) fun hfound => ?_⟩
      · rintro ⟨c, other, hother, hupdates, hsession⟩
        refine ⟨c, other, ?_, hupdates, hsession⟩
        rw [OrderedMap.get_set_other]
        · exact hother
        · rintro rfl
          rw [hfresh] at hother
          cases hother
      · cases hfound
    · cases hstep
  | attempt a answer =>
    obtain ⟨attempt, hget, hstep⟩ := Option.bind_eq_some_iff.mp hstep
    obtain ⟨⟨db, next, outputs⟩, hnext, hstep⟩ := Option.bind_eq_some_iff.mp hstep
    cases hstep
    exact inv_attempt h hok hget (moves_next h.keyed hnext)

/-- The sessions are coherent at rest when every step is in step with the current tasks. -/
theorem coherent_of_inStep (settings : DispatchSettings) {ls : List Label}
    (hok : Along (step settings) InStep .init ls) :
    Throughout (step settings) CoherentAtRest .init ls :=
  throughout_of_along (fun _ h => h.coherentAtRest) (fun _ _ _ h hok hstep => inv_step h hok hstep)
    inv_init hok

instance decidableSuits (b : Board) (t σ : String) (status : TaskStatus) (current : Option String) :
    (detail : TaskEventDetail) → Decidable (Suits b t σ status current detail)
  | .accepted => inferInstanceAs (Decidable (current = some t → status = .running))
  | .failed _ _ => inferInstanceAs (Decidable (current = some t ∨ currentIs b σ current .failed = true))
  | .cancelled _ => inferInstanceAs (Decidable (current = some t ∨ currentIs b σ current .cancelled = true))
  | .stageChanged _ | .delta _ | .resultCreated _ | .completed => .isTrue trivial

instance decidableInStep (s : System) : (l : Label) → Decidable (InStep s l)
  | .transaction tx => inferInstanceAs (Decidable (∀ e ∈ eventOf s.db tx,
      s.db.violatesSource e.1.taskId e.2 = false → ∀ entry ∈ s.board.task e.1.taskId,
        entry.2.isTerminal = false → ∀ pair ∈ s.board.session entry.1,
          Suits s.board e.1.taskId entry.1 entry.2 pair.1 e.1.detail))
  | .attempt a (.database _) => inferInstanceAs (Decidable (∀ attempt ∈ s.attempts.get a,
      Attempt.updatesSession attempt = true → ∀ pair ∈ s.board.session attempt.sessionId,
        currentIs s.board attempt.sessionId pair.1 .running = true))
  | .take _ _ | .attempt _ (.inspected _) | .attempt _ (.responded _) | .attempt _ (.failed _ _)
  | .attempt _ .settled => .isTrue trivial

def twoTasks : DispatchSettings := ⟨⟨2, fun _ => true⟩, some "http://adapter"⟩

/-- While the first task of a session is queued, a follow-up becomes its current task. -/
def followUpWhileQueued : List Label :=
  [.transaction (.single (.enqueue ⟨"t", "u", none, "hello", .inr ("s", "hello")⟩)),
    .transaction (.single (.enqueue ⟨"t'", "u", some "t", "again", .inl "s"⟩))]

/-- Then the user cancels the first one. -/
theorem not_coherent_of_cancelled_parent :
    ¬ Throughout (step twoTasks) CoherentAtRest .init
      (followUpWhileQueued ++ [.transaction (.cancelTask "u" "t" "2026-01-01" "r")]) := by
  intro hcoherent
  have hend : (run (step twoTasks) .init
      (followUpWhileQueued ++ [.transaction (.cancelTask "u" "t" "2026-01-01" "r")])).any (fun s =>
        s.attempts.values.all Attempt.atRest && (s.db.sessions.get "s").any fun session =>
          session.currentTaskId = some "t'" && session.status = .cancelled &&
            s.db.status "t'" = some .queued) = true := by decide +kernel
  obtain ⟨s, hrun, hs⟩ := (Option.any_eq_true _ _).mp hend
  obtain ⟨hrest, hsession⟩ := Bool.and_eq_true_iff.mp hs
  obtain ⟨session, hget, hpair⟩ := (Option.any_eq_true _ _).mp hsession
  simp only [Bool.and_eq_true, decide_eq_true_eq] at hpair
  obtain ⟨⟨hcurrent, hcancelled⟩, hqueued⟩ := hpair
  obtain ⟨t, task, hcurrent', htask, -, hstatus⟩ :=
    hcoherent.last hrun (List.all_eq_true.mp hrest) "s" session hget
  rw [hcurrent] at hcurrent'
  cases hcurrent'
  rw [Database.status, htask, Option.map_some, ← hstatus, hcancelled] at hqueued
  cases hqueued

/-- A task is dispatched, and cancelled after its session has become running. -/
def cancelledWhileRunning : List Label :=
  [.transaction (.single (.enqueue ⟨"t", "u", none, "hello", .inr ("s", "hello")⟩)), .take 0 "t",
    .attempt 0 (.database "2026-01-01"), .attempt 0 (.database "2026-01-01"), .attempt 0 (.inspected none),
    .attempt 0 (.responded ⟨"r", "/stream"⟩), .attempt 0 (.database "2026-01-01"),
    .attempt 0 (.database "2026-01-01"), .transaction (.cancelTask "u" "t" "2026-01-01" "r")]

theorem coherent_cancelled :
    (run (step twoTasks) .init cancelledWhileRunning).any (fun s =>
      s.attempts.values.all Attempt.atRest && s.db.status "t" = some .cancelled) = true ∧
    Throughout (step twoTasks) CoherentAtRest .init cancelledWhileRunning :=
  ⟨by decide +kernel, coherent_of_inStep twoTasks (by decide +kernel)⟩

end SessionCoherence
