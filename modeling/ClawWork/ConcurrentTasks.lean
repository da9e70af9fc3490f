import ClawWork.EnqueueTask
import ClawWork.StatusFrames
import ClawWork.Transition

/-!
# The concurrent-task quota

No schedule of the statements of `enqueueTask` takes the number of a user's active
tasks over the limit: between its count and its commit a transaction holds the
user's lock, and nothing but such a transaction makes a task active.
-/

namespace ConcurrentTasks

open SharedTypes TaskStore TasksService ServiceTables StatusFrames DailyQuota ReadCommitted EnqueueTask
  Transition

variable {settings : Settings} {db db' : Database} {u : String}

/-- No user has more active tasks than before. -/
def NoMore (db db' : Database) : Prop := ∀ u, db'.activeTasks u ≤ db.activeTasks u

theorem noMore_of_tasks (h : db'.tasks = db.tasks) : NoMore db db' := by
  intro u
  apply Nat.le_of_eq
  rw [Database.activeTasks, Database.activeTasks, h]

theorem activeTasks_eq_total (db : Database) (u : String) :
    db.activeTasks u = db.tasks.total fun task => (task.userId = u && !task.status.isTerminal).toNat :=
  OrderedMap.countP_values _ _

/-- A row that keeps its user and, once ended, stays ended. -/
def KeepsEnd (row row' : Task) : Prop :=
  row'.userId = row.userId ∧ (row.status.isTerminal = true → row'.status.isTerminal = true)

theorem noMore_updateTask {id : String} {data : Task → Task}
    (h : ∀ row ∈ db.tasks.get id, KeepsEnd row (data row)) : NoMore db (db.updateTask id data) := by
  intro u
  unfold Database.updateTask
  cases hget : db.tasks.get id with
  | none => exact Nat.le_refl _
  | some row =>
    obtain ⟨huser, hend⟩ := h row hget
    have hset := OrderedMap.total_set
      (fun task : Task => (task.userId = u && !task.status.isTerminal).toNat) db.tasks id (data row)
    rw [hget, Option.map_some, Option.getD_some] at hset
    have hle : (decide ((data row).userId = u) && !(data row).status.isTerminal).toNat ≤
        (decide (row.userId = u) && !row.status.isTerminal).toNat := by
      rw [huser]
      cases hrow : row.status.isTerminal with
      | true => simp [hend hrow]
      | false => cases decide (row.userId = u) <;> simp [Bool.toNat_le]
    rw [activeTasks_eq_total, activeTasks_eq_total]
    dsimp only
    omega

theorem taskUpdate_userId (now : String) (task : Task) (stored : TaskStreamEvent) (row : Task) :
    (taskUpdate now task stored row).userId = row.userId := by
  unfold taskUpdate
  split <;> rfl

/-- The tasks after the statements that follow the insertion. -/
theorem projectEvent_tasks {now resultId : String} {task : Task} {stored : TaskStreamEvent}
    (h : projectEvent settings now resultId task stored db = some db') :
    db'.tasks = db.tasks ∨ db'.tasks = (db.updateTask task.id (taskUpdate now task stored)).tasks := by
  unfold projectEvent at h
  split at h
  · cases h
    exact .inr rfl
  · cases h
    exact .inr (Database.updateSession_tasks ..)
  · cases h
    exact .inr (Database.updateSession_tasks ..)
  · obtain ⟨events, -, h⟩ := Option.bind_eq_some_iff.mp h
    dsimp only at h
    split at h
    · cases h
    · cases h
      right
      rw [Database.updateSession_tasks]
      unfold Database.updateTask linkArtifacts
      dsimp only
      cases db.tasks.get task.id <;> rfl
  all_goals
    cases h
    exact .inl rfl

theorem noMore_persist (now resultId : String) (stored : TaskStreamEvent) (source : Option String)
    (hk : Keyed db) : NoMore db (persistTransaction settings now resultId stored source db).2 := by
  rcases persistTransaction_cases settings now resultId stored source db with
    ⟨heq, -⟩ | heq | ⟨task, db', htask, hopen, -, hproject, heq⟩
  · rw [heq]
    exact noMore_of_tasks rfl
  · rw [heq]
    exact noMore_of_tasks rfl
  · rw [heq]
    rcases projectEvent_tasks hproject with htasks | htasks
    · exact noMore_of_tasks htasks
    · have hid := hk.get htask
      have hstored : (db.createEvent stored.taskId source stored).tasks = db.tasks := rfl
      have hupdate : NoMore (db.createEvent stored.taskId source stored)
          ((db.createEvent stored.taskId source stored).updateTask task.id
            (taskUpdate now task stored)) := by
        apply noMore_updateTask
        intro row hrow
        rw [hstored, hid, htask] at hrow
        cases hrow
        refine ⟨taskUpdate_userId now task stored task, fun hterm => ?_⟩
        rw [hopen] at hterm
        cases hterm
      intro u
      have := hupdate u
      rw [Database.activeTasks, Database.activeTasks, hstored] at this
      rw [Database.activeTasks, Database.activeTasks, htasks]
      exact this

/-- Only the creation of a task makes a task active. -/
theorem noMore_apply (hk : Keyed db) {tx : TasksService.Transaction} (hcreates : creates tx = false)
    (h : tx.apply settings db = some db') : NoMore db db' := by
  cases tx with
  | single tx =>
    cases tx with
    | enqueue new => cases hcreates
    | setQueueJobId taskId jobId =>
      cases h
      exact noMore_updateTask fun row _ => ⟨rfl, fun hterm => hterm⟩
    | incrementAttempt taskId =>
      cases h
      exact noMore_updateTask fun row _ => ⟨rfl, fun hterm => hterm⟩
    | dispatch taskId runId streamUrl now =>
      cases h
      apply noMore_updateTask
      intro row _
      constructor
      · split <;> rfl
      · intro hterm
        split
        · rename_i hqueued
          rw [hqueued] at hterm
          cases hterm
        · exact hterm
    | setSessionRunning sessionId =>
      cases h
      exact noMore_of_tasks (Database.updateSession_tasks ..)
    | archive row =>
      cases h
      exact noMore_of_tasks rfl
  | persist event archived source now resultId =>
    obtain ⟨prepared, -, h⟩ := Option.bind_eq_some_iff.mp h
    cases h
    exact noMore_persist now resultId _ _ hk
  | failTask taskId code message now resultId =>
    obtain ⟨event, -, h⟩ := Option.bind_eq_some_iff.mp h
    cases h
    exact noMore_persist now resultId _ _ hk
  | cancelTask userId taskId now resultId =>
    obtain ⟨task, -, h⟩ := Option.bind_eq_some_iff.mp h
    split at h
    · cases h
      exact noMore_persist now resultId _ _ hk
    · cases h

/-- Writes that add at most `n` active tasks, all of them to the user `u`. -/
structure Adds (u : String) (n : Nat) (w : Tables → Tables) : Prop where
  active : ∀ db v, (w db).activeTasks v ≤ db.activeTasks v + if v = u then n else 0
  keyed : ∀ db : Tables, Keyed db.toDatabase → Keyed (w db).toDatabase

theorem Adds.none (u : String) (n : Nat) : Adds u n (applyWrites []) where
  active := fun _ _ => Nat.le_add_right _ _
  keyed := fun _ h => h

/-- One more write. -/
theorem Adds.snoc {n m : Nat} {ws : List (Tables → Tables)} {w : Tables → Tables}
    (h : Adds u n (applyWrites ws)) (hw : Adds u m w) : Adds u (n + m) (applyWrites (ws ++ [w])) where
  active := by
    intro db v
    rw [applyWrites_append, applyWrites_cons, applyWrites_nil]
    have h₁ := h.active db v
    have h₂ := hw.active (applyWrites ws db) v
    split at h₁ <;> split at h₂ <;> split <;> omega
  keyed := by
    intro db hk
    rw [applyWrites_append]
    exact hw.keyed _ (h.keyed db hk)

theorem adds_of_tasks {w : Tables → Tables} (h : ∀ db, (w db).tasks = db.tasks) : Adds u 0 w where
  active := by
    intro db v
    have := noMore_of_tasks (h db) v
    omega
  keyed := by
    intro db hk
    rw [Keyed, h db]
    exact hk

/-- The new task is the only one that becomes active. -/
theorem adds_createTask (task : Task) (files : List File) :
    Adds task.userId 1 (createTask task files) where
  active := by
    intro db v
    have hset := OrderedMap.total_set
      (fun task : Task => (task.userId = v && !task.status.isTerminal).toNat) db.tasks task.id task
    rw [activeTasks_eq_total, activeTasks_eq_total]
    have hone : (decide (task.userId = v) && !task.status.isTerminal).toNat ≤
        if v = task.userId then 1 else 0 := by
      split
      · exact Bool.toNat_le _
      · rename_i hne
        simp [Ne.symm hne]
    dsimp only [createTask]
    omega
  keyed := by
    intro db hk v row hrow
    dsimp only [createTask] at hrow
    rw [OrderedMap.get_set] at hrow
    split at hrow
    · rename_i heq
      cases hrow
      exact heq.symm
    · exact hk v row hrow

/-- The phases in which the call holds the lock of its user. -/
def Phase.locked : Phase → Bool
  | .counting _ | .findingSession _ | .creatingTask _ _ | .updatingSession _ | .committing _ => true
  | _ => false

/-- The phases after the count. -/
def Phase.counted : Phase → Bool
  | .findingSession _ | .creatingTask _ _ | .updatingSession _ | .committing _ => true
  | _ => false

/-- The tasks that the transaction has created. -/
def Phase.added : Phase → Nat
  | .updatingSession _ | .committing _ => 1
  | _ => 0

/-- What holds of a call at any time. -/
structure CallInv (settings : QuotaSettings) (server : TaskServer) (i : Nat) (call : Call) : Prop where
  lock : Phase.locked call.phase = true → server.locks (.tasks call.new.userId) = some i
  room : Phase.counted call.phase = true →
    server.db.activeTasks call.new.userId < settings.concurrentLimit
  writes : Adds call.new.userId (Phase.added call.phase) (applyWrites (server.writes i))
  outside : Phase.counted call.phase = false → server.writes i = []

structure Inv (settings : QuotaSettings) (s : System) : Prop where
  keyed : Keyed s.db.toDatabase
  bound : ∀ u, s.db.activeTasks u ≤ settings.concurrentLimit
  calls : ∀ i call, s.calls.get i = some call → CallInv settings s.server i call
  unused : ∀ i, s.calls.get i = none → s.server.writes i = []

theorem inv_init (settings : QuotaSettings) : Inv settings .init where
  keyed := fun u task h => by cases h
  bound := fun u => Nat.zero_le _
  calls := fun i call h => by cases h
  unused := fun _ _ => rfl

/-- What one step of a call does on the server. -/
inductive Moves (settings : QuotaSettings) (i : Nat) (server : TaskServer) (call : Call) :
    TaskServer → Call → Prop
  /-- Outside of the transaction. -/
  | outside {call' : Call} (hnew : call'.new = call.new) (hold : Phase.counted call.phase = false)
      (hlocked : Phase.locked call'.phase = false) : Moves settings i server call server call'
  | locks {server' : TaskServer} {call' : Call} (hnew : call'.new = call.new)
      (hold : Phase.counted call.phase = false) (hphase : Phase.counted call'.phase = false)
      (hlock : server.acquire i (.tasks call.new.userId) = some server') :
      Moves settings i server call server' call'
  | counts {call' : Call} (hnew : call'.new = call.new) (hlocked : Phase.locked call.phase = true)
      (hold : Phase.counted call.phase = false) (hadded : Phase.added call'.phase = 0)
      (hroom : (server.view i).activeTasks call.new.userId < settings.concurrentLimit) :
      Moves settings i server call server call'
  | finds {call' : Call} (hnew : call'.new = call.new) (hlocked : Phase.locked call.phase = true)
      (hold : Phase.counted call.phase = true) (hphase : Phase.counted call'.phase = true)
      (hadded : Phase.added call'.phase = Phase.added call.phase) : Moves settings i server call server call'
  | writes {w : Tables → Tables} {m : Nat} {call' : Call} (hnew : call'.new = call.new)
      (hlocked : Phase.locked call.phase = true) (hold : Phase.counted call.phase = true)
      (hphase : Phase.counted call'.phase = true)
      (hadded : Phase.added call'.phase = Phase.added call.phase + m) (hw : Adds call.new.userId m w) :
      Moves settings i server call (server.write i w) call'
  | leaves {call' : Call} (hnew : call'.new = call.new) (hlocked : Phase.locked call'.phase = false) :
      Moves settings i server call (server.rollback i) call'
  | commits {call' : Call} (hnew : call'.new = call.new) (hlocked : Phase.locked call.phase = true)
      (hold : Phase.counted call.phase = true) (hadded : Phase.added call.phase = 1)
      (hphase : Phase.locked call'.phase = false) :
      Moves settings i server call (server.commit i) call'

variable {qs : QuotaSettings} {server server' : TaskServer} {redis redis' : Redis} {i : Nat}
  {call call' : Call}

theorem moves_next {answer : Answer} (h : call.next qs i server redis answer = some (server', redis', call')) :
    Moves qs i server call server' call' := by
  obtain ⟨new, fileIds, reservation, phase⟩ := call
  have hmoves := callMoves_next h
  dsimp only at hmoves
  cases hmoves with
  | found | missing | refused | released => exact .outside rfl rfl rfl
  | reserved hreserve => exact .outside rfl rfl (by split <;> rfl)
  | locks hlock => exact .locks rfl rfl rfl hlock
  | counts hroom => exact .counts rfl rfl rfl rfl hroom
  | findsSession => exact .finds rfl rfl rfl rfl rfl
  | createsSession => exact .writes rfl rfl rfl rfl rfl (adds_of_tasks fun db => rfl)
  | createsTask hcreatable =>
    rename_i files sessionId
    exact .writes rfl rfl rfl rfl rfl (adds_createTask (newTask new sessionId) files)
  | updatesSession => exact .writes rfl rfl rfl rfl rfl (adds_of_tasks fun db => Database.updateSession_tasks ..)
  | commits => exact .commits rfl rfl rfl rfl rfl
  | leaves hin => exact .leaves rfl rfl
  | fails hout =>
    have hold : Phase.counted phase = false := by
      cases phase <;> first | rfl | cases hout
    exact .outside rfl hold rfl

theorem locked_of_counted {phase : Phase} (h : Phase.counted phase = true) :
    Phase.locked phase = true := by
  cases phase <;> first | rfl | cases h

theorem counted_of_locked {phase : Phase} (h : Phase.locked phase = false) :
    Phase.counted phase = false := by
  cases phase <;> first | rfl | cases h

theorem added_of_counted {phase : Phase} (h : Phase.counted phase = false) : Phase.added phase = 0 := by
  cases phase <;> first | rfl | cases h

/-- A call that is outside of its transaction, or has only the lock. -/
theorem callInv_outside (hlock : Phase.locked call.phase = true →
      server.locks (.tasks call.new.userId) = some i)
    (hphase : Phase.counted call.phase = false) (hwrites : server.writes i = []) :
    CallInv qs server i call where
  lock := hlock
  room := by
    intro hcounted
    rw [hphase] at hcounted
    cases hcounted
  writes := by
    rw [hwrites, added_of_counted hphase]
    exact .none _ 0
  outside := fun _ => hwrites

variable {s s' : System}

/-- Only the lock of its user lets a transaction of a call add a task, so the other calls still have
the room that they have counted. -/
theorem Inv.move (h : Inv qs s) (hkeyed : Keyed server'.db.toDatabase)
    (hbound : ∀ u, server'.db.activeTasks u ≤ qs.concurrentLimit)
    (hdb : ∀ u, s.server.locks (.tasks u) ≠ some i → server'.db.activeTasks u ≤ s.db.activeTasks u)
    (hothers : ∀ j, j ≠ i → server'.writes j = s.server.writes j)
    (hlocks : ∀ j, j ≠ i → ∀ k, s.server.locks k = some j → server'.locks k = some j)
    (hown : CallInv qs server' i call') : Inv qs ⟨server', redis', s.calls.set i call'⟩ where
  keyed := hkeyed
  bound := hbound
  calls := by
    intro j other hother
    rw [OrderedMap.get_set] at hother
    split at hother
    · rename_i heq
      cases hother
      rw [heq]
      exact hown
    · rename_i hne
      have hcall := h.calls j other hother
      refine ⟨fun hlocked => hlocks j hne _ (hcall.lock hlocked), fun hcounted => ?_, ?_, ?_⟩
      · have hlock := hcall.lock (locked_of_counted hcounted)
        have hle := hdb other.new.userId (by rw [hlock]; exact fun heq => hne (Option.some.inj heq))
        exact Nat.lt_of_le_of_lt hle (hcall.room hcounted)
      · rw [hothers j hne]
        exact hcall.writes
      · rw [hothers j hne]
        exact hcall.outside
  unused := by
    intro j hj
    rw [OrderedMap.get_set] at hj
    split at hj
    · cases hj
    · rename_i hne
      rw [hothers j hne]
      exact h.unused j hj

theorem inv_advance (h : Inv qs s) (hget : s.calls.get i = some call)
    (hmoves : Moves qs i s.server call server' call') : Inv qs ⟨server', redis', s.calls.set i call'⟩ := by
  have hcall := h.calls i call hget
  have hsame : ∀ u, s.server.locks (.tasks u) ≠ some i → s.db.activeTasks u ≤ s.db.activeTasks u :=
    fun _ _ => Nat.le_refl _
  cases hmoves with
  | outside hnew hold hlocked =>
    refine h.move h.keyed h.bound hsame (fun _ _ => rfl) (fun _ _ _ hk => hk) ?_
    refine callInv_outside (fun hlock => ?_) (counted_of_locked hlocked) (hcall.outside hold)
    rw [hlocked] at hlock
    cases hlock
  | locks hnew hold hphase hlock =>
    obtain ⟨hdb, hwrites, hlocks⟩ := Server.acquire_eq_some hlock
    refine h.move (by rw [hdb]; exact h.keyed) (by rw [hdb]; exact h.bound) (by rw [hdb]; exact hsame)
      (fun j _ => by rw [hwrites]) (fun j _ k hk => Server.acquire_keeps hlock hk) ?_
    refine callInv_outside (fun _ => ?_) hphase (by rw [hwrites]; exact hcall.outside hold)
    rw [hlocks, hnew, Function.update_self]
  | counts hnew hlocked hold hadded hroom =>
    have hwrites := hcall.outside hold
    refine h.move h.keyed h.bound hsame (fun _ _ => rfl) (fun _ _ _ hk => hk) ⟨?_, ?_, ?_, ?_⟩
    · intro _
      rw [hnew]
      exact hcall.lock hlocked
    · intro _
      rw [hnew]
      rwa [Server.view_of_writes_nil hwrites] at hroom
    · rw [hwrites, hadded]
      exact .none _ 0
    · exact fun _ => hwrites
  | finds hnew hlocked hold hphase hadded =>
    refine h.move h.keyed h.bound hsame (fun _ _ => rfl) (fun _ _ _ hk => hk) ⟨?_, ?_, ?_, ?_⟩
    · intro _
      rw [hnew]
      exact hcall.lock hlocked
    · intro _
      rw [hnew]
      exact hcall.room hold
    · rw [hnew, hadded]
      exact hcall.writes
    · intro hcounted
      rw [hphase] at hcounted
      cases hcounted
  | writes hnew hlocked hold hphase hadded hw =>
    refine h.move h.keyed h.bound hsame (fun j hne => ?_) (fun _ _ _ hk => hk) ⟨?_, ?_, ?_, ?_⟩
    · rw [Server.write_writes, if_neg hne]
    · intro _
      rw [hnew]
      exact hcall.lock hlocked
    · intro _
      rw [hnew]
      exact hcall.room hold
    · rw [Server.write_writes, if_pos rfl, hnew, hadded]
      exact hcall.writes.snoc hw
    · intro hcounted
      rw [hphase] at hcounted
      cases hcounted
  | leaves hnew hlocked =>
    refine h.move h.keyed h.bound hsame (fun j hne => ?_) (fun j hne k hk => ?_) ?_
    · rw [Server.rollback_writes, if_neg hne]
    · exact Server.rollback_locks_other hne hk
    · refine callInv_outside (fun hlock => ?_) (counted_of_locked hlocked) ?_
      · rw [hlocked] at hlock
        cases hlock
      · rw [Server.rollback_writes, if_pos rfl]
  | commits hnew hlocked hold hadded hphase =>
    have hroom := hcall.room hold
    have hlock := hcall.lock hlocked
    have hactive := hcall.writes.active s.db
    rw [hadded] at hactive
    refine h.move (hcall.writes.keyed _ h.keyed) (fun u => ?_) (fun u hu => ?_) (fun j hne => ?_)
      (fun j hne k hk => ?_) ?_
    · have hle := hactive u
      have hbound := h.bound u
      rw [Server.commit_db, Server.view]
      split at hle
      · rename_i heq
        rw [heq] at hle ⊢
        exact Nat.le_trans hle hroom
      · exact Nat.le_trans hle hbound
    · have hle := hactive u
      rw [Server.commit_db, Server.view]
      split at hle
      · rename_i heq
        rw [heq] at hu
        exact absurd hlock hu
      · exact hle
    · rw [Server.commit_writes, Server.rollback_writes, if_neg hne]
    · exact Server.rollback_locks_other hne hk
    · refine callInv_outside (fun hlock => ?_) (counted_of_locked hphase) ?_
      · rw [hphase] at hlock
        cases hlock
      · rw [Server.commit_writes, Server.rollback_writes, if_pos rfl]

theorem inv_step {l : Label} (h : Inv qs s) (hstep : step qs s l = some s') : Inv qs s' := by
  cases l with
  | call i new fileIds =>
    simp only [step] at hstep
    split at hstep
    · rename_i hfresh
      cases hstep
      refine h.move h.keyed h.bound (fun _ _ => Nat.le_refl _) (fun _ _ => rfl) (fun _ _ _ hk => hk) ?_
      exact callInv_outside (fun hlock => by cases hlock) rfl (h.unused i hfresh)
    · cases hstep
  | advance i answer =>
    obtain ⟨call, hget, hstep⟩ := Option.bind_eq_some_iff.mp hstep
    obtain ⟨⟨server, redis, call'⟩, hnext, hstep⟩ := Option.bind_eq_some_iff.mp hstep
    cases hstep
    exact inv_advance h hget (moves_next hnext)
  | transaction tx =>
    simp only [step] at hstep
    split at hstep
    · cases hstep
    · rename_i hcreates
      obtain ⟨db, hdb, hstep⟩ := Option.bind_eq_some_iff.mp hstep
      cases hstep
      have hless := noMore_apply h.keyed (by simpa using hcreates) hdb
      refine ⟨(apply_keeps h.keyed hdb).keyed, fun u => Nat.le_trans (hless u) (h.bound u), ?_, h.unused⟩
      intro j other hother
      have hcall := h.calls j other hother
      refine ⟨hcall.lock, fun hcounted => ?_, hcall.writes, hcall.outside⟩
      exact Nat.lt_of_le_of_lt (hless other.new.userId) (hcall.room hcounted)
  | wait ms =>
    cases hstep
    exact ⟨h.keyed, h.bound, h.calls, h.unused⟩

/-- The number of a user's active tasks never exceeds the limit. -/
theorem activeTasks_le_limit (settings : QuotaSettings) (ls : List Label) :
    Throughout (step settings) (fun s => ∀ u, s.db.activeTasks u ≤ settings.concurrentLimit) .init ls :=
  throughout_of_along (fun _ h => h.bound) (fun _ _ _ h _ hstep => inv_step h hstep)
    (inv_init settings) (along_true ls)

end ConcurrentTasks
