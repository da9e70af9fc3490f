import ClawWork.LogCommits
import ClawWork.Transition

/-!
# The versions of the results of a session

The statements of `task.completed` read the highest version of the session and insert
the next one, under the advisory lock of the session. `obtained` records the
transactions in the order in which they obtain that lock, by the id of the result
that each of them inserts.
-/

namespace ResultVersions

open SharedTypes TaskStore TasksService ReadCommitted PersistCalls Transition

structure Recorded where
  system : System
  /-- The session of a lock and the result id of the transaction. -/
  obtained : List (String × String)

def Recorded.init : Recorded := ⟨.init, []⟩

/-- The lock that the next step of a call obtains, if it is not blocked. -/
def obtains (s : System) : Label → Option (String × String)
  | .advance c => (s.calls c).bind fun call =>
    match call.phase with
    | .project _ task _ (.lockSession :: _) => some (task.sessionId, call.resultId)
    | _ => none
  | _ => none

def recordedStep (settings : Settings) (r : Recorded) (l : Label) : Option Recorded :=
  (step settings r.system l).map fun s => ⟨s, r.obtained ++ (obtains r.system l).toList⟩

/-- The result ids of the transactions that have obtained the lock of the session, in that order. -/
def obtainedOf (obtained : List (String × String)) (sessionId : String) : List String :=
  (obtained.filter fun entry => entry.1 = sessionId).map Prod.snd

/-- The committed results of a session. -/
def rowsOf (db : Database) (sessionId : String) : List TaskResult :=
  db.taskResults.filter fun row => row.sessionId = sessionId

/-- The committed results of the session have the versions 1 to n, in the order in which their
transactions obtained the lock, and the next insertion does not violate the unique index. -/
structure Versioned (sessionId : String) (r : Recorded) : Prop where
  gapless : (rowsOf r.system.db sessionId).map TaskResult.versionNo =
    List.range' 1 (rowsOf r.system.db sessionId).length
  ordered : ((rowsOf r.system.db sessionId).map TaskResult.id).Sublist (obtainedOf r.obtained sessionId)
  unique : ∀ c call prepared task id row todo, r.system.calls c = some call →
    call.phase = .project prepared task id (.createResult row :: todo) → row.sessionId = sessionId →
    ∀ old ∈ (r.system.server.view c).taskResults,
      ¬ (old.sessionId = row.sessionId ∧ old.versionNo = row.versionNo)

/-- Writes that add the rows to the results. -/
def Inserts (ws : List (Database → Database)) (rows : List TaskResult) : Prop :=
  ∀ db, (applyWrites ws db).taskResults = db.taskResults ++ rows

/-- The call holds the lock of the session and was the last to obtain it; the results are those of
transactions before it. -/
def Holds (server : Server Database Lock) (obtained : List (String × String)) (c : Nat) (resultId : String)
    (sessionId : String) : Prop :=
  server.locks (.advisory sessionId) = some c ∧
    ∃ before, obtainedOf obtained sessionId = before ++ [resultId] ∧
      ((rowsOf server.db sessionId).map TaskResult.id).Sublist before

/-- The row that comes next in the session. -/
def Next (db : Database) (resultId sessionId : String) (row : TaskResult) : Prop :=
  row.sessionId = sessionId ∧ row.id = resultId ∧ row.versionNo = (rowsOf db sessionId).length + 1

/-- The statements that have nothing to do with results. -/
def isPlain : Statement → Bool
  | .updateTask | .updateSession | .linkArtifacts => true
  | .lockSession | .findEvents | .findVersion _ _ | .createResult _ => false

def Plain (todo : List Statement) : Prop := ∀ statement ∈ todo, isPlain statement = true

/-- How far a transaction has come: the statements still to come, and the results it has inserted. -/
inductive Stage (server : Server Database Lock) (obtained : List (String × String)) (c : Nat)
    (resultId sessionId : String) : List Statement → List TaskResult → Prop
  | plain {todo : List Statement} (htodo : Plain todo) :
      Stage server obtained c resultId sessionId todo []
  | waiting {todo : List Statement} (htodo : Plain todo) :
      Stage server obtained c resultId sessionId (.lockSession :: .findEvents :: todo) []
  | reading {todo : List Statement} (hheld : Holds server obtained c resultId sessionId)
      (htodo : Plain todo) : Stage server obtained c resultId sessionId (.findEvents :: todo) []
  | versioning {text : String} {json : JavaScript.Json} {todo : List Statement}
      (hheld : Holds server obtained c resultId sessionId) (htodo : Plain todo) :
      Stage server obtained c resultId sessionId (.findVersion text json :: todo) []
  | creating {row : TaskResult} {todo : List Statement}
      (hheld : Holds server obtained c resultId sessionId) (hnext : Next server.db resultId sessionId row)
      (htodo : Plain todo) : Stage server obtained c resultId sessionId (.createResult row :: todo) []
  | inserted {row : TaskResult} {todo : List Statement}
      (hheld : Holds server obtained c resultId sessionId) (hnext : Next server.db resultId sessionId row)
      (htodo : Plain todo) : Stage server obtained c resultId sessionId todo [row]

def CallInv (server : Server Database Lock) (obtained : List (String × String)) (c : Nat) (call : Call) :
    Prop :=
  match call.phase with
  | .project _ task _ todo => ∃ rows, Inserts (server.writes c) rows ∧
      Stage server obtained c call.resultId task.sessionId todo rows
  | _ => server.writes c = []

structure Inv (r : Recorded) : Prop where
  gapless : ∀ sessionId, (rowsOf r.system.db sessionId).map TaskResult.versionNo =
    List.range' 1 (rowsOf r.system.db sessionId).length
  ordered : ∀ sessionId,
    ((rowsOf r.system.db sessionId).map TaskResult.id).Sublist (obtainedOf r.obtained sessionId)
  calls : ∀ c call, r.system.calls c = some call → CallInv r.system.server r.obtained c call
  unused : ∀ c, r.system.calls c = none → r.system.server.writes c = []

variable {settings : Settings} {r r' : Recorded} {s : System} {l : Label} {c d : Nat} {call : Call}
  {server server' : Server Database Lock} {obtained obtained' : List (String × String)}
  {sessionId resultId : String} {todo : List Statement} {rows : List TaskResult}

theorem inv_init : Inv .init where
  gapless := fun sessionId => rfl
  ordered := fun sessionId => .slnil
  calls := fun c call h => by cases h
  unused := fun c _ => rfl

/-- One more write. -/
theorem Inserts.snoc {ws : List (Database → Database)} {w : Database → Database} {more : List TaskResult}
    (h : Inserts ws rows) (hw : ∀ db, (w db).taskResults = db.taskResults ++ more) :
    Inserts (ws ++ [w]) (rows ++ more) := by
  intro db
  rw [applyWrites_append, applyWrites_cons, applyWrites_nil, hw, h db, List.append_assoc]

/-- What the transaction has seen of its session is as before. -/
def Kept (server server' : Server Database Lock) (obtained obtained' : List (String × String)) (c : Nat) :
    Prop :=
  ∀ sessionId, server.locks (.advisory sessionId) = some c →
    server'.locks (.advisory sessionId) = some c ∧
      obtainedOf obtained' sessionId = obtainedOf obtained sessionId ∧
      rowsOf server'.db sessionId = rowsOf server.db sessionId

theorem Holds.keep (h : Holds server obtained c resultId sessionId)
    (hkept : Kept server server' obtained obtained' c) : Holds server' obtained' c resultId sessionId := by
  obtain ⟨hlock, before, hobtained, hsub⟩ := h
  obtain ⟨hlock', hsame, hrows⟩ := hkept sessionId hlock
  exact ⟨hlock', before, hsame.trans hobtained, by rw [hrows]; exact hsub⟩

theorem Next.keep {row : TaskResult} (h : Next server.db resultId sessionId row)
    (hheld : Holds server obtained c resultId sessionId) (hkept : Kept server server' obtained obtained' c) :
    Next server'.db resultId sessionId row := by
  obtain ⟨hsession, hid, hversion⟩ := h
  rw [← (hkept sessionId hheld.1).2.2] at hversion
  exact ⟨hsession, hid, hversion⟩

theorem Stage.keep (h : Stage server obtained c resultId sessionId todo rows)
    (hkept : Kept server server' obtained obtained' c) :
    Stage server' obtained' c resultId sessionId todo rows := by
  cases h with
  | plain htodo => exact .plain htodo
  | waiting htodo => exact .waiting htodo
  | reading hheld htodo => exact .reading (hheld.keep hkept) htodo
  | versioning hheld htodo => exact .versioning (hheld.keep hkept) htodo
  | creating hheld hnext htodo => exact .creating (hheld.keep hkept) (hnext.keep hheld hkept) htodo
  | inserted hheld hnext htodo => exact .inserted (hheld.keep hkept) (hnext.keep hheld hkept) htodo

theorem CallInv.keep (h : CallInv server obtained c call)
    (hkept : Kept server server' obtained obtained' c) (hwrites : server'.writes c = server.writes c) :
    CallInv server' obtained' c call := by
  obtain ⟨event, archived, source, now, resultId, phase⟩ := call
  cases phase with
  | project prepared task id todo =>
    obtain ⟨rows, hinserts, hstage⟩ := h
    exact ⟨rows, by rw [hwrites]; exact hinserts, hstage.keep hkept⟩
  | _ => exact hwrites.trans h

/-- One call moves on, and what the others have seen of their sessions is as before. -/
theorem Inv.goto (h : Inv r) {s₁ : System} {phase : Phase} (hcalls : s₁.calls = r.system.calls)
    (hgapless : ∀ sessionId, (rowsOf s₁.db sessionId).map TaskResult.versionNo =
      List.range' 1 (rowsOf s₁.db sessionId).length)
    (hordered : ∀ sessionId,
      ((rowsOf s₁.db sessionId).map TaskResult.id).Sublist (obtainedOf obtained' sessionId))
    (hwrites : ∀ d, d ≠ c → s₁.server.writes d = r.system.server.writes d)
    (hkept : ∀ d, d ≠ c → Kept r.system.server s₁.server r.obtained obtained' d)
    (hown : CallInv s₁.server obtained' c { call with phase }) :
    Inv ⟨s₁.goto c call phase, obtained'⟩ where
  gapless := hgapless
  ordered := hordered
  calls := by
    intro d other hd
    rw [goto_calls, hcalls] at hd
    split at hd
    · rename_i heq
      cases hd
      rw [heq]
      exact hown
    · rename_i hne
      exact (h.calls d other hd).keep (hkept d hne) (hwrites d hne)
  unused := by
    intro d hd
    rw [goto_calls, hcalls] at hd
    split at hd
    · cases hd
    · rename_i hne
      exact (hwrites d hne).trans (h.unused d hd)

/-- A step that commits nothing and obtains no lock of a session. -/
theorem Inv.within (h : Inv r) {s₁ : System} {phase : Phase} (hcalls : s₁.calls = r.system.calls)
    (hdb : s₁.db = r.system.db) (hwrites : ∀ d, d ≠ c → s₁.server.writes d = r.system.server.writes d)
    (hlocks : ∀ d, d ≠ c → ∀ k, r.system.server.locks k = some d → s₁.server.locks k = some d)
    (hown : CallInv s₁.server r.obtained c { call with phase }) :
    Inv ⟨s₁.goto c call phase, r.obtained⟩ := by
  refine h.goto hcalls (by rw [hdb]; exact h.gapless) (by rw [hdb]; exact h.ordered) hwrites ?_ hown
  intro d hd sessionId hlock
  refine ⟨hlocks d hd _ hlock, rfl, ?_⟩
  have : s₁.server.db = r.system.server.db := hdb
  rw [this]

/-- A step that only reads. -/
theorem Inv.read (h : Inv r) {phase : Phase}
    (hown : CallInv r.system.server r.obtained c { call with phase }) :
    Inv ⟨r.system.goto c call phase, r.obtained⟩ :=
  h.within rfl rfl (fun _ _ => rfl) (fun _ _ _ hk => hk) hown

theorem Inv.leave (h : Inv r) {s₁ : System} (hcalls : s₁.calls = r.system.calls)
    (hdb : s₁.db = r.system.db) (hwrites : s₁.server.writes = r.system.server.writes)
    (hlocks : ∀ d, d ≠ c → ∀ k, r.system.server.locks k = some d → s₁.server.locks k = some d) :
    Inv ⟨s₁.leave c call, r.obtained⟩ := by
  let rolledBack : System := { s₁ with server := s₁.server.rollback c }
  have hgoto : rolledBack.calls = r.system.calls := hcalls
  refine h.within hgoto hdb (fun d hd => ?_) (fun d hd k hk => ?_) ?_
  · rw [Server.rollback_writes, if_neg hd, hwrites]
  · exact Server.rollback_locks_other hd (hlocks d hd k hk)
  · simp [CallInv, Server.rollback_writes]

theorem foldl_max_range' (n : Nat) : (List.range' 1 n).foldl max 0 = n := by
  induction n with
  | zero => rfl
  | succ n ih =>
    rw [List.range'_concat, List.foldl_append, ih]
    simp only [List.foldl_cons, List.foldl_nil]
    omega

/-- Without gaps the highest version is the number of the results. -/
theorem latestVersion_eq {db db' : Database}
    (h : (rowsOf db sessionId).map TaskResult.versionNo = List.range' 1 (rowsOf db sessionId).length)
    (hsame : db'.taskResults = db.taskResults) :
    db'.latestVersion sessionId = (rowsOf db sessionId).length := by
  rw [Database.latestVersion, hsame]
  rw [rowsOf] at h
  rw [h, foldl_max_range']
  rfl

theorem plain_cons {statement : Statement} (h : Plain (statement :: todo)) :
    isPlain statement = true ∧ Plain todo :=
  ⟨h statement List.mem_cons_self, fun other hother => h other (List.mem_cons_of_mem _ hother)⟩

theorem Stage.tail {statement : Statement}
    (h : Stage server obtained c resultId sessionId (statement :: todo) rows)
    (hplain : isPlain statement = true) : Stage server obtained c resultId sessionId todo rows := by
  cases h with
  | plain htodo => exact .plain (plain_cons htodo).2
  | inserted hheld hnext htodo => exact .inserted hheld hnext (plain_cons htodo).2
  | _ => cases hplain

/-- A statement that leaves the results alone. -/
theorem Inv.plainWrite (h : Inv r) {prepared : Prepared} {task : Task} {id : Nat} {statement : Statement}
    (hcall : r.system.calls c = some call)
    (hphase : call.phase = .project prepared task id (statement :: todo))
    (hplain : isPlain statement = true) (hdb : server.db = r.system.server.db)
    (hwrites : server.writes = r.system.server.writes)
    (hlocks : ∀ d k, r.system.server.locks k = some d → server.locks k = some d)
    {w : Database → Database} (hw : ∀ db, (w db).taskResults = db.taskResults) :
    Inv ⟨{ r.system with server := server.write c w }.goto c call (.project prepared task id todo),
      r.obtained⟩ := by
  refine h.within rfl hdb (fun d hd => ?_) (fun d _ k hk => hlocks d k hk) ?_
  · rw [Server.write_writes, if_neg hd, hwrites]
  · have hold := h.calls c call hcall
    rw [CallInv, hphase] at hold
    obtain ⟨rows, hinserts, hstage⟩ := hold
    refine ⟨rows, ?_, (hstage.tail hplain).keep fun sessionId hlock => ⟨hlocks c _ hlock, rfl, ?_⟩⟩
    · rw [Server.write_writes, if_pos rfl, hwrites]
      have hmore : Inserts (r.system.server.writes c ++ [w]) (rows ++ []) :=
        hinserts.snoc fun db => (hw db).trans (List.append_nil _).symm
      rwa [List.append_nil] at hmore
    · rw [Server.write_db, hdb]

theorem obtainedOf_append (obtained : List (String × String)) (σ sessionId resultId : String) :
    obtainedOf (obtained ++ [(sessionId, resultId)]) σ =
      obtainedOf obtained σ ++ if sessionId = σ then [resultId] else [] := by
  simp only [obtainedOf, List.filter_append, List.map_append]
  split <;> simp_all

/-- The lock is obtained after all committed transactions of the session. -/
theorem inv_lockSession (h : Inv r) {prepared : Prepared} {task : Task} {id : Nat}
    (hcall : r.system.calls c = some call)
    (hphase : call.phase = .project prepared task id (.lockSession :: todo))
    (hlock : r.system.server.acquire c (.advisory task.sessionId) = some server) :
    Inv ⟨{ r.system with server }.goto c call (.project prepared task id todo),
      r.obtained ++ [(task.sessionId, call.resultId)]⟩ := by
  obtain ⟨hdb, hwrites, hlocks⟩ := Server.acquire_eq_some hlock
  have hstored : ({ r.system with server } : System).db = r.system.db := hdb
  refine h.goto rfl (by rw [hstored]; exact h.gapless) (fun sessionId => ?_)
    (fun d _ => congrFun hwrites d) (fun d hd sessionId hheld => ?_) ?_
  · rw [hstored, obtainedOf_append]
    exact (h.ordered sessionId).trans (List.sublist_append_left _ _)
  · refine ⟨Server.acquire_keeps hlock hheld, ?_, by rw [hdb]⟩
    have hne : task.sessionId ≠ sessionId := by
      intro heq
      rw [← heq] at hheld
      simp [Server.acquire, hheld, hd] at hlock
    rw [obtainedOf_append, if_neg hne, List.append_nil]
  · have hold := h.calls c call hcall
    rw [CallInv, hphase] at hold
    obtain ⟨rows, hinserts, hstage⟩ := hold
    refine ⟨rows, by rw [hwrites]; exact hinserts, ?_⟩
    have hheld : Holds server (r.obtained ++ [(task.sessionId, call.resultId)]) c call.resultId
        task.sessionId := by
      refine ⟨by rw [hlocks, Function.update_self], obtainedOf r.obtained task.sessionId, ?_, ?_⟩
      · rw [obtainedOf_append, if_pos rfl]
      · rw [hdb]
        exact h.ordered task.sessionId
    cases hstage with
    | plain htodo => cases (plain_cons htodo).1
    | waiting htodo => exact .reading hheld htodo
    | inserted hheld hnext htodo => cases (plain_cons htodo).1

/-- The three statements between the lock and the insertion of the result. -/
theorem inv_result (h : Inv r) {prepared : Prepared} {task : Task} {id : Nat} {statement : Statement}
    (hcall : r.system.calls c = some call)
    (hphase : call.phase = .project prepared task id (statement :: todo))
    (hplain : isPlain statement = false) (hwaits : statement ≠ .lockSession)
    (hstep : r.system.execute settings c call prepared task id todo statement = some s) :
    Inv ⟨s, r.obtained⟩ := by
  have hold := h.calls c call hcall
  rw [CallInv, hphase] at hold
  obtain ⟨rows, hinserts, hstage⟩ := hold
  cases hstage with
  | plain htodo =>
    rw [(plain_cons htodo).1] at hplain
    cases hplain
  | waiting htodo => exact absurd rfl hwaits
  | reading hheld htodo =>
    simp only [System.execute] at hstep
    split at hstep
    · cases hstep
      exact h.leave rfl rfl rfl fun _ _ _ hk => hk
    · cases hstep
      exact h.read ⟨[], hinserts, .versioning hheld htodo⟩
  | versioning hheld htodo =>
    cases hstep
    refine h.read ⟨[], hinserts, .creating hheld ⟨rfl, rfl, ?_⟩ htodo⟩
    have hsame : (r.system.server.view c).taskResults = r.system.server.db.taskResults :=
      (hinserts r.system.server.db).trans (List.append_nil _)
    exact congrArg (· + 1) (latestVersion_eq (h.gapless task.sessionId) hsame)
  | creating hheld hnext htodo =>
    simp only [System.execute] at hstep
    split at hstep
    · cases hstep
      exact h.leave rfl rfl rfl fun _ _ _ hk => hk
    · rename_i row hfresh
      cases hstep
      refine h.within rfl rfl (fun d hd => ?_) (fun _ _ _ hk => hk) ?_
      · rw [Server.write_writes, if_neg hd]
      · refine ⟨[row], ?_, .inserted hheld hnext htodo⟩
        rw [Server.write_writes, if_pos rfl]
        exact hinserts.snoc fun db => rfl
  | inserted hheld hnext htodo =>
    rw [(plain_cons htodo).1] at hplain
    cases hplain

theorem inv_execute (h : Inv r) {prepared : Prepared} {task : Task} {id : Nat} {statement : Statement}
    (hcall : r.system.calls c = some call)
    (hphase : call.phase = .project prepared task id (statement :: todo))
    (hstep : r.system.execute settings c call prepared task id todo statement = some s) :
    Inv ⟨s, r.obtained ++ (obtains r.system (.advance c)).toList⟩ := by
  have hobtains : statement ≠ .lockSession → obtains r.system (.advance c) = none := by
    intro hne
    rw [obtains, hcall, Option.bind_some, hphase]
    cases statement <;> first | rfl | exact absurd rfl hne
  cases statement with
  | lockSession =>
    obtain ⟨server, hlock, hstep⟩ := Option.bind_eq_some_iff.mp hstep
    cases hstep
    rw [obtains, hcall, Option.bind_some, hphase]
    exact inv_lockSession h hcall hphase hlock
  | updateTask =>
    obtain ⟨server, hlock, hstep⟩ := Option.bind_eq_some_iff.mp hstep
    obtain ⟨hdb, hwrites, -⟩ := Server.acquire_eq_some hlock
    cases hstep
    rw [hobtains (fun heq => by cases heq), Option.toList_none, List.append_nil]
    exact h.plainWrite hcall hphase rfl hdb hwrites (fun d k hk => Server.acquire_keeps hlock hk)
      fun db => db.updateTask_taskResults ..
  | updateSession =>
    obtain ⟨server, hlock, hstep⟩ := Option.bind_eq_some_iff.mp hstep
    obtain ⟨hdb, hwrites, -⟩ := Server.acquire_eq_some hlock
    cases hstep
    rw [hobtains (fun heq => by cases heq), Option.toList_none, List.append_nil]
    exact h.plainWrite hcall hphase rfl hdb hwrites (fun d k hk => Server.acquire_keeps hlock hk)
      fun db => db.updateSession_taskResults ..
  | linkArtifacts =>
    cases hstep
    rw [hobtains (fun heq => by cases heq), Option.toList_none, List.append_nil]
    exact h.plainWrite hcall hphase rfl rfl rfl (fun _ _ hk => hk) fun _ => rfl
  | _ =>
    rw [hobtains (fun heq => by cases heq), Option.toList_none, List.append_nil]
    exact inv_result h hcall hphase rfl (fun heq => by cases heq) hstep

theorem stage_statements (server : Server Database Lock) (obtained : List (String × String)) (c : Nat)
    (resultId sessionId : String) (detail : TaskEventDetail) :
    Stage server obtained c resultId sessionId (statements detail) [] := by
  cases detail with
  | completed => exact .waiting (by simp [Plain, isPlain])
  | _ => exact .plain (by simp [Plain, statements, isPlain])

theorem inv_create (h : Inv r) {prepared : Prepared} {task : Task} {id : Nat}
    (hcall : r.system.calls c = some call) (hphase : call.phase = .create prepared task id)
    (hstep : r.system.create c call prepared task id = some s) : Inv ⟨s, r.obtained⟩ := by
  have hold := h.calls c call hcall
  rw [CallInv, hphase] at hold
  obtain ⟨server, hserver, hstep⟩ := Option.bind_eq_some_iff.mp hstep
  obtain ⟨hdb, hwrites⟩ := LogCommits.lockSource_eq_some hserver
  have hlocks : ∀ d, d ≠ c → ∀ k, r.system.server.locks k = some d → server.locks k = some d := by
    intro d _ k hk
    cases hsource : call.sourceEventId with
    | some source =>
      rw [hsource] at hserver
      exact Server.acquire_keeps hserver hk
    | none =>
      rw [hsource] at hserver
      cases hserver
      exact hk
  split at hstep
  · cases hstep
    exact h.leave rfl hdb hwrites hlocks
  · cases hstep
    refine h.within rfl hdb (fun d hd => ?_) (fun d hd k hk => hlocks d hd k hk) ?_
    · rw [Server.write_writes, if_neg hd, hwrites]
    · refine ⟨[], ?_, stage_statements ..⟩
      rw [Server.write_writes, if_pos rfl, hwrites, hold]
      exact fun db => (List.append_nil _).symm

/-- A commit adds the result of the transaction after those before it. -/
theorem inv_commit (h : Inv r) {prepared : Prepared} {task : Task} {id : Nat} {phase : Phase}
    (hcall : r.system.calls c = some call) (hphase : call.phase = .project prepared task id [])
    (hout : ∀ server, server.writes c = [] → CallInv server r.obtained c { call with phase }) :
    Inv ⟨{ r.system with server := r.system.server.commit c }.goto c call phase, r.obtained⟩ := by
  have hold := h.calls c call hcall
  rw [CallInv, hphase] at hold
  obtain ⟨rows, hinserts, hstage⟩ := hold
  have hresults : (r.system.server.commit c).db.taskResults = r.system.db.taskResults ++ rows :=
    hinserts r.system.server.db
  have hrows : ∀ σ, rowsOf (r.system.server.commit c).db σ =
      rowsOf r.system.db σ ++ rows.filter fun row => row.sessionId = σ := by
    intro σ
    rw [rowsOf, hresults, List.filter_append]
    rfl
  have hwrites : ∀ d, d ≠ c → (r.system.server.commit c).writes d = r.system.server.writes d := by
    intro d hd
    rw [Server.commit_writes, Server.rollback_writes, if_neg hd]
  have hempty : (r.system.server.commit c).writes c = [] := by
    rw [Server.commit_writes, Server.rollback_writes, if_pos rfl]
  cases hstage with
  | plain htodo =>
    have hsame : ∀ σ, rowsOf (r.system.server.commit c).db σ = rowsOf r.system.db σ := fun σ =>
      (hrows σ).trans (List.append_nil _)
    refine h.goto rfl (fun σ => ?_) (fun σ => ?_) hwrites (fun d hd σ hheld => ?_) (hout _ hempty)
    · rw [System.db, hsame]
      exact h.gapless σ
    · rw [System.db, hsame]
      exact h.ordered σ
    · exact ⟨Server.rollback_locks_other hd hheld, rfl, hsame σ⟩
  | inserted hheld hnext htodo =>
    rename_i row
    obtain ⟨hsession, hid, hversion⟩ := hnext
    have hother : ∀ σ, σ ≠ task.sessionId →
        rowsOf (r.system.server.commit c).db σ = rowsOf r.system.db σ := by
      intro σ hne
      rw [hrows, List.filter_cons_of_neg (by simpa [hsession] using hne.symm), List.filter_nil,
        List.append_nil]
    have hown : rowsOf (r.system.server.commit c).db task.sessionId =
        rowsOf r.system.db task.sessionId ++ [row] := by
      rw [hrows, List.filter_cons_of_pos (by simpa using hsession), List.filter_nil]
    obtain ⟨hlock, before, hobtained, hsub⟩ := hheld
    refine h.goto rfl (fun σ => ?_) (fun σ => ?_) hwrites (fun d hd σ hheld => ?_) (hout _ hempty)
    · rw [System.db]
      by_cases hσ : σ = task.sessionId
      · rw [hσ, hown, List.map_append, h.gapless, List.length_append, List.length_singleton,
          List.range'_concat]
        rw [List.map_singleton, hversion, Nat.mul_comm, Nat.mul_one, Nat.add_comm]
        rfl
      · rw [hother σ hσ]
        exact h.gapless σ
    · rw [System.db]
      by_cases hσ : σ = task.sessionId
      · rw [hσ, hown, List.map_append, List.map_singleton, hobtained, hid]
        exact hsub.append (List.Sublist.refl _)
      · rw [hother σ hσ]
        exact h.ordered σ
    · refine ⟨Server.rollback_locks_other hd hheld, rfl, hother σ ?_⟩
      rintro rfl
      rw [hlock] at hheld
      exact hd (Option.some.inj hheld).symm

theorem inv_advance (h : Inv r) (hcall : r.system.calls c = some call)
    (hstep : r.system.advance settings c call = some s) :
    Inv ⟨s, r.obtained ++ (obtains r.system (.advance c)).toList⟩ := by
  have hold := h.calls c call hcall
  by_cases hproject : ∃ prepared task id statement todo,
      call.phase = .project prepared task id (statement :: todo)
  · obtain ⟨prepared, task, id, statement, todo, hphase⟩ := hproject
    rw [System.advance, hphase] at hstep
    exact inv_execute h hcall hphase hstep
  · have hobtains : obtains r.system (.advance c) = none := by
      rw [obtains, hcall, Option.bind_some]
      split
      · rename_i prepared task id todo hphase
        exact absurd ⟨_, _, _, _, _, hphase⟩ hproject
      · rfl
    rw [hobtains, Option.toList_none, List.append_nil]
    unfold System.advance at hstep
    split at hstep <;> rename_i hphase <;> rw [CallInv, hphase] at hold
    · split at hstep <;> cases hstep <;> exact h.read hold
    · split at hstep <;> cases hstep <;> exact h.read hold
    · split at hstep
      · split at hstep <;> cases hstep
        · exact h.leave rfl rfl rfl fun _ _ _ hk => hk
        · exact h.read hold
      · cases hstep
        exact h.leave rfl rfl rfl fun _ _ _ hk => hk
    · split at hstep <;> cases hstep
      · exact h.leave rfl rfl rfl fun _ _ _ hk => hk
      · exact h.read hold
    · cases hstep
      refine h.goto rfl h.gapless h.ordered (fun _ _ => rfl) (fun _ _ σ hheld => ?_) hold
      exact ⟨hheld, rfl, rfl⟩
    · exact inv_create h hcall hphase hstep
    · cases hstep
      exact inv_commit h hcall hphase fun _ hempty => hempty
    · exact absurd ⟨_, _, _, _, _, hphase⟩ hproject
    · cases hstep
      exact h.within rfl rfl (fun _ _ => rfl) (fun _ _ _ hk => hk) hold
    · cases hstep

theorem single_taskResults {db db' : Database} {tx : Single} (h : tx.apply settings db = some db') :
    db'.taskResults = db.taskResults := by
  cases tx with
  | enqueue new =>
    obtain ⟨-, db₁, sessionId, hsession, rfl⟩ := enqueueTransaction_eq_some h
    rw [Database.updateSession_taskResults]
    exact (sessionForTask_tasks hsession).2.2.1
  | setQueueJobId taskId jobId =>
    cases h
    exact db.updateTask_taskResults taskId _
  | incrementAttempt taskId =>
    cases h
    exact db.updateTask_taskResults taskId _
  | dispatch taskId runId streamUrl now =>
    cases h
    exact db.updateTask_taskResults taskId _
  | setSessionRunning sessionId =>
    cases h
    exact db.updateSession_taskResults sessionId _
  | archive row =>
    cases h
    rfl

theorem inv_step (h : Inv r) (hstep : recordedStep settings r l = some r') : Inv r' := by
  obtain ⟨s, hs, rfl⟩ := Option.map_eq_some_iff.mp hstep
  cases l with
  | call c event archived source now resultId =>
    simp only [obtains, Option.toList_none, List.append_nil]
    obtain ⟨hnone, rfl⟩ := step_call_eq_some hs
    refine ⟨h.gapless, h.ordered, fun d call hd => ?_, fun d hd => ?_⟩
    · simp only [Function.update_apply] at hd
      split at hd
      · rename_i heq
        cases hd
        rw [heq]
        exact h.unused c hnone
      · exact h.calls d call hd
    · simp only [Function.update_apply] at hd
      split at hd
      · cases hd
      · exact h.unused d hd
  | advance c =>
    obtain ⟨call, hcall, hs⟩ := Option.bind_eq_some_iff.mp hs
    exact inv_advance h hcall hs
  | abort c =>
    simp only [obtains, Option.toList_none, List.append_nil]
    obtain ⟨call, -, -, rfl⟩ := step_abort_eq_some hs
    exact h.leave rfl rfl rfl fun _ _ _ hk => hk
  | single tx =>
    simp only [obtains, Option.toList_none, List.append_nil]
    obtain ⟨-, db, hdb, rfl⟩ := step_single_eq_some hs
    have hrows : ∀ σ, rowsOf db σ = rowsOf r.system.db σ := by
      intro σ
      rw [rowsOf, single_taskResults hdb, rowsOf]
    refine ⟨fun σ => ?_, fun σ => ?_, fun d call hd => ?_, h.unused⟩
    · have := h.gapless σ
      rwa [← hrows] at this
    · have := h.ordered σ
      rwa [← hrows] at this
    · exact (h.calls d call hd).keep (fun σ hheld => ⟨hheld, rfl, hrows σ⟩) rfl

/-- A transaction that is about to insert its result sees only lower versions in its session. -/
theorem Inv.versioned (h : Inv r) (sessionId : String) : Versioned sessionId r where
  gapless := h.gapless sessionId
  ordered := h.ordered sessionId
  unique := by
    intro c call prepared task id row todo hcall hphase hsession old hold ⟨hsame, hversion⟩
    have hcalls := h.calls c call hcall
    rw [CallInv, hphase] at hcalls
    obtain ⟨rows, hinserts, hstage⟩ := hcalls
    cases hstage with
    | plain htodo => cases (plain_cons htodo).1
    | inserted hheld hnext htodo => cases (plain_cons htodo).1
    | creating hheld hnext htodo =>
      rw [Server.view, hinserts, List.append_nil] at hold
      have hmem : old.versionNo ∈ (rowsOf r.system.db row.sessionId).map TaskResult.versionNo :=
        List.mem_map_of_mem (List.mem_filter.mpr ⟨hold, by simpa using hsame⟩)
      rw [h.gapless, hversion, hnext.2.2, hnext.1] at hmem
      obtain ⟨-, hlt⟩ := List.mem_range'_1.mp hmem
      exact absurd hlt (by simp only [System.db]; omega)

/-- The results of every session are numbered without gaps, in the order of the lock. -/
theorem versions_gapless (settings : Settings) (sessionId : String) (ls : List Label) :
    Throughout (recordedStep settings) (Versioned sessionId) .init ls :=
  throughout_of_along (fun _ h => h.versioned sessionId) (fun _ _ _ h _ hstep => inv_step h hstep)
    inv_init (along_true ls)

end ResultVersions
