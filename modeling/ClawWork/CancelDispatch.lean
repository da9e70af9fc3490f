import ClawWork.DispatchTask
import ClawWork.Obligations
import ClawWork.StatusFrames
import ClawWork.Transition

/-!
# Cancellation against dispatch

One task with its job in the queue, any number of attempts of `processQueuedTask`
and of calls of `cancelTask`, and the adapter, which accepts an execution request at
any time after it was sent, also when nobody waits for the answer any more. The
relay and `failTask` are transactions of the others. `trace` keeps the order of what
the adapter accepts and what is requested of it.
-/

namespace CancelDispatch

open JavaScript SharedTypes TaskStore TasksService StatusFrames DispatchTask Obligations Transition

/-- The adapter accepts the execution that an attempt has requested; the API issues a request to
cancel the task. -/
inductive Happening where
  | accepted (attempt : Nat)
  | cancellationRequested
  deriving DecidableEq

def Happening.acceptance : Happening → Option Nat
  | .accepted attempt => some attempt
  | .cancellationRequested => none

def Happening.isRequest : Happening → Bool
  | .accepted _ => false
  | .cancellationRequested => true

structure System where
  db : Database
  job : Option JobState
  attempts : OrderedMap Nat Attempt
  /-- The attempts whose execution requests the adapter has neither accepted nor refused. -/
  requests : List Nat
  cancels : OrderedMap Nat CancelCall
  trace : List Happening

def System.init : System := ⟨.empty, none, .empty, [], .empty, []⟩

inductive Label where
  | transaction (tx : Transaction)
  | enqueue (reconcile : Bool)
  /-- The queue moves its job: a retry, a stalled job, a completed or expired one. -/
  | moveJob (job : Option JobState)
  /-- A worker takes the job. -/
  | take (attempt : Nat)
  | attempt (attempt : Nat) (answer : Answer)
  | accept (attempt : Nat)
  | refuse (attempt : Nat)
  | cancelTask (call : Nat) (userId : String)
  | cancel (call : Nat) (answer : CancelAnswer)
  /-- The relay requests a cancellation after its time limit. -/
  | requestCancellation

/-- What an output adds to the trace. -/
def happenings (outputs : List Output) : List Happening :=
  outputs.filterMap fun output => if output = .cancel then some .cancellationRequested else none

/-- The adapter gives an answer with metadata only to an execution that it has accepted. -/
def answers (s : System) (a : Nat) : Answer → Bool
  | .responded _ => decide (Happening.accepted a ∈ s.trace)
  | _ => true

/-- The transitions, for the task `t`. -/
def step (settings : DispatchSettings) (t : String) (s : System) : Label → Option System
  | .transaction tx => do
    let db ← tx.apply settings.toSettings s.db
    some { s with db }
  | .enqueue reconcile => some { s with job := enqueue reconcile s.job }
  | .moveJob job => some { s with job }
  | .take a =>
    if s.job = some .waiting ∧ s.attempts.get a = none then
      some { s with job := some .active, attempts := s.attempts.set a ⟨t, "", .finding⟩ }
    else none
  | .attempt a answer =>
    if answers s a answer then do
      let attempt ← s.attempts.get a
      let (db, attempt, outputs) ← attempt.next settings s.db answer
      some { s with
        db
        attempts := s.attempts.set a attempt
        requests := if .execute ∈ outputs then a :: s.requests else s.requests
        trace := s.trace ++ happenings outputs }
    else none
  | .accept a =>
    if a ∈ s.requests then
      some { s with requests := s.requests.erase a, trace := s.trace ++ [.accepted a] }
    else none
  | .refuse a => if a ∈ s.requests then some { s with requests := s.requests.erase a } else none
  | .cancelTask c userId =>
    if s.cancels.get c = none then some { s with cancels := s.cancels.set c ⟨userId, t, .finding⟩ }
    else none
  | .cancel c answer => do
    let call ← s.cancels.get c
    let (db, job, call, outputs) ← call.next settings s.db s.job answer
    some { s with
      db, job, cancels := s.cancels.set c call, trace := s.trace ++ happenings outputs }
  | .requestCancellation =>
    if settings.adapterUrl.isSome then
      some { s with trace := s.trace ++ [.cancellationRequested] }
    else none

/-- The call has returned the status `cancelled`. -/
def CancelCall.hasCancelled (call : CancelCall) : Bool :=
  match call.phase with
  | .returned status => status = .cancelled
  | _ => false

/-- Some call of `cancelTask` has returned the status `cancelled`. -/
def Cancelled (s : System) : Prop := s.cancels.values.any CancelCall.hasCancelled = true

instance (s : System) : Decidable (Cancelled s) := inferInstanceAs (Decidable (_ = true))

/-- An attempt that waits for the answer to its execution request, or has still to make its update. -/
def Attempt.onItsWay (attempt : Attempt) : Bool :=
  match attempt.phase with
  | .executing | .updating _ => true
  | _ => false

def OnItsWay (s : System) (a : Nat) : Prop := (s.attempts.get a).any Attempt.onItsWay = true

/-- The accepted executions that no request to cancel has followed. -/
def uncancelled (s : System) : List Nat := outstanding Happening.acceptance Happening.isRequest s.trace

/-- No attempt is on its way. -/
def Quiet (s : System) : Prop := ∀ a, ¬ OnItsWay s a

/-- Once a call has returned `cancelled`, the task is cancelled, and when no attempt is on its way any
more, every execution that the adapter has accepted was followed by a request to cancel the task. -/
def Linearised (t : String) (s : System) : Prop :=
  Cancelled s → s.db.status t = some .cancelled ∧ (Quiet s →
    ∀ before a after, s.trace = before ++ .accepted a :: after → .cancellationRequested ∈ after)

/-- Every accepted execution was followed by a request to cancel it, or its attempt is on its way. -/
def Covered (s : System) : Prop := ∀ a ∈ uncancelled s, OnItsWay s a

/-- The call is about to return `cancelled`: it finds the task cancelled, or it persists its event. -/
def answersCancelled (s : System) (call : CancelCall) : Bool :=
  match call.phase with
  | .finding => (s.db.tasks.get call.taskId).any fun task =>
    decide (task.userId = call.userId ∧ task.status = .cancelled)
  | .persisting _ => true
  | _ => false

/-- A call of `cancelTask` that is about to return finds no other end of the task, and every accepted
execution followed by a request to cancel or held by an attempt on its way; after it has returned, no
attempt loses the answer to an accepted execution, and none is accepted after its answer was lost. -/
def InOrder (t : String) (s : System) : Label → Prop
  | .cancel c (.database _ _) => ∀ call ∈ s.cancels.get c, answersCancelled s call = true →
    (∀ status ∈ s.db.status t, status.isTerminal = true → status = .cancelled) ∧ Covered s
  | .attempt a (.failed _ _) => Cancelled s → a ∉ uncancelled s
  | .accept a => Cancelled s → OnItsWay s a
  | _ => True

variable {settings : DispatchSettings} {t : String} {s s' : System} {l : Label} {a : Nat}

theorem mem_uncancelled : a ∈ uncancelled s ↔
    ∃ before after, s.trace = before ++ .accepted a :: after ∧ .cancellationRequested ∉ after := by
  rw [uncancelled, mem_outstanding]
  constructor
  · rintro ⟨before, e, after, htrace, haccept, hopen⟩
    cases e with
    | accepted b =>
      cases haccept
      refine ⟨before, after, htrace, fun hmem => ?_⟩
      exact absurd rfl (List.any_eq_false.mp hopen _ hmem)
    | cancellationRequested => cases haccept
  · rintro ⟨before, after, htrace, hopen⟩
    refine ⟨before, .accepted a, after, htrace, rfl, List.any_eq_false.mpr fun e he => ?_⟩
    cases e with
    | accepted b => exact Bool.false_ne_true
    | cancellationRequested => exact absurd he hopen

/-- The task that a call has read. -/
def foundTask : CancelPhase → Option Task
  | .findingJob task | .checkingJob task | .removingJob task | .requesting task | .persisting task =>
    some task
  | .finding | .returned _ | .threw => none

structure Inv (settings : DispatchSettings) (t : String) (s : System) : Prop where
  keyed : Keyed s.db
  attempts : ∀ a attempt, s.attempts.get a = some attempt →
    attempt.taskId = t ∧ (Attempt.onItsWay attempt = true → settings.adapterUrl.isSome = true)
  calls : ∀ c call, s.cancels.get c = some call → call.taskId = t ∧
    ∀ task ∈ foundTask call.phase, task.id = t ∧ (s.db.status t).isSome = true
  linear : Cancelled s → s.db.status t = some .cancelled ∧ Covered s

theorem inv_init (settings : DispatchSettings) (t : String) : Inv settings t .init where
  keyed := fun u task h => by cases h
  attempts := fun a attempt h => by cases h
  calls := fun c call h => by cases h
  linear := fun h => by cases h

theorem Inv.linearised (h : Inv settings t s) : Linearised t s := by
  intro hcancelled
  obtain ⟨hstatus, hcovered⟩ := h.linear hcancelled
  refine ⟨hstatus, fun hquiet before a after htrace => ?_⟩
  by_contra hopen
  exact hquiet a (hcovered a (mem_uncancelled.mpr ⟨before, after, htrace, hopen⟩))

/-- What one step of an attempt does. -/
inductive Moves (settings : DispatchSettings) (db : Database) (attempt : Attempt) :
    Answer → Database → Attempt → List Output → Prop
  /-- An attempt that is not on its way sends no request to cancel. -/
  | early {answer : Answer} {db' : Database} {next : Attempt} {outputs : List Output}
      (hearly : Attempt.onItsWay attempt = false) (hdb : Unlogged db db')
      (htask : next.taskId = attempt.taskId)
      (hurl : Attempt.onItsWay next = true → settings.adapterUrl.isSome = true)
      (hout : happenings outputs = []) : Moves settings db attempt answer db' next outputs
  | responded {metadata : ExecutionMetadata} {next : Attempt} (htask : next.taskId = attempt.taskId)
      (hnext : Attempt.onItsWay next = true) (hold : Attempt.onItsWay attempt = true) :
      Moves settings db attempt (.responded metadata) db next []
  | failed {code message : String} {next : Attempt} (htask : next.taskId = attempt.taskId)
      (hnext : Attempt.onItsWay next = false) :
      Moves settings db attempt (.failed code message) db next []
  | dispatched {now : String} {db' : Database} {next : Attempt} (hdb : Unlogged db db')
      (htask : next.taskId = attempt.taskId) (hnext : Attempt.onItsWay next = false)
      (hqueued : db.status attempt.taskId = some .queued) :
      Moves settings db attempt (.database now) db' next []
  | tooLate {now : String} {next : Attempt} (htask : next.taskId = attempt.taskId)
      (hnext : Attempt.onItsWay next = false) (hold : Attempt.onItsWay attempt = true) :
      Moves settings db attempt (.database now) db next (cancellationRequest settings)

theorem moves_next {db db' : Database} {attempt next : Attempt} {answer : Answer} {outputs : List Output}
    (h : attempt.next settings db answer = some (db', next, outputs)) :
    Moves settings db attempt answer db' next outputs := by
  have hrefl : Unlogged db db := .of_same rfl rfl rfl
  have hmoves := attemptMoves_next h
  obtain ⟨taskId, sessionId, phase⟩ := attempt
  cases hmoves with
  | skip => exact .early rfl hrefl rfl (fun hway => by cases hway) rfl
  | found => exact .early rfl hrefl rfl (fun hway => by cases hway) rfl
  | count hdb => exact .early rfl (unlogged_single hdb) rfl (fun hway => by cases hway) rfl
  | unfit => exact .early rfl hrefl rfl (fun hway => by cases hway) rfl
  | execute hurl => exact .early rfl hrefl rfl (fun _ => hurl) rfl
  | unavailable => exact .early rfl hrefl rfl (fun hway => by cases hway) rfl
  | responded => exact .responded rfl rfl rfl
  | failed => exact .failed rfl rfl
  | dispatch hqueued hdb => exact .dispatched (unlogged_single hdb) rfl rfl hqueued
  | tooLate => exact .tooLate rfl rfl rfl
  | relay hdb => exact .early rfl (unlogged_single hdb) rfl (fun hway => by cases hway) rfl
  | settled => exact .early rfl hrefl rfl (fun hway => by cases hway) rfl

variable {db db' : Database}

/-- The transaction of `cancelTask` leaves the task cancelled unless another end was persisted. -/
theorem cancelled_of_persist (settings : Settings) (now resultId : String) {task : Task}
    (hk : Keyed db) (hsome : (db.status task.id).isSome = true)
    (hopen : ∀ status ∈ db.status task.id, status.isTerminal = true → status = .cancelled) :
    (persistTransaction settings now resultId (cancelTaskEvent task now) none db).2.status task.id =
      some .cancelled := by
  rcases persistTransaction_cases settings now resultId (cancelTaskEvent task now) none db with
    ⟨heq, hskip⟩ | heq | ⟨found, db', hfound, hrunning, -, hproject, heq⟩
  · obtain ⟨status, hstatus⟩ := Option.isSome_iff_exists.mp hsome
    obtain ⟨found, hfound, rfl⟩ := Option.map_eq_some_iff.mp hstatus
    rw [heq]
    rcases hskip found hfound with hterm | hdup
    · rw [hstatus, hopen found.status hstatus hterm]
    · cases hdup
  · refine absurd ?_ (persist_ne_threw settings now resultId (cancelTaskEvent task now) db ?_)
    · rw [heq]
      rfl
    · simp [cancelTaskEvent]
  · rw [heq]
    have hstatus := (projectEvent_projects hproject).status task.id
    have hold : (db.createEvent (cancelTaskEvent task now).taskId none (cancelTaskEvent task now)).status
        task.id = some found.status := congrArg (Option.map Task.status) hfound
    rw [hk.get hfound, hold] at hstatus
    exact hstatus.trans (if_pos rfl)

theorem happenings_cancellationRequest (settings : DispatchSettings) :
    happenings (cancellationRequest settings) = [] ∨
      happenings (cancellationRequest settings) = [.cancellationRequested] := by
  unfold cancellationRequest
  split
  · exact .inr rfl
  · exact .inl rfl

/-- What one step of a call of `cancelTask` does. -/
structure Calls (settings : DispatchSettings) (s : System) (call : CancelCall) (answer : CancelAnswer)
    (db : Database) (next : CancelCall) (outputs : List Output) : Prop where
  task : next.taskId = call.taskId
  keeps : Keeps s.db db
  found : ∀ task ∈ foundTask next.phase, task ∈ foundTask call.phase ∨
    s.db.tasks.get call.taskId = some task
  happens : happenings outputs = [] ∨ happenings outputs = [.cancellationRequested]
  active : CancelCall.hasCancelled call = false

theorem calls_next {call next : CancelCall} {answer : CancelAnswer} {job : Option JobState}
    {outputs : List Output} (hk : Keyed s.db)
    (h : call.next settings s.db s.job answer = some (db, job, next, outputs)) :
    Calls settings s call answer db next outputs := by
  have hrefl := keeps_refl hk
  obtain ⟨userId, taskId, phase⟩ := call
  obtain ⟨userId', taskId', phase'⟩ := next
  obtain ⟨hnext, hmoves⟩ := cancelMoves_next h
  cases hnext
  dsimp only at hmoves
  cases hmoves with
  | queued hread =>
    refine ⟨rfl, hrefl, fun other hother => ?_, .inl rfl, rfl⟩
    cases hother
    exact .inr hread
  | running hread =>
    refine ⟨rfl, hrefl, fun other hother => ?_, happenings_cancellationRequest settings, rfl⟩
    cases hother
    exact .inr hread
  | thrown | persisted =>
    refine ⟨rfl, ?_, (fun other hother => by cases hother), .inl rfl, rfl⟩
    exact persist_keeps settings.toSettings _ _ _ none hk
  | denied | ended | locked | refused =>
    exact ⟨rfl, hrefl, (fun other hother => by cases hother), .inl rfl, rfl⟩
  | foundJob | foundNone | removable | kept | removed | stopped =>
    exact ⟨rfl, hrefl, fun other hother => .inl hother, .inl rfl, rfl⟩

/-- A call returns `cancelled` because it finds the task cancelled, or after its transaction. -/
theorem hasCancelled_next {call next : CancelCall} {answer : CancelAnswer} {job : Option JobState}
    {outputs : List Output} (h : call.next settings s.db s.job answer = some (db, job, next, outputs))
    (hnext : CancelCall.hasCancelled next = true) :
    ∃ now resultId, answer = .database now resultId ∧ answersCancelled s call = true ∧
      happenings outputs = [] ∧ (db = s.db ∧ s.db.status call.taskId = some .cancelled ∨
        ∃ task, call.phase = .persisting task ∧ db = (persistTransaction settings.toSettings now resultId
          (cancelTaskEvent task now) none s.db).2) := by
  obtain ⟨userId, taskId, phase⟩ := call
  obtain ⟨userId', taskId', phase'⟩ := next
  obtain ⟨-, hmoves⟩ := cancelMoves_next h
  dsimp only at hmoves
  cases hmoves with
  | ended hread howner hended =>
    rename_i now resultId task
    have hstatus : task.status = .cancelled := of_decide_eq_true hnext
    refine ⟨now, resultId, rfl, ?_, rfl, .inl ⟨rfl, by rw [Database.status, hread, Option.map_some, hstatus]⟩⟩
    simp only [answersCancelled, hread, Option.any_some]
    exact decide_eq_true ⟨howner, hstatus⟩
  | persisted hpersisted =>
    rename_i now resultId task
    exact ⟨now, resultId, rfl, rfl, rfl, .inr ⟨task, rfl, rfl⟩⟩
  | _ => cases hnext

theorem uncancelled_request (htrace : s'.trace = s.trace ++ [.cancellationRequested]) :
    uncancelled s' = [] := by
  rw [uncancelled, htrace]
  exact outstanding_settle rfl rfl

theorem uncancelled_accept (htrace : s'.trace = s.trace ++ [.accepted a]) :
    uncancelled s' = uncancelled s ++ [a] := by
  rw [uncancelled, htrace]
  exact outstanding_raise rfl

theorem uncancelled_same (htrace : s'.trace = s.trace) : uncancelled s' = uncancelled s := by
  rw [uncancelled, htrace, uncancelled]

theorem covered_of_nil (h : uncancelled s = []) : Covered s := by
  intro a ha
  rw [h] at ha
  cases ha

/-- The attempts on their way are still on their way. -/
theorem Covered.keep (h : Covered s) (hsub : ∀ a ∈ uncancelled s', a ∈ uncancelled s)
    (hway : ∀ a ∈ uncancelled s, OnItsWay s a → OnItsWay s' a) : Covered s' :=
  fun a ha => hway a (hsub a ha) (h a (hsub a ha))

theorem onItsWay_set_other {b : Nat} {attempt : Attempt}
    (hattempts : s'.attempts = s.attempts.set a attempt) (hb : b ≠ a) (h : OnItsWay s b) :
    OnItsWay s' b := by
  rw [OnItsWay, hattempts, OrderedMap.get_set_other _ _ hb]
  exact h

/-- A step that no call of `cancelTask` takes, in a task that stays cancelled. -/
theorem Inv.others (h : Inv settings t s) (hkeep : Keeps s.db s'.db)
    (hattempts : ∀ a attempt, s'.attempts.get a = some attempt →
      attempt.taskId = t ∧ (Attempt.onItsWay attempt = true → settings.adapterUrl.isSome = true))
    (hcancels : s'.cancels = s.cancels) (hcovered : Cancelled s → Covered s → Covered s') :
    Inv settings t s' where
  keyed := hkeep.keyed
  attempts := hattempts
  calls := by
    intro c call hcall
    rw [hcancels] at hcall
    obtain ⟨htask, hfound⟩ := h.calls c call hcall
    exact ⟨htask, fun task htask => ⟨(hfound task htask).1, hkeep.isSome t (hfound task htask).2⟩⟩
  linear := by
    intro hcancelled
    rw [Cancelled, hcancels] at hcancelled
    obtain ⟨hstatus, hold⟩ := h.linear hcancelled
    exact ⟨hkeep.terminal t .cancelled hstatus rfl, hcovered hcancelled hold⟩

theorem inv_attempt (h : Inv settings t s) {answer : Answer} (hok : InOrder t s (.attempt a answer))
    (hstep : step settings t s (.attempt a answer) = some s') : Inv settings t s' := by
  simp only [step] at hstep
  split at hstep
  · obtain ⟨attempt, hget, hstep⟩ := Option.bind_eq_some_iff.mp hstep
    obtain ⟨⟨db, next, outputs⟩, hnext, hstep⟩ := Option.bind_eq_some_iff.mp hstep
    cases hstep
    obtain ⟨htask, hurl⟩ := h.attempts a attempt hget
    have hrefl := keeps_refl h.keyed
    have hothers : ∀ (next : Attempt), next.taskId = attempt.taskId →
        (Attempt.onItsWay next = true → settings.adapterUrl.isSome = true) →
        ∀ b other, (s.attempts.set a next).get b = some other → other.taskId = t ∧
          (Attempt.onItsWay other = true → settings.adapterUrl.isSome = true) := by
      intro next hsame hnext b other hother
      rw [OrderedMap.get_set] at hother
      split at hother
      · cases hother
        exact ⟨hsame.trans htask, hnext⟩
      · exact h.attempts b other hother
    cases moves_next hnext with
    | early hearly hdb hsame hnexturl hout =>
      refine h.others (hdb.keeps h.keyed) (hothers next hsame hnexturl) rfl fun _ hcovered => ?_
      refine hcovered.keep (fun b hb => ?_) fun b hb hold => ?_
      · rwa [uncancelled_same (s := s) (by rw [hout, List.append_nil])] at hb
      · refine onItsWay_set_other rfl (fun heq => ?_) hold
        rw [heq, OnItsWay, hget, Option.any_some, hearly] at hold
        cases hold
    | responded hsame hway' hold =>
      refine h.others hrefl (hothers next hsame fun _ => hurl hold) rfl fun _ hcovered => ?_
      refine hcovered.keep (fun b hb => ?_) fun b hb hold => ?_
      · rwa [uncancelled_same (List.append_nil _)] at hb
      · by_cases heq : b = a
        · rw [heq, OnItsWay, OrderedMap.get_set_same]
          exact hway'
        · exact onItsWay_set_other rfl heq hold
    | failed hsame hway' =>
      refine h.others hrefl (hothers next hsame fun hon => ?_) rfl fun hcancelled hcovered => ?_
      · rw [hway'] at hon
        cases hon
      refine hcovered.keep (fun b hb => ?_) fun b hb hold => ?_
      · rwa [uncancelled_same (List.append_nil _)] at hb
      · refine onItsWay_set_other rfl (fun heq => ?_) hold
        rw [heq] at hb
        exact hok hcancelled hb
    | dispatched hdb hsame hway' hqueued =>
      refine h.others (hdb.keeps h.keyed) (hothers next hsame fun hon => ?_) rfl
        fun hcancelled _ => ?_
      · rw [hway'] at hon
        cases hon
      · rw [htask, (h.linear hcancelled).1] at hqueued
        cases hqueued
    | tooLate hsame hway' hold =>
      refine h.others hrefl (hothers next hsame fun hon => ?_) rfl fun _ hcovered => ?_
      · rw [hway'] at hon
        cases hon
      · have hrequest : happenings (cancellationRequest settings) = [.cancellationRequested] := by
          rw [cancellationRequest, if_pos (hurl hold)]
          rfl
        exact covered_of_nil (uncancelled_request (s := s) (by rw [← hrequest]))
  · cases hstep

/-- A call that is set has returned `cancelled`, or one that was there before. -/
theorem cancelled_set {c : Nat} {call : CancelCall} (h : Cancelled { s with cancels := s.cancels.set c call }) :
    CancelCall.hasCancelled call = true ∨ Cancelled s := by
  obtain ⟨other, hother, hreturned⟩ := List.any_eq_true.mp h
  obtain ⟨d, hget⟩ := (OrderedMap.mem_values_iff _ _).mp hother
  rw [OrderedMap.get_set] at hget
  split at hget
  · cases hget
    exact .inl hreturned
  · exact .inr (List.any_eq_true.mpr ⟨other, (OrderedMap.mem_values_iff _ _).mpr ⟨d, hget⟩, hreturned⟩)

theorem inv_cancel (h : Inv settings t s) {c : Nat} {answer : CancelAnswer} {call next : CancelCall}
    {job : Option JobState} {outputs : List Output} (hok : InOrder t s (.cancel c answer))
    (hget : s.cancels.get c = some call)
    (hnext : call.next settings s.db s.job answer = some (db, job, next, outputs)) :
    Inv settings t { s with
      db, job, cancels := s.cancels.set c next, trace := s.trace ++ happenings outputs } := by
  have hcalls := calls_next h.keyed hnext
  obtain ⟨htask, hfound⟩ := h.calls c call hget
  refine ⟨hcalls.keeps.keyed, h.attempts, fun d other hother => ?_, fun hcancelled => ?_⟩
  · rw [OrderedMap.get_set] at hother
    split at hother
    · cases hother
      refine ⟨hcalls.task.trans htask, fun task hmem => ?_⟩
      rcases hcalls.found task hmem with hold | hread
      · exact ⟨(hfound task hold).1, hcalls.keeps.isSome t (hfound task hold).2⟩
      · rw [htask] at hread
        refine ⟨h.keyed.get hread, hcalls.keeps.isSome t ?_⟩
        rw [Database.status, hread]
        rfl
    · obtain ⟨hid, hsome⟩ := h.calls d other hother
      exact ⟨hid, fun task hmem => ⟨(hsome task hmem).1, hcalls.keeps.isSome t (hsome task hmem).2⟩⟩
  · rcases cancelled_set hcancelled with hnew | hold
    · obtain ⟨now, resultId, rfl, hanswers, hout, heffect⟩ := hasCancelled_next hnext hnew
      obtain ⟨hopen, hcovered⟩ := hok call hget hanswers
      have hsame : Covered { s with
          db, job, cancels := s.cancels.set c next, trace := s.trace ++ happenings outputs } := by
        refine hcovered.keep (fun b hb => ?_) fun b _ hway => hway
        rwa [uncancelled_same (s := s) (by rw [hout, List.append_nil])] at hb
      refine ⟨?_, hsame⟩
      rcases heffect with ⟨rfl, hstatus⟩ | ⟨task, hphase, rfl⟩
      · rwa [htask] at hstatus
      · have hmem : task ∈ foundTask call.phase := by
          rw [hphase]
          rfl
        obtain ⟨rfl, hsome⟩ := hfound task hmem
        exact cancelled_of_persist settings.toSettings now resultId h.keyed hsome hopen
    · obtain ⟨hstatus, hcovered⟩ := h.linear hold
      refine ⟨hcalls.keeps.terminal t .cancelled hstatus rfl, ?_⟩
      rcases hcalls.happens with hout | hout
      · refine hcovered.keep (fun b hb => ?_) fun b _ hway => hway
        rwa [uncancelled_same (s := s) (by rw [hout, List.append_nil])] at hb
      · exact covered_of_nil (uncancelled_request (s := s) (by rw [hout]))

theorem inv_step (h : Inv settings t s) (hok : InOrder t s l) (hstep : step settings t s l = some s') :
    Inv settings t s' := by
  have hrefl := keeps_refl h.keyed
  cases l with
  | transaction tx =>
    obtain ⟨db, hdb, hstep⟩ := Option.bind_eq_some_iff.mp hstep
    cases hstep
    exact h.others (apply_keeps h.keyed hdb) h.attempts rfl fun _ hcovered => hcovered
  | enqueue reconcile =>
    cases hstep
    exact h.others hrefl h.attempts rfl fun _ hcovered => hcovered
  | moveJob job =>
    cases hstep
    exact h.others hrefl h.attempts rfl fun _ hcovered => hcovered
  | take a =>
    simp only [step] at hstep
    split at hstep
    · rename_i hguard
      cases hstep
      refine h.others hrefl (fun b attempt hb => ?_) rfl fun _ hcovered b hb => ?_
      · rw [OrderedMap.get_set] at hb
        split at hb
        · cases hb
          exact ⟨rfl, fun hway => by cases hway⟩
        · exact h.attempts b attempt hb
      · have hway := hcovered b hb
        have hne : b ≠ a := by
          rintro rfl
          rw [OnItsWay, hguard.2] at hway
          cases hway
        rw [OnItsWay, OrderedMap.get_set_other _ _ hne]
        exact hway
    · cases hstep
  | attempt a answer => exact inv_attempt h hok hstep
  | accept a =>
    simp only [step] at hstep
    split at hstep <;> cases hstep
    refine h.others hrefl h.attempts rfl fun hcancelled hcovered b hb => ?_
    rw [uncancelled_accept rfl, List.mem_append, List.mem_singleton] at hb
    rcases hb with hb | rfl
    · exact hcovered b hb
    · exact hok hcancelled
  | refuse a =>
    simp only [step] at hstep
    split at hstep <;> cases hstep
    exact h.others hrefl h.attempts rfl fun _ hcovered => hcovered
  | cancelTask c userId =>
    simp only [step] at hstep
    split at hstep <;> cases hstep
    rename_i hfresh
    refine ⟨h.keyed, h.attempts, fun d call hcall => ?_, fun hcancelled => ?_⟩
    · rw [OrderedMap.get_set] at hcall
      split at hcall
      · cases hcall
        exact ⟨rfl, fun task htask => by cases htask⟩
      · exact h.calls d call hcall
    · rcases cancelled_set hcancelled with hnew | hold
      · cases hnew
      · exact h.linear hold
  | cancel c answer =>
    obtain ⟨call, hget, hstep⟩ := Option.bind_eq_some_iff.mp hstep
    obtain ⟨⟨db, job, next, outputs⟩, hnext, hstep⟩ := Option.bind_eq_some_iff.mp hstep
    cases hstep
    exact inv_cancel h hok hget hnext
  | requestCancellation =>
    simp only [step] at hstep
    split at hstep <;> cases hstep
    exact h.others hrefl h.attempts rfl fun _ _ => covered_of_nil (uncancelled_request rfl)

/-- Cancellation linearises against dispatch when every step is in order. -/
theorem linearised_of_inOrder (settings : DispatchSettings) (t : String) {ls : List Label}
    (hok : Along (step settings t) (InOrder t) .init ls) :
    Throughout (step settings t) (Linearised t) .init ls :=
  throughout_of_along (fun _ h => h.linearised) (fun _ _ _ h hok hstep => inv_step h hok hstep)
    (inv_init settings t) hok

instance (s : System) (a : Nat) : Decidable (OnItsWay s a) := inferInstanceAs (Decidable (_ = true))

instance (s : System) : Decidable (Covered s) := inferInstanceAs (Decidable (∀ a ∈ uncancelled s, _))

instance decidableInOrder (t : String) (s : System) : (l : Label) → Decidable (InOrder t s l)
  | .cancel c (.database _ _) =>
    inferInstanceAs (Decidable (∀ call ∈ s.cancels.get c, answersCancelled s call = true →
      (∀ status ∈ s.db.status t, status.isTerminal = true → status = .cancelled) ∧ Covered s))
  | .attempt a (.failed _ _) => inferInstanceAs (Decidable (Cancelled s → a ∉ uncancelled s))
  | .accept a => inferInstanceAs (Decidable (Cancelled s → OnItsWay s a))
  | .transaction _ | .enqueue _ | .moveJob _ | .take _ | .refuse _ | .cancelTask _ _
  | .requestCancellation | .cancel _ .queue | .cancel _ (.responded _) | .attempt _ (.database _)
  | .attempt _ (.inspected _) | .attempt _ (.responded _) | .attempt _ .settled => .isTrue trivial

def oneAdapter : DispatchSettings := ⟨⟨1, fun _ => true⟩, some "http://adapter"⟩

/-- A worker has requested the execution of a new task. -/
def executionRequested : List Label :=
  [.transaction (.single (.enqueue ⟨"t", "u", none, "hello", .inr ("s", "hello")⟩)), .enqueue false,
    .take 0, .attempt 0 (.database "2026-01-01"), .attempt 0 (.database "2026-01-01"),
    .attempt 0 (.inspected none)]

/-- The adapter accepts the execution, and the task becomes running. -/
def executionAccepted : List Label :=
  [.accept 0, .attempt 0 (.responded ⟨"r", "/stream"⟩), .attempt 0 (.database "2026-01-01"),
    .attempt 0 (.database "2026-01-01")]

/-- `cancelTask` has read the queued task and finds its job taken when the worker dispatches it. -/
def overtakenByDispatch : List Label :=
  executionRequested ++ [.cancelTask 0 "u", .cancel 0 (.database "2026-01-01" "r1"), .cancel 0 .queue,
    .cancel 0 .queue] ++ executionAccepted ++ [.cancel 0 (.database "2026-01-01" "r1")]

/-- No request to cancel ever follows the acceptance. -/
theorem not_linearised_of_dispatch :
    ¬ Throughout (step oneAdapter "t") (Linearised "t") .init overtakenByDispatch := by
  intro hlinear
  have hend : (run (step oneAdapter "t") .init overtakenByDispatch).any (fun s =>
      decide (Cancelled s) && decide (s.trace = [.accepted 0]) &&
        s.attempts.values.all fun attempt => !Attempt.onItsWay attempt) = true := by decide +kernel
  obtain ⟨s, hrun, hs⟩ := (Option.any_eq_true _ _).mp hend
  simp only [Bool.and_eq_true, decide_eq_true_eq, List.all_eq_true, Bool.not_eq_true'] at hs
  obtain ⟨⟨hcancelled, htrace⟩, hidle⟩ := hs
  have hquiet : Quiet s := by
    intro a hway
    obtain ⟨attempt, hget, hon⟩ := (Option.any_eq_true _ _).mp hway
    rw [hidle attempt ((OrderedMap.mem_values_iff _ _).mpr ⟨a, hget⟩)] at hon
    cases hon
  have hmem := ((hlinear.last hrun) hcancelled).2 hquiet [] 0 [] htrace
  cases hmem

/-- The user cancels the running task. -/
def cancelledInOrder : List Label :=
  executionRequested ++ executionAccepted ++ [.cancelTask 0 "u", .cancel 0 (.database "2026-01-01" "r1"),
    .cancel 0 (.responded true), .cancel 0 (.database "2026-01-01" "r1")]

theorem linearised_in_order :
    (run (step oneAdapter "t") .init cancelledInOrder).any (fun s => decide (Cancelled s)) = true ∧
      Throughout (step oneAdapter "t") (Linearised "t") .init cancelledInOrder :=
  ⟨by decide +kernel, linearised_of_inOrder oneAdapter "t" (by decide +kernel)⟩

end CancelDispatch
