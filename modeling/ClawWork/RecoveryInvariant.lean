import ClawWork.ApiProcess
import ClawWork.TaskProgress

/-!
# What a process keeps while it starts

A task that has left the queue is relayed or at its end, and a queued task that the
first scan has seen has a job, as long as no call fails. Every step of a process
outside `onModuleInit` carries this on, whatever it interrupts.
-/

namespace RecoveryInvariant

open SharedTypes TaskStore TasksService DispatchTask ApiProcess TaskProgress
open PersistCalls (Call)
open LogCommits (Tracked)
open PersistWrites (AllWritten)

/-- The job is still to be processed. -/
def unsettled : JobState → Bool
  | .completed | .failed => false
  | .waiting | .delayed | .paused | .prioritized | .active => true

def FailCall.isReturned (call : FailCall) : Bool :=
  match call.phase with
  | .returned => true
  | _ => false

/-- `onFinalFailure` is in progress for the task. -/
def Finalising (p : Process) (t : String) : Prop := ∃ i call, p.failures.get i = some call ∧
  call.taskId = t ∧ call.final = true ∧ FailCall.isReturned call = false

/-- The task has a job whose processing, or whose final failure, is not over yet. -/
def Open (s : System) (p : Process) (t : String) : Prop :=
  (∃ job, s.jobs.get t = some job ∧ unsettled job.state = true) ∨ Finalising p t

def updatesSession : AttemptPhase → Bool
  | .updatingSession _ => true
  | _ => false

/-- An attempt has dispatched the task and goes on to start its relay. -/
def Dispatching (p : Process) (t : String) : Prop := ∃ a attempt, p.attempts.get a = some attempt ∧
  attempt.taskId = t ∧ updatesSession attempt.phase = true

/-- The process has started the relay of the task, or is about to. -/
def Relayed (p : Process) (t : String) : Prop := t ∈ p.relays ∨ Dispatching p t

/-- The task is not queued, and relayed if it is running. -/
def Over (db : Database) (p : Process) (t : String) : Prop :=
  Unqueued db t ∧ (db.status t = some .running → Relayed p t)

def Held (s : System) (p : Process) (t : String) : Prop := Open s p t ∨ t ∈ p.abandoned

def CallInv (s : System) (p : Process) (call : Call) : Prop :=
  (newStatus call.event.detail = some .running → call.event.taskId ∈ p.relays) ∧
    (Reports call → (s.db.status call.event.taskId).isSome = true ∧ OnlyUpdates call.phase ∧
      (p.faulty = false → concluded call.phase = true → Over s.db p call.event.taskId))

def AttemptInv (settings : ProcessSettings) (db : Database) (attempt : Attempt) : Prop :=
  (db.status attempt.taskId).isSome = true ∧
    match attempt.phase with
    | .executing | .updating _ => settings.adapterUrl.isSome = true
    | .cancelling | .returned => Unqueued db attempt.taskId
    | .updatingSession _ => Dispatched db attempt.taskId
    | _ => True

def FailInv (s : System) (p : Process) (call : FailCall) : Prop :=
  (s.db.status call.taskId).isSome = true ∧
    match call.phase with
    | .finding => True
    | .persisting c => ∃ persist, s.service.calls c = some persist ∧ persist.event.taskId = call.taskId ∧
      Reports persist
    | .returned => p.faulty = false → Over s.db p call.taskId

/-- The tasks of the first scan that have still to be enqueued. -/
def toEnqueue : InitPhase → List String
  | .enqueuing _ t rest => t :: rest
  | .updating _ rest => rest
  | _ => []

/-- The rows of the second scan that have still to be looked at. -/
def toResume : InitPhase → List Task
  | .resuming rest | .failing _ rest => rest
  | .cancelling task rest => task :: rest
  | _ => []

/-- The task whose time is over, while `failTask` is in progress. -/
def timedOut : InitPhase → Option String
  | .failing call _ => some call.taskId
  | _ => none

/-- The first scan is done, and requests are not served yet. -/
def scannedQueued : InitPhase → Bool
  | .ensuringBucket | .findingQueued | .listening => false
  | _ => true

/-- The second scan is done, and requests are not served yet. -/
def scannedRunning : InitPhase → Bool
  | .resuming _ | .cancelling _ _ | .failing _ _ | .initialised => true
  | _ => false

structure InitInv (s : System) (p : Process) : Prop where
  listed : ∀ t ∈ toEnqueue p.init, (s.db.status t).isSome = true
  rows : ∀ task ∈ toResume p.init, Dispatched s.db task.id ∧ truthy task.adapterStreamUrl ≠ none
  queued : p.faulty = false → scannedQueued p.init = true → ∀ t, s.db.status t = some .queued →
    t ∈ toEnqueue p.init ∨ Held s p t
  adding : p.faulty = false → ∀ t rest, p.init = .enqueuing .add t rest → s.db.status t = some .queued →
    s.jobs.get t = none ∨ Held s p t
  running : p.faulty = false → scannedRunning p.init = true → ∀ t, s.db.status t = some .running →
    t ∈ (toResume p.init).map Task.id ∨ timedOut p.init = some t ∨ Relayed p t
  failing : ∀ call rest, p.init = .failing call rest → FailInv s p call

structure ProcessInv (settings : ProcessSettings) (s : System) (p : Process) : Prop where
  relays : ∀ t ∈ p.relays, Dispatched s.db t
  calls : ∀ c call, s.service.calls c = some call → CallInv s p call
  attempts : ∀ a attempt, p.attempts.get a = some attempt → AttemptInv settings s.db attempt
  failures : ∀ i call, p.failures.get i = some call → FailInv s p call
  creations : ∀ i creation, p.creations.get i = some creation → (s.db.status creation.taskId).isSome = true
  unserved : p.isListening = false → ∀ i, p.creations.get i = none ∧ p.cancellations.get i = none
  init : InitInv s p

structure Inv (settings : ProcessSettings) (s : System) : Prop where
  tracked : Tracked s.service
  written : AllWritten s.service
  prepares : Prepares s.service
  running : ∀ t, s.db.status t = some .running → Dispatched s.db t
  jobs : ∀ t job, s.jobs.get t = some job → (s.db.status t).isSome = true
  idle : s.process = none → ∀ c, s.service.calls c = none
  process : ∀ p, s.process = some p → ProcessInv settings s p

variable {settings : ProcessSettings} {s s' : System} {p p' : Process} {t : String}

/-- What every step keeps as long as the process is up. -/
structure Carries (s s' : System) (p p' : Process) : Prop where
  follows : Follows s.db s'.db
  faulty : p'.faulty = false → p.faulty = false
  relays : ∀ t ∈ p.relays, t ∈ p'.relays
  dispatching : p'.faulty = false → ∀ t, Dispatching p t → Relayed p' t
  running : ∀ t, s'.db.status t = some .running → s.db.status t = some .running ∨ Relayed p' t
  calls : ∀ c call, s.service.calls c = some call → ∃ phase, s'.service.calls c = some { call with phase }

theorem Carries.relayed (hc : Carries s s' p p') (hfaulty : p'.faulty = false) (h : Relayed p t) :
    Relayed p' t := by
  rcases h with h | h
  · exact .inl (hc.relays t h)
  · exact hc.dispatching hfaulty t h

theorem Carries.over (hc : Carries s s' p p') (hfaulty : p'.faulty = false) (h : Over s.db p t) :
    Over s'.db p' t := by
  refine ⟨hc.follows.unqueued h.1, fun hrunning => ?_⟩
  rcases hc.running t hrunning with hold | hrelayed
  · exact hc.relayed hfaulty (h.2 hold)
  · exact hrelayed

theorem Carries.attemptInv (hc : Carries s s' p p') {attempt : Attempt}
    (h : AttemptInv settings s.db attempt) : AttemptInv settings s'.db attempt := by
  refine ⟨hc.follows.isSome h.1, ?_⟩
  have hphase := h.2
  cases hcase : attempt.phase with
  | executing | updating =>
    rw [hcase] at hphase
    exact hphase
  | cancelling | returned =>
    rw [hcase] at hphase
    exact hc.follows.unqueued hphase
  | updatingSession =>
    rw [hcase] at hphase
    exact hc.follows.dispatched hphase
  | finding | counting | inspecting | threw => trivial

theorem reports_phase {call : Call} {phase : PersistCalls.Phase} (h : Reports call) :
    Reports { call with phase } := ⟨h.source, h.detail⟩

theorem Carries.failInv (hc : Carries s s' p p') {call : FailCall} (h : FailInv s p call) :
    FailInv s' p' call := by
  refine ⟨hc.follows.isSome h.1, ?_⟩
  have hphase := h.2
  cases hcase : call.phase with
  | finding => trivial
  | persisting c =>
    rw [hcase] at hphase
    obtain ⟨persist, hget, htask, hreports⟩ := hphase
    obtain ⟨phase, hget'⟩ := hc.calls c persist hget
    exact ⟨_, hget', htask, reports_phase hreports⟩
  | returned =>
    rw [hcase] at hphase
    exact fun hfaulty => hc.over hfaulty (hphase (hc.faulty hfaulty))

/-- A call that does not move. -/
theorem Carries.callInv (hc : Carries s s' p p') {call : Call} (h : CallInv s p call) :
    CallInv s' p' call := by
  obtain ⟨haccepts, hreports⟩ := h
  refine ⟨fun hnew => hc.relays _ (haccepts hnew), fun hr => ?_⟩
  obtain ⟨hsome, honly, hover⟩ := hreports hr
  refine ⟨hc.follows.isSome hsome, honly, fun hfaulty hconcluded => ?_⟩
  exact hc.over hfaulty (hover (hc.faulty hfaulty) hconcluded)

/-- What the steps outside `onModuleInit` keep of the queue before requests are served. -/
structure Keeps (s s' : System) (p p' : Process) : Prop where
  queued : p'.faulty = false → ∀ t, s'.db.status t = some .queued → s.db.status t = some .queued
  held : p'.faulty = false → ∀ t, s'.db.status t = some .queued → Held s p t → Held s' p' t
  missing : ∀ t, s.jobs.get t = none → s'.jobs.get t = none

theorem InitInv.carry (h : InitInv s p) (hc : Carries s s' p p') (hinit : p'.init = p.init)
    (hk : p.isListening = false → Keeps s s' p p') : InitInv s' p' where
  listed := by
    rw [hinit]
    exact fun t ht => hc.follows.isSome (h.listed t ht)
  rows := by
    rw [hinit]
    exact fun task ht => ⟨hc.follows.dispatched (h.rows task ht).1, (h.rows task ht).2⟩
  queued := by
    rw [hinit]
    intro hfaulty hscanned t hstatus
    have hlistening : p.isListening = false := by
      unfold Process.isListening
      split
      · rename_i hphase
        rw [hphase] at hscanned
        cases hscanned
      · rfl
    have hk := hk hlistening
    refine (h.queued (hc.faulty hfaulty) hscanned t (hk.queued hfaulty t hstatus)).imp_right ?_
    exact hk.held hfaulty t hstatus
  adding := by
    rw [hinit]
    intro hfaulty t rest hphase hstatus
    have hk := hk (by rw [Process.isListening, hphase])
    rcases h.adding (hc.faulty hfaulty) t rest hphase (hk.queued hfaulty t hstatus) with hnone | hheld
    · exact .inl (hk.missing t hnone)
    · exact .inr (hk.held hfaulty t hstatus hheld)
  running := by
    rw [hinit]
    intro hfaulty hscanned t hstatus
    rcases hc.running t hstatus with hold | hrelayed
    · rcases h.running (hc.faulty hfaulty) hscanned t hold with hmem | htimed | hrelayed
      · exact .inl hmem
      · exact .inr (.inl htimed)
      · exact .inr (.inr (hc.relayed hfaulty hrelayed))
    · exact .inr (.inr hrelayed)
  failing := by
    rw [hinit]
    exact fun call rest hphase => hc.failInv (h.failing call rest hphase)

/-- A step after which the running tasks are dispatched, as those with a relay are. -/
theorem ProcessInv.running (h : ProcessInv settings s' p') (hold : ∀ t, s.db.status t = some .running →
    Dispatched s.db t) (hc : Carries s s' p p') : ∀ t, s'.db.status t = some .running → Dispatched s'.db t := by
  intro t hstatus
  rcases hc.running t hstatus with hrunning | hrelay | ⟨a, attempt, hget, rfl, hphase⟩
  · exact hc.follows.dispatched (hold t hrunning)
  · exact h.relays t hrelay
  · have hattempt := (h.attempts a attempt hget).2
    cases hcase : attempt.phase with
    | updatingSession =>
      rw [hcase] at hattempt
      exact hattempt
    | _ =>
      rw [hcase] at hphase
      cases hphase

/-- A step that leaves the service alone keeps the invariant, when it keeps that of the process. -/
theorem Inv.still (h : Inv settings s) (hservice : s'.service = s.service) (hp' : s'.process = some p')
    (hjobs : ∀ t job, s'.jobs.get t = some job → (s.db.status t).isSome = true)
    (hprocess : ProcessInv settings s' p') : Inv settings s' where
  tracked := by
    rw [hservice]
    exact h.tracked
  written := by
    rw [hservice]
    exact h.written
  prepares := by
    rw [hservice]
    exact h.prepares
  running := by
    rw [System.db, hservice]
    exact h.running
  jobs := by
    rw [System.db, hservice]
    exact hjobs
  idle := by
    intro hnone
    rw [hp'] at hnone
    cases hnone
  process := by
    intro q hq
    rw [hp'] at hq
    cases hq
    exact hprocess

/-- A step that leaves the service alone carries what is known, as long as no attempt is lost. -/
theorem carries_still (hservice : s'.service = s.service) (hfaulty : p'.faulty = false → p.faulty = false)
    (hrelays : ∀ t ∈ p.relays, t ∈ p'.relays)
    (hdispatching : p'.faulty = false → ∀ t, Dispatching p t → Relayed p' t) : Carries s s' p p' where
  follows := follows_of_tasks (by rw [System.db, System.db, hservice])
  faulty := hfaulty
  relays := hrelays
  dispatching := hdispatching
  running := by
    intro t hstatus
    rw [System.db, hservice] at hstatus
    exact .inl hstatus
  calls := by
    intro c call hget
    rw [hservice]
    exact ⟨call.phase, hget⟩

theorem dispatching_same (hattempts : p'.attempts = p.attempts) (h : Dispatching p t) : Relayed p' t := by
  right
  rw [Dispatching, hattempts]
  exact h

/-- A statement of the service keeps the invariant, when it keeps that of the process. -/
theorem Inv.serve (h : Inv settings s) {l : PersistCalls.Label}
    (hstep : PersistCalls.step settings.toSettings s.service l = some s'.service)
    (hp' : s'.process = some p') (hc : Carries s s' p p')
    (hjobs : ∀ t job, s'.jobs.get t = some job → (s.db.status t).isSome = true)
    (hprocess : ProcessInv settings s' p') : Inv settings s' where
  tracked := LogCommits.tracked_step h.tracked hstep
  written := PersistWrites.allWritten_step h.written hstep
  prepares := prepares_step h.tracked h.prepares hstep
  running := hprocess.running h.running hc
  jobs := fun t job hjob => hc.follows.isSome (hjobs t job hjob)
  idle := by
    intro hnone
    rw [hp'] at hnone
    cases hnone
  process := by
    intro q hq
    rw [hp'] at hq
    cases hq
    exact hprocess

/-- The statements of the service that `onModuleInit` and the requests issue themselves. -/
def isOwn : PersistCalls.Label → Bool
  | .single (.dispatch _ _ _ _) => false
  | _ => true

/-- A statement of the service changes the status of a task by the commit of an event, or it creates the
task. -/
theorem status_serve (h : Inv settings s) {l : PersistCalls.Label} (hown : isOwn l = true)
    (hstep : PersistCalls.step settings.toSettings s.service l = some s'.service) (t : String) :
    s'.db.status t = s.db.status t ∨
      (∃ new, l = .single (.enqueue new) ∧ t = new.taskId ∧ s'.db.status t = some .queued) ∨
      ∃ c call status, s.service.calls c = some call ∧ call.event.taskId = t ∧
        newStatus call.event.detail = some status ∧ s'.db.status t = some status := by
  cases l with
  | single tx =>
    obtain ⟨-, db, hdb, hservice⟩ := PersistCalls.step_single_eq_some hstep
    have hdb' : s'.db = db := by
      rw [System.db, hservice]
      rfl
    rw [hdb']
    rcases status_single hdb t with hsame | ⟨new, rfl, hid, hqueued⟩ | ⟨runId, streamUrl, now, rfl, -⟩
    · exact .inl hsame
    · exact .inr (.inl ⟨new, rfl, hid, hqueued⟩)
    · cases hown
  | call | advance | abort =>
    exact (status_step h.tracked h.prepares hstep (fun tx hl => by cases hl) t).imp_right .inr

/-- What a statement of the service carries, when no attempt and no relay is lost with it. -/
theorem carries_serve (h : Inv settings s) (hp : s.process = some p) {l : PersistCalls.Label}
    (hown : isOwn l = true) (hstep : PersistCalls.step settings.toSettings s.service l = some s'.service)
    (hfaulty : p'.faulty = false → p.faulty = false) (hrelays : ∀ t ∈ p.relays, t ∈ p'.relays)
    (hattempts : p'.attempts = p.attempts) : Carries s s' p p' where
  follows := follows_step h.written hstep
  faulty := hfaulty
  relays := hrelays
  dispatching := fun _ _ hdispatching => dispatching_same hattempts hdispatching
  running := by
    intro t hrunning
    rcases status_serve h hown hstep t with hsame | ⟨new, -, -, hst⟩ | ⟨c, call, status, hcall, rfl, hnew, hst⟩
    · rw [hsame] at hrunning
      exact .inl hrunning
    · rw [hst] at hrunning
      cases hrunning
    · rw [hst] at hrunning
      cases hrunning
      exact .inr (.inl (hrelays _ (((h.process p hp).calls c call hcall).1 hnew)))
  calls := fun c call hcall => calls_step h.tracked hcall hstep

/-- The queue, as a statement of the service that creates no task leaves it. -/
theorem keeps_serve (h : Inv settings s) {l : PersistCalls.Label} (hown : isOwn l = true)
    (hnew : ∀ new, l ≠ .single (.enqueue new))
    (hstep : PersistCalls.step settings.toSettings s.service l = some s'.service)
    (hjobs : s'.jobs = s.jobs) (hheld : p'.faulty = false → ∀ t, s'.db.status t = some .queued →
      Held s p t → Held s' p' t) : Keeps s s' p p' where
  queued := by
    intro _ t hqueued
    rcases status_serve h hown hstep t with hsame | ⟨new, rfl, -⟩ | ⟨c, call, status, -, -, hst, hst'⟩
    · exact hsame.symm.trans hqueued
    · exact absurd rfl (hnew new)
    · rw [hst'] at hqueued
      cases hqueued
      exact absurd hst (newStatus_ne_queued _)
  held := hheld
  missing := fun t hnone => by rw [hjobs, hnone]

/-- The calls of `persistTaskEvent` after a statement of the service. -/
theorem callInv_serve (h : Inv settings s) (hp : s.process = some p) {l : PersistCalls.Label}
    (hstep : PersistCalls.step settings.toSettings s.service l = some s'.service) (hc : Carries s s' p p')
    (hcall : ∀ c event archived source now resultId, l = .call c event archived source now resultId →
      (newStatus event.detail = some .running → event.taskId ∈ p.relays) ∧
        ∀ code message, event.detail = .failed code message → (s.db.status event.taskId).isSome = true)
    (habort : ∀ c, l = .abort c → p'.faulty = true) :
    ∀ c call, s'.service.calls c = some call → CallInv s' p' call := by
  have hold := (h.process p hp).calls
  intro d call' hget
  cases l with
  | call c event archived source now resultId =>
    obtain ⟨haccepts, hsome⟩ := hcall c event archived source now resultId rfl
    obtain ⟨-, hservice⟩ := PersistCalls.step_call_eq_some hstep
    rw [hservice] at hget
    simp only [Function.update_apply] at hget
    split at hget
    · cases hget
      refine ⟨fun hnew => hc.relays _ (haccepts hnew), fun hr => ⟨?_, trivial, fun _ h => by cases h⟩⟩
      obtain ⟨code, message, hdetail⟩ := hr.detail
      exact hc.follows.isSome (hsome code message hdetail)
    · exact hc.callInv (hold d call' hget)
  | advance c =>
    obtain ⟨call, hmoved, hadvance⟩ := Option.bind_eq_some_iff.mp hstep
    obtain ⟨haccepts, hreports⟩ := hold c call hmoved
    obtain ⟨phase, hcalls, -⟩ := LogCommits.advance_moves h.tracked hmoved hadvance
    rw [hcalls, Function.update_apply] at hget
    split at hget
    · cases hget
      refine ⟨fun hnew => hc.relays _ (haccepts hnew), fun hr => ?_⟩
      have hr : Reports call := ⟨hr.source, hr.detail⟩
      obtain ⟨hsome, honly, hover⟩ := hreports hr
      obtain ⟨phase', hcalls', honly', hends⟩ :=
        reports_advance h.tracked h.prepares hmoved hr hsome honly hadvance
      have hphase : phase' = phase := by
        have heq := congrFun (hcalls'.symm.trans hcalls) c
        rw [Function.update_self, Function.update_self] at heq
        exact congrArg Call.phase (Option.some.inj heq)
      rw [hphase] at honly' hends
      refine ⟨hc.follows.isSome hsome, honly', fun hfaulty hconcluded => ?_⟩
      rcases hends hconcluded with hbefore | hterminal
      · exact hc.over hfaulty (hover (hc.faulty hfaulty) hbefore)
      · obtain ⟨status, hstatus, hend⟩ := (Option.any_eq_true _ _).mp hterminal
        refine ⟨unqueued_of_status hstatus fun heq => ?_, fun hrunning => ?_⟩
        · rw [heq] at hend
          cases hend
        · rw [show s'.db.status call.event.taskId = some status from hstatus] at hrunning
          cases hrunning
          cases hend
    · exact hc.callInv (hold d call' hget)
  | abort c =>
    have hfaulty := habort c rfl
    obtain ⟨call, hmoved, hstep⟩ := Option.bind_eq_some_iff.mp hstep
    split at hstep
    · rw [← Option.some.inj hstep, PersistCalls.leave_calls] at hget
      split at hget
      · cases hget
        obtain ⟨haccepts, hreports⟩ := hold c call hmoved
        refine ⟨fun hnew => hc.relays _ (haccepts hnew), fun hr => ?_⟩
        refine ⟨hc.follows.isSome (hreports ⟨hr.source, hr.detail⟩).1, trivial, fun hok => ?_⟩
        rw [hfaulty] at hok
        cases hok
      · exact hc.callInv (hold d call' hget)
    · cases hstep
  | single tx =>
    obtain ⟨-, db, -, hservice⟩ := PersistCalls.step_single_eq_some hstep
    rw [hservice] at hget
    exact hc.callInv (hold d call' hget)

/-- The invariant of the process after a step outside `onModuleInit`: what is new satisfies it. -/
theorem ProcessInv.carry (h : ProcessInv settings s p) (hc : Carries s s' p p') (hinit : p'.init = p.init)
    (hk : p.isListening = false → Keeps s s' p p')
    (hrelays : ∀ t ∈ p'.relays, t ∈ p.relays ∨ Dispatched s'.db t)
    (hcalls : ∀ c call, s'.service.calls c = some call → CallInv s' p' call)
    (hattempts : ∀ a attempt, p'.attempts.get a = some attempt →
      p.attempts.get a = some attempt ∨ AttemptInv settings s'.db attempt)
    (hfailures : ∀ i call, p'.failures.get i = some call →
      p.failures.get i = some call ∨ FailInv s' p' call)
    (hcreations : ∀ i creation, p'.creations.get i = some creation →
      p.creations.get i = some creation ∨ (s'.db.status creation.taskId).isSome = true)
    (hunserved : p.isListening = false →
      p'.creations = p.creations ∧ p'.cancellations = p.cancellations) :
    ProcessInv settings s' p' where
  relays := by
    intro t ht
    rcases hrelays t ht with hold | hnew
    · exact hc.follows.dispatched (h.relays t hold)
    · exact hnew
  calls := hcalls
  attempts := by
    intro a attempt hget
    rcases hattempts a attempt hget with hold | hnew
    · exact hc.attemptInv (h.attempts a attempt hold)
    · exact hnew
  failures := by
    intro i call hget
    rcases hfailures i call hget with hold | hnew
    · exact hc.failInv (h.failures i call hold)
    · exact hnew
  creations := by
    intro i creation hget
    rcases hcreations i creation hget with hold | hnew
    · exact hc.follows.isSome (h.creations i creation hold)
    · exact hnew
  unserved := by
    intro hlistening i
    have hold : p.isListening = false := by
      rw [Process.isListening, hinit] at hlistening
      exact hlistening
    rw [(hunserved hold).1, (hunserved hold).2]
    exact h.unserved hold i
  init := h.init.carry hc hinit hk

theorem Carries.callsStill (hc : Carries s s' p p') (h : ProcessInv settings s p)
    (hservice : s'.service = s.service) : ∀ c call, s'.service.calls c = some call → CallInv s' p' call := by
  intro c call hget
  rw [hservice] at hget
  exact hc.callInv (h.calls c call hget)

/-- The entries of a map after one of them is set. -/
theorem of_get_set {κ α : Type} [DecidableEq κ] {m : OrderedMap κ α} {k j : κ} {v w : α}
    (h : (m.set k v).get j = some w) : w = v ∨ m.get j = some w := by
  rw [OrderedMap.get_set] at h
  split at h
  · exact .inl (Option.some.inj h).symm
  · exact .inr h

/-- The attempts that dispatch their tasks stay when another one is set. -/
theorem dispatching_set {a : Nat} {next : Attempt}
    (hold : ∀ attempt, p.attempts.get a = some attempt → updatesSession attempt.phase = false)
    (hattempts : p'.attempts = p.attempts.set a next) (h : Dispatching p t) : Dispatching p' t := by
  obtain ⟨b, attempt, hget, htask, hphase⟩ := h
  refine ⟨b, attempt, ?_, htask, hphase⟩
  rw [hattempts, OrderedMap.get_set_other]
  · exact hget
  · rintro rfl
    rw [hold attempt hget] at hphase
    cases hphase

/-- A new call of `failTask` leaves the others. -/
theorem finalising_set {i : Nat} {call : FailCall} (hfresh : p.failures.get i = none)
    (hfailures : p'.failures = p.failures.set i call) (h : Finalising p t) : Finalising p' t := by
  obtain ⟨j, other, hget, htask, hfinal, hphase⟩ := h
  refine ⟨j, other, ?_, htask, hfinal, hphase⟩
  rw [hfailures, OrderedMap.get_set_other]
  · exact hget
  · rintro rfl
    rw [hfresh] at hget
    cases hget

theorem finalising_same (hfailures : p'.failures = p.failures) (h : Finalising p t) : Finalising p' t := by
  rw [Finalising, hfailures]
  exact h

/-- What holds a queued task holds it still: its open job, its final failure, or that it was dropped. -/
theorem Held.keep (h : Held s p t)
    (hjob : ∀ job, s.jobs.get t = some job → unsettled job.state = true → Held s' p' t)
    (hfinal : Finalising p t → Finalising p' t) (habandoned : ∀ t ∈ p.abandoned, t ∈ p'.abandoned) :
    Held s' p' t := by
  rcases h with (⟨job, hget, hopen⟩ | hfinalising) | hdropped
  · exact hjob job hget hopen
  · exact .inl (.inr (hfinal hfinalising))
  · exact .inr (habandoned t hdropped)

theorem held_of_job (job : Job) (hget : s.jobs.get t = some job) (hopen : unsettled job.state = true) :
    Held s p t := .inl (.inl ⟨job, hget, hopen⟩)

/-- The jobs of the other tasks stay. -/
theorem held_of_other {job new : Job} {t u : String} (hjobs : s'.jobs = s.jobs.set t new) (hne : u ≠ t)
    (hget : s.jobs.get u = some job) (hopen : unsettled job.state = true) : Held s' p' u := by
  refine held_of_job job ?_ hopen
  rw [hjobs, OrderedMap.get_set_other _ _ hne]
  exact hget

/-- Before requests are served, a step that leaves the service alone and sets the job of one task. -/
theorem keeps_set {u : String} {old new : Job} (hservice : s'.service = s.service)
    (hold : s.jobs.get u = some old) (hjobs : s'.jobs = s.jobs.set u new)
    (hnew : p'.faulty = false → s.db.status u = some .queued → Held s' p' u)
    (hfinal : ∀ t, Finalising p t → Finalising p' t) (habandoned : ∀ t ∈ p.abandoned, t ∈ p'.abandoned) :
    Keeps s s' p p' where
  queued := by
    intro _ t hqueued
    rw [System.db, hservice] at hqueued
    exact hqueued
  held := by
    intro hfaulty t hqueued hheld
    rw [System.db, hservice] at hqueued
    refine hheld.keep (fun job hget hopen => ?_) (hfinal t) habandoned
    by_cases heq : t = u
    · rw [heq] at hqueued ⊢
      exact hnew hfaulty hqueued
    · exact held_of_other hjobs heq hget hopen
  missing := by
    intro t hnone
    rw [hjobs, OrderedMap.get_set_other]
    · exact hnone
    · rintro rfl
      rw [hold] at hnone
      cases hnone

/-- A step that leaves the service and the jobs alone. -/
theorem keeps_still (hservice : s'.service = s.service) (hjobs : s'.jobs = s.jobs)
    (hfinal : p'.faulty = false → ∀ t, s.db.status t = some .queued → Finalising p t → Finalising p' t)
    (habandoned : ∀ t ∈ p.abandoned, t ∈ p'.abandoned) : Keeps s s' p p' where
  queued := by
    intro _ t hqueued
    rw [System.db, hservice] at hqueued
    exact hqueued
  held := by
    intro hfaulty t hqueued hheld
    rw [System.db, hservice] at hqueued
    refine hheld.keep (fun job hget hopen => ?_) (hfinal hfaulty t hqueued) habandoned
    rw [← hjobs] at hget
    exact held_of_job _ hget hopen
  missing := by
    intro t hnone
    rw [hjobs]
    exact hnone

/-- The jobs of a step that sets one. -/
theorem jobs_set (h : Inv settings s) {u : String} {new : Job} (hjobs : s'.jobs = s.jobs.set u new)
    (hsome : (s.db.status u).isSome = true) :
    ∀ t job, s'.jobs.get t = some job → (s.db.status t).isSome = true := by
  intro t job hget
  rw [hjobs, OrderedMap.get_set] at hget
  split at hget
  · rename_i heq
    rw [heq]
    exact hsome
  · exact h.jobs t job hget

/-- A step outside `onModuleInit` that leaves the service alone. -/
theorem Inv.quiet (h : Inv settings s) (hp : s.process = some p) (hservice : s'.service = s.service)
    (hp' : s'.process = some p') (hc : Carries s s' p p') (hinit : p'.init = p.init)
    (hjobs : ∀ t job, s'.jobs.get t = some job → (s.db.status t).isSome = true)
    (hk : p.isListening = false → Keeps s s' p p') (hrelays : p'.relays = p.relays)
    (hattempts : ∀ a attempt, p'.attempts.get a = some attempt →
      p.attempts.get a = some attempt ∨ AttemptInv settings s'.db attempt)
    (hfailures : ∀ i call, p'.failures.get i = some call →
      p.failures.get i = some call ∨ FailInv s' p' call)
    (hcreations : ∀ i creation, p'.creations.get i = some creation →
      p.creations.get i = some creation ∨ (s'.db.status creation.taskId).isSome = true)
    (hunserved : p.isListening = false →
      p'.creations = p.creations ∧ p'.cancellations = p.cancellations) : Inv settings s' := by
  have hprocess := h.process p hp
  refine h.still hservice hp' hjobs (hprocess.carry hc hinit hk (fun t ht => .inl ?_)
    (hc.callsStill hprocess hservice) hattempts hfailures hcreations hunserved)
  rw [← hrelays]
  exact ht

variable {a i : Nat}

theorem inv_take (h : Inv settings s) (hp : s.process = some p)
    (hstep : p.step settings s (.take t a) = some s') : Inv settings s' := by
  obtain ⟨job, hjob, hstep⟩ := Option.bind_eq_some_iff.mp hstep
  split at hstep
  · rename_i hguard
    cases hstep
    have hsome := h.jobs t job hjob
    refine h.quiet hp rfl rfl (carries_still rfl (fun hok => hok) (fun _ ht => ht) fun _ u hu => .inr ?_) rfl
      (jobs_set h rfl hsome) (fun _ => ?_) rfl (fun b attempt hget => ?_) (fun _ _ hget => .inl hget)
      (fun _ _ hget => .inl hget) fun _ => ⟨rfl, rfl⟩
    · refine dispatching_set (fun attempt hget => ?_) rfl hu
      rw [hguard.2.2] at hget
      cases hget
    · refine keeps_set rfl hjob rfl (fun _ _ => ?_) (fun _ hfinal => finalising_same rfl hfinal) fun _ ht => ht
      exact held_of_job _ (OrderedMap.get_set_same _ _ _) rfl
    · rcases of_get_set hget with rfl | hold
      · exact .inr ⟨hsome, trivial⟩
      · exact .inl hold
  · cases hstep

theorem inv_attemptFails (h : Inv settings s) (hp : s.process = some p) {code message : String}
    (hstep : p.step settings s (.attemptFails a code message) = some s') : Inv settings s' := by
  obtain ⟨attempt, hattempt, hstep⟩ := Option.bind_eq_some_iff.mp hstep
  split at hstep
  · cases hstep
  · cases hstep
    refine h.quiet hp rfl rfl (carries_still rfl (fun hok => by cases hok) (fun _ ht => ht)
      fun hok => by cases hok) rfl h.jobs (fun _ => ?_) rfl (fun b other hget => ?_)
      (fun _ _ hget => .inl hget) (fun _ _ hget => .inl hget) fun _ => ⟨rfl, rfl⟩
    · exact keeps_still rfl rfl (fun hok => by cases hok) fun _ ht => ht
    · rcases of_get_set hget with rfl | hold
      · exact .inr ⟨((h.process p hp).attempts a attempt hattempt).1, trivial⟩
      · exact .inl hold

/-- `onFinalFailure` adds a call of `failTask`, and nothing else changes. -/
theorem failed_cases (settings : ProcessSettings) (p : Process) (t : String) (job : Job) (i : Nat)
    (code message : String) : job.attemptsMade < settings.attempts ∧ p.failed settings t job i code message = p ∨
      ¬ job.attemptsMade < settings.attempts ∧ ∃ text, p.failed settings t job i code message =
        { p with failures := p.failures.set i ⟨t, code, text, true, .finding⟩ } := by
  unfold Process.failed
  split
  · rename_i hleft
    exact .inl ⟨hleft, rfl⟩
  · rename_i hleft
    exact .inr ⟨hleft, _, rfl⟩

/-- A job that has failed: the process keeps what it has, and may make a call of `failTask`. -/
theorem inv_failed (i : Nat) (new : Job) (text code : String) (abandoned : List String)
    (h : Inv settings s) (hp : s.process = some p) {job : Job} (hjob : s.jobs.get t = some job)
    (hfresh : p.failures.get i = none)
    (hp' : p' = { p with abandoned } ∨
      p' = { p with failures := p.failures.set i ⟨t, code, text, true, .finding⟩, abandoned })
    (habandoned : ∀ u ∈ p.abandoned, u ∈ abandoned)
    (hheld : s.db.status t = some .queued → unsettled new.state = true ∨ Finalising p' t ∨ t ∈ abandoned) :
    Inv settings { s with jobs := s.jobs.set t new, process := some p' } := by
  have hsome := h.jobs t job hjob
  have hsame : p'.init = p.init ∧ p'.attempts = p.attempts ∧ p'.relays = p.relays ∧
      p'.creations = p.creations ∧ p'.cancellations = p.cancellations ∧ p'.faulty = p.faulty ∧
      p'.abandoned = abandoned := by
    rcases hp' with rfl | rfl <;> exact ⟨rfl, rfl, rfl, rfl, rfl, rfl, rfl⟩
  obtain ⟨hinit, hattempts, hrelays, hcreations, hcancellations, hfaulty, hdropped⟩ := hsame
  have hfinal : ∀ u, Finalising p u → Finalising p' u := by
    intro u hu
    rcases hp' with rfl | rfl
    · exact finalising_same rfl hu
    · exact finalising_set hfresh rfl hu
  refine h.quiet hp rfl rfl (carries_still rfl (fun hok => hfaulty ▸ hok) (fun u hu => hrelays ▸ hu)
    fun _ _ hu => dispatching_same hattempts hu) hinit (jobs_set h rfl hsome) (fun _ => ?_) hrelays
    (fun b other hget => .inl (hattempts ▸ hget)) (fun j other hget => ?_)
    (fun j other hget => .inl (hcreations ▸ hget)) fun _ => ⟨hcreations, hcancellations⟩
  · refine keeps_set rfl hjob rfl (fun _ hqueued => ?_) hfinal fun u hu => by
      rw [hdropped]
      exact habandoned u hu
    rcases hheld hqueued with hopen | hfinalising | hdrop
    · exact held_of_job _ (OrderedMap.get_set_same _ _ _) hopen
    · exact .inl (.inr hfinalising)
    · refine .inr ?_
      rw [hdropped]
      exact hdrop
  · rcases hp' with rfl | rfl
    · exact .inl hget
    · rcases of_get_set hget with rfl | hold
      · exact .inr ⟨hsome, trivial⟩
      · exact .inl hold

theorem finalising_self {code text : String} {abandoned : List String} : Finalising { p with
    failures := p.failures.set i ⟨t, code, text, true, .finding⟩, abandoned } t :=
  ⟨i, _, OrderedMap.get_set_same _ _ _, rfl, rfl, rfl⟩

theorem inv_settle (h : Inv settings s) (hp : s.process = some p)
    (hstep : p.step settings s (.settle a i) = some s') : Inv settings s' := by
  obtain ⟨attempt, hattempt, hstep⟩ := Option.bind_eq_some_iff.mp hstep
  obtain ⟨job, hjob, hstep⟩ := Option.bind_eq_some_iff.mp hstep
  have hinv := (h.process p hp).attempts a attempt hattempt
  unfold System.settle at hstep
  dsimp only at hstep
  split at hstep
  · rename_i hguard
    split at hstep
    · rename_i hphase
      cases hstep
      rw [AttemptInv, hphase] at hinv
      have hbase := inv_failed i { job with state := .completed, owner := none } "" "" p.abandoned h hp hjob
        hguard.2.2 (.inl rfl) (fun _ hu => hu) fun hqueued => absurd hqueued hinv.2.status
      have heq : some p = s.process := hp.symm
      rw [heq] at hbase
      exact hbase
    · rename_i code message hphase
      cases hstep
      rcases failed_cases settings p attempt.taskId
          ⟨if job.attemptsMade + 1 < settings.attempts then .delayed else .failed, none, job.attemptsMade + 1⟩
          i code message with ⟨hleft, heq⟩ | ⟨hleft, text, heq⟩ <;> rw [heq] <;> dsimp only at hleft
      · refine inv_failed i _ "" "" p.abandoned h hp hjob hguard.2.2 (.inl rfl)
          (fun _ hu => hu) fun _ => .inl ?_
        rw [if_pos hleft]
        rfl
      · exact inv_failed i _ text code p.abandoned h hp hjob hguard.2.2
          (.inr rfl) (fun _ hu => hu) fun _ => .inr (.inl finalising_self)
    · cases hstep
  · cases hstep

theorem inv_giveUp (h : Inv settings s) (hp : s.process = some p)
    (hstep : p.step settings s (.giveUp t i) = some s') : Inv settings s' := by
  obtain ⟨job, hjob, hstep⟩ := Option.bind_eq_some_iff.mp hstep
  unfold System.giveUp at hstep
  split at hstep
  · rename_i hguard
    cases hstep
    rcases failed_cases settings p t ⟨.failed, none, job.attemptsMade + 1⟩ i "TASK_QUEUE_EXHAUSTED"
      "job stalled more than allowable limit" with ⟨hleft, heq⟩ | ⟨hleft, text, heq⟩ <;> rw [heq] <;>
      dsimp only at hleft
    · rw [if_pos hleft]
      exact inv_failed i _ "" "" (t :: p.abandoned) h hp hjob hguard.2 (.inl rfl)
        (fun _ hu => List.mem_cons_of_mem _ hu) fun _ => .inr (.inr List.mem_cons_self)
    · rw [if_neg hleft]
      exact inv_failed i _ text "TASK_QUEUE_EXHAUSTED" p.abandoned h hp hjob
        hguard.2 (.inr rfl) (fun _ hu => hu) fun _ => .inr (.inl finalising_self)
  · cases hstep

theorem inv_move (h : Inv settings s) (hp : s.process = some p) {job : Job} {old : JobState}
    (hjob : s.jobs.get t = some job) (hstep : s.move t job old .waiting = some s') : Inv settings s' := by
  unfold System.move at hstep
  split at hstep <;> cases hstep
  refine h.quiet hp rfl hp (carries_still rfl (fun hok => hok) (fun _ ht => ht)
    fun _ _ hu => dispatching_same rfl hu) rfl (jobs_set h rfl (h.jobs t job hjob)) (fun _ => ?_) rfl
    (fun _ _ hget => .inl hget) (fun _ _ hget => .inl hget) (fun _ _ hget => .inl hget) fun _ => ⟨rfl, rfl⟩
  refine keeps_set rfl hjob rfl (fun _ _ => ?_) (fun _ hfinal => hfinal) fun _ ht => ht
  exact held_of_job _ (OrderedMap.get_set_same _ _ _) rfl

theorem jobs_delete (h : Inv settings s) {u : String} :
    ∀ t job, (s.jobs.delete u).get t = some job → (s.db.status t).isSome = true := by
  intro t job hget
  rw [OrderedMap.get_delete] at hget
  split at hget
  · cases hget
  · exact h.jobs t job hget

theorem inv_expire (h : Inv settings s) (hp : s.process = some p)
    (hstep : p.step settings s (.expire t) = some s') : Inv settings s' := by
  obtain ⟨job, hjob, hstep⟩ := Option.bind_eq_some_iff.mp hstep
  split at hstep
  · rename_i hsettled
    cases hstep
    refine h.quiet hp rfl hp (carries_still rfl (fun hok => hok) (fun _ ht => ht)
      fun _ _ hu => dispatching_same rfl hu) rfl (jobs_delete h) (fun _ => ⟨fun _ _ hq => hq, ?_, ?_⟩) rfl
      (fun _ _ hget => .inl hget) (fun _ _ hget => .inl hget) (fun _ _ hget => .inl hget) fun _ => ⟨rfl, rfl⟩
    · intro _ u _ hheld
      refine hheld.keep (fun other hget hopen => ?_) (fun hfinal => hfinal) fun _ ht => ht
      have hne : u ≠ t := by
        rintro rfl
        rw [hjob] at hget
        cases hget
        rcases hsettled with hstate | hstate <;> rw [hstate] at hopen <;> cases hopen
      refine held_of_job other ?_ hopen
      exact (OrderedMap.get_delete_other _ hne).trans hget
    · intro u hnone
      show (s.jobs.delete t).get u = none
      rw [OrderedMap.get_delete]
      split
      · rfl
      · exact hnone
  · cases hstep

theorem inv_failTask (h : Inv settings s) (hp : s.process = some p) {code message : String}
    (hstep : p.step settings s (.failTask i t code message) = some s') : Inv settings s' := by
  simp only [Process.step] at hstep
  split at hstep
  · rename_i hguard
    cases hstep
    have hrelay : t ∈ p.relays := by simpa using hguard.1
    refine h.quiet hp rfl rfl (carries_still rfl (fun hok => hok) (fun _ ht => ht)
      fun _ _ hu => dispatching_same rfl hu) rfl h.jobs (fun _ => ?_) rfl (fun _ _ hget => .inl hget)
      (fun j call hget => ?_) (fun _ _ hget => .inl hget) fun _ => ⟨rfl, rfl⟩
    · exact keeps_still rfl rfl (fun _ _ _ hfinal => finalising_set hguard.2 rfl hfinal) fun _ ht => ht
    · rcases of_get_set hget with rfl | hold
      · exact .inr ⟨((h.process p hp).relays t hrelay).unqueued.isSome, trivial⟩
      · exact .inl hold
  · cases hstep

theorem inv_failThrows (h : Inv settings s) (hp : s.process = some p)
    (hstep : p.step settings s (.failThrows i) = some s') : Inv settings s' := by
  obtain ⟨call, hcall, hstep⟩ := Option.bind_eq_some_iff.mp hstep
  cases hstep
  refine h.quiet hp rfl rfl (carries_still rfl (fun hok => by cases hok) (fun _ ht => ht)
    fun hok => by cases hok) rfl h.jobs (fun _ => ?_) rfl (fun _ _ hget => .inl hget) (fun j other hget => ?_)
    (fun _ _ hget => .inl hget) fun _ => ⟨rfl, rfl⟩
  · exact keeps_still rfl rfl (fun hok => by cases hok) fun _ ht => ht
  · rcases of_get_set hget with rfl | hold
    · exact .inr ⟨((h.process p hp).failures i call hcall).1, fun hok => by cases hok⟩
    · exact .inl hold

/-- What one step of a call of `failTask` does. -/
inductive FailMoves (settings : ProcessSettings) (s : System) (p : Process) (c : Nat) (call : FailCall) :
    PersistCalls.System → FailCall → Prop
  /-- The call returns, and its task is over. -/
  | returns (hover : p.faulty = false → Over s.db p call.taskId) :
      FailMoves settings s p c call s.service { call with phase := .returned }
  | persists {event : TaskStreamEvent} {now resultId : String} {service : PersistCalls.System}
      (htask : event.taskId = call.taskId) (hdetail : event.detail = .failed call.code call.message)
      (hopen : FailCall.isReturned call = false)
      (hstep : PersistCalls.step settings.toSettings s.service
        (.call c event none none now resultId) = some service) :
      FailMoves settings s p c call service { call with phase := .persisting c }

theorem failMoves_next (h : Inv settings s) (hp : s.process = some p) {call next : FailCall} {c : Nat}
    {now resultId : String} {service : PersistCalls.System} (hinv : FailInv s p call)
    (hnext : call.next settings.toSettings s.service c now resultId = some (service, next)) :
    FailMoves settings s p c call service next := by
  obtain ⟨hsome, hphase⟩ := hinv
  unfold FailCall.next at hnext
  split at hnext
  · rename_i hfinding
    obtain ⟨status, hstatus⟩ := Option.isSome_iff_exists.mp hsome
    obtain ⟨task, hget, rfl⟩ := Option.map_eq_some_iff.mp hstatus
    split at hnext
    · rename_i hnone
      have hterminal := failTaskEvent_eq_none_iff.mp hnone task hget
      cases hnext
      refine .returns fun _ => ⟨⟨task, hget, fun heq => ?_⟩, fun hrunning => ?_⟩
      · rw [heq] at hterminal
        cases hterminal
      · rw [hstatus] at hrunning
        rw [Option.some.inj hrunning] at hterminal
        cases hterminal
    · rename_i event hevent
      obtain ⟨found, hfound, -, rfl⟩ := failTaskEvent_eq_some_iff.mp hevent
      obtain ⟨service', hservice, hnext⟩ := Option.bind_eq_some_iff.mp hnext
      cases hnext
      refine .persists (h.tracked.keyed _ _ hfound) rfl ?_ hservice
      rw [FailCall.isReturned, hfinding]
  · rename_i d hpersisting
    split at hnext
    · rename_i hdone
      cases hnext
      rw [hpersisting] at hphase
      obtain ⟨persist, hget, htask, hreports⟩ := hphase
      refine .returns fun hfaulty => ?_
      rw [hget, Option.map_some, Option.some.injEq] at hdone
      rw [← htask]
      refine (((h.process p hp).calls d persist hget).2 hreports).2.2 hfaulty ?_
      rw [hdone]
      rfl
    · cases hnext
  · cases hnext

/-- The call of `persistTaskEvent` that `failTask` makes. -/
theorem failInv_persisting {call : FailCall} {event : TaskStreamEvent} {c : Nat} {now resultId : String}
    (hc : Carries s s' p p') (hsome : (s.db.status call.taskId).isSome = true)
    (htask : event.taskId = call.taskId) (hdetail : event.detail = .failed call.code call.message)
    (hstep : PersistCalls.step settings.toSettings s.service (.call c event none none now resultId) =
      some s'.service) : FailInv s' p' { call with phase := .persisting c } := by
  refine ⟨hc.follows.isSome hsome, ?_⟩
  obtain ⟨-, hservice⟩ := PersistCalls.step_call_eq_some hstep
  have hcalls := congrArg PersistCalls.System.calls hservice
  exact ⟨_, (congrFun hcalls c).trans (Function.update_self ..), htask, rfl, _, _, hdetail⟩

theorem inv_fail (h : Inv settings s) (hp : s.process = some p) {c : Nat} {now resultId : String}
    (hstep : p.step settings s (.fail i c now resultId) = some s') : Inv settings s' := by
  obtain ⟨call, hcall, hstep⟩ := Option.bind_eq_some_iff.mp hstep
  obtain ⟨⟨service, next⟩, hnext, hstep⟩ := Option.bind_eq_some_iff.mp hstep
  cases hstep
  have hprocess := h.process p hp
  have hinv := hprocess.failures i call hcall
  have hmoves := failMoves_next h hp hinv hnext
  have hothers : ∀ {next : FailCall} {u : String}, Finalising p u →
      (u = call.taskId → call.final = true → FailCall.isReturned next = false ∧
        next.taskId = call.taskId ∧ next.final = true) →
      Finalising { p with failures := p.failures.set i next } u := by
    rintro next u ⟨j, other, hget, rfl, hfinal, hopen⟩ hself
    by_cases hj : j = i
    · rw [hj, hcall] at hget
      cases hget
      obtain ⟨hopen', htask, hfinal'⟩ := hself rfl hfinal
      exact ⟨i, next, OrderedMap.get_set_same _ _ _, htask, hfinal', hopen'⟩
    · exact ⟨j, other, (OrderedMap.get_set_other _ _ hj).trans hget, rfl, hfinal, hopen⟩
  cases hmoves with
  | returns hover =>
    refine h.quiet hp rfl rfl (carries_still rfl (fun hok => hok) (fun _ ht => ht)
      fun _ _ hu => dispatching_same rfl hu) rfl h.jobs (fun _ => ?_) rfl (fun _ _ hget => .inl hget)
      (fun j other hget => ?_) (fun _ _ hget => .inl hget) fun _ => ⟨rfl, rfl⟩
    · refine keeps_still rfl rfl (fun hok u hqueued hfinal => hothers hfinal fun hu _ => ?_) fun _ ht => ht
      rw [hu] at hqueued
      exact absurd hqueued (hover hok).1.status
    · rcases of_get_set hget with rfl | hold
      · exact .inr ⟨hinv.1, fun hok => hover hok⟩
      · exact .inl hold
  | persists htask hdetail hopen hservice =>
    have hc : Carries s ⟨service, s.jobs, some { p with
        failures := p.failures.set i { call with phase := .persisting c } }⟩ p { p with
        failures := p.failures.set i { call with phase := .persisting c } } :=
      carries_serve h hp rfl hservice (fun hok => hok) (fun _ ht => ht) rfl
    refine h.serve hservice rfl hc h.jobs (hprocess.carry hc rfl (fun _ => ?_) (fun _ ht => .inl ht)
      (callInv_serve h hp hservice hc ?_ fun c hl => by cases hl) (fun _ _ hget => .inl hget)
      (fun j other hget => ?_) (fun _ _ hget => .inl hget) fun _ => ⟨rfl, rfl⟩)
    · refine keeps_serve h rfl (fun new hl => by cases hl) hservice rfl fun _ u _ hheld => ?_
      refine hheld.keep (fun job hget hstate => held_of_job job hget hstate) (fun hfinal => ?_) fun _ ht => ht
      exact hothers hfinal fun _ hself => ⟨rfl, rfl, hself⟩
    · intro d event archived source now' resultId' hl
      cases hl
      refine ⟨fun hnew => ?_, fun _ _ _ => ?_⟩
      · rw [hdetail] at hnew
        cases hnew
      · rw [htask]
        exact hinv.1
    · rcases of_get_set hget with rfl | hold
      · exact .inr (failInv_persisting hc hinv.1 htask hdetail hservice)
      · exact .inl hold

theorem held_serve (hjobs : s'.jobs = s.jobs) (hfailures : p'.failures = p.failures)
    (habandoned : p'.abandoned = p.abandoned) (h : Held s p t) : Held s' p' t := by
  rw [Held, Open, Finalising, hjobs, hfailures, habandoned]
  exact h

/-- A statement of the service that changes nothing in the process, apart from a failure. -/
theorem inv_service (faulty : Bool) (h : Inv settings s) (hp : s.process = some p) {l : PersistCalls.Label}
    {service : PersistCalls.System} (hown : isOwn l = true)
    (hnew : ∀ new, l ≠ .single (.enqueue new))
    (hstep : PersistCalls.step settings.toSettings s.service l = some service)
    (hfaulty : faulty = false → p.faulty = false)
    (hcall : ∀ c event archived source now resultId, l = .call c event archived source now resultId →
      (newStatus event.detail = some .running → event.taskId ∈ p.relays) ∧
        ∀ code message, event.detail = .failed code message → (s.db.status event.taskId).isSome = true)
    (habort : ∀ c, l = .abort c → faulty = true) :
    Inv settings { s with service, process := some { p with faulty } } := by
  have hc : Carries s { s with service, process := some { p with faulty } } p { p with faulty } :=
    carries_serve h hp hown hstep hfaulty (fun _ ht => ht) rfl
  refine h.serve hstep rfl hc h.jobs ((h.process p hp).carry hc rfl (fun _ => ?_) (fun _ ht => .inl ht)
    (callInv_serve h hp hstep hc hcall habort) (fun _ _ hget => .inl hget) (fun _ _ hget => .inl hget)
    (fun _ _ hget => .inl hget) fun _ => ⟨rfl, rfl⟩)
  exact keeps_serve h hown hnew hstep rfl fun _ _ _ hheld => held_serve rfl rfl rfl hheld

theorem process_self (hp : s.process = some p) : some { p with faulty := p.faulty } = s.process := hp.symm

/-- The statements that a process issues beside `onModuleInit` and the requests. -/
theorem inv_served (h : Inv settings s) (hp : s.process = some p) {l : PersistCalls.Label}
    (hown : isOwn l = true) (hnew : ∀ new, l ≠ .single (.enqueue new))
    (hstep : s.serve settings l = some s')
    (hcall : ∀ c event archived source now resultId, l = .call c event archived source now resultId →
      (newStatus event.detail = some .running → event.taskId ∈ p.relays) ∧
        ∀ code message, event.detail = .failed code message → (s.db.status event.taskId).isSome = true)
    (habort : ∀ c, l ≠ .abort c) : Inv settings s' := by
  obtain ⟨service, hservice, hstep⟩ := Option.bind_eq_some_iff.mp hstep
  cases hstep
  have hinv := inv_service p.faulty h hp hown hnew hservice (fun hok => hok) hcall
    fun c hl => absurd hl (habort c)
  rw [process_self hp] at hinv
  exact hinv

theorem inv_persist (h : Inv settings s) (hp : s.process = some p) {c : Nat} {event : TaskStreamEvent}
    {archived : Option Archived} {source : Option String} {now resultId : String}
    (hstep : p.step settings s (.persist c event archived source now resultId) = some s') :
    Inv settings s' := by
  simp only [Process.step] at hstep
  split at hstep
  · rename_i hrelay
    have hrelay : event.taskId ∈ p.relays := by simpa using hrelay
    refine inv_served h hp rfl (fun _ hl => by cases hl) hstep ?_ fun _ hl => by cases hl
    intro d event' archived' source' now' resultId' hl
    cases hl
    exact ⟨fun _ => hrelay, fun _ _ _ => ((h.process p hp).relays _ hrelay).unqueued.isSome⟩
  · cases hstep

theorem inv_abort (h : Inv settings s) (hp : s.process = some p) {c : Nat}
    (hstep : p.step settings s (.abort c) = some s') : Inv settings s' := by
  obtain ⟨s₁, hserve, hstep⟩ := Option.bind_eq_some_iff.mp hstep
  obtain ⟨service, hservice, hserve⟩ := Option.bind_eq_some_iff.mp hserve
  cases hserve
  cases hstep
  exact inv_service true h hp rfl (fun _ hl => by cases hl) hservice (fun hok => by cases hok)
    (fun _ _ _ _ _ _ hl => by cases hl) fun _ _ => rfl

theorem inv_enqueueTask (h : Inv settings s) (hp : s.process = some p) {new : NewTask}
    (hstep : p.step settings s (.enqueueTask i new) = some s') : Inv settings s' := by
  simp only [Process.step] at hstep
  split at hstep
  · rename_i hguard
    obtain ⟨s₁, hserve, hstep⟩ := Option.bind_eq_some_iff.mp hstep
    obtain ⟨service, hservice, hserve⟩ := Option.bind_eq_some_iff.mp hserve
    cases hserve
    cases hstep
    have hlistening : ¬ p.isListening = false := by simp [hguard.1]
    let q : Process := { p with creations := p.creations.set i ⟨new.taskId, .enqueuing (.start false)⟩ }
    have hc : Carries s { s with service, process := some q } p q :=
      carries_serve h hp rfl hservice (fun hok => hok) (fun _ ht => ht) rfl
    refine h.serve hservice rfl hc h.jobs ((h.process p hp).carry hc rfl (fun hl => absurd hl hlistening)
      (fun _ ht => .inl ht) (callInv_serve h hp hservice hc (fun _ _ _ _ _ _ hl => by cases hl)
        fun _ hl => by cases hl) (fun _ _ hget => .inl hget) (fun _ _ hget => .inl hget)
      (fun j creation hget => ?_) fun hl => absurd hl hlistening)
    rcases of_get_set hget with rfl | hold
    · right
      obtain ⟨-, db, hdb, rfl⟩ := PersistCalls.step_single_eq_some hservice
      have hhome := PersistWrites.home_enqueue hdb new.taskId
      rw [if_pos rfl] at hhome
      obtain ⟨task, hget, -⟩ := Option.map_eq_some_iff.mp hhome
      show (db.status new.taskId).isSome = true
      rw [Database.status, hget]
      rfl
    · exact .inl hold
  · cases hstep

theorem setJob_get {jobs : OrderedMap String Job} {job : Option Job} {u : String} :
    (setJob jobs t job).get u = if u = t then job else jobs.get u := by
  cases job with
  | some job => exact OrderedMap.get_set _ _ _ _
  | none => exact OrderedMap.get_delete _ _ _

theorem jobs_setJob (h : Inv settings s) {job : Option Job} (hsome : (s.db.status t).isSome = true) :
    ∀ u other, (setJob s.jobs t job).get u = some other → (s.db.status u).isSome = true := by
  intro u other hget
  rw [setJob_get] at hget
  split at hget
  · rename_i heq
    rw [heq]
    exact hsome
  · exact h.jobs u other hget

/-- A request is served, so that the start is over. -/
theorem ProcessInv.listening_of_creation (h : ProcessInv settings s p) {creation : Creation}
    (hget : p.creations.get i = some creation) : ¬ p.isListening = false := by
  intro hl
  rw [(h.unserved hl i).1] at hget
  cases hget

theorem ProcessInv.listening_of_cancellation (h : ProcessInv settings s p) {cancellation : Cancellation}
    (hget : p.cancellations.get i = some cancellation) : ¬ p.isListening = false := by
  intro hl
  rw [(h.unserved hl i).2] at hget
  cases hget

theorem inv_create (h : Inv settings s) (hp : s.process = some p)
    (hstep : p.step settings s (.create i) = some s') : Inv settings s' := by
  obtain ⟨creation, hcreation, hstep⟩ := Option.bind_eq_some_iff.mp hstep
  have hprocess := h.process p hp
  have hlistening := hprocess.listening_of_creation hcreation
  have hsome := hprocess.creations i creation hcreation
  unfold System.create at hstep
  split at hstep
  · obtain ⟨⟨job, next⟩, -, hstep⟩ := Option.bind_eq_some_iff.mp hstep
    cases hstep
    refine h.quiet hp rfl rfl (carries_still rfl (fun hok => hok) (fun _ ht => ht)
      fun _ _ hu => dispatching_same rfl hu) rfl (jobs_setJob h hsome) (fun hl => absurd hl hlistening) rfl
      (fun _ _ hget => .inl hget) (fun _ _ hget => .inl hget) (fun j other hget => ?_)
      fun hl => absurd hl hlistening
    rcases of_get_set hget with rfl | hold
    · exact .inr hsome
    · exact .inl hold
  · obtain ⟨service, hservice, hstep⟩ := Option.bind_eq_some_iff.mp hstep
    cases hstep
    let q : Process := { p with creations := p.creations.set i { creation with phase := .returned } }
    have hc : Carries s { s with service, process := some q } p q :=
      carries_serve h hp rfl hservice (fun hok => hok) (fun _ ht => ht) rfl
    refine h.serve hservice rfl hc h.jobs (hprocess.carry hc rfl (fun hl => absurd hl hlistening)
      (fun _ ht => .inl ht) (callInv_serve h hp hservice hc (fun _ _ _ _ _ _ hl => by cases hl)
        fun _ hl => by cases hl) (fun _ _ hget => .inl hget) (fun _ _ hget => .inl hget)
      (fun j other hget => ?_) fun hl => absurd hl hlistening)
    rcases of_get_set hget with rfl | hold
    · exact .inr (hc.follows.isSome hsome)
    · exact .inl hold
  · cases hstep

theorem inv_createFails (h : Inv settings s) (hp : s.process = some p) {f : Nat} {message : String}
    {late : Bool} (hstep : p.step settings s (.createFails i f message late) = some s') :
    Inv settings s' := by
  obtain ⟨creation, hcreation, hstep⟩ := Option.bind_eq_some_iff.mp hstep
  have hprocess := h.process p hp
  have hlistening := hprocess.listening_of_creation hcreation
  have hsome := hprocess.creations i creation hcreation
  unfold System.createFails at hstep
  split at hstep
  · have hfails : ∀ {s' : System} {q : Process}, s'.service = s.service →
        (q.failures = p.failures.set f
          ⟨creation.taskId, "TASK_QUEUE_UNAVAILABLE", message, false, .finding⟩) →
        ∀ j call, q.failures.get j = some call → p.failures.get j = some call ∨ FailInv s' q call := by
      intro s' q hservice hfailures j call hget
      rw [hfailures] at hget
      rcases of_get_set hget with rfl | hold
      · refine .inr ⟨?_, trivial⟩
        rw [System.db, hservice]
        exact hsome
      · exact .inl hold
    have hcreations : ∀ {q : Process}, q.creations = p.creations.set i { creation with phase := .returned } →
        ∀ j other, q.creations.get j = some other →
          p.creations.get j = some other ∨ (s.db.status other.taskId).isSome = true := by
      intro q hq j other hget
      rw [hq] at hget
      rcases of_get_set hget with rfl | hold
      · exact .inr hsome
      · exact .inl hold
    dsimp only at hstep
    split at hstep <;> cases hstep
    · exact h.quiet hp rfl rfl (carries_still rfl (fun hok => by cases hok) (fun _ ht => ht)
        fun hok => by cases hok) rfl (jobs_setJob h hsome) (fun hl => absurd hl hlistening) rfl
        (fun _ _ hget => .inl hget) (hfails rfl rfl) (hcreations rfl) fun hl => absurd hl hlistening
    · exact h.quiet hp rfl rfl (carries_still rfl (fun hok => by cases hok) (fun _ ht => ht)
        fun hok => by cases hok) rfl h.jobs (fun hl => absurd hl hlistening) rfl
        (fun _ _ hget => .inl hget) (hfails rfl rfl) (hcreations rfl) fun hl => absurd hl hlistening
  · cases hstep

theorem inv_cancelTask (h : Inv settings s) (hp : s.process = some p) {userId : String}
    (hstep : p.step settings s (.cancelTask i userId t) = some s') : Inv settings s' := by
  simp only [Process.step] at hstep
  split at hstep
  · rename_i hguard
    cases hstep
    have hlistening : ¬ p.isListening = false := by simp [hguard.1]
    exact h.quiet hp rfl rfl (carries_still rfl (fun hok => hok) (fun _ ht => ht)
      fun _ _ hu => dispatching_same rfl hu) rfl h.jobs (fun hl => absurd hl hlistening) rfl
      (fun _ _ hget => .inl hget) (fun _ _ hget => .inl hget) (fun _ _ hget => .inl hget)
      fun hl => absurd hl hlistening
  · cases hstep

theorem inv_cancel (h : Inv settings s) (hp : s.process = some p) {answer : CancelAnswer}
    (hstep : p.step settings s (.cancel i answer) = some s') : Inv settings s' := by
  obtain ⟨cancellation, hget, hstep⟩ := Option.bind_eq_some_iff.mp hstep
  have hlistening := (h.process p hp).listening_of_cancellation hget
  unfold System.cancel at hstep
  split at hstep
  · cases hstep
  · obtain ⟨⟨db, state, call, outputs⟩, -, hstep⟩ := Option.bind_eq_some_iff.mp hstep
    cases hstep
    refine h.quiet hp rfl rfl (carries_still rfl (fun hok => hok) (fun _ ht => ht)
      fun _ _ hu => dispatching_same rfl hu) rfl ?_ (fun hl => absurd hl hlistening) rfl
      (fun _ _ hget => .inl hget) (fun _ _ hget => .inl hget) (fun _ _ hget => .inl hget)
      fun hl => absurd hl hlistening
    intro u job hjob
    dsimp only at hjob
    split at hjob
    · exact jobs_delete h u job hjob
    · exact h.jobs u job hjob

theorem inv_cancelPersist (h : Inv settings s) (hp : s.process = some p) {c : Nat} {now resultId : String}
    (hstep : p.step settings s (.cancelPersist i c now resultId) = some s') : Inv settings s' := by
  obtain ⟨cancellation, hget, hstep⟩ := Option.bind_eq_some_iff.mp hstep
  have hprocess := h.process p hp
  have hlistening := hprocess.listening_of_cancellation hget
  unfold System.cancelPersist at hstep
  split at hstep
  · obtain ⟨service, hservice, hstep⟩ := Option.bind_eq_some_iff.mp hstep
    cases hstep
    let q : Process := { p with
      cancellations := p.cancellations.set i { cancellation with persisting := some c } }
    have hc : Carries s { s with service, process := some q } p q :=
      carries_serve h hp rfl hservice (fun hok => hok) (fun _ ht => ht) rfl
    refine h.serve hservice rfl hc h.jobs (hprocess.carry hc rfl (fun hl => absurd hl hlistening)
      (fun _ ht => .inl ht) (callInv_serve h hp hservice hc ?_ fun _ hl => by cases hl)
      (fun _ _ hget => .inl hget) (fun _ _ hget => .inl hget) (fun _ _ hget => .inl hget)
      fun hl => absurd hl hlistening)
    intro d event archived source now' resultId' hl
    cases hl
    exact ⟨fun hnew => (by cases hnew), fun _ _ hdetail => by cases hdetail⟩
  · cases hstep

theorem streamUrlOf_ne {adapterUrl streamUrl : String} (h : adapterUrl ≠ "") :
    streamUrlOf adapterUrl streamUrl ≠ "" := by
  unfold streamUrlOf
  split
  · rename_i hhttp
    rintro rfl
    revert hhttp
    decide
  · intro hempty
    have hboth := congrArg String.toList hempty
    simp at hboth
    exact h hboth.1

/-- What one step of an attempt does. -/
structure Attempted (settings : ProcessSettings) (db : Database) (attempt : Attempt) (db' : Database)
    (next : Attempt) (outputs : List Output) : Prop where
  follows : Follows db db'
  keyed : StatusFrames.Keyed db → StatusFrames.Keyed db'
  task : next.taskId = attempt.taskId
  status : ∀ u, db'.status u = db.status u ∨
    u = attempt.taskId ∧ db'.status u = some .running ∧ updatesSession next.phase = true
  inv : AttemptInv settings db' next
  relay : updatesSession attempt.phase = startsRelay outputs
  dispatched : startsRelay outputs = true → Dispatched db' attempt.taskId

theorem startsRelay_cancellation (settings : DispatchSettings) :
    startsRelay (cancellationRequest settings) = false := by
  unfold cancellationRequest
  split <;> rfl

theorem attempted_next {db db' : Database} {attempt next : Attempt} {answer : Answer} {outputs : List Output}
    (hinv : AttemptInv settings db attempt)
    (h : attempt.next settings.toDispatchSettings db answer = some (db', next, outputs)) :
    Attempted settings db attempt db' next outputs := by
  have hmoves := attemptMoves_next h
  obtain ⟨taskId, sessionId, phase⟩ := attempt
  obtain ⟨hsome, hphase⟩ := hinv
  dsimp only at hmoves hsome hphase
  have hstill {db' : Database} {tx : Single} (htx : tx.apply settings.toSettings db = some db')
      (hother : ∀ new, tx ≠ .enqueue new) (hdispatch : ∀ t r u n, tx ≠ .dispatch t r u n) (u : String) :
      db'.status u = db.status u := by
    rcases status_single htx u with hsame | ⟨new, rfl, -⟩ | ⟨r, url, n, rfl, -⟩
    · exact hsame
    · exact absurd rfl (hother new)
    · exact absurd rfl (hdispatch _ _ _ _)
  cases hmoves with
  | skip hleft =>
    obtain ⟨status, hstatus⟩ := Option.isSome_iff_exists.mp hsome
    have hne : status ≠ .queued := by
      rintro rfl
      exact hleft hstatus
    exact ⟨.refl _, fun hk => hk, rfl, fun _ => .inl rfl, ⟨hsome, unqueued_of_status hstatus hne⟩, rfl,
      fun hr => by cases hr⟩
  | found htask hqueued =>
    exact ⟨.refl _, fun hk => hk, rfl, fun _ => .inl rfl, ⟨hsome, trivial⟩, rfl, fun hr => by cases hr⟩
  | count htx =>
    have hfollows := follows_single htx
    refine ⟨hfollows, (StatusFrames.unlogged_single htx).keyed, rfl, fun u => .inl (hstill htx ?_ ?_ u),
      ⟨hfollows.isSome hsome, trivial⟩, rfl, fun hr => by cases hr⟩
    · exact fun new htx => by cases htx
    · exact fun _ _ _ _ htx => by cases htx
  | unfit =>
    exact ⟨.refl _, fun hk => hk, rfl, fun _ => .inl rfl, ⟨hsome, trivial⟩, rfl, fun hr => by cases hr⟩
  | execute hurl =>
    exact ⟨.refl _, fun hk => hk, rfl, fun _ => .inl rfl, ⟨hsome, hurl⟩, rfl, fun hr => by cases hr⟩
  | unavailable hurl =>
    exact ⟨.refl _, fun hk => hk, rfl, fun _ => .inl rfl, ⟨hsome, trivial⟩, rfl, fun hr => by cases hr⟩
  | responded =>
    exact ⟨.refl _, fun hk => hk, rfl, fun _ => .inl rfl, ⟨hsome, hphase⟩, rfl, fun hr => by cases hr⟩
  | failed =>
    exact ⟨.refl _, fun hk => hk, rfl, fun _ => .inl rfl, ⟨hsome, trivial⟩, rfl, fun hr => by cases hr⟩
  | dispatch hqueued htx =>
    rename_i now metadata
    have hfollows := follows_single htx
    have hdispatched : Dispatched db' taskId := by
      obtain ⟨url, hurl⟩ := Option.isSome_iff_exists.mp hphase
      cases htx
      refine dispatched_dispatchUpdate hqueued (streamUrlOf_ne ?_)
      rw [hurl]
      exact settings.named url hurl
    refine ⟨hfollows, (StatusFrames.unlogged_single htx).keyed, rfl, fun u => ?_,
      ⟨hfollows.isSome hsome, hdispatched⟩, rfl, fun hr => by cases hr⟩
    rcases status_single htx u with hsame | ⟨new, hnew, -⟩ | ⟨r, url, n, heq, hrunning⟩
    · exact .inl hsame
    · cases hnew
    · cases heq
      exact .inr ⟨rfl, hrunning, rfl⟩
  | tooLate hleft =>
    obtain ⟨status, hstatus⟩ := Option.isSome_iff_exists.mp hsome
    have hne : status ≠ .queued := by
      rintro rfl
      exact hleft hstatus
    have hnone := startsRelay_cancellation settings.toDispatchSettings
    exact ⟨.refl _, fun hk => hk, rfl, fun _ => .inl rfl, ⟨hsome, unqueued_of_status hstatus hne⟩, hnone.symm,
      fun hr => by rw [hnone] at hr; cases hr⟩
  | relay htx =>
    have hfollows := follows_single htx
    have hdispatched := hfollows.dispatched hphase
    refine ⟨hfollows, (StatusFrames.unlogged_single htx).keyed, rfl, fun u => .inl (hstill htx ?_ ?_ u),
      ⟨hfollows.isSome hsome, hdispatched.unqueued⟩, rfl, fun _ => hdispatched⟩
    · exact fun new htx => by cases htx
    · exact fun _ _ _ _ htx => by cases htx
  | settled =>
    exact ⟨.refl _, fun hk => hk, rfl, fun _ => .inl rfl, ⟨hsome, hphase⟩, rfl, fun hr => by cases hr⟩

theorem mem_startRelay {u : String} : u ∈ (p.startRelay t).relays ↔ u = t ∨ u ∈ p.relays := by
  unfold Process.startRelay
  split
  · rename_i hmem
    have hmem : t ∈ p.relays := by simpa using hmem
    constructor
    · exact .inr
    · rintro (rfl | hu)
      · exact hmem
      · exact hu
  · exact List.mem_cons

/-- The start of a relay changes nothing else. -/
structure SameBut (p p' : Process) : Prop where
  init : p'.init = p.init
  attempts : p'.attempts = p.attempts
  failures : p'.failures = p.failures
  creations : p'.creations = p.creations
  cancellations : p'.cancellations = p.cancellations
  abandoned : p'.abandoned = p.abandoned
  faulty : p'.faulty = p.faulty

theorem sameBut_startRelay (p : Process) (t : String) : SameBut p (p.startRelay t) := by
  unfold Process.startRelay
  split <;> exact ⟨rfl, rfl, rfl, rfl, rfl, rfl, rfl⟩

theorem inv_attempt (h : Inv settings s) (hp : s.process = some p) {answer : Answer}
    (hstep : p.step settings s (.attempt a answer) = some s') : Inv settings s' := by
  obtain ⟨attempt, hattempt, hstep⟩ := Option.bind_eq_some_iff.mp hstep
  unfold System.attempt at hstep
  split at hstep
  · cases hstep
  · obtain ⟨⟨db, next, outputs⟩, hnext, hstep⟩ := Option.bind_eq_some_iff.mp hstep
    cases hstep
    have hprocess := h.process p hp
    have hmoved := attempted_next (hprocess.attempts a attempt hattempt) hnext
    let moved : Process := { p with attempts := p.attempts.set a next }
    obtain ⟨q, hq, hsame, hrelays⟩ : ∃ q : Process,
        (if startsRelay outputs then moved.startRelay attempt.taskId else moved) = q ∧ SameBut moved q ∧
          ∀ u, u ∈ q.relays ↔ (startsRelay outputs = true ∧ u = attempt.taskId) ∨ u ∈ p.relays := by
      refine ⟨_, rfl, ?_, fun u => ?_⟩ <;> by_cases hstart : startsRelay outputs = true
      · rw [if_pos hstart]
        exact sameBut_startRelay _ _
      · rw [if_neg hstart]
        exact ⟨rfl, rfl, rfl, rfl, rfl, rfl, rfl⟩
      · rw [if_pos hstart, mem_startRelay]
        simp [hstart, moved]
      · rw [if_neg hstart]
        simp [hstart, moved]
    rw [hq]
    let server := s.service.server.direct fun _ => db
    have hc : Carries s ⟨{ s.service with server }, s.jobs, some q⟩ p q := by
      refine ⟨hmoved.follows, fun hok => hsame.faulty ▸ hok, fun u hu => (hrelays u).mpr (.inr hu),
        fun _ u hu => ?_, fun u hrunning => ?_, fun c call hget => ⟨call.phase, hget⟩⟩
      · obtain ⟨b, other, hget, htask, hphase⟩ := hu
        by_cases hb : b = a
        · rw [hb, hattempt] at hget
          cases hget
          rw [hmoved.relay] at hphase
          exact .inl ((hrelays u).mpr (.inl ⟨hphase, htask.symm⟩))
        · refine .inr ⟨b, other, ?_, htask, hphase⟩
          rw [hsame.attempts]
          exact (OrderedMap.get_set_other _ _ hb).trans hget
      · rcases hmoved.status u with hold | ⟨rfl, -, hphase⟩
        · exact .inl (hold.symm.trans hrunning)
        · refine .inr (.inr ⟨a, next, ?_, hmoved.task, hphase⟩)
          rw [hsame.attempts]
          exact OrderedMap.get_set_same _ _ _
    have hnew : ProcessInv settings ⟨{ s.service with server }, s.jobs, some q⟩ q := by
      refine hprocess.carry hc hsame.init (fun _ => ⟨?_, ?_, fun _ hnone => hnone⟩) (fun u hu => ?_)
        (fun c call hget => hc.callInv (hprocess.calls c call hget)) (fun b other hget => ?_)
        (fun j call hget => .inl (hsame.failures ▸ hget)) (fun j creation hget => .inl (hsame.creations ▸ hget))
        fun _ => ⟨hsame.creations, hsame.cancellations⟩
      · intro _ u hqueued
        rcases hmoved.status u with hold | ⟨-, hrunning, -⟩
        · exact hold.symm.trans hqueued
        · cases hrunning.symm.trans hqueued
      · exact fun _ u _ hheld => held_serve rfl hsame.failures hsame.abandoned hheld
      · rcases (hrelays u).mp hu with ⟨hstart, rfl⟩ | hold
        · exact .inr (hmoved.dispatched hstart)
        · exact .inl hold
      · rw [hsame.attempts] at hget
        rcases of_get_set hget with rfl | hold
        · exact .inr hmoved.inv
        · exact .inl hold
    exact ⟨⟨hmoved.keyed h.tracked.keyed, h.tracked.pending, h.tracked.unused⟩, h.written.same rfl, h.prepares,
      hnew.running h.running hc, fun u job hjob => hc.follows.isSome (h.jobs u job hjob),
      fun hnone => (by cases hnone), fun r hr => by cases hr; exact hnew⟩

theorem sameBut_init {init : InitPhase} : SameBut { p with init } { p with init } :=
  ⟨rfl, rfl, rfl, rfl, rfl, rfl, rfl⟩

/-- The invariant of the process after a step of `onModuleInit`. -/
theorem ProcessInv.initialise (h : ProcessInv settings s p) (hc : Carries s s' p p')
    (hsame : SameBut { p with init := p'.init } p') (hlistening : p'.isListening = false → p.isListening = false)
    (hrelays : ∀ t ∈ p'.relays, t ∈ p.relays ∨ Dispatched s.db t)
    (hcalls : ∀ c call, s'.service.calls c = some call → CallInv s' p' call) (hinit : InitInv s' p') :
    ProcessInv settings s' p' where
  relays := by
    intro t ht
    rcases hrelays t ht with hold | hnew
    · exact hc.follows.dispatched (h.relays t hold)
    · exact hc.follows.dispatched hnew
  calls := hcalls
  attempts := by
    intro b attempt hget
    rw [hsame.attempts] at hget
    exact hc.attemptInv (h.attempts b attempt hget)
  failures := by
    intro j call hget
    rw [hsame.failures] at hget
    exact hc.failInv (h.failures j call hget)
  creations := by
    intro j creation hget
    rw [hsame.creations] at hget
    exact hc.follows.isSome (h.creations j creation hget)
  unserved := by
    intro hl
    rw [hsame.creations, hsame.cancellations]
    exact h.unserved (hlistening hl)
  init := hinit

/-- A step of `onModuleInit` that leaves the service alone. -/
theorem Inv.initialise (h : Inv settings s) (hp : s.process = some p) (hservice : s'.service = s.service)
    (hp' : s'.process = some p') (hjobs : ∀ t job, s'.jobs.get t = some job → (s.db.status t).isSome = true)
    (hsame : SameBut { p with init := p'.init } p') (hlistening : p'.isListening = false → p.isListening = false)
    (hmono : ∀ t ∈ p.relays, t ∈ p'.relays) (hrelays : ∀ t ∈ p'.relays, t ∈ p.relays ∨ Dispatched s.db t)
    (hinit : Carries s s' p p' → InitInv s' p') : Inv settings s' := by
  have hc : Carries s s' p p' := carries_still hservice (fun hok => hsame.faulty ▸ hok) hmono
    fun _ _ hu => dispatching_same hsame.attempts hu
  have hprocess := h.process p hp
  exact h.still hservice hp' hjobs (hprocess.initialise hc hsame hlistening hrelays
    (hc.callsStill hprocess hservice) (hinit hc))

end RecoveryInvariant
