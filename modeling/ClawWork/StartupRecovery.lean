import ClawWork.RecoveryInvariant

/-!
# What the start of a process recovers

Every task that is not at its end is found by one of the two scans of `onModuleInit`.
When `onModuleInit` has returned, a relay was started for every running task or an
attempt is about to start it, and every queued task has a job that is still to be
processed or given up, unless the queue has dropped the job for stalling.
-/

namespace StartupRecovery

open SharedTypes TaskStore TasksService DispatchTask ApiProcess TaskProgress RecoveryInvariant

/-- The task is at its end, or its relay was started, or its job is open. -/
def Recovered (s : System) (p : Process) (task : Task) : Prop :=
  task.status.isTerminal = true ∨ task.status = .running ∧ task.id ∈ p.relays ∨
    task.status = .queued ∧ Open s p task.id

/-- The task is recovered, or is being dispatched, or the queue has dropped its job. -/
def InHand (s : System) (p : Process) (task : Task) : Prop :=
  Recovered s p task ∨ task.status = .running ∧ Dispatching p task.id ∨
    task.status = .queued ∧ task.id ∈ p.abandoned

def Process.isInitialised (p : Process) : Bool :=
  match p.init with
  | .initialised => true
  | _ => false

/-- The task is found by one of the scans. -/
def Selected (db : Database) (task : Task) : Prop := task ∈ queuedTasks db ∨ task ∈ runningTasks db

/-- Every task that is not at its end is selected, and in hand when `onModuleInit` has returned and no
call has failed. -/
def Recovers (s : System) : Prop :=
  (∀ t task, s.db.tasks.get t = some task → task.status.isTerminal = false → Selected s.db task) ∧
    ∀ p, s.process = some p → Process.isInitialised p = true → p.faulty = false →
      ∀ t task, s.db.tasks.get t = some task → InHand s p task

variable {settings : ProcessSettings} {s s' : System} {p p' : Process} {t : String}

theorem selected_of_inv (h : Inv settings s) {task : Task} (hget : s.db.tasks.get t = some task)
    (hopen : task.status.isTerminal = false) : Selected s.db task := by
  have hmem : task ∈ s.db.tasks.values := (OrderedMap.mem_values_iff _ _).mpr ⟨t, hget⟩
  cases hstatus : task.status with
  | queued => exact .inl (List.mem_filter.mpr ⟨hmem, by simp [hstatus]⟩)
  | running =>
    have hrunning : s.db.status t = some .running := by rw [Database.status, hget, Option.map_some, hstatus]
    obtain ⟨row, hrow, -, url, hurl, -⟩ := h.running t hrunning
    rw [hget] at hrow
    cases hrow
    exact .inr (List.mem_filter.mpr ⟨hmem, by simp [hstatus, hurl]⟩)
  | completed | failed | cancelled =>
    rw [hstatus] at hopen
    cases hopen

/-- When `onModuleInit` has returned, every task is in hand. -/
theorem inHand_of_inv (h : Inv settings s) (hp : s.process = some p)
    (hinit : Process.isInitialised p = true) (hfaulty : p.faulty = false) {task : Task}
    (hget : s.db.tasks.get t = some task) : InHand s p task := by
  have hid : task.id = t := h.tracked.keyed t task hget
  have hstatus : s.db.status t = some task.status := by rw [Database.status, hget, Option.map_some]
  have hphase : p.init = .initialised := by
    unfold Process.isInitialised at hinit
    split at hinit
    · assumption
    · cases hinit
  have hinv := (h.process p hp).init
  cases hcase : task.status with
  | queued =>
    rw [hcase] at hstatus
    have hqueued := hinv.queued hfaulty (by rw [hphase]; rfl) t hstatus
    rw [hphase] at hqueued
    rw [InHand, Recovered, hid]
    rcases hqueued with hmem | hopen | hdropped
    · cases hmem
    · exact .inl (.inr (.inr ⟨hcase, hopen⟩))
    · exact .inr (.inr ⟨hcase, hdropped⟩)
  | running =>
    rw [hcase] at hstatus
    have hrunning := hinv.running hfaulty (by rw [hphase]; rfl) t hstatus
    rw [hphase] at hrunning
    rw [InHand, Recovered, hid]
    rcases hrunning with hmem | htimed | hrelay | hdispatching
    · cases hmem
    · cases htimed
    · exact .inl (.inr (.inl ⟨hcase, hrelay⟩))
    · exact .inr (.inl ⟨hcase, hdispatching⟩)
  | completed | failed | cancelled =>
    refine .inl (.inl ?_)
    rw [hcase]
    rfl

/-- The first scan goes on with the tasks that are left. -/
theorem initInv_nextQueued {left : List String} (hinit : p.init = nextQueued left)
    (hlisted : ∀ t ∈ left, (s.db.status t).isSome = true)
    (hqueued : p.faulty = false → ∀ t, s.db.status t = some .queued → t ∈ left ∨ Held s p t) :
    InitInv s p := by
  cases left with
  | nil =>
    refine ⟨fun t ht => ?_, fun task ht => ?_, fun hok _ t hst => ?_, fun _ t rest hphase => ?_,
      fun _ hscanned => ?_, fun call rest hphase => ?_⟩
    · rw [hinit] at ht
      cases ht
    · rw [hinit] at ht
      cases ht
    · exact .inr ((hqueued hok t hst).resolve_left List.not_mem_nil)
    · rw [hinit] at hphase
      cases hphase
    · rw [hinit] at hscanned
      cases hscanned
    · rw [hinit] at hphase
      cases hphase
  | cons first left =>
    refine ⟨fun t ht => ?_, fun task ht => ?_, fun hok _ t hst => ?_, fun _ t rest hphase => ?_,
      fun _ hscanned => ?_, fun call rest hphase => ?_⟩
    · rw [hinit] at ht
      exact hlisted t ht
    · rw [hinit] at ht
      cases ht
    · rw [hinit]
      exact hqueued hok t hst
    · rw [hinit] at hphase
      cases hphase
    · rw [hinit] at hscanned
      cases hscanned
    · rw [hinit] at hphase
      cases hphase

/-- The second scan and what follows it: the queued tasks are held. -/
theorem initInv_resuming (hlisted : toEnqueue p.init = [])
    (hrows : ∀ task ∈ toResume p.init, Dispatched s.db task.id ∧ truthy task.adapterStreamUrl ≠ none)
    (hqueued : p.faulty = false → ∀ t, s.db.status t = some .queued → Held s p t)
    (hrunning : p.faulty = false → ∀ t, s.db.status t = some .running →
      t ∈ (toResume p.init).map Task.id ∨ timedOut p.init = some t ∨ Relayed p t)
    (hfailing : ∀ call rest, p.init = .failing call rest → FailInv s p call) : InitInv s p where
  listed := by
    rw [hlisted]
    exact fun t ht => by cases ht
  rows := hrows
  queued := fun hok _ t hst => .inr (hqueued hok t hst)
  adding := by
    intro _ t rest hphase
    rw [hphase] at hlisted
    cases hlisted
  running := fun hok _ => hrunning hok
  failing := hfailing

/-- A step of `enqueue` comes to `add` with no job, or with one that is still to be processed. -/
theorem enqueueStep_add {job job' : Option Job} {step : EnqueueStep}
    (h : step.next job = some (job', some .add)) :
    job' = none ∨ ∃ found, job' = some found ∧ unsettled found.state = true := by
  cases step with
  | getJob =>
    simp only [EnqueueStep.next, Option.some.injEq, Prod.mk.injEq] at h
    obtain ⟨rfl, hnext⟩ := h
    split at hnext
    · cases hnext
    · rename_i hnone
      exact .inl (by simpa using hnone)
  | getState =>
    simp only [EnqueueStep.next] at h
    split at h <;> cases h
    rename_i hopen
    cases job with
    | none => exact .inl rfl
    | some found =>
      refine .inr ⟨found, rfl, ?_⟩
      revert hopen
      cases hstate : found.state <;> simp [hstate, unsettled]
  | remove =>
    simp only [EnqueueStep.next] at h
    split at h <;> cases h
    exact .inl rfl
  | add => cases h

theorem inv_enqueuing (h : Inv settings s) (hp : s.process = some p) {step : EnqueueStep} {rest : List String}
    (hphase : p.init = .enqueuing step t rest) {job : Option Job} {next : Option EnqueueStep}
    (hnext : step.next (s.jobs.get t) = some (job, next)) {init : InitPhase}
    (hinit : (match next with
      | some step => .enqueuing step t rest
      | none => .updating t rest) = init) :
    Inv settings { s with jobs := setJob s.jobs t job, process := some { p with init } } := by
  have hold := (h.process p hp).init
  have hsome : (s.db.status t).isSome = true := hold.listed t (by rw [hphase]; exact List.mem_cons_self)
  refine h.initialise hp rfl rfl (jobs_setJob h hsome) sameBut_init
    (fun _ => by rw [Process.isListening, hphase]) (fun _ ht => ht) (fun _ ht => .inl ht) fun hc => ?_
  have hothers : ∀ u, u ≠ t → Held s p u → Held { s with
      jobs := setJob s.jobs t job, process := some { p with init } } { p with init } u := by
    intro u hne hheld
    refine hheld.keep (fun found hget hopen => ?_) (fun hfinal => hfinal) fun _ hu => hu
    refine held_of_job found ?_ hopen
    rw [setJob_get, if_neg hne]
    exact hget
  have hqueued := fun hok : p.faulty = false => hold.queued hok (by rw [hphase]; rfl)
  have hlisted : ∀ u ∈ t :: rest, (s.db.status u).isSome = true := by
    have hlisted := hold.listed
    rw [hphase] at hlisted
    exact hlisted
  rw [hphase] at hqueued
  cases next with
  | some step' =>
    cases hinit
    refine ⟨hlisted, fun _ ht => (by cases ht), fun hok _ u hst => ?_, fun hok u left heq hst => ?_,
      fun _ hscanned => (by cases hscanned), fun _ _ heq => by cases heq⟩
    · by_cases hne : u = t
      · rw [hne]
        exact .inl List.mem_cons_self
      · exact (hqueued hok u hst).imp_right (hothers u hne)
    · cases heq
      rcases enqueueStep_add hnext with hnone | ⟨found, hfound, hopen⟩
      · left
        rw [setJob_get, if_pos rfl]
        exact hnone
      · refine .inr (held_of_job found ?_ hopen)
        rw [setJob_get, if_pos rfl]
        exact hfound
  | none =>
    cases hinit
    have hadd : step = .add ∧ job = (s.jobs.get t).or (some .new) := by
      cases step with
      | getJob => cases hnext
      | getState =>
        simp only [EnqueueStep.next] at hnext
        split at hnext <;> cases hnext
      | remove =>
        simp only [EnqueueStep.next] at hnext
        split at hnext <;> cases hnext
      | add =>
        cases hnext
        exact ⟨rfl, rfl⟩
    obtain ⟨rfl, rfl⟩ := hadd
    refine ⟨fun u hu => hlisted u (List.mem_cons_of_mem _ hu), fun _ ht => (by cases ht), fun hok _ u hst => ?_,
      fun _ _ _ heq => (by cases heq), fun _ hscanned => (by cases hscanned), fun _ _ heq => by cases heq⟩
    by_cases hne : u = t
    · rw [hne] at hst ⊢
      right
      rcases hold.adding hok t rest hphase hst with hnone | hheld
      · refine held_of_job .new ?_ rfl
        rw [setJob_get, if_pos rfl, hnone]
        rfl
      · refine hheld.keep (fun found hget hopen => ?_) (fun hfinal => hfinal) fun _ hu => hu
        refine held_of_job found ?_ hopen
        rw [setJob_get, if_pos rfl, hget]
        rfl
    · rcases hqueued hok u hst with hmem | hheld
      · exact .inl ((List.mem_cons.mp hmem).resolve_left hne)
      · exact .inr (hothers u hne hheld)

theorem inv_findingQueued (h : Inv settings s) (hp : s.process = some p) (hphase : p.init = .findingQueued) :
    Inv settings { s with
      process := some { p with init := nextQueued ((queuedTasks s.db).map Task.id) } } := by
  have hfound : ∀ t, t ∈ (queuedTasks s.db).map Task.id ↔ s.db.status t = some .queued := by
    intro t
    simp only [queuedTasks, List.mem_map, List.mem_filter, decide_eq_true_eq, OrderedMap.mem_values_iff]
    constructor
    · rintro ⟨task, ⟨⟨u, hget⟩, hstatus⟩, rfl⟩
      rw [Database.status, h.tracked.keyed u task hget]
      rw [show s.db.tasks.get u = some task from hget, Option.map_some, hstatus]
    · intro hst
      obtain ⟨task, hget, hstatus⟩ := Option.map_eq_some_iff.mp hst
      exact ⟨task, ⟨⟨t, hget⟩, hstatus⟩, h.tracked.keyed t task hget⟩
  refine h.initialise hp rfl rfl h.jobs sameBut_init
    (fun _ => by rw [Process.isListening, hphase]) (fun _ ht => ht) (fun _ ht => .inl ht) fun _ => ?_
  refine initInv_nextQueued rfl (fun t ht => ?_) fun _ t hst => .inl ((hfound t).mpr hst)
  exact Option.isSome_of_eq_some ((hfound t).mp ht)

theorem inv_updating (h : Inv settings s) (hp : s.process = some p) {rest : List String}
    (hphase : p.init = .updating t rest) {service : PersistCalls.System}
    (hservice : PersistCalls.step settings.toSettings s.service (.single (.setQueueJobId t t)) = some service) :
    Inv settings { s with service, process := some { p with init := nextQueued rest } } := by
  have hprocess := h.process p hp
  let q : Process := { p with init := nextQueued rest }
  have hc : Carries s { s with service, process := some q } p q :=
    carries_serve h hp rfl hservice (fun hok => hok) (fun _ ht => ht) rfl
  have hk : Keeps s { s with service, process := some q } p q :=
    keeps_serve h rfl (fun _ hl => by cases hl) hservice rfl fun _ _ _ hheld => held_serve rfl rfl rfl hheld
  have hlistening : p.isListening = false := by rw [Process.isListening, hphase]
  refine h.serve hservice rfl hc h.jobs (hprocess.initialise hc sameBut_init (fun _ => hlistening)
    (fun _ ht => .inl ht) (callInv_serve h hp hservice hc (fun _ _ _ _ _ _ hl => by cases hl)
      fun _ hl => by cases hl) (initInv_nextQueued rfl (fun u hu => ?_) fun hok u hst => ?_))
  · have hlisted := hprocess.init.listed u
    rw [hphase] at hlisted
    exact hc.follows.isSome (hlisted hu)
  · have hqueued := hprocess.init.queued hok (by rw [hphase]; rfl) u (hk.queued hok u hst)
    rw [hphase] at hqueued
    exact hqueued.imp_right (hk.held hok u hst)

theorem inv_findingRunning (h : Inv settings s) (hp : s.process = some p) (hphase : p.init = .findingRunning) :
    Inv settings { s with process := some { p with init := .resuming (runningTasks s.db) } } := by
  refine h.initialise hp rfl rfl h.jobs sameBut_init
    (fun _ => by rw [Process.isListening, hphase]) (fun _ ht => ht) (fun _ ht => .inl ht) fun _ => ?_
  refine initInv_resuming rfl (fun task htask => ?_) (fun hok t hst => ?_) (fun _ t hst => .inl ?_)
    fun _ _ heq => by cases heq
  · obtain ⟨hmem, hstatus⟩ := List.mem_filter.mp htask
    obtain ⟨t, hget⟩ := (OrderedMap.mem_values_iff _ _).mp hmem
    have hid : task.id = t := h.tracked.keyed t task hget
    simp only [Bool.and_eq_true, decide_eq_true_eq] at hstatus
    have hrunning : s.db.status t = some .running := by rw [Database.status, hget, Option.map_some, hstatus.1]
    have hdispatched := h.running t hrunning
    rw [hid]
    refine ⟨hdispatched, ?_⟩
    obtain ⟨row, hrow, -, url, hurl, hnamed⟩ := hdispatched
    rw [hget] at hrow
    cases hrow
    simp [truthy, hurl, hnamed]
  · have hqueued := (h.process p hp).init.queued hok (by rw [hphase]; rfl) t hst
    rw [hphase] at hqueued
    exact held_serve rfl rfl rfl (hqueued.resolve_left List.not_mem_nil)
  · obtain ⟨task, hget, -, url, hurl, -⟩ := h.running t hst
    refine List.mem_map.mpr ⟨task, List.mem_filter.mpr ⟨?_, ?_⟩, h.tracked.keyed t task hget⟩
    · exact (OrderedMap.mem_values_iff _ _).mpr ⟨t, hget⟩
    · have hrunning : s.db.status t = some .running := hst
      have hstatus : task.status = .running := by
        rw [Database.status, hget] at hrunning
        exact Option.some.inj hrunning
      simp [hstatus, hurl]

theorem of_scannedRunning {init : InitPhase} (h : scannedRunning init = true) :
    toEnqueue init = [] ∧ scannedQueued init = true := by
  cases init with
  | resuming | cancelling | failing | initialised => exact ⟨rfl, rfl⟩
  | ensuringBucket | findingQueued | enqueuing | updating | findingRunning | listening => cases h

/-- A step of the second scan: what it takes from the list is relayed, or its time is over. -/
theorem inv_resuming (h : Inv settings s) (hp : s.process = some p) (hscanned : scannedRunning p.init = true)
    (hp' : SameBut { p with init := p'.init } p') (hrelays : ∀ t ∈ p.relays, t ∈ p'.relays)
    (hnew : ∀ t ∈ p'.relays, t ∈ p.relays ∨ Dispatched s.db t) (hlisted : toEnqueue p'.init = [])
    (hrows : ∀ task ∈ toResume p'.init, task ∈ toResume p.init)
    (htaken : p.faulty = false → ∀ t, s.db.status t = some .running →
      t ∈ (toResume p.init).map Task.id ∨ timedOut p.init = some t →
      t ∈ (toResume p'.init).map Task.id ∨ timedOut p'.init = some t ∨ Relayed p' t)
    (hfailing : ∀ call rest, p'.init = .failing call rest → call.phase = .finding ∧
      (s.db.status call.taskId).isSome = true) : Inv settings { s with process := some p' } := by
  have hold := (h.process p hp).init
  have hqueue : p.faulty = false → ∀ t, s.db.status t = some .queued → Held s p t := by
    intro hok t hst
    obtain ⟨hdone, hfirst⟩ := of_scannedRunning hscanned
    refine (hold.queued hok hfirst t hst).resolve_left fun hmem => ?_
    rw [hdone] at hmem
    cases hmem
  refine h.initialise hp rfl rfl h.jobs hp' (fun _ => ?_) hrelays hnew fun hc => ?_
  · unfold Process.isListening
    split
    · rename_i hphase
      rw [hphase] at hscanned
      cases hscanned
    · rfl
  · refine initInv_resuming hlisted (fun task htask => hold.rows task (hrows task htask)) (fun hok t hst => ?_)
      (fun hok t hst => ?_) fun call rest hphase => ?_
    · exact held_serve rfl hp'.failures hp'.abandoned (hqueue (hp'.faulty ▸ hok) t hst)
    · rcases hold.running (hp'.faulty ▸ hok) hscanned t hst with hmem | htimed | hrelayed
      · exact htaken (hp'.faulty ▸ hok) t hst (.inl hmem)
      · exact htaken (hp'.faulty ▸ hok) t hst (.inr htimed)
      · exact .inr (.inr (hc.relayed hok hrelayed))
    · obtain ⟨hcall, hsome⟩ := hfailing call rest hphase
      refine ⟨hsome, ?_⟩
      rw [hcall]
      trivial

theorem inv_failing (h : Inv settings s) (hp : s.process = some p) {call next : FailCall} {rest : List Task}
    {c : Nat} {now resultId : String} {service : PersistCalls.System} (hphase : p.init = .failing call rest)
    (hnext : call.next settings.toSettings s.service c now resultId = some (service, next)) :
    Inv settings { s with service, process := some { p with init := .failing next rest } } := by
  have hprocess := h.process p hp
  have hold := hprocess.init
  have hinv := hold.failing call rest hphase
  have hlistening : p.isListening = false := by rw [Process.isListening, hphase]
  have hqueued := fun hok : p.faulty = false => hold.queued hok (by rw [hphase]; rfl)
  have hrunning := fun hok : p.faulty = false => hold.running hok (by rw [hphase]; rfl)
  have hrows := hold.rows
  rw [hphase] at hqueued hrunning hrows
  cases failMoves_next h hp hinv hnext with
  | returns hover =>
    refine h.initialise hp rfl rfl h.jobs sameBut_init (fun _ => hlistening) (fun _ ht => ht)
      (fun _ ht => .inl ht) fun hc => ?_
    refine initInv_resuming rfl hrows (fun hok t hst => ?_) hrunning fun call' rest' heq => ?_
    · exact held_serve rfl rfl rfl ((hqueued hok t hst).resolve_left List.not_mem_nil)
    · cases heq
      exact ⟨hinv.1, fun hok => hover hok⟩
  | persists htask hdetail hopen hservice =>
    let q : Process := { p with init := .failing { call with phase := .persisting c } rest }
    have hc : Carries s { s with service, process := some q } p q :=
      carries_serve h hp rfl hservice (fun hok => hok) (fun _ ht => ht) rfl
    have hk : Keeps s { s with service, process := some q } p q :=
      keeps_serve h rfl (fun _ hl => by cases hl) hservice rfl fun _ _ _ hheld => held_serve rfl rfl rfl hheld
    refine h.serve hservice rfl hc h.jobs (hprocess.initialise hc sameBut_init (fun _ => hlistening)
      (fun _ ht => .inl ht) (callInv_serve h hp hservice hc (fun _ _ _ _ _ _ hl => ?_) fun _ hl => by cases hl)
      (initInv_resuming rfl (fun task htask => ?_) (fun hok t hst => ?_) (fun hok t hst => ?_)
        fun call' rest' heq => ?_))
    · cases hl
      refine ⟨fun hnew => ?_, fun _ _ _ => ?_⟩
      · rw [hdetail] at hnew
        cases hnew
      · rw [htask]
        exact hinv.1
    · exact ⟨hc.follows.dispatched (hrows task htask).1, (hrows task htask).2⟩
    · exact hk.held hok t hst ((hqueued hok t (hk.queued hok t hst)).resolve_left List.not_mem_nil)
    · rcases hc.running t hst with hbefore | hrelayed
      · exact (hrunning hok t hbefore).imp_right fun hor => hor.imp_right (hc.relayed hok)
      · exact .inr (.inr hrelayed)
    · cases heq
      exact failInv_persisting hc hinv.1 htask hdetail hservice

theorem inv_initialise (h : Inv settings s) (hp : s.process = some p) {expired : Bool} {c : Nat}
    {now resultId : String} (hstep : s.initialise settings p expired c now resultId = some s') :
    Inv settings s' := by
  have hprocess := h.process p hp
  unfold System.initialise at hstep
  split at hstep <;> rename_i hphase
  · cases hstep
    refine h.initialise hp rfl rfl h.jobs sameBut_init (fun _ => by rw [Process.isListening, hphase])
      (fun _ ht => ht) (fun _ ht => .inl ht) fun _ => ?_
    exact ⟨fun _ ht => (by cases ht), fun _ ht => (by cases ht), fun _ hl => (by cases hl),
      fun _ _ _ heq => (by cases heq), fun _ hl => (by cases hl), fun _ _ heq => by cases heq⟩
  · cases hstep
    exact inv_findingQueued h hp hphase
  · obtain ⟨⟨job, next⟩, hnext, hstep⟩ := Option.bind_eq_some_iff.mp hstep
    cases hstep
    exact inv_enqueuing h hp hphase hnext (by cases next <;> rfl)
  · obtain ⟨service, hservice, hstep⟩ := Option.bind_eq_some_iff.mp hstep
    cases hstep
    exact inv_updating h hp hphase hservice
  · cases hstep
    exact inv_findingRunning h hp hphase
  · cases hstep
    refine inv_resuming h hp (by rw [hphase]; rfl) sameBut_init (fun _ ht => ht) (fun _ ht => .inl ht) rfl
      (fun _ ht => by cases ht) (fun _ t _ hleft => ?_) fun _ _ heq => by cases heq
    rw [hphase] at hleft
    rcases hleft with hmem | htimed
    · cases hmem
    · cases htimed
  · rename_i task rest
    have hrow := hprocess.init.rows task (by rw [hphase]; exact List.mem_cons_self)
    have hlater : ∀ other ∈ rest, other ∈ toResume p.init := fun other hmem => by
      rw [hphase]
      exact List.mem_cons_of_mem _ hmem
    split at hstep
    · rename_i hnone
      exact absurd hnone hrow.2
    · split at hstep
      · cases hstep
        refine inv_resuming h hp (by rw [hphase]; rfl) sameBut_init (fun _ ht => ht) (fun _ ht => .inl ht) rfl
          (fun other hmem => ?_) (fun _ t _ hleft => ?_) fun _ _ heq => by cases heq
        · rw [hphase]
          exact hmem
        · rw [hphase] at hleft
          exact hleft.imp_right .inl
      · cases hstep
        have hsame := sameBut_startRelay p task.id
        refine inv_resuming h hp (by rw [hphase]; rfl) ⟨rfl, hsame.attempts, hsame.failures, hsame.creations,
          hsame.cancellations, hsame.abandoned, hsame.faulty⟩ (fun t ht => mem_startRelay.mpr (.inr ht))
          (fun t ht => ?_) rfl hlater (fun _ t _ hleft => ?_) fun _ _ heq => by cases heq
        · rcases mem_startRelay.mp ht with rfl | hold
          · exact .inr hrow.1
          · exact .inl hold
        · rw [hphase] at hleft
          rcases hleft with hmem | htimed
          · rcases List.mem_cons.mp hmem with rfl | hmem
            · exact .inr (.inr (.inl (mem_startRelay.mpr (.inl rfl))))
            · exact .inl hmem
          · cases htimed
  · rename_i task rest
    have hrow := hprocess.init.rows task (by rw [hphase]; exact List.mem_cons_self)
    cases hstep
    refine inv_resuming h hp (by rw [hphase]; rfl) sameBut_init (fun _ ht => ht) (fun _ ht => .inl ht) rfl
      (fun other hmem => ?_) (fun _ t _ hleft => ?_) fun call left heq => ?_
    · rw [hphase]
      exact List.mem_cons_of_mem _ hmem
    · rw [hphase] at hleft
      rcases hleft with hmem | htimed
      · rcases List.mem_cons.mp hmem with rfl | hmem
        · exact .inr (.inl rfl)
        · exact .inl hmem
      · cases htimed
    · cases heq
      exact ⟨rfl, hrow.1.unqueued.isSome⟩
  · rename_i call rest
    split at hstep
    · rename_i hreturned
      cases hstep
      refine inv_resuming h hp (by rw [hphase]; rfl) sameBut_init (fun _ ht => ht) (fun _ ht => .inl ht) rfl
        (fun other hmem => ?_) (fun hok t hst hleft => ?_) fun _ _ heq => by cases heq
      · rw [hphase]
        exact hmem
      · rw [hphase] at hleft
        rcases hleft with hmem | htimed
        · exact .inl hmem
        · have hover := (hprocess.init.failing call rest hphase).2
          rw [hreturned] at hover
          cases htimed
          exact .inr (.inr ((hover hok).2 hst))
    · obtain ⟨⟨service, next⟩, hnext, hstep⟩ := Option.bind_eq_some_iff.mp hstep
      cases hstep
      exact inv_failing h hp hphase hnext
  · cases hstep
    refine h.initialise hp rfl rfl h.jobs sameBut_init (fun hl => by cases hl)
      (fun _ ht => ht) (fun _ ht => .inl ht) fun _ => ?_
    exact ⟨fun _ ht => (by cases ht), fun _ ht => (by cases ht), fun _ hl => (by cases hl),
      fun _ _ _ heq => (by cases heq), fun _ hl => (by cases hl), fun _ _ heq => by cases heq⟩
  · cases hstep

theorem inv_init (settings : ProcessSettings) : Inv settings .init where
  tracked := LogCommits.tracked_init
  written := PersistWrites.allWritten_init
  prepares := fun c call prepared hget => by cases hget
  running := fun t hst => by cases hst
  jobs := fun t job hget => by cases hget
  idle := fun _ c => rfl
  process := fun p hp => by cases hp

/-- A new process knows nothing, and none of the calls of the old one is left. -/
theorem inv_boot (h : Inv settings s) (hp : s.process = none) :
    Inv settings { s with process := some .start } where
  tracked := h.tracked
  written := h.written
  prepares := h.prepares
  running := h.running
  jobs := h.jobs
  idle := fun hnone => by cases hnone
  process := by
    intro p hstart
    cases hstart
    refine ⟨fun t ht => (by cases ht), fun c call hget => ?_, fun a attempt hget => (by cases hget),
      fun i call hget => (by cases hget), fun i creation hget => (by cases hget), fun _ i => ⟨rfl, rfl⟩, ?_⟩
    · rw [h.idle hp c] at hget
      cases hget
    · exact ⟨fun _ ht => (by cases ht), fun _ ht => (by cases ht), fun _ hl => (by cases hl),
        fun _ _ _ heq => (by cases heq), fun _ hl => (by cases hl), fun _ _ heq => by cases heq⟩

theorem inv_crash (h : Inv settings s) :
    Inv settings { s with service := disconnected s.service, process := none } where
  tracked := ⟨h.tracked.keyed, fun c call hget => (by cases hget), fun c hnone => rfl⟩
  written := fun c w hw => by cases hw
  prepares := fun c call prepared hget => by cases hget
  running := h.running
  jobs := h.jobs
  idle := fun _ c => rfl
  process := fun p hp => by cases hp

theorem inv_step {l : ApiProcess.Label} (h : Inv settings s) (hstep : step settings s l = some s') :
    Inv settings s' := by
  unfold step at hstep
  cases hp : s.process with
  | none =>
    rw [hp] at hstep
    cases l with
    | boot =>
      cases hstep
      exact inv_boot h hp
    | _ => cases hstep
  | some p =>
    rw [hp] at hstep
    cases l with
    | boot => cases hstep
    | crash =>
      cases hstep
      exact inv_crash h
    | init expired c now resultId => exact inv_initialise h hp hstep
    | take t a => exact inv_take h hp hstep
    | attempt a answer => exact inv_attempt h hp hstep
    | attemptFails a code message => exact inv_attemptFails h hp hstep
    | settle a i => exact inv_settle h hp hstep
    | promote t =>
      obtain ⟨job, hjob, hstep⟩ := Option.bind_eq_some_iff.mp hstep
      exact inv_move h hp hjob hstep
    | stall t =>
      obtain ⟨job, hjob, hstep⟩ := Option.bind_eq_some_iff.mp hstep
      exact inv_move h hp hjob hstep
    | giveUp t i => exact inv_giveUp h hp hstep
    | expire t => exact inv_expire h hp hstep
    | failTask i t code message => exact inv_failTask h hp hstep
    | fail i c now resultId => exact inv_fail h hp hstep
    | failThrows i => exact inv_failThrows h hp hstep
    | persist c event archived source now resultId => exact inv_persist h hp hstep
    | advance c =>
      exact inv_served h hp rfl (fun _ hl => by cases hl) hstep (fun _ _ _ _ _ _ hl => by cases hl)
        fun _ hl => by cases hl
    | abort c => exact inv_abort h hp hstep
    | archive row =>
      exact inv_served h hp rfl (fun _ hl => by cases hl) hstep (fun _ _ _ _ _ _ hl => by cases hl)
        fun _ hl => by cases hl
    | enqueueTask i new => exact inv_enqueueTask h hp hstep
    | create i => exact inv_create h hp hstep
    | createFails i f message late => exact inv_createFails h hp hstep
    | cancelTask i userId t => exact inv_cancelTask h hp hstep
    | cancel i answer => exact inv_cancel h hp hstep
    | cancelPersist i c now resultId => exact inv_cancelPersist h hp hstep

/-- Every unfinished task is found when a process starts, and is in hand when the start is over. -/
theorem unfinished_recovered (settings : ProcessSettings) {ls : List ApiProcess.Label}
    (hrun : Transition.run (step settings) .init ls = some s) : Recovers s := by
  have hinv := Transition.invariant_run (fun _ _ _ h hstep => inv_step h hstep) (inv_init settings) hrun
  constructor
  · exact fun t task hget hopen => selected_of_inv hinv hget hopen
  · exact fun p hp hinit hfaulty t task hget => inHand_of_inv hinv hp hinit hfaulty hget

def oneWorker : ProcessSettings :=
  ⟨⟨⟨1, fun _ => true⟩, some "http://adapter"⟩, true, 5, fun url hurl => by cases hurl; decide⟩

/-- Steps of `onModuleInit` in which no time is over. -/
def initSteps (n : Nat) : List ApiProcess.Label := List.replicate n (.init false 0 "2026-01-01" "r0")

/-- A process creates a task and dies after it has added the job; the next one enqueues the task again. -/
def restarted : List ApiProcess.Label :=
  .boot :: initSteps 5 ++
    [.enqueueTask 0 ⟨"t", "u", none, "hello", .inr ("s", "hello")⟩, .create 0, .crash, .boot] ++ initSteps 6

/-- The worker takes the job and requests the execution. -/
def requested : List ApiProcess.Label :=
  [.take "t" 0, .attempt 0 (.database "2026-01-01"), .attempt 0 (.database "2026-01-01"),
    .attempt 0 (.inspected none), .attempt 0 (.responded ⟨"r", "/stream"⟩)]

/-- The attempt dispatches the task after the second scan, which has not seen it running. -/
def dispatchedLate : List ApiProcess.Label :=
  restarted ++ requested ++ initSteps 1 ++ [.attempt 0 (.database "2026-01-01")] ++ initSteps 1

/-- The start is over while an attempt has still to start the relay of a running task. -/
theorem not_recovered_of_dispatchedLate : ∃ s p task,
    Transition.run (step oneWorker) .init dispatchedLate = some s ∧ s.process = some p ∧
      Process.isInitialised p = true ∧ p.faulty = false ∧ s.db.tasks.get "t" = some task ∧
      ¬ Recovered s p task := by
  have hend : (Transition.run (step oneWorker) .init dispatchedLate).any (fun s => s.process.any fun p =>
      Process.isInitialised p && !p.faulty && p.relays.isEmpty &&
        (s.db.tasks.get "t").any fun task => decide (task.status = .running)) = true := by decide +kernel
  obtain ⟨s, hrun, hs⟩ := (Option.any_eq_true _ _).mp hend
  obtain ⟨p, hp, hs⟩ := (Option.any_eq_true _ _).mp hs
  simp only [Bool.and_eq_true, Bool.not_eq_true', List.isEmpty_iff] at hs
  obtain ⟨⟨⟨hinit, hfaulty⟩, hrelays⟩, hs⟩ := hs
  obtain ⟨task, hget, hstatus⟩ := (Option.any_eq_true _ _).mp hs
  have hrunning : task.status = .running := of_decide_eq_true hstatus
  refine ⟨s, p, task, hrun, hp, hinit, hfaulty, hget, ?_⟩
  rintro (hterminal | ⟨-, hmem⟩ | ⟨hqueued, -⟩)
  · rw [hrunning] at hterminal
    cases hterminal
  · rw [hrelays] at hmem
    cases hmem
  · rw [hrunning] at hqueued
    cases hqueued

theorem recovered_dispatchedLate : ∃ s,
    Transition.run (step oneWorker) .init dispatchedLate = some s ∧ Recovers s := by
  have hrun : (Transition.run (step oneWorker) .init dispatchedLate).isSome = true := by decide +kernel
  obtain ⟨s, hrun⟩ := Option.isSome_iff_exists.mp hrun
  exact ⟨s, hrun, unfinished_recovered oneWorker hrun⟩

end StartupRecovery
