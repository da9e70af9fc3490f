import ClawWork.EventProjection
import ClawWork.ExactlyOnce

/-!
# The published text reaches the database

When the task is completed, the stored output is the text of all the events that the adapter
has published for it, whatever crashes, restarts and replays came in between. The log of the
task holds the first events of the adapter, and next to them only failures and cancellations.
-/

namespace DeliveredText

open JavaScript SharedTypes TaskStore TasksService StatusFrames AdapterRelay TaskEventBroker AdapterStream
  RelayRestarts ExactlyOnce EventProjection Transition

variable {settings : StreamSettings} {t : String} {s s' : RelayRestarts.State} {k : Nat} {db db' : Database}
  {relay : Relay}

/-- What the other parties do: the adapter publishes events of the schema under their own task, and the
transactions of the others persist no event of the task but failures and cancellations. -/
def Allowed (settings : StreamSettings) (t : String) : RelayRestarts.Label → Prop
  | .publish taskId event => taskId = t → event.taskId = t ∧ Transmissible settings event
  | .transaction (.persist event _ _ _ _) => event.taskId ≠ t
  | _ => True

theorem Allowed.admissible {l : RelayRestarts.Label} (h : Allowed settings t l) : Admissible settings t l := by
  cases l with
  | publish taskId event => exact h
  | transaction tx =>
    cases tx with
    | persist event archived source now resultId => exact fun ht => absurd ht h
    | _ => trivial
  | _ => trivial

/-- Only the last event may be terminal. -/
def EndsOnce (published : List BrokerEvent) : Prop := ∀ item ∈ published.dropLast, item.event.isTerminal = false

def IsFailure (event : TaskStreamEvent) : Prop :=
  (∃ code message, event.detail = .failed code message) ∨ ∃ message, event.detail = .cancelled message

/-- What the relay is about to persist when it gives up. -/
def FailsOnly (relay : Relay) : Prop :=
  ∀ inCatch event, relay.phase = .failPersist inCatch event → ∃ code message, event.detail = .failed code message

/-! ## What a step of the relay writes -/

theorem failsOnly_resume (relay : Relay) (parsed : List Parsed) : FailsOnly (relay.resume parsed) := by
  intro inCatch event hphase
  cases parsed with
  | nil => by_cases haborted : relay.aborted = true <;> simp [Relay.resume, haborted] at hphase
  | cons first rest => cases hphase

theorem failsOnly_afterPersist (relay : Relay) (parsed : Parsed) : FailsOnly (relay.afterPersist parsed) := by
  unfold Relay.afterPersist
  split
  · intro inCatch event hphase
    cases hphase
  · exact failsOnly_resume relay relay.pending

theorem failsOnly_catchError (relay : Relay) (message : String) : FailsOnly (relay.catchError message) := by
  intro inCatch event hphase
  unfold Relay.catchError at hphase
  split at hphase
  · cases hphase
  · split at hphase <;> cases hphase

/-- The transaction in which the relay persists an event of the adapter, or its own failure. -/
inductive RelayWrites (settings : Settings) (db : Database) (relay : Relay) : Database → Prop
  | nothing : RelayWrites settings db relay db
  | event {parsed : Parsed} {prepared : Prepared} (now resultId : String)
      (hphase : relay.phase = .persisting parsed (.transaction prepared)) :
      RelayWrites settings db relay
        (persistTransaction settings now resultId prepared.stored parsed.sourceEventId db).2
  | failure {inCatch : Bool} {event : TaskStreamEvent} (now resultId : String)
      (hphase : relay.phase = .failPersist inCatch event) :
      RelayWrites settings db relay (persistTransaction settings now resultId event none db).2

theorem answer_writes {settings : Settings} {now resultId message : String} {next : AdapterRelay.State}
    (h : AdapterRelay.State.answer settings ⟨db, relay⟩ now resultId message = some next) :
    RelayWrites settings db relay next.db ∧ FailsOnly next.relay := by
  unfold AdapterRelay.State.answer at h
  dsimp only at h
  split at h
  · cases h
    exact ⟨.nothing, fun _ _ hphase => by cases hphase⟩
  · split at h <;> cases h
    · exact ⟨.nothing, failsOnly_afterPersist _ _⟩
    · exact ⟨.nothing, fun _ _ hphase => by cases hphase⟩
  · rename_i parsed prepared hphase
    have hwrites : RelayWrites settings db relay _ := .event now resultId hphase
    split at h <;> rename_i hresult <;> rw [hresult] at hwrites <;> cases h
    · exact ⟨hwrites, failsOnly_catchError _ _⟩
    · exact ⟨hwrites, failsOnly_afterPersist _ _⟩
  · split at h <;> cases h
    · exact ⟨.nothing, fun _ _ hphase => by cases hphase⟩
    · rename_i event hevent
      obtain ⟨task, -, -, rfl⟩ := failTaskEvent_eq_some_iff.mp hevent
      exact ⟨.nothing, fun _ _ hphase => by cases hphase; exact ⟨_, _, rfl⟩⟩
  · rename_i inCatch event hphase
    have hwrites : RelayWrites settings db relay _ := .failure now resultId hphase
    split at h <;> rename_i hresult <;> rw [hresult] at hwrites <;> cases h
    · refine ⟨hwrites, ?_⟩
      split
      · exact fun _ _ hphase => by cases hphase
      · exact failsOnly_catchError _ _
    · exact ⟨hwrites, fun _ _ hphase => by cases hphase⟩
  · cases h

theorem relay_writes {settings : RelaySettings} {l : AdapterRelay.Label} {next : AdapterRelay.State}
    (h : AdapterRelay.step settings ⟨db, relay⟩ l = some next) (hl : ∀ tx, l ≠ .other tx)
    (hfails : FailsOnly relay) :
    RelayWrites settings.toSettings db relay next.db ∧ FailsOnly next.relay := by
  cases l with
  | database now resultId message => exact answer_writes h
  | prepared archived message =>
    simp only [AdapterRelay.step] at h
    split at h
    · split at h <;> cases h
      · exact ⟨.nothing, fun _ _ hphase => by cases hphase⟩
      · exact ⟨.nothing, failsOnly_catchError _ _⟩
    · cases h
  | fetched status hasBody =>
    simp only [AdapterRelay.step] at h
    split at h
    · split at h
      · cases h
      · split at h <;> cases h
        · exact ⟨.nothing, fun _ _ hphase => by cases hphase⟩
        · exact ⟨.nothing, failsOnly_catchError _ _⟩
    · cases h
  | fetchFailed message =>
    simp only [AdapterRelay.step] at h
    split at h <;> cases h
    exact ⟨.nothing, failsOnly_catchError _ _⟩
  | chunk text =>
    simp only [AdapterRelay.step] at h
    split at h
    · split at h <;> cases h
      exact ⟨.nothing, failsOnly_resume _ _⟩
    · cases h
  | ended =>
    simp only [AdapterRelay.step] at h
    split at h
    · split at h <;> cases h
      exact ⟨.nothing, fun _ _ hphase => by cases hphase⟩
    · cases h
  | readFailed message =>
    simp only [AdapterRelay.step] at h
    split at h <;> cases h
    exact ⟨.nothing, failsOnly_catchError _ _⟩
  | cancellationAnswered =>
    simp only [AdapterRelay.step] at h
    split at h <;> cases h
    exact ⟨.nothing, fun _ _ hphase => by cases hphase⟩
  | timer =>
    simp only [AdapterRelay.step] at h
    split at h <;> cases h
    exact ⟨.nothing, hfails⟩
  | stop =>
    simp only [AdapterRelay.step] at h
    split at h <;> cases h
    exact ⟨.nothing, hfails⟩
  | other tx => exact absurd rfl (hl tx)

/-- A step of the relay leaves the published events and their numbers alone. -/
structure KeepsNumbers (s s' : RelayRestarts.State) : Prop where
  published : s'.published = s.published
  nextIds : s'.broker.nextIds = s.broker.nextIds
  timers : s'.broker.cleanupTimers = s.broker.cleanupTimers

theorem openEvents_counts {broker broker' : Broker} {taskId : String} {lastEventId : Option String} {listener : Nat}
    {response : Response} (h : openEvents settings broker taskId lastEventId listener = (response, broker')) :
    broker'.nextIds = broker.nextIds ∧ broker'.cleanupTimers = broker.cleanupTimers := by
  unfold openEvents at h
  dsimp only at h
  split at h <;> cases h
  · exact ⟨rfl, rfl⟩
  · exact ⟨rfl, rfl⟩

/-- An answer and a chunk leave the database alone. -/
theorem read_db {l : AdapterRelay.Label} {settings : RelaySettings} {next : AdapterRelay.State}
    (h : AdapterRelay.step settings ⟨db, relay⟩ l = some next)
    (hl : (∃ status hasBody, l = .fetched status hasBody) ∨ ∃ text, l = .chunk text) : next.db = db := by
  rcases hl with ⟨status, hasBody, rfl⟩ | ⟨text, rfl⟩
  · simp only [AdapterRelay.step] at h
    split at h
    · split at h
      · cases h
      · split at h <;> cases h <;> rfl
    · cases h
  · simp only [AdapterRelay.step] at h
    split at h
    · split at h <;> cases h
      rfl
    · cases h

theorem stepRelay_cases {l : AdapterRelay.Label} (h : s.stepRelay settings relay l = some s') :
    KeepsNumbers s s' ∧ (∀ tx, l ≠ .other tx) ∧
      ∃ next, AdapterRelay.step settings.toRelaySettings ⟨s.db, relay⟩ l = some next ∧ s'.db = next.db ∧
        s'.relay = some next.relay := by
  cases l with
  | other tx => cases h
  | fetched status hasBody =>
    obtain ⟨next, hnext, h⟩ := Option.bind_eq_some_iff.mp h
    have hdb : next.db = s.db := read_db hnext (.inl ⟨status, hasBody, rfl⟩)
    split at h
    · generalize hopen : openEvents settings s.broker relay.taskId _ s.responses = opened at h
      obtain ⟨response, broker⟩ := opened
      obtain ⟨hids, htimers⟩ := openEvents_counts hopen
      cases h
      exact ⟨⟨rfl, hids, htimers⟩, by simp, next, hnext, hdb.symm, rfl⟩
    · cases h
      exact ⟨⟨rfl, rfl, rfl⟩, by simp, next, hnext, hdb.symm, rfl⟩
  | chunk text =>
    obtain ⟨response, hresponse, h⟩ := Option.bind_eq_some_iff.mp h
    split at h
    · obtain ⟨next, hnext, h⟩ := Option.bind_eq_some_iff.mp h
      have hdb : next.db = s.db := read_db hnext (.inr ⟨text, rfl⟩)
      cases h
      exact ⟨⟨rfl, rfl, rfl⟩, by simp, next, hnext, hdb.symm, rfl⟩
    · cases h
  | _ =>
    obtain ⟨next, hnext, h⟩ := Option.bind_eq_some_iff.mp h
    cases h
    exact ⟨⟨rfl, rfl, rfl⟩, by simp, next, hnext, rfl, rfl⟩

/-! ## The numbers of the published events -/

/-- As long as only the last event may be terminal, the published events are numbered from one on. -/
def Counted (t : String) (s : RelayRestarts.State) : Prop :=
  EndsOnce s.published → s.published.map BrokerEvent.id = List.range' 1 s.published.length ∧
    ((∀ item ∈ s.published, item.event.isTerminal = false) →
      s.broker.nextId t = s.published.length + 1 ∧ s.broker.cleanupTimers.get t = none)

theorem counted_same (h : Counted t s) (hpublished : s'.published = s.published)
    (hids : s'.broker.nextId t = s.broker.nextId t)
    (htimers : s'.broker.cleanupTimers.get t = s.broker.cleanupTimers.get t) : Counted t s' := by
  unfold Counted
  rw [hpublished, hids, htimers]
  exact h

theorem publish_timers (b : Broker) {u : String} (event : TaskStreamEvent) (h : u = t → event.isTerminal = false) :
    (b.publish u event).2.cleanupTimers.get t = b.cleanupTimers.get t := by
  unfold Broker.publish
  dsimp only
  split
  · rename_i hterm
    have hne : t ≠ u := fun htu => by rw [h htu.symm] at hterm; cases hterm
    simp [Broker.scheduleCleanup, hne]
  · rfl

theorem counted_publish (h : Counted t s) (event : TaskStreamEvent) : Counted t (s.publish settings t t event) := by
  have hpublished : (s.publish settings t t event).published = s.published ++ [⟨s.broker.nextId t, event⟩] := by
    simp [State.publish]
  intro hends
  rw [EndsOnce, hpublished, List.dropLast_concat] at hends
  obtain ⟨hnumbers, hopen⟩ := h fun item hitem => hends item (List.dropLast_subset _ hitem)
  obtain ⟨hnext, htimer⟩ := hopen hends
  rw [hpublished, List.map_append, hnumbers, List.length_append, List.length_singleton, List.range'_concat]
  refine ⟨by simp [hnext, Nat.add_comm], fun hall => ?_⟩
  have hevent : event.isTerminal = false := hall _ (List.mem_append_right _ (List.mem_singleton_self _))
  constructor
  · rw [State.publish, Broker.publish_nextId, if_pos rfl, hnext]
  · rw [State.publish, publish_timers _ _ fun _ => hevent, htimer]

theorem counted_cleanup (h : Counted t s) {taskId : String}
    (htimer : (s.broker.cleanupTimers.get taskId).isSome = true) :
    Counted t { s with broker := s.broker.cleanup taskId } := by
  by_cases htask : taskId = t
  · subst htask
    refine fun hends => ⟨(h hends).1, fun hall => ?_⟩
    rw [((h hends).2 hall).2] at htimer
    cases htimer
  · refine counted_same h rfl ?_ ?_
    · rw [Broker.cleanup_nextId, if_neg (Ne.symm htask)]
    · rw [Broker.cleanup, OrderedMap.get_delete, if_neg (Ne.symm htask)]

/-! ## The log -/

/-- The rows that no event of the adapter is in. -/
def OthersFail (settings : Settings) (t : String) (db : Database) : Prop :=
  ∀ row ∈ db.eventsOf t, row.sourceEventId = none →
    ∃ event, parsePersistedEvent settings row.payload = some event ∧ IsFailure event

theorem othersFail_same {settings : Settings} (h : OthersFail settings t db)
    (hevents : db'.taskEvents = db.taskEvents) : OthersFail settings t db' := by
  unfold OthersFail Database.eventsOf
  rw [hevents]
  exact h

/-- A transaction of the log that persists an event of the adapter, a failure, or an event of another task. -/
theorem othersFail_persist {settings : Settings} (h : OthersFail settings t db) (hkeyed : Keyed db)
    {stored : TaskStreamEvent} {source : Option String} (hstored : stored.detail.Storable)
    (hfails : stored.taskId = t → source = none → IsFailure stored) (now resultId : String) :
    OthersFail settings t (persistTransaction settings now resultId stored source db).2 := by
  have hpersists := persists settings now resultId stored source hkeyed
  generalize persistTransaction settings now resultId stored source db = result at hpersists ⊢
  cases hpersists with
  | skipped => exact h
  | threw => exact othersFail_same h rfl
  | persisted hkeep hopen hfresh hrow hevents =>
    intro row hmem hnone
    rw [eventsOf_append hevents, List.mem_append] at hmem
    rcases hmem with hmem | hmem
    · exact h row hmem hnone
    · split at hmem
      · rename_i htask
        rw [List.mem_singleton.mp hmem, hrow] at hnone ⊢
        rw [hrow] at htask
        exact ⟨stored, parseTaskStreamEvent_toJson hstored, hfails htask hnone⟩
      · cases hmem

theorem othersFail_transaction {settings : Settings} (h : OthersFail settings t db) (hkeyed : Keyed db)
    {tx : Transaction} (htx : ∀ event archived source now resultId,
      tx = .persist event archived source now resultId → event.taskId ≠ t)
    (hdb : tx.apply settings db = some db') : OthersFail settings t db' := by
  cases tx with
  | single tx => exact othersFail_same h (StatusFrames.unlogged_single hdb).events
  | persist event archived source now resultId =>
    obtain ⟨prepared, hprepared, hdb⟩ := Option.bind_eq_some_iff.mp hdb
    cases hdb
    refine othersFail_persist h hkeyed (prepareTaskEvent_storable hprepared) (fun htask _ => ?_) now resultId
    rw [(prepareTaskEvent_taskId hprepared).1] at htask
    exact absurd htask (htx event archived source now resultId rfl)
  | failTask taskId code message now resultId =>
    obtain ⟨event, hevent, hdb⟩ := Option.bind_eq_some_iff.mp hdb
    cases hdb
    obtain ⟨task, -, -, rfl⟩ := failTaskEvent_eq_some_iff.mp hevent
    refine othersFail_persist h hkeyed ?_ (fun _ _ => .inl ⟨code, message, rfl⟩) now resultId
    trivial
  | cancelTask userId taskId now resultId =>
    obtain ⟨task, htask, hdb⟩ := Option.bind_eq_some_iff.mp hdb
    split at hdb
    · cases hdb
      refine othersFail_persist h hkeyed ?_ (fun _ _ => .inr ⟨_, rfl⟩) now resultId
      simp [cancelTaskEvent, TaskEventDetail.Storable]
    · cases hdb

/-- Only the last event of the log may be terminal. -/
def LogEndsOnce (settings : Settings) (t : String) (db : Database) : Prop :=
  ∀ event ∈ (log settings db t).dropLast, event.isTerminal = false

theorem log_same {settings : Settings} (hevents : db'.taskEvents = db.taskEvents) :
    log settings db' t = log settings db t := by
  simp only [log, Database.eventsOf, hevents]

theorem log_append {settings : Settings} {row : TaskEvent} (hevents : db'.taskEvents = db.taskEvents ++ [row]) :
    log settings db' t =
      log settings db t ++ if row.taskId = t then (parsePersistedEvent settings row.payload).toList else [] := by
  rw [log, eventsOf_append hevents, List.filterMap_append]
  congr 1
  split
  · cases hread : parsePersistedEvent settings row.payload <;> simp [hread]
  · rfl

/-- An event is appended only to a log without a terminal event. -/
theorem logEndsOnce_persist {settings : Settings} (h : LogEndsOnce settings t db)
    (hprojection : EventProjection.Inv settings db) (hkeyed : Keyed db) {stored : TaskStreamEvent}
    (hstored : stored.detail.Storable) (source : Option String) (now resultId : String) :
    LogEndsOnce settings t (persistTransaction settings now resultId stored source db).2 := by
  have hpersists := persists settings now resultId stored source hkeyed
  generalize persistTransaction settings now resultId stored source db = result at hpersists ⊢
  cases hpersists with
  | skipped => exact h
  | threw => rwa [LogEndsOnce, log_same rfl]
  | persisted hkeep hopen hfresh hrow hevents =>
    by_cases htask : stored.taskId = t
    · have hopenLog : ∀ event ∈ log settings db t, event.isTerminal = false := by
        intro event hevent
        obtain ⟨row, hrow, -⟩ := List.mem_filterMap.mp hevent
        obtain ⟨hmem, hrowTask⟩ := List.mem_filter.mp hrow
        obtain ⟨task, hget⟩ := Option.isSome_iff_exists.mp (hprojection.eventTask row hmem)
        rw [of_decide_eq_true hrowTask] at hget
        have hstatus : task.status.isTerminal = false := by
          simpa [RelayExit.Ended, Database.status, htask, hget] using hopen
        exact ((hprojection.projects t task hget).unfinished hstatus).1 event hevent
      have hread : parsePersistedEvent settings stored.toJson = some stored := parseTaskStreamEvent_toJson hstored
      rw [LogEndsOnce, log_append hevents, hrow, if_pos htask, hread, Option.toList_some, List.dropLast_concat]
      exact hopenLog
    · rw [LogEndsOnce, log_append hevents, hrow, if_neg htask, List.append_nil]
      exact h

theorem logEndsOnce_transaction {settings : Settings} (h : LogEndsOnce settings t db)
    (hprojection : EventProjection.Inv settings db) (hkeyed : Keyed db) {tx : Transaction}
    (hdb : tx.apply settings db = some db') : LogEndsOnce settings t db' := by
  cases tx with
  | single tx => rwa [LogEndsOnce, log_same (StatusFrames.unlogged_single hdb).events]
  | persist event archived source now resultId =>
    obtain ⟨prepared, hprepared, hdb⟩ := Option.bind_eq_some_iff.mp hdb
    cases hdb
    exact logEndsOnce_persist h hprojection hkeyed (prepareTaskEvent_storable hprepared) _ now resultId
  | failTask taskId code message now resultId =>
    obtain ⟨event, hevent, hdb⟩ := Option.bind_eq_some_iff.mp hdb
    cases hdb
    obtain ⟨task, -, -, rfl⟩ := failTaskEvent_eq_some_iff.mp hevent
    refine logEndsOnce_persist h hprojection hkeyed ?_ _ now resultId
    trivial
  | cancelTask userId taskId now resultId =>
    obtain ⟨task, htask, hdb⟩ := Option.bind_eq_some_iff.mp hdb
    split at hdb
    · cases hdb
      refine logEndsOnce_persist h hprojection hkeyed ?_ _ now resultId
      simp [cancelTaskEvent, TaskEventDetail.Storable]
    · cases hdb

/-! ## The invariant -/

/-- What holds beside the invariant of the delivery. -/
structure Beside (settings : StreamSettings) (t : String) (s : RelayRestarts.State) : Prop where
  projection : EventProjection.Inv settings.toSettings s.db
  others : OthersFail settings.toSettings t s.db
  ended : LogEndsOnce settings.toSettings t s.db
  fails : ∀ relay, s.relay = some relay → FailsOnly relay
  counted : Counted t s

theorem beside_init (settings : StreamSettings) (t : String) (maxEventsPerTask : Nat) :
    Beside settings t (.init maxEventsPerTask) where
  projection := inv_empty
  others := fun row h => by cases h
  ended := fun event h => by cases h
  fails := fun relay h => by cases h
  counted := fun _ => ⟨rfl, fun _ => ⟨rfl, rfl⟩⟩

/-- What the relay persists is an event of the adapter with its number, or a failure. -/
theorem relay_log (h : ExactlyOnce.Inv settings t s k) (hbeside : Beside settings t s) (hrelay : s.relay = some relay)
    (hwrites : RelayWrites settings.toSettings s.db relay db') :
    EventProjection.Inv settings.toSettings db' ∧ OthersFail settings.toSettings t db' ∧
      LogEndsOnce settings.toSettings t db' := by
  have hended {stored : TaskStreamEvent} (hstorable : stored.detail.Storable) (source : Option String)
      (now resultId : String) := logEndsOnce_persist hbeside.ended hbeside.projection h.logged.keyed hstorable source
        now resultId
  cases hwrites with
  | nothing => exact ⟨hbeside.projection, hbeside.others, hbeside.ended⟩
  | event now resultId hphase =>
    obtain ⟨-, -, hinv⟩ := h.relay relay hrelay
    rw [RelayInv, hphase] at hinv
    obtain ⟨item, -, hparsed, -⟩ := hinv.1.head
    obtain ⟨archived, hprepared⟩ := hinv.2 _ rfl
    have hstorable := prepareTaskEvent_storable hprepared
    refine ⟨inv_persist hbeside.projection hstorable now resultId _,
      othersFail_persist hbeside.others h.logged.keyed hstorable (fun _ hnone => ?_) now resultId,
      hended hstorable _ now resultId⟩
    rw [hparsed] at hnone
    cases hnone
  | failure now resultId hphase =>
    obtain ⟨code, message, hdetail⟩ := hbeside.fails relay hrelay _ _ hphase
    have hstorable : ∀ event : TaskStreamEvent, event.detail = .failed code message → event.detail.Storable := by
      intro event hevent
      rw [hevent]
      trivial
    exact ⟨inv_persist hbeside.projection (hstorable _ hdetail) now resultId _,
      othersFail_persist hbeside.others h.logged.keyed (hstorable _ hdetail)
        (fun _ _ => .inl ⟨code, message, hdetail⟩) now resultId,
      hended (hstorable _ hdetail) _ now resultId⟩

theorem beside_step (h : ExactlyOnce.Inv settings t s k) (hbeside : Beside settings t s) {l : RelayRestarts.Label}
    (hallowed : Allowed settings t l) (hstep : RelayRestarts.step settings t s l = some s') :
    Beside settings t s' := by
  obtain ⟨hprojection, hothers, hended, hfails, hcounted⟩ := hbeside
  cases l with
  | publish taskId event =>
    cases hstep
    refine ⟨hprojection, hothers, hended, hfails, ?_⟩
    by_cases htask : taskId = t
    · subst htask
      exact counted_publish hcounted event
    · refine counted_same hcounted (if_neg htask) ?_ (publish_timers _ event fun heq => absurd heq htask)
      rw [State.publish, Broker.publish_nextId, if_neg (Ne.symm htask)]
  | cleanup taskId =>
    simp only [RelayRestarts.step] at hstep
    split at hstep <;> cases hstep
    exact ⟨hprojection, hothers, hended, hfails, counted_cleanup hcounted ‹_›⟩
  | start =>
    simp only [RelayRestarts.step] at hstep
    split at hstep <;> cases hstep
    refine ⟨hprojection, hothers, hended, fun relay hrelay => ?_, hcounted⟩
    cases hrelay
    exact fun _ _ hphase => by cases hphase
  | crash =>
    cases hstep
    refine ⟨hprojection, hothers, hended, fun relay hrelay => ?_, hcounted⟩
    cases hrelay
  | relay l =>
    obtain ⟨relay, hrelay, hstep⟩ := Option.bind_eq_some_iff.mp hstep
    obtain ⟨hkeeps, hown, next, hnext, hdb, hrelay'⟩ := stepRelay_cases hstep
    obtain ⟨hwrites, hfails'⟩ := relay_writes hnext hown (hfails relay hrelay)
    rw [← hdb] at hwrites
    obtain ⟨hprojection', hothers', hended'⟩ :=
      relay_log h ⟨hprojection, hothers, hended, hfails, hcounted⟩ hrelay hwrites
    refine ⟨hprojection', hothers', hended', fun other hother => ?_, counted_same hcounted hkeeps.published ?_ ?_⟩
    · rw [hrelay', Option.some.injEq] at hother
      exact hother ▸ hfails'
    · rw [Broker.nextId, Broker.nextId, hkeeps.nextIds]
    · rw [hkeeps.timers]
  | closed taskId listener =>
    cases hstep
    exact ⟨hprojection, hothers, hended, hfails, counted_same hcounted rfl (Broker.unsubscribe_nextId listener)
      (by rw [Broker.unsubscribe_cleanupTimers])⟩
  | transaction tx =>
    obtain ⟨db, hdb, hstep⟩ := Option.bind_eq_some_iff.mp hstep
    cases hstep
    refine ⟨inv_apply hprojection hdb, othersFail_transaction hothers h.logged.keyed ?_ hdb,
      logEndsOnce_transaction hended hprojection h.logged.keyed hdb, hfails, hcounted⟩
    intro event archived source now resultId htx
    subst htx
    exact hallowed

/-! ## The text -/

theorem deltaOf_prepared {archived : Option Archived} {event : TaskStreamEvent} {prepared : Prepared}
    (h : prepareTaskEvent archived event = some prepared) : deltaOf prepared.stored = deltaOf event := by
  obtain ⟨a, r, hdetail, -, -, rfl⟩ | ⟨-, rfl⟩ := prepareTaskEvent_eq_some h
  · obtain ⟨detail, taskId, sessionId, runId, timestamp⟩ := event
    subst hdetail
    rfl
  · rfl

/-- A row is read back as the event that it stores. -/
theorem Stores.read {row : TaskEvent} {item : BrokerEvent} (settings : Settings) (h : Stores row item) :
    ∃ stored, parsePersistedEvent settings row.payload = some stored ∧ deltaOf stored = deltaOf item.event ∧
      stored.isTerminal = item.event.isTerminal := by
  obtain ⟨archived, prepared, hprepared, -, hpayload⟩ := h
  refine ⟨prepared.stored, ?_, deltaOf_prepared hprepared, (RelayExit.prepareTaskEvent_same hprepared).2⟩
  rw [hpayload]
  exact parseTaskStreamEvent_toJson (prepareTaskEvent_storable hprepared)

/-- The delivery, and what holds beside it. -/
def Inv (settings : StreamSettings) (t : String) (s : RelayRestarts.State) : Prop :=
  (∃ k, ExactlyOnce.Inv settings t s k) ∧ Beside settings t s

theorem inv_step {l : RelayRestarts.Label} (h : Inv settings t s) (hallowed : Allowed settings t l)
    (hconnects : ConnectsInTime t s l) (hstep : RelayRestarts.step settings t s l = some s') : Inv settings t s' := by
  obtain ⟨⟨k, h⟩, hbeside⟩ := h
  exact ⟨ExactlyOnce.inv_step h hallowed.admissible hconnects hstep, beside_step h hbeside hallowed hstep⟩

theorem inv_run {ls : List RelayRestarts.Label} (t : String) (maxEventsPerTask : Nat)
    (hrun : run (RelayRestarts.step settings t) (.init maxEventsPerTask) ls = some s)
    (hallowed : ∀ l ∈ ls, Allowed settings t l)
    (hconnects : Along (RelayRestarts.step settings t) (ConnectsInTime t) (.init maxEventsPerTask) ls) :
    Inv settings t s := by
  have hassumed : Along (RelayRestarts.step settings t)
      (fun s l => Allowed settings t l ∧ ConnectsInTime t s l) (.init maxEventsPerTask) ls :=
    hconnects.mono_mem fun s l hl hconnects => ⟨hallowed l hl, hconnects⟩
  refine invariant_along (fun s l s' h hok hstep => inv_step h hok.1 hok.2 hstep) ?_ hassumed hrun
  exact ⟨⟨0, ExactlyOnce.inv_init settings t maxEventsPerTask⟩, beside_init settings t maxEventsPerTask⟩

end DeliveredText
