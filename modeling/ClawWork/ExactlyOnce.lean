import ClawWork.RelayExit
import ClawWork.RelayRestarts
import ClawWork.SequencedDelivery

/-!
# Every adapter event is persisted once and in order

The source event ids of a task are the first numbers of the adapter, whatever
crashes, restarts and replays have happened. What is on the way to the relay
leaves no gap behind the last persisted number as long as the task is open; the
two checks for duplicates pass over what is persisted, and the guard of a terminal
task over everything else.
-/

namespace ExactlyOnce

open JavaScript SharedTypes TaskStore TasksService StatusFrames AdapterRelay TaskEventBroker
  AdapterStream SequencedDelivery RelayRestarts Transition
open RelayExit (Ended ended_iff prepareTaskEvent_same newStatus_isTerminal)

variable {settings : StreamSettings} {t : String} {s s' : RelayRestarts.State} {k : Nat}
  {db db' : Database} {published : List BrokerEvent}

/-- A row holds a published event as it is prepared for the log. -/
def Stores (row : TaskEvent) (item : BrokerEvent) : Prop :=
  ∃ archived prepared, prepareTaskEvent archived item.event = some prepared ∧
    row.type = prepared.stored.detail.literal ∧ row.payload = prepared.stored.toJson

/-- The log of the task holds the first `k` events of the adapter, and only the last of them may be
terminal. -/
structure Logged (t : String) (published : List BrokerEvent) (k : Nat) (db : Database) : Prop where
  keyed : Keyed db
  ordered : db.taskEvents.Pairwise fun a b => a.id < b.id
  drawn : ∀ row ∈ db.taskEvents, row.id < db.nextEventId
  sources : sourceIds db t = (List.range' 1 k).map toString
  rows : ∀ row ∈ db.eventsOf t, ∀ source ∈ row.sourceEventId, ∃ item ∈ published,
    source = toString item.id ∧ Stores row item ∧
      (item.event.isTerminal = true → item.id = k ∧ Ended db t)

theorem logged_empty (t : String) (published : List BrokerEvent) : Logged t published 0 .empty where
  keyed := fun u task h => by cases h
  ordered := List.Pairwise.nil
  drawn := fun row h => by cases h
  sources := rfl
  rows := fun row h => by cases h

theorem Logged.publish (h : Logged t published k db) {published' : List BrokerEvent}
    (hsub : ∀ item ∈ published, item ∈ published') : Logged t published' k db where
  keyed := h.keyed
  ordered := h.ordered
  drawn := h.drawn
  sources := h.sources
  rows := by
    intro row hrow source hsource
    obtain ⟨item, hitem, hstores⟩ := h.rows row hrow source hsource
    exact ⟨item, hsub item hitem, hstores⟩

theorem hasSourceEvent_iff {source : String} :
    db.hasSourceEvent t source = true ↔ source ∈ sourceIds db t := by
  simp [Database.hasSourceEvent, sourceIds, Database.eventsOf, and_assoc]

/-- A number is persisted if it is one of the first `k`. -/
theorem Logged.hasSourceEvent_iff (h : Logged t published k db) {i : Nat} :
    db.hasSourceEvent t (toString i) = true ↔ 1 ≤ i ∧ i ≤ k := by
  rw [ExactlyOnce.hasSourceEvent_iff, h.sources, List.mem_map]
  constructor
  · rintro ⟨j, hj, hji⟩
    rw [toString_injective hji, List.mem_range'_1] at hj
    omega
  · intro hi
    exact ⟨i, List.mem_range'_1.mpr (by omega), rfl⟩

/-- A transaction that inserts no event. -/
theorem Logged.quiet (h : Logged t published k db) (hkeep : Keeps db db')
    (hevents : db'.taskEvents = db.taskEvents) (hnext : db.nextEventId ≤ db'.nextEventId) :
    Logged t published k db' where
  keyed := hkeep.keyed
  ordered := by
    rw [hevents]
    exact h.ordered
  drawn := by
    intro row hrow
    rw [hevents] at hrow
    exact Nat.lt_of_lt_of_le (h.drawn row hrow) hnext
  sources := by
    rw [sourceIds, Database.eventsOf, hevents]
    exact h.sources
  rows := by
    intro row hrow source hsource
    rw [Database.eventsOf, hevents] at hrow
    obtain ⟨item, hitem, hid, hstores, hlast⟩ := h.rows row hrow source hsource
    exact ⟨item, hitem, hid, hstores, fun hterm => ⟨(hlast hterm).1, (hlast hterm).2.keep hkeep⟩⟩

variable {row : TaskEvent}

theorem ordered_append (h : Logged t published k db) (hid : row.id = db.nextEventId) :
    (db.taskEvents ++ [row]).Pairwise fun a b => a.id < b.id := by
  rw [List.pairwise_append]
  refine ⟨h.ordered, List.pairwise_singleton _ _, fun old hold new hnew => ?_⟩
  rw [List.mem_singleton.mp hnew, hid]
  exact h.drawn old hold

theorem drawn_append (h : Logged t published k db) (hid : row.id = db.nextEventId) :
    ∀ r ∈ db.taskEvents ++ [row], r.id < db.nextEventId + 1 := by
  intro r hr
  rcases List.mem_append.mp hr with hr | hr
  · exact Nat.lt_succ_of_lt (h.drawn r hr)
  · rw [List.mem_singleton.mp hr, hid]
    exact Nat.lt_succ_self _

theorem eventsOf_append (hevents : db'.taskEvents = db.taskEvents ++ [row]) :
    db'.eventsOf t = db.eventsOf t ++ if row.taskId = t then [row] else [] := by
  rw [Database.eventsOf, hevents, List.filter_append, List.filter_singleton]
  by_cases ht : row.taskId = t <;> simp [ht, Database.eventsOf]

/-- An event of another task, or one that does not come from the adapter. -/
theorem Logged.insert (h : Logged t published k db) (hkeep : Keeps db db')
    (hevents : db'.taskEvents = db.taskEvents ++ [row]) (hid : row.id = db.nextEventId)
    (hnext : db'.nextEventId = db.nextEventId + 1) (hsource : row.taskId = t → row.sourceEventId = none) :
    Logged t published k db' where
  keyed := hkeep.keyed
  ordered := by
    rw [hevents]
    exact ordered_append h hid
  drawn := by
    rw [hevents, hnext]
    exact drawn_append h hid
  sources := by
    rw [sourceIds, eventsOf_append hevents, List.filterMap_append, ← sourceIds, h.sources]
    by_cases ht : row.taskId = t
    · simp [ht, hsource ht]
    · simp [ht]
  rows := by
    intro r hr source hr'
    rw [eventsOf_append hevents, List.mem_append] at hr
    rcases hr with hr | hr
    · obtain ⟨item, hitem, hi, hstores, hlast⟩ := h.rows r hr source hr'
      exact ⟨item, hitem, hi, hstores, fun hterm => ⟨(hlast hterm).1, (hlast hterm).2.keep hkeep⟩⟩
    · split at hr
      · rename_i ht
        rw [List.mem_singleton.mp hr, hsource ht] at hr'
        cases hr'
      · cases hr

/-- The next event of the adapter. -/
theorem Logged.take (h : Logged t published k db) (hkeep : Keeps db db') {item : BrokerEvent}
    (hevents : db'.taskEvents = db.taskEvents ++ [row]) (hid : row.id = db.nextEventId)
    (hnext : db'.nextEventId = db.nextEventId + 1) (htask : row.taskId = t)
    (hsource : row.sourceEventId = some (toString item.id)) (hitem : item ∈ published)
    (hk : item.id = k + 1) (hstores : Stores row item) (hopen : ¬ Ended db t)
    (hterm : item.event.isTerminal = true → Ended db' t) : Logged t published (k + 1) db' where
  keyed := hkeep.keyed
  ordered := by
    rw [hevents]
    exact ordered_append h hid
  drawn := by
    rw [hevents, hnext]
    exact drawn_append h hid
  sources := by
    rw [sourceIds, eventsOf_append hevents, if_pos htask, List.filterMap_append, ← sourceIds, h.sources,
      List.range'_concat, List.map_append]
    simp [hsource, hk, Nat.add_comm]
  rows := by
    intro r hr source hr'
    rw [eventsOf_append hevents, if_pos htask, List.mem_append, List.mem_singleton] at hr
    rcases hr with hr | rfl
    · obtain ⟨old, hold, hi, hold', hlast⟩ := h.rows r hr source hr'
      exact ⟨old, hold, hi, hold', fun hold' => absurd (hlast hold').2 hopen⟩
    · rw [hsource, Option.mem_some_iff] at hr'
      exact ⟨item, hitem, hr'.symm, hstores, fun hended => ⟨hk, hterm hended⟩⟩

variable {now resultId : String} {stored : TaskStreamEvent} {source : Option String}

/-- What the transaction of `persistTaskEvent` does to the log. -/
inductive Persists (db : Database) (stored : TaskStreamEvent) (source : Option String) :
    Outcome × Database → Prop
  | skipped (h : ∀ task, db.tasks.get stored.taskId = some task → task.status.isTerminal = true ∨
      (truthy source).any (fun id => db.hasSourceEvent stored.taskId id) = true) :
    Persists db stored source (.skipped, db)
  | threw : Persists db stored source (TasksService.rollback db)
  | persisted {db' : Database} {row : TaskEvent} (hkeep : Keeps db db') (hopen : ¬ Ended db stored.taskId)
      (hfresh : db.violatesSource stored.taskId source = false)
      (hrow : row = ⟨db.nextEventId, stored.taskId, source, stored.detail.literal, stored.toJson⟩)
      (hevents : db'.taskEvents = db.taskEvents ++ [row]) (hnext : db'.nextEventId = db.nextEventId + 1)
      (hended : stored.isTerminal = true → Ended db' stored.taskId) :
    Persists db stored source (.persisted db.nextEventId, db')

theorem persists (settings : Settings) (now resultId : String) (stored : TaskStreamEvent)
    (source : Option String) (hk : Keyed db) :
    Persists db stored source (persistTransaction settings now resultId stored source db) := by
  have hkeep := persist_keeps settings now resultId stored source hk
  rcases persistTransaction_cases settings now resultId stored source db with
    ⟨heq, hskip⟩ | heq | ⟨task, db', htask, hopen, hfresh, hproject, heq⟩
  · rw [heq]
    exact .skipped hskip
  · rw [heq]
    exact .threw
  · rw [heq] at hkeep ⊢
    have hproject := projectEvent_projects hproject
    rw [hk.get htask] at hproject
    have hold : db.status stored.taskId = some task.status := congrArg (Option.map Task.status) htask
    refine .persisted hkeep ?_ hfresh rfl hproject.events hproject.nextId fun hterm => ?_
    · rw [Ended, hold, Option.any_some, hopen]
      exact Bool.false_ne_true
    · have hnew := hproject.status stored.taskId
      rw [if_pos rfl, show (db.createEvent stored.taskId source stored).status stored.taskId = _ from hold]
        at hnew
      refine ended_iff.mpr ⟨_, hnew, ?_⟩
      rw [newStatus_isTerminal _ _ hopen]
      exact hterm

theorem Logged.rollback (h : Logged t published k db) :
    Logged t published k (TasksService.rollback db).2 :=
  h.quiet ⟨fun _ _ hst _ => hst, fun _ hsome => hsome, h.keyed⟩ rfl (Nat.le_succ _)

/-- A transaction that gives no source event id to an event of the task. -/
theorem Logged.sourceless (h : Logged t published k db) (settings : Settings) (now resultId : String)
    (stored : TaskStreamEvent) (source : Option String) (hsource : stored.taskId = t → source = none) :
    Logged t published k (persistTransaction settings now resultId stored source db).2 := by
  have hpersists := persists settings now resultId stored source h.keyed
  generalize persistTransaction settings now resultId stored source db = result at hpersists ⊢
  cases hpersists with
  | skipped => exact h
  | threw => exact h.rollback
  | persisted hkeep hopen hfresh hrow hevents hnext hended =>
    subst hrow
    exact h.insert hkeep hevents rfl hnext hsource

theorem Logged.transaction (h : Logged t published k db) {settings : Settings} {tx : Transaction}
    (htx : Sourceless t tx) (hdb : tx.apply settings db = some db') : Logged t published k db' := by
  cases tx with
  | single tx =>
    have hunlogged := unlogged_single hdb
    exact h.quiet (apply_keeps h.keyed hdb) hunlogged.events (Nat.le_of_eq hunlogged.nextId.symm)
  | persist event archived source now resultId =>
    obtain ⟨prepared, hprepared, hdb⟩ := Option.bind_eq_some_iff.mp hdb
    cases hdb
    refine h.sourceless settings now resultId prepared.stored source fun ht => htx ?_
    rw [← (prepareTaskEvent_same hprepared).1]
    exact ht
  | failTask taskId code message now resultId =>
    obtain ⟨event, -, hdb⟩ := Option.bind_eq_some_iff.mp hdb
    cases hdb
    exact h.sourceless settings now resultId event none fun _ => rfl
  | cancelTask userId taskId now resultId =>
    obtain ⟨task, -, hdb⟩ := Option.bind_eq_some_iff.mp hdb
    split at hdb
    · cases hdb
      exact h.sourceless settings now resultId _ none fun _ => rfl
    · cases hdb

/-- What is on its way to the relay: `upcoming` it has parsed, and the text after it has still to be
parsed. -/
structure Arriving (settings : StreamSettings) (t : String) (s : RelayRestarts.State) (k : Nat)
    (buffer : List Char) (upcoming : List Parsed) (response : Response)
    (items rest : List BrokerEvent) : Prop where
  reads : s.response = some response
  own : response.taskId = t
  parsed : upcoming = items.map parsedOf
  text : buffer ++ response.text = rest.flatMap (sseText settings)
  published : ∀ item ∈ items ++ rest, item ∈ s.published
  feeds : Ended s.db t ∨ ∃ next, Feeds k next ((items ++ rest).map BrokerEvent.id) ∧
    (response.listener ∈ s.broker.listenersOf t → next = s.broker.nextId t)

def Arrives (settings : StreamSettings) (t : String) (s : RelayRestarts.State) (k : Nat)
    (buffer : List Char) (upcoming : List Parsed) : Prop :=
  ∃ response items rest, Arriving settings t s k buffer upcoming response items rest

/-- Where the relay stands towards the first `k` events. -/
def RelayInv (settings : StreamSettings) (t : String) (s : RelayRestarts.State) (k : Nat)
    (relay : Relay) : Prop :=
  match relay.phase with
  | .cursor => relay.buffer = []
  | .fetching lastEventId => relay.buffer = [] ∧ replayAfter lastEventId ≤ k
  | .reading => Arrives settings t s k relay.buffer []
  | .persisting parsed phase => Arrives settings t s k relay.buffer (parsed :: relay.pending) ∧
      ∀ prepared, phase = .transaction prepared →
        ∃ archived, prepareTaskEvent archived parsed.event = some prepared
  | _ => True

/-- The side of the adapter. -/
structure SourceInv (settings : StreamSettings) (t : String) (s : RelayRestarts.State) : Prop where
  history : Numbered s.broker.maxEventsPerTask (s.broker.nextId t) (s.broker.historyOf t)
  kept : ∀ item ∈ s.broker.historyOf t, item ∈ s.published
  numbered : ∀ item ∈ s.published, 1 ≤ item.id ∧ item.id ≤ s.published.length
  next : s.broker.nextId t ≤ s.published.length + 1
  events : ∀ item ∈ s.published, item.event.taskId = t ∧ Transmissible settings item.event
  listeners : ∀ listener ∈ s.broker.listenersOf t, listener < s.responses

structure Inv (settings : StreamSettings) (t : String) (s : RelayRestarts.State) (k : Nat) : Prop where
  logged : Logged t s.published k s.db
  source : SourceInv settings t s
  relay : ∀ relay, s.relay = some relay →
    relay.taskId = t ∧ (s.db.status t).isSome = true ∧ RelayInv settings t s k relay

theorem inv_init (settings : StreamSettings) (t : String) (maxEventsPerTask : Nat) :
    Inv settings t (.init maxEventsPerTask) 0 where
  logged := logged_empty t []
  source :=
    { history := numbered_nil maxEventsPerTask
      kept := fun item h => by cases h
      numbered := fun item h => by cases h
      next := Nat.le_refl 1
      events := fun item h => by cases h
      listeners := fun listener h => by cases h }
  relay := fun relay h => by cases h

variable {relay : Relay} {buffer : List Char} {upcoming : List Parsed}

/-- Steps of others, of which the relay notices nothing. -/
structure Unnoticed (t : String) (s s' : RelayRestarts.State) : Prop where
  response : ∀ response, s.response = some response → response.taskId = t → s'.response = some response
  published : ∀ item ∈ s.published, item ∈ s'.published
  ended : Ended s.db t → Ended s'.db t
  listeners : ∀ listener ∈ s'.broker.listenersOf t,
    listener ∈ s.broker.listenersOf t ∧ s'.broker.nextId t = s.broker.nextId t

theorem Arrives.unnoticed (h : Arrives settings t s k buffer upcoming) (hs : Unnoticed t s s') :
    Arrives settings t s' k buffer upcoming := by
  obtain ⟨response, items, rest, h⟩ := h
  refine ⟨response, items, rest, hs.response response h.reads h.own, h.own, h.parsed, h.text,
    fun item hitem => hs.published item (h.published item hitem), ?_⟩
  rcases h.feeds with hended | ⟨next, hfeeds, hnext⟩
  · exact .inl (hs.ended hended)
  · refine .inr ⟨next, hfeeds, fun hlistener => ?_⟩
    obtain ⟨hold, heq⟩ := hs.listeners _ hlistener
    exact (hnext hold).trans heq.symm

theorem RelayInv.map {s₁ s₂ : RelayRestarts.State} (h : RelayInv settings t s₁ k relay)
    (hmap : ∀ upcoming, Arrives settings t s₁ k relay.buffer upcoming →
      Arrives settings t s₂ k relay.buffer upcoming) : RelayInv settings t s₂ k relay := by
  unfold RelayInv at h ⊢
  split
  · rename_i hphase
    rw [hphase] at h
    exact h
  · rename_i hphase
    rw [hphase] at h
    exact h
  · rename_i hphase
    rw [hphase] at h
    exact hmap _ h
  · rename_i hphase
    rw [hphase] at h
    exact ⟨hmap _ h.1, h.2⟩
  · trivial

/-- An event of the task is published. -/
theorem Arrives.publish (h : Arrives settings t s k buffer upcoming) (event : TaskStreamEvent) :
    Arrives settings t (s.publish settings t t event) k buffer upcoming := by
  obtain ⟨response, items, rest, h⟩ := h
  let item : BrokerEvent := ⟨s.broker.nextId t, event⟩
  have hpublished : (s.publish settings t t event).published = s.published ++ [item] := by
    simp [State.publish, item]
  have hresponse : (s.publish settings t t event).response =
      some (deliver settings t (s.broker.listenersOf t) item response) := by
    simp [State.publish, h.reads, item]
  have hold : ∀ other ∈ items ++ rest, other ∈ (s.publish settings t t event).published := by
    intro other hother
    rw [hpublished]
    exact List.mem_append_left _ (h.published other hother)
  have hgone : ∀ listener ∈ (s.publish settings t t event).broker.listenersOf t,
      listener ∈ s.broker.listenersOf t := by
    intro listener hlistener
    rw [State.publish, Broker.publish_listenersOf] at hlistener
    split at hlistener
    · cases hlistener
    · exact hlistener
  by_cases hlistener : response.listener ∈ s.broker.listenersOf t
  · have hdeliver : deliver settings t (s.broker.listenersOf t) item response =
        listen settings response item := if_pos ⟨h.own, hlistener⟩
    have htext : (listen settings response item).text = response.text ++ sseText settings item := by
      unfold AdapterStream.listen
      split <;> rfl
    have hsame : (listen settings response item).taskId = response.taskId ∧
        (listen settings response item).listener = response.listener := by
      unfold AdapterStream.listen
      split <;> exact ⟨rfl, rfl⟩
    rw [hdeliver] at hresponse
    refine ⟨_, items, rest ++ [item], hresponse, hsame.1.trans h.own, h.parsed, ?_, ?_, ?_⟩
    · rw [htext, ← List.append_assoc, h.text, List.flatMap_append, List.flatMap_singleton]
    · intro other hother
      rw [← List.append_assoc, List.mem_append] at hother
      rcases hother with hother | hother
      · exact hold other hother
      · rw [hpublished]
        exact List.mem_append_right _ hother
    · rcases h.feeds with hended | ⟨next, hfeeds, hnext⟩
      · exact .inl hended
      · have hpush := hfeeds.push
        rw [hnext hlistener] at hpush
        refine .inr ⟨s.broker.nextId t + 1, ?_, fun _ => ?_⟩
        · rw [← List.append_assoc, List.map_append]
          exact hpush
        · rw [State.publish, Broker.publish_nextId, if_pos rfl]
  · have hdeliver : deliver settings t (s.broker.listenersOf t) item response = response :=
      if_neg fun hcalled => hlistener hcalled.2
    rw [hdeliver] at hresponse
    refine ⟨response, items, rest, hresponse, h.own, h.parsed, h.text, hold, ?_⟩
    rcases h.feeds with hended | ⟨next, hfeeds, hnext⟩
    · exact .inl hended
    · exact .inr ⟨next, hfeeds, fun hmem => absurd (hgone _ hmem) hlistener⟩

theorem SourceInv.publish (h : SourceInv settings t s) {event : TaskStreamEvent}
    (htask : event.taskId = t) (hevent : Transmissible settings event) :
    SourceInv settings t (s.publish settings t t event) := by
  have hpos : 1 ≤ s.broker.nextId t := by
    have hfits := h.history.fits
    omega
  have hnext := h.next
  have hpublished : (s.publish settings t t event).published =
      s.published ++ [⟨s.broker.nextId t, event⟩] := by simp [State.publish]
  have hlength : (s.publish settings t t event).published.length = s.published.length + 1 := by
    rw [hpublished, List.length_append, List.length_singleton]
  constructor
  · rw [State.publish, Broker.publish_max, Broker.publish_nextId, if_pos rfl, Broker.publish_historyOf,
      if_pos rfl]
    exact (h.history.append event).slice
  · intro item hitem
    rw [State.publish, Broker.publish_historyOf, if_pos rfl] at hitem
    rw [hpublished]
    rcases List.mem_append.mp (mem_of_mem_sliceLast hitem) with hitem | hitem
    · exact List.mem_append_left _ (h.kept item hitem)
    · exact List.mem_append_right _ hitem
  · intro item hitem
    rw [hlength]
    rw [hpublished, List.mem_append, List.mem_singleton] at hitem
    rcases hitem with hitem | rfl
    · have hnumbered := h.numbered item hitem
      omega
    · exact ⟨hpos, hnext⟩
  · rw [hlength, State.publish, Broker.publish_nextId, if_pos rfl]
    omega
  · intro item hitem
    rw [hpublished, List.mem_append, List.mem_singleton] at hitem
    rcases hitem with hitem | rfl
    · exact h.events item hitem
    · exact ⟨htask, hevent⟩
  · intro listener hlistener
    rw [State.publish, Broker.publish_listenersOf] at hlistener
    split at hlistener
    · cases hlistener
    · exact h.listeners listener hlistener

/-- A change of the broker that keeps the history of the task, or deletes it with its numbering. -/
theorem SourceInv.congr (h : SourceInv settings t s) {broker : Broker} {response : Option Response}
    {responses : Nat} {relay : Option Relay} {db : Database}
    (hmax : broker.maxEventsPerTask = s.broker.maxEventsPerTask)
    (hhistory : broker.historyOf t = s.broker.historyOf t ∧ broker.nextId t = s.broker.nextId t ∨
      broker.historyOf t = [] ∧ broker.nextId t = 1)
    (hlisteners : ∀ listener ∈ broker.listenersOf t, listener < responses) :
    SourceInv settings t ⟨db, relay, broker, response, responses, s.published⟩ where
  history := by
    show Numbered broker.maxEventsPerTask (broker.nextId t) (broker.historyOf t)
    rcases hhistory with ⟨hitems, hnext⟩ | ⟨hitems, hnext⟩
    · rw [hmax, hitems, hnext]
      exact h.history
    · rw [hitems, hnext]
      exact numbered_nil _
  kept := by
    intro item hitem
    rcases hhistory with ⟨hitems, -⟩ | ⟨hitems, -⟩
    · exact h.kept item (hitems ▸ hitem)
    · rw [show (_ : Broker).historyOf t = [] from hitems] at hitem
      cases hitem
  numbered := h.numbered
  next := by
    show broker.nextId t ≤ s.published.length + 1
    rcases hhistory with ⟨-, hnext⟩ | ⟨-, hnext⟩
    · rw [hnext]
      exact h.next
    · omega
  events := h.events
  listeners := hlisteners

/-- The first event that is not persisted is in the history, or it is still to come. -/
theorem arrives_open (h : SourceInv settings t s) {lastEventId : Option String}
    (hlast : replayAfter lastEventId ≤ k)
    (hroom : s.broker.nextId t ≤ k + 1 + s.broker.maxEventsPerTask) {response : Response} {broker : Broker}
    (hopen : openEvents settings s.broker t lastEventId s.responses = (response, broker))
    (relay : Option Relay) :
    Arrives settings t { s with
      relay, broker, response := some response, responses := s.responses + 1 } k [] [] := by
  let replay := s.broker.replay t (replayAfter lastEventId)
  have hstart := h.history.start_le hroom
  have hfits := h.history.fits
  have hids : Feeds k (s.broker.nextId t) (replay.map BrokerEvent.id) := by
    have hfeeds := feeds_filter (replayAfter lastEventId) (s.broker.nextId t - (s.broker.historyOf t).length)
      (s.broker.historyOf t).length hlast hstart
    rw [← h.history.ids, List.filter_map,
      show s.broker.nextId t - (s.broker.historyOf t).length + (s.broker.historyOf t).length =
        s.broker.nextId t by omega] at hfeeds
    exact hfeeds
  have hkept : ∀ item ∈ replay, item ∈ s.published := fun item hitem =>
    h.kept item (List.mem_of_mem_filter hitem)
  have hfresh : s.responses ∉ s.broker.listenersOf t := fun hmem =>
    Nat.lt_irrefl _ (h.listeners _ hmem)
  unfold openEvents at hopen
  simp only [writeSseEvent_foldl, List.nil_append] at hopen
  split at hopen
  · cases hopen
    exact ⟨_, [], replay, rfl, rfl, rfl, rfl, hkept, .inr ⟨_, hids, fun hmem => absurd hmem hfresh⟩⟩
  · cases hopen
    exact ⟨_, [], replay, rfl, rfl, rfl, rfl, hkept, .inr ⟨_, hids, fun _ => rfl⟩⟩

theorem relayInv_resume (relay : Relay) {parsed : List Parsed}
    (h : Arrives settings t s k relay.buffer parsed) : RelayInv settings t s k (relay.resume parsed) := by
  cases parsed with
  | cons first rest =>
    refine ⟨h, fun prepared hphase => ?_⟩
    cases hphase
  | nil =>
    by_cases haborted : relay.aborted = true
    · simp [RelayInv, Relay.resume, haborted]
    · simpa [RelayInv, Relay.resume, haborted] using h

theorem relayInv_catchError (s : RelayRestarts.State) (relay : Relay) (message : String) :
    RelayInv settings t s k (relay.catchError message) := by
  unfold Relay.catchError
  split
  · trivial
  · split <;> trivial

theorem truthy_toString (n : Nat) : truthy (some (toString n)) = some (toString n) :=
  Option.filter_eq_some_iff.mpr ⟨rfl, decide_eq_true (toString_ne_empty n)⟩

theorem lastSourceEventId_eq (db : Database) (t : String) :
    lastSourceEventId db t = (sourceIds db t).getLast? := by
  rw [lastSourceEventId, ← List.head?_filterMap, List.filterMap_reverse, List.head?_reverse, sourceIds]

/-- The replay starts behind what is persisted at the latest. -/
theorem Logged.cursor_le (h : Logged t published k db) :
    replayAfter (truthy (lastSourceEventId db t)) ≤ k := by
  rw [lastSourceEventId_eq, h.sources]
  cases k with
  | zero => exact Nat.le_refl 0
  | succ k =>
    rw [List.range'_concat, List.map_append, Nat.one_mul, Nat.add_comm 1 k]
    show replayAfter (truthy ((_ ++ [toString (k + 1)]).getLast?)) ≤ k + 1
    rw [List.getLast?_concat, truthy_toString]
    exact replayAfter_toString_le (k + 1)

/-- The first event on the way is behind the relay: it was persisted before, or it is now, or the
task has ended. -/
theorem Arrives.pass {parsed : Parsed} (h : Arrives settings t s k buffer (parsed :: upcoming))
    {relay : Option Relay} {k' : Nat} (hkeep : Ended s.db t → Ended db t)
    (hpass : ∀ item ∈ s.published, parsed = parsedOf item →
      Ended db t ∨ item.id ≤ k ∧ k' = k ∨ item.id = k + 1 ∧ k' = k + 1) :
    Arrives settings t { s with db, relay } k' buffer upcoming := by
  obtain ⟨response, items, rest, h⟩ := h
  have hparsed := h.parsed
  cases items with
  | nil => cases hparsed
  | cons item items =>
    rw [List.map_cons, List.cons.injEq] at hparsed
    refine ⟨response, items, rest, h.reads, h.own, hparsed.2, h.text,
      fun other hother => h.published other (List.mem_cons_of_mem _ hother), ?_⟩
    rcases h.feeds with hended | ⟨next, hfeeds, hnext⟩
    · exact .inl (hkeep hended)
    · rw [List.cons_append, List.map_cons] at hfeeds
      rcases hpass item (h.published item List.mem_cons_self) hparsed.1 with
        hended | ⟨hold, rfl⟩ | ⟨hnew, rfl⟩
      · exact .inl hended
      · exact .inr ⟨next, hfeeds.tail_old hold, hnext⟩
      · rw [hnew] at hfeeds
        exact .inr ⟨next, hfeeds.tail_next, hnext⟩

/-- The relay goes on to the next `await`, possibly with a transaction of its own. -/
theorem Inv.next (h : Inv settings t s k) (hrelay : s.relay = some relay) {next : Relay} {k' : Nat}
    (hlogged : Logged t s.published k' db) (hkeep : Keeps s.db db) (htask : next.taskId = relay.taskId)
    (hnext : RelayInv settings t { s with db, relay := some next } k' next) :
    Inv settings t { s with db, relay := some next } k' where
  logged := hlogged
  source := h.source.congr rfl (.inl ⟨rfl, rfl⟩) h.source.listeners
  relay := by
    intro other hother
    cases hother
    obtain ⟨hown, hsome, -⟩ := h.relay relay hrelay
    exact ⟨htask.trans hown, hkeep.isSome t hsome, hnext⟩

theorem unnoticed_relay (s : RelayRestarts.State) (relay : Option Relay) :
    Unnoticed t s { s with relay } :=
  ⟨fun _ hreads _ => hreads, fun _ hitem => hitem, id, fun _ hlistener => ⟨hlistener, rfl⟩⟩

/-- The relay goes on by itself. -/
theorem Inv.move (h : Inv settings t s k) (hrelay : s.relay = some relay) {next : Relay}
    (htask : next.taskId = relay.taskId) (hnext : RelayInv settings t s k next) :
    Inv settings t { s with relay := some next } k :=
  h.next hrelay h.logged (keeps_refl h.logged.keyed) htask
    (hnext.map fun _ harrives => harrives.unnoticed (unnoticed_relay s _))

theorem relayInv_afterPersist {parsed : Parsed}
    (h : Arrives settings t s k relay.buffer relay.pending) :
    RelayInv settings t s k (relay.afterPersist parsed) := by
  unfold Relay.afterPersist
  split
  · trivial
  · exact relayInv_resume relay h

/-- What the first event on the way is. -/
theorem Arrives.head {parsed : Parsed} (h : Arrives settings t s k buffer (parsed :: upcoming)) :
    ∃ item ∈ s.published, parsed = parsedOf item ∧ (Ended s.db t ∨ item.id ≤ k + 1) := by
  obtain ⟨response, items, rest, h⟩ := h
  have hparsed := h.parsed
  cases items with
  | nil => cases hparsed
  | cons item items =>
    rw [List.map_cons, List.cons.injEq] at hparsed
    refine ⟨item, h.published item List.mem_cons_self, hparsed.1, ?_⟩
    rcases h.feeds with hended | ⟨next, hfeeds, -⟩
    · exact .inl hended
    · exact .inr hfeeds.head_le

theorem parsedOf_injective {item other : BrokerEvent} (h : parsedOf item = parsedOf other) :
    item = other := by
  obtain ⟨i, event⟩ := item
  obtain ⟨j, event'⟩ := other
  simp only [parsedOf, Parsed.mk.injEq, Option.some.injEq] at h
  rw [toString_injective h.2, h.1]

/-- The transaction of an event on the way. -/
theorem Inv.persist (h : Inv settings t s k) (hrelay : s.relay = some relay) {parsed : Parsed}
    {prepared : Prepared} (hphase : relay.phase = .persisting parsed (.transaction prepared))
    {outcome : Outcome} {db : Database}
    (hresult : Persists s.db prepared.stored parsed.sourceEventId (outcome, db)) (message : String) :
    ∃ k', Inv settings t { s with
      db, relay := some (if outcome = .threw then relay.catchError message
        else relay.afterPersist parsed) } k' := by
  obtain ⟨hown, hsome, hinv⟩ := h.relay relay hrelay
  rw [RelayInv, hphase] at hinv
  obtain ⟨harrives, hprepared⟩ := hinv
  obtain ⟨archived, hprepared⟩ := hprepared prepared rfl
  obtain ⟨item, hitem, hparsed, hle⟩ := harrives.head
  obtain ⟨htask, -⟩ := h.source.events item hitem
  obtain ⟨hpos, -⟩ := h.source.numbered item hitem
  obtain ⟨hstored, hterm⟩ := prepareTaskEvent_same hprepared
  have hsame : ∀ other, parsed = parsedOf other → other = item := fun other hother =>
    parsedOf_injective (hother.symm.trans hparsed)
  have hsource : parsed.sourceEventId = some (toString item.id) := by rw [hparsed]; rfl
  have hevent : parsed.event = item.event := by rw [hparsed]; rfl
  rw [hevent, htask] at hstored
  rw [hsource] at hresult
  cases hresult with
  | skipped hskip =>
    refine ⟨k, h.next hrelay h.logged (keeps_refl h.logged.keyed) (afterPersist_taskId relay parsed) ?_⟩
    refine relayInv_afterPersist (harrives.pass id fun other hitem' hother => ?_)
    rw [hsame other hother]
    obtain ⟨status, hstatus⟩ := Option.isSome_iff_exists.mp hsome
    obtain ⟨task, hget, rfl⟩ := Option.map_eq_some_iff.mp hstatus
    rcases hskip task (by rw [hstored]; exact hget) with hended | hdup
    · exact .inl (ended_iff.mpr ⟨task.status, hstatus, hended⟩)
    · rw [truthy_toString, Option.any_some, hstored] at hdup
      exact .inr (.inl ⟨(h.logged.hasSourceEvent_iff.mp hdup).2, rfl⟩)
  | threw =>
    refine ⟨k, h.next hrelay h.logged.rollback ?_ (catchError_taskId relay message)
      (relayInv_catchError _ relay message)⟩
    exact ⟨fun _ _ hst _ => hst, fun _ hsome => hsome, h.logged.keyed⟩
  | persisted hkeep hopen hfresh hrow hevents hnext hended =>
    rw [hstored] at hopen hended
    have hk : item.id = k + 1 := by
      have hnew : ¬ (1 ≤ item.id ∧ item.id ≤ k) := by
        rw [← h.logged.hasSourceEvent_iff, ← hstored]
        rw [Database.violatesSource, Option.any_some] at hfresh
        rw [hfresh]
        exact Bool.false_ne_true
      have hle := hle.resolve_left hopen
      omega
    subst hrow
    have hstores : Stores ⟨s.db.nextEventId, prepared.stored.taskId, some (toString item.id),
        prepared.stored.detail.literal, prepared.stored.toJson⟩ item :=
      ⟨archived, prepared, hevent ▸ hprepared, rfl, rfl⟩
    refine ⟨k + 1, h.next hrelay (h.logged.take hkeep hevents rfl hnext hstored rfl hitem hk hstores hopen
      fun hitemTerm => hended ?_) hkeep (afterPersist_taskId relay parsed) ?_⟩
    · rw [hterm, hevent]
      exact hitemTerm
    · refine relayInv_afterPersist (harrives.pass (fun hended => hended.keep hkeep) fun other hitem' hother => ?_)
      rw [hsame other hother]
      exact .inr (.inr ⟨hk, rfl⟩)

/-- The database answers the relay. -/
theorem inv_answer (h : Inv settings t s k) (hrelay : s.relay = some relay) {message : String}
    {next : AdapterRelay.State}
    (hstep : AdapterRelay.State.answer settings.toSettings ⟨s.db, relay⟩ now resultId message = some next) :
    ∃ k', Inv settings t { s with db := next.db, relay := some next.relay } k' := by
  obtain ⟨hown, hsome, hinv⟩ := h.relay relay hrelay
  have hrefl := keeps_refl h.logged.keyed
  unfold AdapterRelay.State.answer at hstep
  dsimp only at hstep
  split at hstep <;> rename_i hphase <;> try rw [RelayInv, hphase] at hinv
  · cases hstep
    refine ⟨k, h.move hrelay rfl ⟨hinv, ?_⟩⟩
    rw [hown]
    exact h.logged.cursor_le
  · rename_i parsed
    obtain ⟨item, hitem, hparsed, -⟩ := hinv.1.head
    obtain ⟨htask, -⟩ := h.source.events item hitem
    split at hstep <;> rename_i hdup <;> cases hstep
    · refine ⟨k, h.next hrelay h.logged hrefl (afterPersist_taskId relay parsed) ?_⟩
      refine relayInv_afterPersist (hinv.1.pass id fun other hitem' hother => ?_)
      rw [hparsed, parsedOf, truthy_toString, Option.any_some, htask] at hdup
      rw [parsedOf_injective (hother.symm.trans hparsed)]
      exact .inr (.inl ⟨(h.logged.hasSourceEvent_iff.mp hdup).2, rfl⟩)
    · refine ⟨k, h.move hrelay rfl ⟨hinv.1, fun prepared hprepared => ?_⟩⟩
      cases hprepared
  · rename_i parsed prepared
    have hpersists := persists settings.toSettings now resultId prepared.stored parsed.sourceEventId
      h.logged.keyed
    generalize persistTransaction settings.toSettings now resultId prepared.stored
      parsed.sourceEventId s.db = result at hpersists hstep
    obtain ⟨outcome, db⟩ := result
    obtain ⟨k', hnext⟩ := h.persist hrelay hphase hpersists message
    refine ⟨k', ?_⟩
    cases outcome with
    | threw =>
      cases hstep
      exact hnext
    | persisted id =>
      cases hstep
      exact hnext
    | skipped =>
      cases hstep
      exact hnext
  · split at hstep <;> cases hstep
    · exact ⟨k, h.move hrelay rfl trivial⟩
    · exact ⟨k, h.move hrelay rfl trivial⟩
  · rename_i inCatch event
    have hlogged := h.logged.sourceless settings.toSettings now resultId event none fun _ => rfl
    have hkeep := persist_keeps settings.toSettings now resultId event none h.logged.keyed
    split at hstep <;> rename_i hresult <;> rw [hresult] at hlogged hkeep <;> cases hstep
    · refine ⟨k, h.next hrelay hlogged hkeep ?_ ?_⟩
      · split
        · rfl
        · exact catchError_taskId relay message
      · split
        · trivial
        · exact relayInv_catchError _ relay message
    · exact ⟨k, h.next hrelay hlogged hkeep rfl trivial⟩
  · cases hstep

/-- A request that succeeds opens a response behind what is persisted. -/
theorem inv_fetched (h : Inv settings t s k) (hrelay : s.relay = some relay) {status : Nat} {hasBody : Bool}
    (hroom : s.broker.nextId t ≤ k + 1 + s.broker.maxEventsPerTask)
    (hstep : s.stepRelay settings relay (.fetched status hasBody) = some s') : Inv settings t s' k := by
  obtain ⟨hown, hsome, hinv⟩ := h.relay relay hrelay
  obtain ⟨next, hnext, hstep⟩ := Option.bind_eq_some_iff.mp hstep
  simp only [AdapterRelay.step] at hnext
  split at hnext
  · rename_i lastEventId hphase
    rw [RelayInv, hphase] at hinv
    split at hnext
    · cases hnext
    · split at hnext <;> cases hnext
      · simp only [hphase] at hstep
        generalize hopen : openEvents settings s.broker relay.taskId lastEventId s.responses = opened at hstep
        obtain ⟨response, broker⟩ := opened
        cases hstep
        rw [hown] at hopen
        obtain ⟨hmax, hhistory, hlisteners⟩ := openEvents_broker hopen
        have hbound : ∀ listener ∈ broker.listenersOf t, listener < s.responses + 1 := by
          intro listener hlistener
          rcases hlisteners t listener hlistener with rfl | hold
          · exact Nat.lt_succ_self _
          · exact Nat.lt_succ_of_lt (h.source.listeners listener hold)
        have harrives := arrives_open h.source hinv.2 hroom hopen (some { relay with phase := .reading })
        rw [← hinv.1] at harrives
        refine ⟨h.logged, h.source.congr hmax (.inl (hhistory t)) hbound, fun other hother => ?_⟩
        cases hother
        exact ⟨hown, hsome, harrives⟩
      · split at hstep
        · rename_i hreading
          exact absurd hreading (catchError_phase relay _)
        · cases hstep
          exact h.move hrelay (catchError_taskId relay _) (relayInv_catchError s relay _)
  · cases hnext

/-- The relay reads on in its response. -/
theorem inv_chunk (h : Inv settings t s k) (hrelay : s.relay = some relay) {text : List Char}
    (hstep : s.stepRelay settings relay (.chunk text) = some s') : Inv settings t s' k := by
  obtain ⟨hown, hsome, hinv⟩ := h.relay relay hrelay
  obtain ⟨response, hresponse, hstep⟩ := Option.bind_eq_some_iff.mp hstep
  split at hstep
  · rename_i hprefix
    obtain ⟨unread, hunread⟩ := hprefix
    obtain ⟨next, hnext, hstep⟩ := Option.bind_eq_some_iff.mp hstep
    cases hstep
    simp only [AdapterRelay.step] at hnext
    split at hnext
    · rename_i hphase
      rw [RelayInv, hphase] at hinv
      split at hnext
      · cases hnext
      · cases hnext
        obtain ⟨response', items, rest, harriving⟩ := hinv
        have heq : response' = response := Option.some.inj (harriving.reads.symm.trans hresponse)
        subst heq
        have hitems : items = [] := List.map_eq_nil_iff.mp harriving.parsed.symm
        subst hitems
        have hevents : ∀ item ∈ rest, Transmissible settings item.event := fun item hitem =>
          (h.source.events item (harriving.published item hitem)).2
        have htext := harriving.text
        rw [← hunread] at htext
        obtain ⟨done, rest', left, hrest, hleft, hreceive⟩ := receive_written hevents htext
        refine ⟨h.logged, h.source.congr rfl (.inl ⟨rfl, rfl⟩) h.source.listeners, fun other hother => ?_⟩
        cases hother
        rw [hreceive]
        refine ⟨(resume_taskId _ _).trans hown, hsome, relayInv_resume _ ?_⟩
        refine ⟨_, done, rest', rfl, harriving.own, rfl, ?_, ?_, ?_⟩
        · show left ++ response'.text.drop text.length = _
          rw [← hunread, List.drop_left]
          exact hleft
        · rw [← hrest]
          exact harriving.published
        · rw [← hrest]
          exact harriving.feeds
    · cases hnext
  · cases hstep

/-- A step of the relay, when its requests find their events in the history. -/
theorem inv_stepRelay (h : Inv settings t s k) (hrelay : s.relay = some relay) {l : AdapterRelay.Label}
    (hconnects : ConnectsInTime t s (.relay l)) (hstep : s.stepRelay settings relay l = some s') :
    ∃ k', Inv settings t s' k' := by
  obtain ⟨hown, hsome, hinv⟩ := h.relay relay hrelay
  cases l with
  | other tx => cases hstep
  | fetched status hasBody =>
    have hlength : (sourceIds s.db t).length = k := by
      rw [h.logged.sources, List.length_map, List.length_range']
    rw [ConnectsInTime, hlength] at hconnects
    exact ⟨k, inv_fetched h hrelay hconnects hstep⟩
  | chunk text => exact ⟨k, inv_chunk h hrelay hstep⟩
  | database now resultId message =>
    obtain ⟨next, hnext, hstep⟩ := Option.bind_eq_some_iff.mp hstep
    cases hstep
    exact inv_answer h hrelay hnext
  | prepared archived message =>
    obtain ⟨next, hnext, hstep⟩ := Option.bind_eq_some_iff.mp hstep
    cases hstep
    simp only [AdapterRelay.step] at hnext
    split at hnext
    · rename_i parsed hphase
      rw [RelayInv, hphase] at hinv
      split at hnext <;> rename_i hprepared <;> cases hnext
      · refine ⟨k, h.move hrelay rfl ⟨hinv.1, fun other hother => ?_⟩⟩
        cases hother
        exact ⟨archived, hprepared⟩
      · exact ⟨k, h.move hrelay (catchError_taskId relay message) (relayInv_catchError s relay message)⟩
    · cases hnext
  | fetchFailed message =>
    obtain ⟨next, hnext, hstep⟩ := Option.bind_eq_some_iff.mp hstep
    cases hstep
    simp only [AdapterRelay.step] at hnext
    split at hnext <;> cases hnext
    exact ⟨k, h.move hrelay (catchError_taskId relay message) (relayInv_catchError s relay message)⟩
  | ended =>
    obtain ⟨next, hnext, hstep⟩ := Option.bind_eq_some_iff.mp hstep
    cases hstep
    simp only [AdapterRelay.step] at hnext
    split at hnext
    · split at hnext <;> cases hnext
      exact ⟨k, h.move hrelay rfl trivial⟩
    · cases hnext
  | readFailed message =>
    obtain ⟨next, hnext, hstep⟩ := Option.bind_eq_some_iff.mp hstep
    cases hstep
    simp only [AdapterRelay.step] at hnext
    split at hnext <;> cases hnext
    exact ⟨k, h.move hrelay (catchError_taskId relay message) (relayInv_catchError s relay message)⟩
  | cancellationAnswered =>
    obtain ⟨next, hnext, hstep⟩ := Option.bind_eq_some_iff.mp hstep
    cases hstep
    simp only [AdapterRelay.step] at hnext
    split at hnext <;> cases hnext
    exact ⟨k, h.move hrelay rfl trivial⟩
  | timer =>
    obtain ⟨next, hnext, hstep⟩ := Option.bind_eq_some_iff.mp hstep
    cases hstep
    simp only [AdapterRelay.step] at hnext
    split at hnext <;> cases hnext
    exact ⟨k, h.move hrelay rfl hinv⟩
  | stop =>
    obtain ⟨next, hnext, hstep⟩ := Option.bind_eq_some_iff.mp hstep
    cases hstep
    simp only [AdapterRelay.step] at hnext
    split at hnext <;> cases hnext
    exact ⟨k, h.move hrelay rfl hinv⟩

theorem SourceInv.publish_other (h : SourceInv settings t s) {taskId : String} (hne : taskId ≠ t)
    (event : TaskStreamEvent) : SourceInv settings t (s.publish settings t taskId event) := by
  have hstate : s.publish settings t taskId event = ⟨s.db, s.relay, (s.broker.publish taskId event).2,
      s.response.map (deliver settings taskId (s.broker.listenersOf taskId)
        ⟨s.broker.nextId taskId, event⟩), s.responses, s.published⟩ := by
    simp [State.publish, hne]
  rw [hstate]
  refine h.congr (Broker.publish_max _ _ _) (.inl ?_) fun listener hlistener => ?_
  · rw [Broker.publish_historyOf, Broker.publish_nextId, if_neg hne.symm, if_neg hne.symm]
    exact ⟨rfl, rfl⟩
  · rw [Broker.publish_listenersOf, if_neg fun heq => hne heq.1.symm] at hlistener
    exact h.listeners listener hlistener

/-- The events of other tasks do not concern the task. -/
theorem unnoticed_publish {taskId : String} (hne : taskId ≠ t) (event : TaskStreamEvent) :
    Unnoticed t s (s.publish settings t taskId event) where
  response := by
    intro response hreads hown
    have hdeliver : deliver settings taskId (s.broker.listenersOf taskId) ⟨s.broker.nextId taskId, event⟩
        response = response := if_neg fun hcalled => hne (hcalled.1.symm.trans hown)
    simp [State.publish, hreads, hdeliver]
  published := by
    intro item hitem
    simpa [State.publish, hne] using hitem
  ended := id
  listeners := by
    intro listener hlistener
    rw [State.publish, Broker.publish_listenersOf, if_neg fun heq => hne heq.1.symm] at hlistener
    rw [State.publish, Broker.publish_nextId, if_neg hne.symm]
    exact ⟨hlistener, rfl⟩

/-- A step of anybody but the relay, after which the relay stands where it stood. -/
theorem Inv.unnoticed (h : Inv settings t s k) (hlogged : Logged t s'.published k s'.db)
    (hsource : SourceInv settings t s') (hrelay : s'.relay = s.relay) (hkeep : Keeps s.db s'.db)
    (hs : Unnoticed t s s') : Inv settings t s' k where
  logged := hlogged
  source := hsource
  relay := by
    intro relay hrelay'
    obtain ⟨hown, hsome, hinv⟩ := h.relay relay (hrelay ▸ hrelay')
    exact ⟨hown, hkeep.isSome t hsome, hinv.map fun _ harrives => harrives.unnoticed hs⟩

theorem inv_step (h : Inv settings t s k) {l : RelayRestarts.Label}
    (hadmissible : Admissible settings t l) (hconnects : ConnectsInTime t s l)
    (hstep : RelayRestarts.step settings t s l = some s') : ∃ k', Inv settings t s' k' := by
  have hrefl := keeps_refl h.logged.keyed
  cases l with
  | publish taskId event =>
    cases hstep
    by_cases htask : taskId = t
    · subst htask
      obtain ⟨hown, hevent⟩ := hadmissible rfl
      have hsub : ∀ item ∈ s.published, item ∈ (s.publish settings taskId taskId event).published := by
        intro item hitem
        simp [State.publish, hitem]
      refine ⟨k, h.logged.publish hsub, h.source.publish hown hevent, fun relay hrelay => ?_⟩
      obtain ⟨hown, hsome, hinv⟩ := h.relay relay hrelay
      exact ⟨hown, hsome, hinv.map fun _ harrives => harrives.publish event⟩
    · have hpublished : (s.publish settings t taskId event).published = s.published := if_neg htask
      refine ⟨k, h.unnoticed ?_ (h.source.publish_other htask event) rfl hrefl
        (unnoticed_publish htask event)⟩
      rw [hpublished]
      exact h.logged
  | cleanup taskId =>
    simp only [RelayRestarts.step] at hstep
    split at hstep <;> cases hstep
    have hgone : ∀ listener ∈ (s.broker.cleanup taskId).listenersOf t,
        taskId ≠ t ∧ listener ∈ s.broker.listenersOf t := by
      intro listener hlistener
      rw [Broker.cleanup_listenersOf] at hlistener
      split at hlistener
      · cases hlistener
      · rename_i hne
        exact ⟨Ne.symm hne, hlistener⟩
    refine ⟨k, h.unnoticed h.logged ?_ rfl hrefl ⟨fun _ hreads _ => hreads, fun _ hitem => hitem, id, ?_⟩⟩
    · refine h.source.congr rfl ?_ fun listener hlistener => h.source.listeners listener (hgone _ hlistener).2
      rw [Broker.cleanup_historyOf, Broker.cleanup_nextId]
      by_cases htask : t = taskId
      · rw [if_pos htask, if_pos htask]
        exact .inr ⟨rfl, rfl⟩
      · rw [if_neg htask, if_neg htask]
        exact .inl ⟨rfl, rfl⟩
    · intro listener hlistener
      obtain ⟨hne, hold⟩ := hgone listener hlistener
      exact ⟨hold, by rw [Broker.cleanup_nextId, if_neg hne.symm]⟩
  | start =>
    simp only [RelayRestarts.step] at hstep
    split at hstep
    · rename_i hguard
      cases hstep
      refine ⟨k, h.logged, h.source.congr rfl (.inl ⟨rfl, rfl⟩) h.source.listeners, fun relay hrelay => ?_⟩
      cases hrelay
      exact ⟨rfl, hguard.2, rfl⟩
    · cases hstep
  | crash =>
    cases hstep
    refine ⟨k, h.logged, h.source.congr rfl (.inl ⟨rfl, rfl⟩) h.source.listeners, fun relay hrelay => ?_⟩
    cases hrelay
  | relay l =>
    obtain ⟨relay, hrelay, hstep⟩ := Option.bind_eq_some_iff.mp hstep
    exact inv_stepRelay h hrelay hconnects hstep
  | closed taskId listener =>
    cases hstep
    have hsub : ∀ other ∈ (s.broker.unsubscribe taskId listener).listenersOf t,
        other ∈ s.broker.listenersOf t := fun other hother => Broker.mem_unsubscribe hother
    refine ⟨k, h.unnoticed h.logged ?_ rfl hrefl ⟨fun _ hreads _ => hreads, fun _ hitem => hitem, id, ?_⟩⟩
    · exact h.source.congr (Broker.unsubscribe_max listener)
        (.inl ⟨Broker.unsubscribe_historyOf listener, Broker.unsubscribe_nextId listener⟩)
        fun other hother => h.source.listeners other (hsub other hother)
    · intro other hother
      exact ⟨hsub other hother, Broker.unsubscribe_nextId listener⟩
  | transaction tx =>
    obtain ⟨db, hdb, hstep⟩ := Option.bind_eq_some_iff.mp hstep
    cases hstep
    have hkeep := apply_keeps h.logged.keyed hdb
    refine ⟨k, h.unnoticed (h.logged.transaction hadmissible hdb) ?_ rfl hkeep
      ⟨fun _ hreads _ => hreads, fun _ hitem => hitem, fun hended => hended.keep hkeep, ?_⟩⟩
    · exact h.source.congr rfl (.inl ⟨rfl, rfl⟩) h.source.listeners
    · exact fun listener hlistener => ⟨hlistener, rfl⟩

/-- The source event ids of the task are `1` to `k`, in the order of its events; each event stores the
published event of its number, and only the last of them may be terminal. -/
def Sequenced (t : String) (s : RelayRestarts.State) (k : Nat) : Prop :=
  k ≤ s.published.length ∧
    (s.db.eventsOf t).Pairwise (fun a b => a.id < b.id) ∧
    sourceIds s.db t = (List.range' 1 k).map toString ∧
    ∀ row ∈ s.db.eventsOf t, ∀ source ∈ row.sourceEventId, ∃ item ∈ s.published,
      source = toString item.id ∧ Stores row item ∧ (item.event.isTerminal = true → item.id = k)

theorem Inv.sequenced (h : Inv settings t s k) : Sequenced t s k := by
  refine ⟨?_, h.logged.ordered.sublist List.filter_sublist, h.logged.sources, fun row hrow source hsource => ?_⟩
  · by_cases hk : k = 0
    · omega
    · have hlast : toString k ∈ sourceIds s.db t := by
        rw [h.logged.sources]
        exact List.mem_map_of_mem (List.mem_range'_1.mpr (by omega))
      obtain ⟨row, hrow, hsource⟩ := List.mem_filterMap.mp hlast
      obtain ⟨item, hitem, hid, -⟩ := h.logged.rows row hrow (toString k) hsource
      rw [toString_injective hid]
      exact (h.source.numbered item hitem).2
  · obtain ⟨item, hitem, hid, hstores, hlast⟩ := h.logged.rows row hrow source hsource
    exact ⟨item, hitem, hid, hstores, fun hterm => (hlast hterm).1⟩

/-- Whatever crashes and restarts happen, the events of the adapter are persisted once, in their order,
without a gap, up to the first terminal one. -/
theorem persisted_in_sequence {ls : List RelayRestarts.Label} (t : String) (maxEventsPerTask : Nat)
    (hrun : run (RelayRestarts.step settings t) (.init maxEventsPerTask) ls = some s)
    (hadmissible : ∀ l ∈ ls, Admissible settings t l)
    (hconnects : Along (RelayRestarts.step settings t) (ConnectsInTime t) (.init maxEventsPerTask) ls) :
    ∃ k, Sequenced t s k := by
  have hassumed : Along (RelayRestarts.step settings t)
      (fun s l => Admissible settings t l ∧ ConnectsInTime t s l) (.init maxEventsPerTask) ls :=
    hconnects.mono_mem fun s l hl hconnects => ⟨hadmissible l hl, hconnects⟩
  have hstep : ∀ s l s', (∃ k, Inv settings t s k) → Admissible settings t l ∧ ConnectsInTime t s l →
      RelayRestarts.step settings t s l = some s' → ∃ k, Inv settings t s' k :=
    fun s l s' ⟨k, h⟩ hok hstep => inv_step h hok.1 hok.2 hstep
  obtain ⟨k, h⟩ := invariant_along hstep ⟨0, inv_init settings t maxEventsPerTask⟩ hassumed hrun
  exact ⟨k, h.sequenced⟩

/-- The JSON texts of the events of one task. -/
def acceptedText : String :=
  "\x7b\"type\":\"task.accepted\",\"taskId\":\"t\",\"sessionId\":\"s\",\"runId\":\"r\",\"timestamp\":\"T\"\x7d"

def completedText : String :=
  "\x7b\"type\":\"task.completed\",\"taskId\":\"t\",\"sessionId\":\"s\",\"runId\":\"r\",\"timestamp\":\"T\"\x7d"

def acceptedEvent : TaskStreamEvent := ⟨.accepted, "t", "s", "r", "T"⟩

def completedEvent : TaskStreamEvent := ⟨.completed, "t", "s", "r", "T"⟩

/-- The JSON functions, on these two events. -/
def twoEvents : StreamSettings where
  concurrentLimit := 1
  isUrl := fun _ => true
  jsonParse text :=
    if text = acceptedText then some acceptedEvent.toJson
    else if text = completedText then some completedEvent.toJson
    else none
  jsonStringify json :=
    match parseTaskStreamEvent (fun _ => true) json with
    | some ⟨.accepted, _, _, _, _⟩ => acceptedText
    | some ⟨.completed, _, _, _, _⟩ => completedText
    | _ => "null"

/-- One event through the relay, up to its transaction. -/
def readEvent (settings : StreamSettings) (id : Nat) (event : TaskStreamEvent) :
    List RelayRestarts.Label :=
  [.start, .relay (.database "T" "r0" ""), .relay (.fetched 200 true),
    .relay (.chunk (sseText settings ⟨id, event⟩)), .relay (.database "T" "r0" ""),
    .relay (.prepared none "")]

/-- The relay crashes before the transaction of the first event, and again after it; the second event
is published meanwhile. -/
def crashes : List RelayRestarts.Label :=
  [.transaction (.single (.enqueue ⟨"t", "u", none, "hello", .inr ("s", "hello")⟩)),
    .transaction (.single (.dispatch "t" "r" "url" "T")), .publish "t" acceptedEvent] ++
  readEvent twoEvents 1 acceptedEvent ++ [.crash] ++
  readEvent twoEvents 1 acceptedEvent ++ [.relay (.database "T" "r0" ""), .crash] ++
  [.publish "t" completedEvent] ++
  readEvent twoEvents 2 completedEvent ++ [.relay (.database "T" "r0" "")]

theorem admissible_readEvent (settings : StreamSettings) (t : String) (id : Nat) (event : TaskStreamEvent) :
    ∀ l ∈ readEvent settings id event, Admissible settings t l := by
  intro l hl
  simp only [readEvent, List.mem_cons, List.not_mem_nil, or_false] at hl
  rcases hl with rfl | rfl | rfl | rfl | rfl | rfl <;> trivial

theorem transmissible_accepted : Transmissible twoEvents acceptedEvent where
  valid := rfl
  line := oneLine_of_all (by decide +kernel)

theorem transmissible_completed : Transmissible twoEvents completedEvent where
  valid := rfl
  line := oneLine_of_all (by decide +kernel)

theorem crashes_in_sequence : ∃ s k, run (RelayRestarts.step twoEvents "t") (.init 1) crashes = some s ∧
    sourceIds s.db "t" = ["1", "2"] ∧ Sequenced "t" s k := by
  have hrun : (run (RelayRestarts.step twoEvents "t") (.init 1) crashes).any
      (fun s => sourceIds s.db "t" = ["1", "2"]) = true := by decide +kernel
  obtain ⟨s, hrun, hs⟩ := (Option.any_eq_true _ _).mp hrun
  have hadmissible : ∀ l ∈ crashes, Admissible twoEvents "t" l := by
    simp only [crashes, List.forall_mem_append, List.forall_mem_cons, List.not_mem_nil,
      IsEmpty.forall_iff, implies_true, and_true]
    have hfirst := admissible_readEvent twoEvents "t" 1 acceptedEvent
    have hlast := admissible_readEvent twoEvents "t" 2 completedEvent
    exact ⟨⟨⟨⟨⟨⟨⟨⟨trivial, trivial, fun _ => ⟨rfl, transmissible_accepted⟩⟩, hfirst⟩, trivial⟩, hfirst⟩,
      trivial, trivial⟩, fun _ => ⟨rfl, transmissible_completed⟩⟩, hlast⟩, trivial⟩
  obtain ⟨k, hk⟩ := persisted_in_sequence "t" 1 hrun hadmissible (by decide +kernel)
  exact ⟨s, k, hrun, of_decide_eq_true hs, hk⟩

end ExactlyOnce
