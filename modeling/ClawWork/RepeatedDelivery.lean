import ClawWork.CancelDispatch
import ClawWork.QuietTransactions
import ClawWork.SettledCalls
import ClawWork.TaskEventBroker

/-!
# Repeated delivery of a queued task

One task with its attempts, the adapter with its client and its event history, and the
relay. The adapter calls `execute` for every request that it gets, whatever it has executed
before, and every call publishes into the one history of the task. An attempt goes on with
the response to its own call only. What the gateway sends is not constrained; each callback
of the client carries the gateway run that it is about.
-/

namespace RepeatedDelivery

open JavaScript SharedTypes GatewayProtocol TaskStore TasksService StatusFrames DispatchTask TaskEventBroker
open Transition Acknowledgements QuietTransactions
open PersistentGatewayClient (Client Entry)
open ExactlyOnce (Stores)

/-- An event that the adapter has published for the task. -/
structure Publication where
  /-- The call of `execute` whose handler published it. -/
  call : Nat
  item : BrokerEvent
  /-- The gateway run that it comes from. -/
  run : String

def Publication.isAcceptance (p : Publication) : Bool := p.item.event.detail.isAccepted

def Publication.isText (p : Publication) : Bool := isDelta p.item.event.detail

/-- The publication accepts an execution or gives its text. -/
def Publication.speaks (p : Publication) : Bool := p.isAcceptance || p.isText

structure System where
  api : CancelDispatch.System
  client : Client
  broker : Broker
  /-- The attempt that has requested a call of `execute`. -/
  owners : OrderedMap Nat Nat
  published : List Publication
  /-- A relay was started. -/
  relaying : Bool
  /-- The status that the task had, each time that `dispatchTask` has requested its cancellation. -/
  requested : List (Option TaskStatus)

def System.init (maxEventsPerTask : Nat) : System where
  api := .init
  client := .init
  broker := .new maxEventsPerTask
  owners := .empty
  published := []
  relaying := false
  requested := []

inductive Label where
  | api (l : CancelDispatch.Label)
  /-- The adapter gets the execution request of an attempt. -/
  | accept (attempt : Nat) (message : String)
  /-- The attempt of a call gets the response. -/
  | respond (call : Nat)
  /-- The relay persists a published event. -/
  | relay (index : Nat) (archived : Option Archived) (now resultId : String)
  /-- One callback of the client, and the gateway run that it is about. -/
  | adapter (l : PersistentGatewayClient.Label) (run : String)
  /-- The timer of the event history. -/
  | cleanup

/-- The events of the entries that are for the handlers of the task, with their calls. -/
def eventsFor (t : String) (log : List Entry) : List (Nat × TaskStreamEvent) :=
  log.filterMap fun e => if e.taskId = t then (eventOf e.effect).map fun event => (e.call, event) else none

/-- The handlers publish one event after the other. -/
def publishAll (t run : String) (broker : Broker) : List (Nat × TaskStreamEvent) → Broker × List Publication
  | [] => (broker, [])
  | (call, event) :: events =>
    let (item, broker) := broker.publish t event
    let (broker, published) := publishAll t run broker events
    (broker, ⟨call, item, run⟩ :: published)

/-- What the adapter answers to the request of a call of `execute` that has returned. -/
def response (c : Client) (x : Nat) : Option ExecutionMetadata := do
  let call ← c.calls x
  let streamUrl := "/gateway/tasks/" ++ call.input.taskId ++ "/events"
  if call.phase = .returned then
    match call.oneShotPromise, (c.registry.tasks x).promise with
    | .fulfilled accepted, _ => some ⟨accepted.runId, streamUrl⟩
    | _, .fulfilled accepted => some ⟨accepted.runId, streamUrl⟩
    | _, _ => none
  else none

/-- The labels of the API that belong to the adapter, the attempts or the relay of the task. -/
def reserved (t : String) : CancelDispatch.Label → Bool
  | .accept _ | .attempt _ (.responded _) => true
  | .transaction (.single (.dispatch taskId _ _ _)) => taskId = t
  | .transaction (.persist event _ _ _ _) => event.taskId = t
  | _ => false

/-- What the label has an attempt send. -/
def attemptOutputs (settings : DispatchSettings) (s : CancelDispatch.System) : CancelDispatch.Label → List Output
  | .attempt a answer =>
    match (s.attempts.get a).bind fun attempt => attempt.next settings s.db answer with
    | some (_, _, outputs) => outputs
    | none => []
  | _ => []

def Output.startsRelay : Output → Bool
  | .startRelay _ => true
  | _ => false

/-- The label calls `execute` for the task. -/
def executes (t : String) : PersistentGatewayClient.Label → Bool
  | .execute input => input.taskId = t
  | _ => false

/-- The transitions, for the task `t`. -/
def step (settings : DispatchSettings) (opts : Options) (t : String) (s : System) : Label → Option System
  | .api l =>
    if reserved t l then none
    else do
      let api ← CancelDispatch.step settings t s.api l
      let outputs := attemptOutputs settings s.api l
      some { s with
        api
        relaying := s.relaying || outputs.any Output.startsRelay
        requested := s.requested ++ if .cancel ∈ outputs then [s.api.db.status t] else [] }
  | .accept a message => do
    let attempt ← s.api.attempts.get a
    let api ← CancelDispatch.step settings t s.api (.accept a)
    some { s with
      api
      client := s.client.execute ⟨t, attempt.sessionId, message⟩
      owners := s.owners.set s.client.nextCall a }
  | .respond x => do
    let a ← s.owners.get x
    let metadata ← response s.client x
    let api ← CancelDispatch.step settings t s.api (.attempt a (.responded metadata))
    some { s with api }
  | .relay i archived now resultId =>
    -- after a restart the relays of the running tasks are started again
    if s.relaying || s.api.db.status t = some .running then do
      let p ← s.published[i]?
      let tx := Transaction.persist p.item.event archived (some (toString p.item.id)) now resultId
      let db ← tx.apply settings.toSettings s.api.db
      some { s with api := { s.api with db } }
    else none
  | .adapter l run =>
    if executes t l then none
    else do
      let client ← Client.step opts s.client l
      let events := eventsFor t (client.registry.log.drop s.client.registry.log.length)
      let (broker, published) := publishAll t run s.broker events
      some { s with client, broker, published := s.published ++ published }
  | .cleanup => some { s with broker := s.broker.cleanup t }

/-- The attempt has the response to its request and is not at its end yet. -/
def informed : AttemptPhase → Bool
  | .updating _ | .updatingSession _ | .cancelling => true
  | _ => false

def isAcceptedRow (row : TaskEvent) : Bool := row.type = "task.accepted"

/-- The published events and the log tell of one execution, and `dispatchTask` has cancelled none that goes on. -/
structure OneExecution (t : String) (s : System) : Prop where
  accepted_le : s.published.countP Publication.isAcceptance ≤ 1
  accepted : ∀ a attempt, s.api.attempts.get a = some attempt → informed attempt.phase = true →
    s.published.countP Publication.isAcceptance = 1
  run : ∀ p ∈ s.published, ∀ q ∈ s.published, p.speaks = true → q.speaks = true → p.run = q.run
  logged : (s.api.db.eventsOf t).countP isAcceptedRow ≤ 1
  texts : ∀ row ∈ s.api.db.eventsOf t, row.type = "task.delta" →
    ∃ p ∈ s.published, p.isText = true ∧ Stores row p.item
  cancelled : ∀ status ∈ s.requested, status = some .cancelled ∨ status = some .failed

/-- An execution of the task is acknowledged when none was before, and what is acknowledged and the new text
of the frames for the task are of one gateway run. -/
def InOrder (opts : Options) (t : String) (s : System) : Label → Prop
  | .adapter l run =>
    (acknowledgedTask s.client l = some t → ∀ p ∈ s.published, p.isAcceptance = false) ∧
      (acknowledgedTask s.client l = some t ∨ deltaTask opts s.client l = some t →
        ∀ p ∈ s.published, p.speaks = true → p.run = run)
  | _ => True

variable {settings : DispatchSettings} {opts : Options} {t : String} {s s' : System}

/-! ## What is published -/

theorem publishAll_events (t run : String) (broker : Broker) (events : List (Nat × TaskStreamEvent)) :
    (publishAll t run broker events).2.map (fun p => (p.call, p.item.event)) = events := by
  induction events generalizing broker with
  | nil => rfl
  | cons event events ih =>
    obtain ⟨call, event⟩ := event
    simp only [publishAll, List.map_cons, ih, Broker.publish_fst]

theorem publishAll_run (t run : String) (broker : Broker) (events : List (Nat × TaskStreamEvent)) :
    ∀ p ∈ (publishAll t run broker events).2, p.run = run := by
  induction events generalizing broker with
  | nil => exact fun p hp => by cases hp
  | cons event events ih =>
    intro p hp
    rcases List.mem_cons.mp hp with rfl | hp
    · rfl
    · exact ih _ p hp

theorem eventsFor_append (t : String) (log es : List Entry) :
    eventsFor t (log ++ es) = eventsFor t log ++ eventsFor t es := List.filterMap_append

theorem mem_eventsFor {log : List Entry} {x : Nat} {event : TaskStreamEvent} :
    (x, event) ∈ eventsFor t log ↔ ∃ e ∈ log, e.taskId = t ∧ e.call = x ∧ eventOf e.effect = some event := by
  simp only [eventsFor, List.mem_filterMap, Option.ite_none_right_eq_some, Option.map_eq_some_iff, Prod.mk.injEq]
  constructor
  · rintro ⟨e, he, htask, _, hevent, hcall, rfl⟩
    exact ⟨e, he, htask, hcall, hevent⟩
  · rintro ⟨e, he, htask, hcall, hevent⟩
    exact ⟨e, he, htask, event, hevent, hcall, rfl⟩

/-- The handlers are told of no more acceptances than the entries hold. -/
theorem countP_eventsFor (t : String) (es : List Entry) :
    (eventsFor t es).countP (fun e => e.2.detail.isAccepted) ≤ es.countP fun e => accepts e.effect := by
  induction es with
  | nil => exact Nat.le_refl 0
  | cons e es ih =>
    have hone : (eventsFor t [e]).countP (fun e => e.2.detail.isAccepted) ≤ if accepts e.effect then 1 else 0 := by
      unfold eventsFor
      by_cases htask : e.taskId = t
      · cases hevent : eventOf e.effect with
        | none => simp [htask, hevent]
        | some event => simp [htask, hevent, accepts, List.countP_cons]
      · simp [htask]
    have happend := eventsFor_append t [e] es
    rw [List.singleton_append] at happend
    rw [happend, List.countP_append, List.countP_cons]
    omega

/-- A transaction of the API that is not reserved. -/
theorem aside_transaction {settings : Settings} {tx : Transaction} {db db' : Database} (hk : Keyed db)
    (hfree : reserved t (.transaction tx) = false) (h : tx.apply settings db = some db') : Aside t db db' := by
  cases tx with
  | single tx =>
    refine aside_single hk h fun runId streamUrl now heq => ?_
    subst heq
    simp [reserved] at hfree
  | persist event archived source now resultId =>
    obtain ⟨prepared, hprepared, h⟩ := Option.bind_eq_some_iff.mp h
    cases h
    refine aside_persist settings now resultId source hk fun heq => ?_
    rw [(prepareTaskEvent_taskId hprepared).1] at heq
    simp [reserved, heq] at hfree
  | failTask taskId code message now resultId =>
    obtain ⟨event, hevent, h⟩ := Option.bind_eq_some_iff.mp h
    cases h
    refine aside_persist settings now resultId none hk fun _ => .inl ⟨code, message, ?_⟩
    obtain ⟨task, -, -, rfl⟩ := failTaskEvent_eq_some_iff.mp hevent
    rfl
  | cancelTask userId taskId now resultId =>
    obtain ⟨task, -, h⟩ := Option.bind_eq_some_iff.mp h
    split at h
    · cases h
      exact aside_persist settings now resultId none hk fun _ => .inr ⟨_, rfl⟩
    · cases h

/-! ## The invariant -/

/-- The handler of a call that the attempt has requested has published an acceptance. -/
def Answered (owners : OrderedMap Nat Nat) (published : List Publication) (a : Nat) : Prop :=
  ∃ p ∈ published, p.isAcceptance = true ∧ owners.get p.call = some a

/-- The attempt has found the task and not made its update. -/
def begun : AttemptPhase → Bool
  | .counting | .inspecting | .executing | .updating _ => true
  | _ => false

/-- The attempt has made its update or has come to its end before. -/
def past : AttemptPhase → Bool
  | .updatingSession _ | .cancelling | .returned | .threw _ _ => true
  | _ => false

/-- The handlers have published what they were told, and an acceptance at most once. -/
structure Heard (t : String) (client : Client) (owners : OrderedMap Nat Nat) (published : List Publication) :
    Prop where
  kept : Cancellation.Inv (fun _ => False) client
  settled : Settled client
  events : published.map (fun p => (p.call, p.item.event)) = eventsFor t client.registry.log
  owned : ∀ x a, owners.get x = some a → ∃ call, client.calls x = some call ∧ call.input.taskId = t
  accepted_le : published.countP Publication.isAcceptance ≤ 1
  run : ∀ p ∈ published, ∀ q ∈ published, p.speaks = true → q.speaks = true → p.run = q.run

structure Inv (t : String) (s : System) : Prop where
  heard : Heard t s.client s.owners s.published
  keyed : Keyed s.api.db
  attempts : ∀ a attempt, s.api.attempts.get a = some attempt → attempt.taskId = t ∧
    (informed attempt.phase = true → Answered s.owners s.published a) ∧
    (begun attempt.phase = true → (s.api.db.status t).isSome = true)
  /-- It is the attempt with the answer that has started the task. -/
  started : s.relaying = true ∨ Started (s.api.db.status t) →
    ∃ a attempt, s.api.attempts.get a = some attempt ∧ Answered s.owners s.published a ∧ past attempt.phase = true
  requested : ∀ status ∈ s.requested, status = some .cancelled ∨ status = some .failed
  logged : (s.api.db.eventsOf t).countP isAcceptedRow ≤ 1
  /-- A logged acceptance was published. -/
  sources : ∀ row ∈ s.api.db.eventsOf t, isAcceptedRow row = true →
    ∃ p ∈ s.published, p.isAcceptance = true ∧ row.sourceEventId = some (toString p.item.id)
  texts : ∀ row ∈ s.api.db.eventsOf t, row.type = "task.delta" →
    ∃ p ∈ s.published, p.isText = true ∧ Stores row p.item

section Invariant

variable {client : Client} {owners : OrderedMap Nat Nat} {published : List Publication} {a b : Nat}

theorem eq_of_countP_le_one {α : Type} {f : α → Bool} {l : List α} {p q : α} (h : l.countP f ≤ 1) (hp : p ∈ l)
    (hq : q ∈ l) (hfp : f p = true) (hfq : f q = true) : p = q := by
  rw [List.countP_eq_length_filter] at h
  have hp : p ∈ l.filter f := List.mem_filter.mpr ⟨hp, hfp⟩
  have hq : q ∈ l.filter f := List.mem_filter.mpr ⟨hq, hfq⟩
  match hl : l.filter f with
  | [] =>
    rw [hl] at hp
    cases hp
  | [only] =>
    rw [hl] at hp hq
    rw [List.mem_singleton.mp hp, List.mem_singleton.mp hq]
  | _ :: _ :: _ =>
    rw [hl] at h
    simp at h

theorem Heard.acceptance_unique (h : Heard t client owners published) {p q : Publication} (hp : p ∈ published)
    (hq : q ∈ published) (hpa : p.isAcceptance = true) (hqa : q.isAcceptance = true) : p = q :=
  eq_of_countP_le_one h.accepted_le hp hq hpa hqa

theorem Heard.answered_unique (h : Heard t client owners published) (ha : Answered owners published a)
    (hb : Answered owners published b) : a = b := by
  obtain ⟨p, hp, hpa, hpo⟩ := ha
  obtain ⟨q, hq, hqa, hqo⟩ := hb
  rw [h.acceptance_unique hp hq hpa hqa, hqo] at hpo
  exact (Option.some.inj hpo).symm

theorem Inv.oneExecution (h : Inv t s) : OneExecution t s where
  accepted_le := h.heard.accepted_le
  accepted a attempt hget hinformed := by
    obtain ⟨p, hp, hpa, -⟩ := (h.attempts a attempt hget).2.1 hinformed
    have hpos : 0 < s.published.countP Publication.isAcceptance := List.countP_pos_iff.mpr ⟨p, hp, hpa⟩
    have hle := h.heard.accepted_le
    omega
  run := h.heard.run
  logged := h.logged
  texts := h.texts
  cancelled := h.requested

theorem inv_init (t : String) (maxEventsPerTask : Nat) : Inv t (.init maxEventsPerTask) where
  heard :=
    { kept := Cancellation.inv_init
      settled := settled_init
      events := rfl
      owned := fun x a h => by cases h
      accepted_le := Nat.zero_le 1
      run := fun p hp => by cases hp }
  keyed := fun u task h => by cases h
  attempts := fun a attempt h => by cases h
  started := fun h => by rcases h with h | h | h <;> cases h
  requested := fun status h => by cases h
  logged := Nat.zero_le 1
  sources := fun row h => by cases h
  texts := fun row h => by cases h

/-- The log of the task after a transaction that adds nothing to what is told. -/
theorem Inv.logs (h : Inv t s) {db : Database} (hdb : Unspoken t s.api.db db) :
    (db.eventsOf t).countP isAcceptedRow ≤ 1 ∧
      ∀ row ∈ db.eventsOf t, (isAcceptedRow row = true ∨ row.type = "task.delta") → row ∈ s.api.db.eventsOf t := by
  obtain ⟨rows, hrows, hplain⟩ := hdb.rows
  have hnone : rows.countP isAcceptedRow = 0 :=
    List.countP_eq_zero.mpr fun row hrow haccepted => (hplain row hrow).1 (of_decide_eq_true haccepted)
  rw [hrows]
  refine ⟨?_, fun row hrow htold => ?_⟩
  · rw [List.countP_append, hnone]
    exact h.logged
  · rcases List.mem_append.mp hrow with hold | hnew
    · exact hold
    · rcases htold with haccepted | hdelta
      · exact absurd (of_decide_eq_true haccepted) (hplain row hnew).1
      · exact absurd hdelta (hplain row hnew).2

/-- A step of the API that touches no attempt, apart from a new one. -/
theorem Inv.aside (h : Inv t s) {api : CancelDispatch.System} (hdb : Aside t s.api.db api.db)
    (hnew : ∀ a attempt, api.attempts.get a = some attempt →
      s.api.attempts.get a = some attempt ∨ attempt = ⟨t, "", .finding⟩)
    (hold : ∀ a attempt, s.api.attempts.get a = some attempt → api.attempts.get a = some attempt) :
    Inv t { s with api } := by
  obtain ⟨hlogged, hrows⟩ := h.logs hdb.toUnspoken
  refine ⟨h.heard, hdb.keyed, fun a attempt hget => ?_, fun hstarted => ?_, h.requested, hlogged,
    fun row hrow haccepted => h.sources row (hrows row hrow (.inl haccepted)) haccepted,
    fun row hrow hdelta => h.texts row (hrows row hrow (.inr hdelta)) hdelta⟩
  · rcases hnew a attempt hget with hget | rfl
    · obtain ⟨htask, hinformed, hbegun⟩ := h.attempts a attempt hget
      exact ⟨htask, hinformed, fun hphase => hdb.isSome (hbegun hphase)⟩
    · exact ⟨rfl, (fun hphase => by cases hphase), fun hphase => by cases hphase⟩
  · obtain ⟨a, attempt, hget, hanswered⟩ := h.started (hstarted.imp id hdb.status)
    exact ⟨a, attempt, hold a attempt hget, hanswered⟩

/-- A step of an attempt. -/
theorem Inv.attempt (h : Inv t s) {attempt next : Attempt} {api : CancelDispatch.System} {relaying : Bool}
    {requested : List (Option TaskStatus)} (hget : s.api.attempts.get a = some attempt)
    (hattempts : api.attempts = s.api.attempts.set a next) (hdb : Unspoken t s.api.db api.db)
    (htask : next.taskId = t) (hinformed : informed next.phase = true → Answered s.owners s.published a)
    (hbegun : begun next.phase = true → (s.api.db.status t).isSome = true)
    (hpast : past attempt.phase = true → past next.phase = true)
    (hstarted : relaying = true ∨ Started (api.db.status t) → (s.relaying = true ∨ Started (s.api.db.status t)) ∨
      Answered s.owners s.published a ∧ past next.phase = true)
    (hrequested : ∀ status ∈ requested, status ∈ s.requested ∨ status = some .cancelled ∨ status = some .failed) :
    Inv t { s with api, relaying, requested } := by
  obtain ⟨hlogged, hrows⟩ := h.logs hdb
  refine ⟨h.heard, hdb.keyed, fun b other hother => ?_, fun hrelay => ?_,
    fun status hstatus => (hrequested status hstatus).elim (h.requested status) id, hlogged,
    fun row hrow haccepted => h.sources row (hrows row hrow (.inl haccepted)) haccepted,
    fun row hrow hdelta => h.texts row (hrows row hrow (.inr hdelta)) hdelta⟩
  · rw [hattempts, OrderedMap.get_set] at hother
    split at hother
    · rename_i hba
      cases hother
      rw [hba]
      exact ⟨htask, hinformed, fun hphase => hdb.isSome (hbegun hphase)⟩
    · obtain ⟨htask, hinformed, hbegun⟩ := h.attempts b other hother
      exact ⟨htask, hinformed, fun hphase => hdb.isSome (hbegun hphase)⟩
  · rcases hstarted hrelay with hold | ⟨hanswered, hphase⟩
    · obtain ⟨b, other, hother, hanswered, hphase⟩ := h.started hold
      by_cases hba : b = a
      · subst hba
        rw [hget] at hother
        cases hother
        exact ⟨b, next, by rw [hattempts, OrderedMap.get_set_same], hanswered, hpast hphase⟩
      · exact ⟨b, other, by rw [hattempts, OrderedMap.get_set_other _ _ hba]; exact hother, hanswered, hphase⟩
    · exact ⟨a, next, by rw [hattempts, OrderedMap.get_set_same], hanswered, hphase⟩

/-! ## The steps -/

/-- A step of an attempt, and what it sends. -/
theorem api_attempt {api api' : CancelDispatch.System} {answer : Answer}
    (hstep : CancelDispatch.step settings t api (.attempt a answer) = some api') :
    ∃ attempt next, api.attempts.get a = some attempt ∧
      attempt.next settings api.db answer = some (api'.db, next, attemptOutputs settings api (.attempt a answer)) ∧
      api'.attempts = api.attempts.set a next := by
  simp only [CancelDispatch.step] at hstep
  split at hstep
  · obtain ⟨attempt, hget, hstep⟩ := Option.bind_eq_some_iff.mp hstep
    obtain ⟨⟨db, next, outputs⟩, hnext, hstep⟩ := Option.bind_eq_some_iff.mp hstep
    cases hstep
    have hout : attemptOutputs settings api (.attempt a answer) = outputs := by
      simp only [attemptOutputs, hget, Option.bind_some, hnext]
    exact ⟨attempt, next, hget, by rw [hout]; exact hnext, rfl⟩
  · cases hstep

/-- The status that a request to cancel finds: another attempt cannot have started the task. -/
theorem Inv.tooLate (h : Inv t s) {metadata : ExecutionMetadata} {sessionId : String}
    (hget : s.api.attempts.get a = some ⟨t, sessionId, .updating metadata⟩)
    (hlate : s.api.db.status t ≠ some .queued) :
    s.api.db.status t = some .cancelled ∨ s.api.db.status t = some .failed := by
  obtain ⟨-, hinformed, hbegun⟩ := h.attempts a _ hget
  have hidle : ¬ Started (s.api.db.status t) := by
    intro hstarted
    obtain ⟨b, other, hother, hanswered, hphase⟩ := h.started (.inr hstarted)
    rw [h.heard.answered_unique hanswered (hinformed rfl), hget] at hother
    cases hother
    cases hphase
  obtain ⟨status, hstatus⟩ := Option.isSome_iff_exists.mp (hbegun rfl)
  rw [hstatus] at hlate hidle ⊢
  cases status with
  | queued => exact absurd rfl hlate
  | running => exact absurd (.inl rfl) hidle
  | completed => exact absurd (.inr rfl) hidle
  | failed => exact .inr rfl
  | cancelled => exact .inl rfl

/-- A step of an attempt that goes on without a response, and sends nothing that matters here. -/
theorem Inv.quiet (h : Inv t s) {attempt next : Attempt} {api : CancelDispatch.System} {outputs : List Output}
    (hget : s.api.attempts.get a = some attempt) (hset : api.attempts = s.api.attempts.set a next)
    (htask : next.taskId = t) (hinformed : informed next.phase = false)
    (hbegun : begun next.phase = true → (s.api.db.status t).isSome = true)
    (hpast : past attempt.phase = true → past next.phase = true) (hdb : Aside t s.api.db api.db)
    (houtputs : outputs = [] ∨ outputs = [.execute]) :
    Inv t { s with
      api
      relaying := s.relaying || outputs.any Output.startsRelay
      requested := s.requested ++ if .cancel ∈ outputs then [s.api.db.status t] else [] } := by
  have hrelay : outputs.any Output.startsRelay = false := by rcases houtputs with rfl | rfl <;> rfl
  have hcancel : Output.cancel ∉ outputs := by rcases houtputs with rfl | rfl <;> simp
  rw [hrelay, if_neg hcancel, Bool.or_false, List.append_nil]
  refine h.attempt hget hset hdb.toUnspoken htask (fun hphase => ?_) hbegun hpast (fun hstarted => .inl ?_)
    fun status hstatus => .inl hstatus
  · rw [hinformed] at hphase
    cases hphase
  · exact hstarted.imp id hdb.status

theorem inv_attempt (h : Inv t s) {api : CancelDispatch.System} {answer : Answer}
    (hanswer : ∀ metadata, answer = .responded metadata → Answered s.owners s.published a)
    (hstep : CancelDispatch.step settings t s.api (.attempt a answer) = some api) :
    Inv t { s with
      api
      relaying := s.relaying || (attemptOutputs settings s.api (.attempt a answer)).any Output.startsRelay
      requested := s.requested ++
        if .cancel ∈ attemptOutputs settings s.api (.attempt a answer) then [s.api.db.status t] else [] } := by
  obtain ⟨attempt, next, hget, hnext, hset⟩ := api_attempt hstep
  have hmoves := attemptMoves_next hnext
  obtain ⟨htask, hinformed, hbegun⟩ := h.attempts a attempt hget
  obtain ⟨taskId, sessionId, phase⟩ := attempt
  subst htask
  have hrefl := aside_refl (t := taskId) h.keyed
  generalize attemptOutputs settings s.api (.attempt a answer) = outputs at hmoves ⊢
  generalize hdb : api.db = db at hmoves
  cases hmoves with
  | skip =>
    exact h.quiet hget hset rfl rfl (fun hphase => by cases hphase) (fun _ => rfl) (hdb ▸ hrefl) (.inl rfl)
  | @found now task hfound =>
    have hsome : (s.api.db.status taskId).isSome = true := by rw [Database.status, hfound]; rfl
    exact h.quiet hget hset rfl rfl (fun _ => hsome) (fun hphase => by cases hphase) (hdb ▸ hrefl) (.inl rfl)
  | count hcount =>
    have haside := aside_single (t := taskId) h.keyed hcount fun _ _ _ => Single.noConfusion
    exact h.quiet hget hset rfl rfl (fun _ => hbegun rfl) (fun hphase => by cases hphase) (hdb ▸ haside) (.inl rfl)
  | unfit =>
    exact h.quiet hget hset rfl rfl (fun hphase => by cases hphase) (fun _ => rfl) (hdb ▸ hrefl) (.inl rfl)
  | execute =>
    exact h.quiet hget hset rfl rfl (fun _ => hbegun rfl) (fun hphase => by cases hphase) (hdb ▸ hrefl) (.inr rfl)
  | unavailable =>
    exact h.quiet hget hset rfl rfl (fun hphase => by cases hphase) (fun _ => rfl) (hdb ▸ hrefl) (.inl rfl)
  | failed =>
    exact h.quiet hget hset rfl rfl (fun hphase => by cases hphase) (fun _ => rfl) (hdb ▸ hrefl) (.inl rfl)
  | settled =>
    exact h.quiet hget hset rfl rfl (fun hphase => by cases hphase) (fun _ => rfl) (hdb ▸ hrefl) (.inl rfl)
  | @responded metadata =>
    refine h.attempt hget hset (hdb ▸ hrefl.toUnspoken) rfl (fun _ => hanswer metadata rfl) (fun _ => hbegun rfl)
      (fun hphase => by cases hphase) (fun hstarted => .inl ?_) fun status hstatus => .inl (by simpa using hstatus)
    rw [hdb] at hstarted
    exact hstarted.imp (by simp) id
  | dispatch hqueued hupdate =>
    have hunlogged := unlogged_single hupdate
    have hevents : db.eventsOf taskId = s.api.db.eventsOf taskId := by
      rw [Database.eventsOf, hunlogged.events, Database.eventsOf]
    have hunspoken := unspoken_of_events (hunlogged.keyed h.keyed) (hunlogged.status taskId).isSome hevents
    refine h.attempt hget hset (hdb ▸ hunspoken) rfl (fun _ => hinformed rfl) (fun hphase => by cases hphase)
      (fun hphase => by cases hphase) (fun _ => .inr ⟨hinformed rfl, rfl⟩)
      fun status hstatus => .inl (by simpa using hstatus)
  | tooLate hlate =>
    refine h.attempt hget hset (hdb ▸ hrefl.toUnspoken) rfl (fun _ => hinformed rfl)
      (fun hphase => by cases hphase) (fun hphase => by cases hphase) (fun hstarted => .inl ?_) fun status hstatus => ?_
    · rw [hdb] at hstarted
      refine hstarted.imp (fun hrelay => ?_) id
      unfold cancellationRequest at hrelay
      split at hrelay <;> simpa [Output.startsRelay] using hrelay
    · rcases List.mem_append.mp hstatus with hold | hnew
      · exact .inl hold
      · split at hnew
        · rw [List.mem_singleton.mp hnew]
          exact .inr (h.tooLate hget hlate)
        · cases hnew
  | relay hsession =>
    have haside := aside_single (t := taskId) h.keyed hsession fun _ _ _ => Single.noConfusion
    refine h.attempt hget hset (hdb ▸ haside.toUnspoken) rfl (fun hphase => by cases hphase)
      (fun hphase => by cases hphase) (fun _ => rfl) (fun _ => .inr ⟨hinformed rfl, rfl⟩)
      fun status hstatus => .inl (by simpa using hstatus)

/-- The other labels of the API that are not reserved. -/
theorem inv_api (h : Inv t s) {l : CancelDispatch.Label} {api : CancelDispatch.System}
    (hfree : reserved t l = false) (hstep : CancelDispatch.step settings t s.api l = some api) :
    Inv t { s with
      api
      relaying := s.relaying || (attemptOutputs settings s.api l).any Output.startsRelay
      requested := s.requested ++
        if .cancel ∈ attemptOutputs settings s.api l then [s.api.db.status t] else [] } := by
  have haside : ∀ outputs : List Output, outputs = [] → Aside t s.api.db api.db →
      (∀ a attempt, api.attempts.get a = some attempt →
        s.api.attempts.get a = some attempt ∨ attempt = ⟨t, "", .finding⟩) →
      (∀ a attempt, s.api.attempts.get a = some attempt → api.attempts.get a = some attempt) →
      Inv t { s with
        api
        relaying := s.relaying || outputs.any Output.startsRelay
        requested := s.requested ++ if .cancel ∈ outputs then [s.api.db.status t] else [] } := by
    rintro outputs rfl hdb hnew hold
    have hcancel : Output.cancel ∉ ([] : List Output) := List.not_mem_nil
    rw [List.any_nil, if_neg hcancel, Bool.or_false, List.append_nil]
    exact h.aside hdb hnew hold
  have hrefl := aside_refl (t := t) h.keyed
  cases l with
  | transaction tx =>
    obtain ⟨db, hdb, hstep⟩ := Option.bind_eq_some_iff.mp hstep
    cases hstep
    exact haside _ rfl (aside_transaction h.keyed hfree hdb) (fun _ _ hget => .inl hget) fun _ _ hget => hget
  | enqueue reconcile =>
    cases hstep
    exact haside _ rfl hrefl (fun _ _ hget => .inl hget) fun _ _ hget => hget
  | moveJob job =>
    cases hstep
    exact haside _ rfl hrefl (fun _ _ hget => .inl hget) fun _ _ hget => hget
  | take a =>
    simp only [CancelDispatch.step] at hstep
    split at hstep <;> cases hstep
    rename_i hguard
    refine haside _ rfl hrefl (fun b attempt hget => ?_) fun b attempt hget => ?_
    · rw [OrderedMap.get_set] at hget
      split at hget
      · exact .inr (Option.some.inj hget).symm
      · exact .inl hget
    · have hne : b ≠ a := by
        rintro rfl
        rw [hguard.2] at hget
        cases hget
      rw [OrderedMap.get_set_other _ _ hne]
      exact hget
  | attempt a answer =>
    refine inv_attempt h (fun metadata heq => ?_) hstep
    subst heq
    cases hfree
  | accept a => cases hfree
  | refuse a =>
    simp only [CancelDispatch.step] at hstep
    split at hstep <;> cases hstep
    exact haside _ rfl hrefl (fun _ _ hget => .inl hget) fun _ _ hget => hget
  | cancelTask c userId =>
    simp only [CancelDispatch.step] at hstep
    split at hstep <;> cases hstep
    exact haside _ rfl hrefl (fun _ _ hget => .inl hget) fun _ _ hget => hget
  | cancel c answer =>
    obtain ⟨call, -, hstep⟩ := Option.bind_eq_some_iff.mp hstep
    obtain ⟨⟨db, job, next, outputs⟩, hnext, hstep⟩ := Option.bind_eq_some_iff.mp hstep
    cases hstep
    exact haside _ rfl (aside_cancelCall h.keyed hnext) (fun _ _ hget => .inl hget) fun _ _ hget => hget
  | requestCancellation =>
    simp only [CancelDispatch.step] at hstep
    split at hstep <;> cases hstep
    exact haside _ rfl hrefl (fun _ _ hget => .inl hget) fun _ _ hget => hget

/-- An attempt gets its response only after the handler of its call has published an acceptance. -/
theorem Heard.answered (h : Heard t client owners published) {x : Nat} (hown : owners.get x = some a)
    {metadata : ExecutionMetadata} (hresponse : response client x = some metadata) :
    Answered owners published a := by
  obtain ⟨call, hcall, htask⟩ := h.owned x a hown
  obtain ⟨call', hcall', hresponse⟩ := Option.bind_eq_some_iff.mp hresponse
  rw [hcall] at hcall'
  cases hcall'
  split at hresponse
  · rename_i hreturned
    obtain ⟨e, he, hx, het, haccepts⟩ := h.settled.done x call hcall (.inl hreturned)
    obtain ⟨event, hevent, haccepted⟩ := (Option.any_eq_true _ _).mp haccepts
    have hmem : (x, event) ∈ eventsFor t client.registry.log :=
      mem_eventsFor.mpr ⟨e, he, het.trans htask, hx, hevent⟩
    rw [← h.events] at hmem
    obtain ⟨p, hp, heq⟩ := List.mem_map.mp hmem
    obtain ⟨rfl, rfl⟩ := Prod.mk.inj heq
    exact ⟨p, hp, haccepted, hown⟩
  · cases hresponse

theorem inv_respond (h : Inv t s) {x : Nat} (hstep : step settings opts t s (.respond x) = some s') :
    Inv t s' := by
  obtain ⟨a, hown, hstep⟩ := Option.bind_eq_some_iff.mp hstep
  obtain ⟨metadata, hresponse, hstep⟩ := Option.bind_eq_some_iff.mp hstep
  obtain ⟨api, hapi, hstep⟩ := Option.bind_eq_some_iff.mp hstep
  cases hstep
  have hinv := inv_attempt h (fun _ _ => h.heard.answered hown hresponse) hapi
  obtain ⟨attempt, next, -, hnext, -⟩ := api_attempt hapi
  have houtputs : attemptOutputs settings s.api (.attempt a (.responded metadata)) = [] := by
    have hmoves := attemptMoves_next hnext
    generalize attemptOutputs settings s.api (.attempt a (.responded metadata)) = outputs at hmoves
    generalize api.db = db, attempt.phase = phase at hmoves
    cases hmoves
    rfl
  have hcancel : Output.cancel ∉ ([] : List Output) := List.not_mem_nil
  rw [houtputs, List.any_nil, if_neg hcancel, Bool.or_false, List.append_nil] at hinv
  exact hinv

/-- A new call of `execute` is owned by the attempt that has requested it. -/
theorem inv_accept (h : Inv t s) {message : String}
    (hstep : step settings opts t s (.accept a message) = some s') : Inv t s' := by
  obtain ⟨attempt, hget, hstep⟩ := Option.bind_eq_some_iff.mp hstep
  obtain ⟨api, hapi, hstep⟩ := Option.bind_eq_some_iff.mp hstep
  cases hstep
  have hfresh : s.client.calls s.client.nextCall = none := h.heard.kept.numbered _ (Nat.le_refl _)
  obtain ⟨es, hmoves, -⟩ := silent_execute h.heard.kept ⟨t, attempt.sessionId, message⟩
  have hanswered : ∀ b, Answered s.owners s.published b →
      Answered (s.owners.set s.client.nextCall a) s.published b := by
    rintro b ⟨p, hp, hpa, hown⟩
    refine ⟨p, hp, hpa, ?_⟩
    have hne : p.call ≠ s.client.nextCall := by
      intro heq
      obtain ⟨call, hcall, -⟩ := h.heard.owned p.call b hown
      rw [heq, hfresh] at hcall
      cases hcall
    rw [OrderedMap.get_set_other _ _ hne]
    exact hown
  have hheard : Heard t (s.client.execute ⟨t, attempt.sessionId, message⟩)
      (s.owners.set s.client.nextCall a) s.published := by
    refine ⟨(Cancellation.advance_execute h.heard.kept _ id).inv, hmoves.settled h.heard.settled, h.heard.events,
      fun x b hown => ?_, h.heard.accepted_le, h.heard.run⟩
    rw [OrderedMap.get_set] at hown
    split at hown
    · rename_i hx
      rw [hx]
      exact ⟨_, Function.update_self .., rfl⟩
    · obtain ⟨call, hcall, htask⟩ := h.heard.owned x b hown
      obtain ⟨call', hcall', hinput⟩ := hmoves.kept x call hcall
      exact ⟨call', hcall', by rw [hinput, htask]⟩
  simp only [CancelDispatch.step] at hapi
  split at hapi <;> cases hapi
  refine ⟨hheard, h.keyed, fun b other hother => ?_, fun hstarted => ?_, h.requested, h.logged, h.sources, h.texts⟩
  · obtain ⟨htask, hinformed, hbegun⟩ := h.attempts b other hother
    exact ⟨htask, fun hphase => hanswered b (hinformed hphase), hbegun⟩
  · obtain ⟨b, other, hother, hold, hphase⟩ := h.started hstarted
    exact ⟨b, other, hother, hanswered b hold, hphase⟩

/-- The acceptance is logged once, since the log holds one row for a number of the history. -/
theorem inv_relay (h : Inv t s) {i : Nat} {archived : Option Archived} {now resultId : String}
    (hstep : step settings opts t s (.relay i archived now resultId) = some s') : Inv t s' := by
  obtain ⟨hguard, hstep⟩ := Option.ite_none_right_eq_some.mp hstep
  obtain ⟨p, hget, hstep⟩ := Option.bind_eq_some_iff.mp hstep
  obtain ⟨db, hdb, hstep⟩ := Option.bind_eq_some_iff.mp hstep
  cases hstep
  obtain ⟨prepared, hprepared, hdb⟩ := Option.bind_eq_some_iff.mp hdb
  cases hdb
  have hp : p ∈ s.published := List.mem_of_getElem? hget
  obtain ⟨haccepted, hdelta⟩ := prepareTaskEvent_told hprepared
  have hrelay : s.relaying = true ∨ Started (s.api.db.status t) := by
    rcases Bool.or_eq_true_iff.mp hguard with hrelay | hrunning
    · exact .inl hrelay
    · exact .inr (.inl (of_decide_eq_true hrunning))
  have hkeyed : Keyed (persistTransaction settings.toSettings now resultId prepared.stored
    (some (toString p.item.id)) s.api.db).2 := persist_keyed h.keyed
  rcases persist_task settings.toSettings now resultId prepared.stored (some (toString p.item.id)) h.keyed t with
    ⟨hstatus, hevents⟩ | ⟨-, hfresh, hevents, old, hold, hstatus⟩
  · refine ⟨h.heard, hkeyed, fun a attempt hattempt => ?_, fun _ => h.started hrelay, h.requested, ?_, ?_, ?_⟩
    · rw [hstatus]
      exact h.attempts a attempt hattempt
    · rw [hevents]
      exact h.logged
    · rw [hevents]
      exact h.sources
    · rw [hevents]
      exact h.texts
  · refine ⟨h.heard, hkeyed, fun a attempt hattempt => ?_, fun _ => h.started hrelay, h.requested, ?_,
      fun row hrow htold => ?_, fun row hrow htold => ?_⟩
    · obtain ⟨htask, hinformed, -⟩ := h.attempts a attempt hattempt
      exact ⟨htask, hinformed, fun _ => by rw [hstatus]; rfl⟩
    · rw [hevents, List.countP_append, List.countP_singleton]
      split
      · rename_i hrow
        have hacceptance : p.isAcceptance = true := by
          rw [Publication.isAcceptance, ← haccepted]
          exact literal_accepted (of_decide_eq_true hrow)
        have hnone : (s.api.db.eventsOf t).countP isAcceptedRow = 0 := by
          refine List.countP_eq_zero.mpr fun row hrow' htold => ?_
          obtain ⟨q, hq, hqa, hsource⟩ := h.sources row hrow' htold
          rw [h.heard.acceptance_unique hq hp hqa hacceptance] at hsource
          rw [violatesSource_of_row hrow' hsource] at hfresh
          cases hfresh
        omega
      · exact h.logged
    · rw [hevents] at hrow
      rcases List.mem_append.mp hrow with hrow | hrow
      · exact h.sources row hrow htold
      · rw [List.mem_singleton.mp hrow] at htold ⊢
        refine ⟨p, hp, ?_, rfl⟩
        rw [Publication.isAcceptance, ← haccepted]
        exact literal_accepted (of_decide_eq_true htold)
    · rw [hevents] at hrow
      rcases List.mem_append.mp hrow with hrow | hrow
      · exact h.texts row hrow htold
      · rw [List.mem_singleton.mp hrow] at htold ⊢
        refine ⟨p, hp, ?_, archived, prepared, hprepared, rfl, rfl⟩
        rw [Publication.isText, ← hdelta]
        exact literal_delta htold

/-- A callback in order: it is the only acceptance, and what it tells is of the one run. -/
theorem Heard.publish (h : Heard t client owners published) {client' : Client} {es : List Entry}
    {l : PersistentGatewayClient.Label} {run : String} {events : List Publication}
    (hkept : Cancellation.Inv (fun _ => False) client') (hmoves : Moves client client' es)
    (hspoken : Spoken opts client l es) (hmap : events.map (fun p => (p.call, p.item.event)) = eventsFor t es)
    (hrun : ∀ p ∈ events, p.run = run)
    (hfirst : acknowledgedTask client l = some t → ∀ p ∈ published, p.isAcceptance = false)
    (hsame : acknowledgedTask client l = some t ∨ deltaTask opts client l = some t →
      ∀ p ∈ published, p.speaks = true → p.run = run) :
    Heard t client' owners (published ++ events) := by
  have hentry : ∀ p ∈ events, ∃ e ∈ es, e.taskId = t ∧ eventOf e.effect = some p.item.event := by
    intro p hp
    have hmem : (p.call, p.item.event) ∈ eventsFor t es := by
      rw [← hmap]
      exact List.mem_map_of_mem hp
    obtain ⟨e, he, htask, -, hevent⟩ := mem_eventsFor.mp hmem
    exact ⟨e, he, htask, hevent⟩
  have hack : ∀ p ∈ events, p.isAcceptance = true → acknowledgedTask client l = some t := by
    intro p hp hpa
    obtain ⟨e, he, htask, hevent⟩ := hentry p hp
    rw [← htask]
    exact hspoken.acceptance e he (by rw [accepts, hevent, Option.any_some]; exact hpa)
  have hspeaks : ∀ p ∈ events, p.speaks = true → ∀ q ∈ published, q.speaks = true → q.run = run := by
    intro p hp hps
    refine hsame ?_
    rcases Bool.or_eq_true_iff.mp hps with hpa | hpt
    · exact .inl (hack p hp hpa)
    · obtain ⟨e, he, htask, hevent⟩ := hentry p hp
      rw [← htask]
      exact (hspoken.delta e he (by rw [tells, hevent, Option.any_some]; exact hpt)).symm
  refine ⟨hkept, hmoves.settled h.settled, ?_, fun x a hown => ?_, ?_, fun p hp q hq hps hqs => ?_⟩
  · rw [List.map_append, h.events, hmap, hmoves.log, eventsFor_append]
  · obtain ⟨call, hcall, htask⟩ := h.owned x a hown
    obtain ⟨call', hcall', hinput⟩ := hmoves.kept x call hcall
    exact ⟨call', hcall', by rw [hinput, htask]⟩
  · have hcount : events.countP Publication.isAcceptance ≤ 1 := by
      have hle := countP_eventsFor t es
      rw [← hmap, List.countP_map] at hle
      exact hle.trans hspoken.once
    rw [List.countP_append]
    by_cases hany : ∃ p ∈ events, p.isAcceptance = true
    · obtain ⟨p, hp, hpa⟩ := hany
      rw [List.countP_eq_zero.mpr fun q hq => by simp [hfirst (hack p hp hpa) q hq], Nat.zero_add]
      exact hcount
    · rw [List.countP_eq_zero.mpr fun q hq hqa => hany ⟨q, hq, hqa⟩, Nat.add_zero]
      exact h.accepted_le
  · rcases List.mem_append.mp hp with hp | hp <;> rcases List.mem_append.mp hq with hq | hq
    · exact h.run p hp q hq hps hqs
    · rw [hrun q hq]
      exact hspeaks q hq hqs p hp hps
    · rw [hrun p hp]
      exact (hspeaks p hp hps q hq hqs).symm
    · rw [hrun p hp, hrun q hq]

theorem Answered.append {events : List Publication} (h : Answered owners published a) :
    Answered owners (published ++ events) a := by
  obtain ⟨p, hp, hanswered⟩ := h
  exact ⟨p, List.mem_append_left events hp, hanswered⟩

theorem inv_adapter (h : Inv t s) {l : PersistentGatewayClient.Label} {run : String}
    (hok : InOrder opts t s (.adapter l run)) (hstep : step settings opts t s (.adapter l run) = some s') :
    Inv t s' := by
  simp only [step] at hstep
  split at hstep
  · cases hstep
  · obtain ⟨client, hclient, hstep⟩ := Option.bind_eq_some_iff.mp hstep
    cases hstep
    obtain ⟨es, hmoves, hspoken⟩ := steps_step h.heard.kept h.heard.settled hclient
    have hspares : Cancellation.Spares (fun _ => False) l := by
      cases l with
      | execute input => exact id
      | _ => trivial
    have hkept := (Cancellation.advance_step h.heard.kept hspares hclient).inv
    have hdrop : client.registry.log.drop s.client.registry.log.length = es := by rw [hmoves.log, List.drop_left]
    rw [hdrop]
    have hheard := h.heard.publish hkept hmoves hspoken (publishAll_events t run s.broker (eventsFor t es))
      (publishAll_run t run s.broker (eventsFor t es)) hok.1 hok.2
    refine ⟨hheard, h.keyed, fun a attempt hget => ?_, fun hstarted => ?_, h.requested, h.logged,
      fun row hrow htold => ?_, fun row hrow htold => ?_⟩
    · obtain ⟨htask, hinformed, hbegun⟩ := h.attempts a attempt hget
      exact ⟨htask, fun hphase => (hinformed hphase).append, hbegun⟩
    · obtain ⟨a, attempt, hget, hanswered, hphase⟩ := h.started hstarted
      exact ⟨a, attempt, hget, hanswered.append, hphase⟩
    · obtain ⟨p, hp, hsource⟩ := h.sources row hrow htold
      exact ⟨p, List.mem_append_left _ hp, hsource⟩
    · obtain ⟨p, hp, hstores⟩ := h.texts row hrow htold
      exact ⟨p, List.mem_append_left _ hp, hstores⟩

theorem inv_step {l : Label} (h : Inv t s) (hok : InOrder opts t s l)
    (hstep : step settings opts t s l = some s') : Inv t s' := by
  cases l with
  | api l =>
    simp only [step] at hstep
    split at hstep
    · cases hstep
    · rename_i hfree
      obtain ⟨api, hapi, hstep⟩ := Option.bind_eq_some_iff.mp hstep
      cases hstep
      exact inv_api h (by simpa using hfree) hapi
  | accept a message => exact inv_accept h hstep
  | respond x => exact inv_respond h hstep
  | relay i archived now resultId => exact inv_relay h hstep
  | adapter l run => exact inv_adapter h hok hstep
  | cleanup =>
    cases hstep
    exact ⟨h.heard, h.keyed, h.attempts, h.started, h.requested, h.logged, h.sources, h.texts⟩

/-- What the label gives to say of the task is published, as of the run of the label. -/
theorem published_of_told {l : PersistentGatewayClient.Label} {run : String} {f : TaskEventDetail → Bool}
    {e : Entry} {es : List Entry} (hstep : step settings opts t s (.adapter l run) = some s') (he : e ∈ es)
    (htask : e.taskId = t) (hf : (eventOf e.effect).any (fun event => f event.detail) = true)
    (hlog : ∀ c', Client.step opts s.client l = some c' → c'.registry.log = s.client.registry.log ++ es) :
    ∃ events, s'.published = s.published ++ events ∧
      ∃ p ∈ events, f p.item.event.detail = true ∧ p.run = run := by
  simp only [step] at hstep
  split at hstep
  · cases hstep
  · obtain ⟨client, hclient, hstep⟩ := Option.bind_eq_some_iff.mp hstep
    cases hstep
    have hdrop : client.registry.log.drop s.client.registry.log.length = es := by
      rw [hlog client hclient, List.drop_left]
    obtain ⟨event, hevent, hdetail⟩ := (Option.any_eq_true _ _).mp hf
    have hmem : (e.call, event) ∈ (publishAll t run s.broker (eventsFor t es)).2.map
        fun p => (p.call, p.item.event) := by
      rw [publishAll_events]
      exact mem_eventsFor.mpr ⟨e, he, htask, rfl, hevent⟩
    obtain ⟨p, hp, heq⟩ := List.mem_map.mp hmem
    obtain ⟨-, hitem⟩ := Prod.mk.inj heq
    rw [hdrop]
    exact ⟨_, rfl, p, hp, by rw [hitem]; exact hdetail, publishAll_run t run s.broker _ p hp⟩

/-- A callback out of order breaks the effect of one execution. -/
theorem inOrder_of_oneExecution {l : Label} (h : Inv t s) (hstep : step settings opts t s l = some s')
    (hone : OneExecution t s') : InOrder opts t s l := by
  cases l with
  | adapter l run =>
    obtain ⟨client, hclient⟩ : ∃ client, Client.step opts s.client l = some client := by
      simp only [step] at hstep
      split at hstep
      · cases hstep
      · obtain ⟨client, hclient, -⟩ := Option.bind_eq_some_iff.mp hstep
        exact ⟨client, hclient⟩
    have hsame : ∀ c', Client.step opts s.client l = some c' → c' = client := fun c' hc' =>
      Option.some.inj (hc'.symm.trans hclient)
    have hack : acknowledgedTask s.client l = some t → ∃ events, s'.published = s.published ++ events ∧
        ∃ p ∈ events, p.isAcceptance = true ∧ p.run = run := by
      intro hack
      obtain ⟨es, hlog, e, he, htask, haccepts⟩ := told_of_acknowledgedTask h.heard.kept.keyed hclient hack
      exact published_of_told hstep he htask haccepts fun c' hc' => by rw [hsame c' hc', hlog]
    have htext : deltaTask opts s.client l = some t → ∃ events, s'.published = s.published ++ events ∧
        ∃ p ∈ events, p.isText = true ∧ p.run = run := by
      intro htext
      obtain ⟨es, hlog, e, he, htask, htells⟩ := told_of_deltaTask hclient htext
      exact published_of_told hstep he htask htells fun c' hc' => by rw [hsame c' hc', hlog]
    refine ⟨fun hacknowledged p hp => ?_, fun htold p hp hspeaks => ?_⟩
    · obtain ⟨events, hpublished, q, hq, hqa, -⟩ := hack hacknowledged
      by_contra hpa
      have hold : 0 < s.published.countP Publication.isAcceptance :=
        List.countP_pos_iff.mpr ⟨p, hp, by simpa using hpa⟩
      have hnew : 0 < events.countP Publication.isAcceptance := List.countP_pos_iff.mpr ⟨q, hq, hqa⟩
      have hle := hone.accepted_le
      rw [hpublished, List.countP_append] at hle
      omega
    · obtain ⟨events, hpublished, q, hq, hqs, hqrun⟩ : ∃ events, s'.published = s.published ++ events ∧
          ∃ p ∈ events, p.speaks = true ∧ p.run = run := by
        rcases htold with hacknowledged | hdelta
        · obtain ⟨events, hpublished, q, hq, hqa, hqrun⟩ := hack hacknowledged
          exact ⟨events, hpublished, q, hq, by rw [Publication.speaks, hqa, Bool.true_or], hqrun⟩
        · obtain ⟨events, hpublished, q, hq, hqt, hqrun⟩ := htext hdelta
          exact ⟨events, hpublished, q, hq, by rw [Publication.speaks, hqt, Bool.or_true], hqrun⟩
      rw [← hqrun]
      refine hone.run p ?_ q ?_ hspeaks hqs <;> rw [hpublished]
      · exact List.mem_append_left events hp
      · exact List.mem_append_right s.published hq
  | _ => trivial

/-- However the attempts of the task are repeated and overlap, they have the effect of one execution exactly as
long as the gateway's answers are in order. -/
theorem oneExecution_iff_inOrder (settings : DispatchSettings) (opts : Options) (t : String)
    (maxEventsPerTask : Nat) {ls : List Label}
    (hrun : run (step settings opts t) (.init maxEventsPerTask) ls = some s) :
    Throughout (step settings opts t) (OneExecution t) (.init maxEventsPerTask) ls ↔
      Along (step settings opts t) (InOrder opts t) (.init maxEventsPerTask) ls :=
  throughout_iff_along (fun _ h => h.oneExecution) (fun _ _ _ h hok hstep => inv_step h hok hstep)
    (fun _ _ _ h hstep hone => inOrder_of_oneExecution h hstep hone) (inv_init t maxEventsPerTask) hrun

end Invariant

instance (c : Client) (l : PersistentGatewayClient.Label) : Decidable (acknowledgedTask c l = some t) :=
  inferInstanceAs (Decidable (_ = _))

instance decidableInOrder (opts : Options) (t : String) (s : System) : (l : Label) → Decidable (InOrder opts t s l)
  | .adapter l run =>
    inferInstanceAs (Decidable (
      (acknowledgedTask s.client l = some t → ∀ p ∈ s.published, p.isAcceptance = false) ∧
      (acknowledgedTask s.client l = some t ∨ deltaTask opts s.client l = some t →
        ∀ p ∈ s.published, p.speaks = true → p.run = run)))
  | .api _ | .accept _ _ | .respond _ | .relay _ _ _ _ | .cleanup => .isTrue trivial

/-- A task is created, and its job waits. -/
def created : List Label :=
  [.api (.transaction (.single (.enqueue ⟨"t", "u", none, "hello", .inr ("s", "hello")⟩))), .api (.enqueue false)]

/-- An attempt goes as far as its execution request, and the adapter has prepared the input. -/
def requesting (a x : Nat) : List Label :=
  [.api (.take a), .api (.attempt a (.database "2026-01-01")), .api (.attempt a (.database "2026-01-01")),
    .api (.attempt a (.inspected none)), .accept a "hello", .adapter (.prepared x (.ok ⟨"hello", []⟩)) ""]

/-- The socket opens and the gateway answers the connect request. -/
def connecting : List Label :=
  [.adapter (.opened 0) "", .adapter (.message 0 (.ok Client.connectRequestId none none)) ""]

/-- The task goes to the gateway, which acknowledges it, and the call returns. -/
def acknowledged (x : Nat) : List Label :=
  [.adapter (.resume x) "", .adapter (.message 0 (.ok "t" (some "r") none)) "r", .adapter (.resume x) ""]

/-- The job of the first attempt is taken for stalled while the response is on its way; when the second attempt
comes
to its update, the first has dispatched the task. -/
def stalled : List Label :=
  created ++ requesting 0 0 ++ connecting ++ acknowledged 0 ++ [.api (.moveJob (some .waiting))] ++
    requesting 1 1 ++ acknowledged 1 ++ [.respond 0, .respond 1, .api (.attempt 0 (.database "2026-01-01")),
      .api (.attempt 1 (.database "2026-01-01"))]

/-- Two acceptances are published, and the cancellation of the running task is requested. -/
theorem not_oneExecution_stalled :
    (run (step CancelDispatch.oneAdapter defaultOptions "t") (.init 1000) stalled).any (fun s =>
        decide (s.published.countP Publication.isAcceptance = 2) && decide (s.requested = [some .running])) = true ∧
      ¬ Throughout (step CancelDispatch.oneAdapter defaultOptions "t") (OneExecution "t") (.init 1000) stalled := by
  have hend : (run (step CancelDispatch.oneAdapter defaultOptions "t") (.init 1000) stalled).any (fun s =>
      decide (s.published.countP Publication.isAcceptance = 2) && decide (s.requested = [some .running])) =
        true := by decide +kernel
  refine ⟨hend, fun hone => ?_⟩
  obtain ⟨s, hrun, hs⟩ := (Option.any_eq_true _ _).mp hend
  simp only [Bool.and_eq_true, decide_eq_true_eq] at hs
  have hle := (hone.last hrun).accepted_le
  rw [hs.1] at hle
  exact absurd hle (by decide)

/-- The gateway rejects the first execution; the second attempt is acknowledged and its text is relayed. -/
def retried : List Label :=
  created ++ requesting 0 0 ++ connecting ++ [.adapter (.resume 0) "", .adapter (.message 0
  (.error "t" none none)) "",
    .adapter (.resume 0) "", .adapter (.prepared 0 (.error ⟨"GATEWAY_ERROR", "no input"⟩)) "",
    .api (.attempt 0 (.failed "GATEWAY_ERROR" "no input")), .api (.moveJob (some .waiting))] ++
    requesting 1 1 ++ acknowledged 1 ++ [.adapter (.message 0 (.agent
      { runId := some "r", stream := some "assistant", data := some [("text", .str "hi")] })) "r",
      .respond 1, .api (.attempt 1 (.database "2026-01-01")), .api (.attempt 1 (.database "2026-01-01")),
      .relay 0 none "2026-01-01" "r1", .relay 1 none "2026-01-01" "r1"]

theorem oneExecution_retried :
    ∃ s, run (step CancelDispatch.oneAdapter defaultOptions "t") (.init 1000) retried = some s ∧
      (s.api.db.eventsOf "t").map TaskEvent.type = ["task.accepted", "task.delta"] ∧
      Throughout (step CancelDispatch.oneAdapter defaultOptions "t") (OneExecution "t") (.init 1000) retried := by
  have hend : (run (step CancelDispatch.oneAdapter defaultOptions "t") (.init 1000) retried).any (fun s =>
      decide ((s.api.db.eventsOf "t").map TaskEvent.type = ["task.accepted", "task.delta"])) = true := by
    decide +kernel
  obtain ⟨s, hrun, hs⟩ := (Option.any_eq_true _ _).mp hend
  refine ⟨s, hrun, of_decide_eq_true hs, ?_⟩
  exact (oneExecution_iff_inOrder CancelDispatch.oneAdapter defaultOptions "t" 1000 hrun).mpr (by decide +kernel)

end RepeatedDelivery
