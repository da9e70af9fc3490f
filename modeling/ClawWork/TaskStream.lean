import ClawWork.LogCommits
import Mathlib.Data.List.Induction

/-!
# The event stream of a task

A client of the stream first gets the rows of the log after its last event id,
together with what the hub publishes meanwhile, and then every publication as it
comes. An event whose id is not above the last one that was sent is dropped.
`received` is what the client has got over all its connections.
-/

namespace TaskStream

open SharedTypes TaskStore TasksService PersistCalls LogCommits

structure Client where
  taskId : String
  received : List PersistedTaskEvent
  closed : Bool
  replaying : Bool
  /-- The listener of the connection is registered with the hub. -/
  listening : Bool
  lastSentId : Nat
  liveQueue : List PersistedTaskEvent
  /-- The answer of the database to the query of the connection. -/
  replay : Option (List TaskEvent)

/-- The last event id that a client sends when it connects. -/
def lastReceivedId (events : List PersistedTaskEvent) : Nat :=
  (events.getLast?.map PersistedTaskEvent.id).getD 0

/-- `stream`: the listener is registered before the log is read. -/
def Client.connect (taskId : String) (received : List PersistedTaskEvent) : Client where
  taskId := taskId
  received := received
  closed := false
  replaying := true
  listening := true
  lastSentId := lastReceivedId received
  liveQueue := []
  replay := none

/-- `emit`. -/
def Client.emit (client : Client) (event : PersistedTaskEvent) : Client :=
  if client.closed || event.id ≤ client.lastSentId then client
  else { client with
    lastSentId := event.id
    received := client.received ++ [event]
    closed := event.event.isTerminal
    listening := client.listening && !event.event.isTerminal }

/-- The listener of a connection. -/
def Client.hear (client : Client) (event : PersistedTaskEvent) : Client :=
  if client.replaying then { client with liveQueue := client.liveQueue ++ [event] }
  else client.emit event

/-- After these events the hub forgets the listeners of the task. -/
def forgets (event : TaskStreamEvent) : Bool :=
  match event.detail with
  | .completed | .failed _ _ => true
  | _ => false

/-- `deliver`, for one listener. -/
def Client.deliver (event : PersistedTaskEvent) (client : Client) : Client :=
  if client.taskId = event.event.taskId ∧ client.listening = true then
    let client := client.hear event
    { client with listening := client.listening && !forgets event.event }
  else client

def sortById (events : List PersistedTaskEvent) : List PersistedTaskEvent :=
  events.insertionSort fun a b => a.id ≤ b.id

/-- `listTaskEvents`. -/
def listTaskEvents (db : Database) (taskId : String) (afterId : Nat) : List TaskEvent :=
  (db.eventsOf taskId).filter fun row => afterId < row.id

/-- The rows of the answer, read back; download URLs are not signed here. -/
def readRow (settings : Settings) (row : TaskEvent) : Option PersistedTaskEvent :=
  (parsePersistedEvent settings row.payload).map fun event => ⟨row.id, event⟩

/-- The continuation of the query: an unreadable row ends the connection. -/
def Client.answer (settings : Settings) (rows : List TaskEvent) (client : Client) : Client :=
  match rows.mapM (readRow settings) with
  | none => { client with closed := true, listening := false }
  | some events =>
    { (sortById (events ++ client.liveQueue)).foldl Client.emit client with replaying := false }

structure StreamSystem where
  service : System
  clients : Nat → Option Client

def StreamSystem.init : StreamSystem := ⟨.init, fun _ => none⟩

inductive Label where
  | service (l : PersistCalls.Label)
  | connect (k : Nat) (taskId : String)
  /-- A new connection of a client; of what it was sent, it has received the first `n` events. -/
  | reconnect (k n : Nat)
  | list (k : Nat)
  | answer (k : Nat)
  | drop (k : Nat)

def StreamSystem.setClient (s : StreamSystem) (k : Nat) (client : Client) : StreamSystem :=
  { s with clients := Function.update s.clients k (some client) }

def step (settings : Settings) (s : StreamSystem) : Label → Option StreamSystem
  | .service l => do
    let service ← PersistCalls.step settings s.service l
    match publishing s.service l with
    | some event => some ⟨service, fun k => (s.clients k).map (Client.deliver event)⟩
    | none => some ⟨service, s.clients⟩
  | .connect k taskId =>
    match s.clients k with
    | some _ => none
    | none => some (s.setClient k (.connect taskId []))
  | .reconnect k n => do
    let client ← s.clients k
    some (s.setClient k (.connect client.taskId (client.received.take n)))
  | .list k => do
    let client ← s.clients k
    if client.closed || !client.replaying || client.replay.isSome then none
    else
      let rows := listTaskEvents s.service.db client.taskId client.lastSentId
      some (s.setClient k { client with replay := some rows })
  | .answer k => do
    let client ← s.clients k
    if client.closed || !client.replaying then none
    else
      let rows ← client.replay
      some (s.setClient k (client.answer settings rows))
  | .drop k => do
    let client ← s.clients k
    some (s.setClient k { client with closed := true, listening := false })

variable {settings : Settings} {client : Client} {event : PersistedTaskEvent}
  {events : List PersistedTaskEvent}

def eventIds (events : List PersistedTaskEvent) : List Nat := events.map PersistedTaskEvent.id

/-- What a client has received is in the order of the ids, and the filter remembers the last one. -/
structure InOrder (client : Client) : Prop where
  increasing : (eventIds client.received).Pairwise (· < ·)
  last : client.lastSentId = lastReceivedId client.received

theorem Client.deliver_taskId (event : PersistedTaskEvent) (client : Client) :
    (client.deliver event).taskId = client.taskId := by
  unfold Client.deliver Client.hear Client.emit
  split
  · split
    · rfl
    · split <;> rfl
  · rfl

theorem lastReceivedId_append (events : List PersistedTaskEvent) (event : PersistedTaskEvent) :
    lastReceivedId (events ++ [event]) = event.id := by
  simp [lastReceivedId]

theorem le_lastReceivedId (h : (eventIds events).Pairwise (· < ·)) :
    ∀ n ∈ eventIds events, n ≤ lastReceivedId events := by
  induction events using List.reverseRecOn with
  | nil => simp [eventIds]
  | append_singleton events event ih =>
    intro n hn
    rw [eventIds, List.map_append, List.pairwise_append] at h
    rw [eventIds, List.map_append, List.mem_append] at hn
    rw [lastReceivedId_append]
    rcases hn with hn | hn
    · exact Nat.le_of_lt (h.2.2 n hn event.id (by simp))
    · simp at hn
      omega

theorem InOrder.emit (h : InOrder client) : InOrder (client.emit event) := by
  unfold Client.emit
  split
  · exact h
  · rename_i hnew
    have hlt : client.lastSentId < event.id := by
      simp only [Bool.or_eq_true, decide_eq_true_eq, not_or] at hnew
      omega
    refine ⟨?_, (lastReceivedId_append _ _).symm⟩
    rw [eventIds, List.map_append, List.pairwise_append]
    refine ⟨h.increasing, List.pairwise_singleton _ _, fun m hm n hn => ?_⟩
    have hle := le_lastReceivedId h.increasing m hm
    rw [← h.last] at hle
    simp at hn
    omega

theorem emit_lastSentId_le (client : Client) (event : PersistedTaskEvent) :
    client.lastSentId ≤ (client.emit event).lastSentId := by
  unfold Client.emit
  split
  · exact Nat.le_refl _
  · rename_i hnew
    simp only [Bool.or_eq_true, decide_eq_true_eq, not_or] at hnew
    simp only
    omega

theorem emit_received (client : Client) (event : PersistedTaskEvent) :
    client.received <+: (client.emit event).received := by
  unfold Client.emit
  split
  · exact List.prefix_refl _
  · exact List.prefix_append _ _

theorem InOrder.emitAll (h : InOrder client) (events : List PersistedTaskEvent) :
    InOrder (events.foldl Client.emit client) := by
  induction events generalizing client with
  | nil => exact h
  | cons event events ih => exact ih h.emit

theorem emitAll_lastSentId_le (client : Client) (events : List PersistedTaskEvent) :
    client.lastSentId ≤ (events.foldl Client.emit client).lastSentId := by
  induction events generalizing client with
  | nil => exact Nat.le_refl _
  | cons event events ih => exact Nat.le_trans (emit_lastSentId_le client event) (ih _)

theorem emitAll_received (client : Client) (events : List PersistedTaskEvent) :
    client.received <+: (events.foldl Client.emit client).received := by
  induction events generalizing client with
  | nil => exact List.prefix_refl _
  | cons event events ih => exact (emit_received client event).trans (ih _)

theorem mem_eventIds_mono {es fs : List PersistedTaskEvent} (h : es <+: fs) {n : Nat}
    (hn : n ∈ eventIds es) : n ∈ eventIds fs := by
  obtain ⟨event, hevent, rfl⟩ := List.mem_map.mp hn
  exact List.mem_map_of_mem (h.subset hevent)

theorem emitAll_of_closed (h : client.closed = true) (events : List PersistedTaskEvent) :
    events.foldl Client.emit client = client := by
  induction events with
  | nil => rfl
  | cons event events ih =>
    have hemit : client.emit event = client := by simp [Client.emit, h]
    rw [List.foldl_cons, hemit]
    exact ih

/-- An event that is emitted to an open connection is at or below the last sent one. -/
theorem emit_le (h : client.closed = false) (event : PersistedTaskEvent) :
    event.id ≤ (client.emit event).lastSentId := by
  unfold Client.emit
  split
  · rename_i hold
    simpa [h] using hold
  · exact Nat.le_refl _

/-- Nothing but old events is left out, as far as the connection goes. -/
theorem emitAll_complete (hsorted : events.Pairwise fun a b => a.id ≤ b.id)
    (event : PersistedTaskEvent) (hmem : event ∈ events)
    (hle : event.id ≤ (events.foldl Client.emit client).lastSentId) :
    event.id ≤ client.lastSentId ∨
      event.id ∈ eventIds (events.foldl Client.emit client).received := by
  induction events generalizing client with
  | nil => cases hmem
  | cons first rest ih =>
    obtain ⟨hfirst, hrest⟩ := List.pairwise_cons.mp hsorted
    rw [List.foldl_cons] at hle ⊢
    by_cases hold : (client.closed || first.id ≤ client.lastSentId) = true
    · have hemit : client.emit first = client := by simp only [Client.emit, hold, if_true]
      rw [hemit] at hle ⊢
      rcases List.mem_cons.mp hmem with rfl | hmem
      · rcases Bool.or_eq_true_iff.mp hold with hclosed | hold
        · rw [emitAll_of_closed hclosed] at hle
          exact .inl hle
        · exact .inl (of_decide_eq_true hold)
      · exact ih hrest hmem hle
    · have hlast : (client.emit first).lastSentId = first.id := by simp only [Client.emit, hold]; rfl
      have hreceived : first.id ∈ eventIds (client.emit first).received := by
        simp only [Client.emit, hold]
        simp [eventIds]
      have hmono := emitAll_received (client.emit first) rest
      rcases List.mem_cons.mp hmem with rfl | hmem
      · exact .inr (mem_eventIds_mono hmono hreceived)
      · rcases ih hrest hmem hle with hold' | hnew
        · have heq : event.id = first.id := Nat.le_antisymm (hlast ▸ hold') (hfirst event hmem)
          rw [heq]
          exact .inr (mem_eventIds_mono hmono hreceived)
        · exact .inr hnew

/-- A connection that is still open has gone through all the events. -/
theorem emitAll_le (h : (events.foldl Client.emit client).closed = false) :
    ∀ event ∈ events, event.id ≤ (events.foldl Client.emit client).lastSentId := by
  induction events generalizing client with
  | nil => exact fun event hmem => by cases hmem
  | cons first rest ih =>
    intro event hmem
    rw [List.foldl_cons] at h ⊢
    have hopen : client.closed = false := by
      cases hclosed : client.closed with
      | false => rfl
      | true =>
        have hemit : client.emit first = client := by simp [Client.emit, hclosed]
        rw [hemit, emitAll_of_closed hclosed, hclosed] at h
        cases h
    rcases List.mem_cons.mp hmem with rfl | hmem
    · exact Nat.le_trans (emit_le hopen event) (emitAll_lastSentId_le _ rest)
    · exact ih h event hmem

/-- What is received comes from the events, and is above what was sent before. -/
theorem emitAll_sound (client : Client) (events : List PersistedTaskEvent) :
    ∀ event ∈ (events.foldl Client.emit client).received,
      event ∈ client.received ∨ event ∈ events := by
  induction events generalizing client with
  | nil => exact fun event hmem => .inl hmem
  | cons first rest ih =>
    intro event hmem
    rcases ih (client.emit first) event hmem with hmem | hmem
    · unfold Client.emit at hmem
      split at hmem
      · exact .inl hmem
      · rcases List.mem_append.mp hmem with hmem | hmem
        · exact .inl hmem
        · rw [List.mem_singleton.mp hmem]
          exact .inr List.mem_cons_self
    · exact .inr (List.mem_cons_of_mem _ hmem)

/-- The last sent id is an old one or that of one of the events. -/
theorem emitAll_lastSentId (client : Client) (events : List PersistedTaskEvent) :
    (events.foldl Client.emit client).lastSentId = client.lastSentId ∨
      (events.foldl Client.emit client).lastSentId ∈ eventIds events := by
  induction events generalizing client with
  | nil => exact .inl rfl
  | cons first rest ih =>
    rcases ih (client.emit first) with heq | hmem
    · rw [List.foldl_cons, heq]
      unfold Client.emit
      split
      · exact .inl rfl
      · exact .inr List.mem_cons_self
    · exact .inr (List.mem_cons_of_mem _ hmem)

end TaskStream
