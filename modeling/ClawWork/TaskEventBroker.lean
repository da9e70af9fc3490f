import ClawWork.EventJson
import ClawWork.OrderedMap

/-!
# The event history of the adapter

The broker numbers the events of each task, keeps the last of them for replay and
calls the listeners of the task. A listener is named by the number of the response
it writes to. Some time after a terminal event a timer deletes what is kept of the
task, its numbering included.
-/

namespace TaskEventBroker

open JavaScript SharedTypes

structure BrokerEvent where
  id : Nat
  event : TaskStreamEvent

structure Broker where
  maxEventsPerTask : Nat
  history : OrderedMap String (List BrokerEvent)
  listeners : OrderedMap String (List Nat)
  cleanupTimers : OrderedMap String Unit
  nextIds : OrderedMap String Nat

/-- `add` of a set of listeners, in the order of insertion. -/
def addListener (taskListeners : List Nat) (listener : Nat) : List Nat :=
  if listener ∈ taskListeners then taskListeners else taskListeners ++ [listener]

theorem mem_addListener {taskListeners : List Nat} {listener other : Nat}
    (h : other ∈ addListener taskListeners listener) : other = listener ∨ other ∈ taskListeners := by
  unfold addListener at h
  split at h
  · exact .inr h
  · rw [List.mem_append, List.mem_singleton] at h
    exact h.symm

namespace Broker

variable {b : Broker} {t u : String}

def new (maxEventsPerTask : Nat) : Broker := ⟨maxEventsPerTask, .empty, .empty, .empty, .empty⟩

def historyOf (b : Broker) (taskId : String) : List BrokerEvent := (b.history.get taskId).getD []

def nextId (b : Broker) (taskId : String) : Nat := (b.nextIds.get taskId).getD 1

def listenersOf (b : Broker) (taskId : String) : List Nat := (b.listeners.get taskId).getD []

def scheduleCleanup (b : Broker) (taskId : String) : Broker :=
  { b with cleanupTimers := b.cleanupTimers.set taskId () }

/-- The broker after `publish`; the event goes to the listeners it had before. -/
def publish (b : Broker) (taskId : String) (event : TaskStreamEvent) : BrokerEvent × Broker :=
  let item : BrokerEvent := ⟨b.nextId taskId, event⟩
  let nextHistory := sliceLast b.maxEventsPerTask (b.historyOf taskId ++ [item])
  let b := { b with
    nextIds := b.nextIds.set taskId (item.id + 1), history := b.history.set taskId nextHistory }
  if event.isTerminal then
    (item, { b with listeners := b.listeners.delete taskId }.scheduleCleanup taskId)
  else (item, b)

def replay (b : Broker) (taskId : String) (afterId : Nat) : List BrokerEvent :=
  (b.historyOf taskId).filter fun item => afterId < item.id

def subscribe (b : Broker) (taskId : String) (listener : Nat) : Broker :=
  let taskListeners := addListener (b.listenersOf taskId) listener
  { b with listeners := b.listeners.set taskId taskListeners }

/-- What `subscribe` returns. -/
def unsubscribe (b : Broker) (taskId : String) (listener : Nat) : Broker :=
  match b.listeners.get taskId with
  | none => b
  | some current =>
    if (current.erase listener).isEmpty then { b with listeners := b.listeners.delete taskId }
    else { b with listeners := b.listeners.set taskId (current.erase listener) }

/-- The cleanup timer of a task. -/
def cleanup (b : Broker) (taskId : String) : Broker :=
  { b with
    cleanupTimers := b.cleanupTimers.delete taskId
    history := b.history.delete taskId
    listeners := b.listeners.delete taskId
    nextIds := b.nextIds.delete taskId }

@[simp] theorem publish_fst (b : Broker) (taskId : String) (event : TaskStreamEvent) :
    (b.publish taskId event).1 = ⟨b.nextId taskId, event⟩ := by
  unfold publish
  dsimp only
  split <;> rfl

@[simp] theorem publish_max (b : Broker) (taskId : String) (event : TaskStreamEvent) :
    (b.publish taskId event).2.maxEventsPerTask = b.maxEventsPerTask := by
  unfold publish
  dsimp only
  split <;> rfl

theorem publish_historyOf (b : Broker) (event : TaskStreamEvent) :
    (b.publish u event).2.historyOf t =
      if t = u then sliceLast b.maxEventsPerTask (b.historyOf u ++ [⟨b.nextId u, event⟩])
      else b.historyOf t := by
  unfold publish
  dsimp only
  split <;> simp only [historyOf, scheduleCleanup, OrderedMap.get_set] <;> split <;> rfl

theorem publish_nextId (b : Broker) (event : TaskStreamEvent) :
    (b.publish u event).2.nextId t = if t = u then b.nextId u + 1 else b.nextId t := by
  unfold publish
  dsimp only
  split <;> simp only [nextId, scheduleCleanup, OrderedMap.get_set] <;> split <;> rfl

theorem publish_listenersOf (b : Broker) (event : TaskStreamEvent) :
    (b.publish u event).2.listenersOf t =
      if t = u ∧ event.isTerminal = true then [] else b.listenersOf t := by
  unfold publish
  dsimp only
  by_cases hterm : event.isTerminal = true
  · rw [if_pos hterm]
    simp only [listenersOf, scheduleCleanup, OrderedMap.get_delete, hterm, and_true]
    split <;> rfl
  · rw [if_neg hterm, if_neg fun h => hterm h.2]
    rfl

theorem mem_subscribe {listener other : Nat} (h : other ∈ (b.subscribe u listener).listenersOf t) :
    other = listener ∨ other ∈ b.listenersOf t := by
  simp only [subscribe, listenersOf, OrderedMap.get_set] at h
  split at h
  · rename_i htu
    rw [listenersOf, htu]
    exact mem_addListener h
  · exact .inr h

theorem mem_unsubscribe {listener other : Nat}
    (h : other ∈ (b.unsubscribe u listener).listenersOf t) : other ∈ b.listenersOf t := by
  unfold unsubscribe at h
  split at h
  · exact h
  · rename_i current hcurrent
    split at h
    · simp only [listenersOf, OrderedMap.get_delete] at h
      split at h
      · cases h
      · exact h
    · simp only [listenersOf, OrderedMap.get_set] at h
      split at h
      · rename_i htu
        rw [listenersOf, htu, hcurrent]
        exact List.mem_of_mem_erase h
      · exact h

@[simp] theorem unsubscribe_historyOf (listener : Nat) :
    (b.unsubscribe u listener).historyOf t = b.historyOf t := by
  unfold unsubscribe
  split
  · rfl
  · split <;> rfl

@[simp] theorem unsubscribe_nextId (listener : Nat) :
    (b.unsubscribe u listener).nextId t = b.nextId t := by
  unfold unsubscribe
  split
  · rfl
  · split <;> rfl

@[simp] theorem unsubscribe_cleanupTimers (listener : Nat) :
    (b.unsubscribe u listener).cleanupTimers = b.cleanupTimers := by
  unfold unsubscribe
  split
  · rfl
  · split <;> rfl

@[simp] theorem unsubscribe_max (listener : Nat) :
    (b.unsubscribe u listener).maxEventsPerTask = b.maxEventsPerTask := by
  unfold unsubscribe
  split
  · rfl
  · split <;> rfl

theorem cleanup_historyOf (b : Broker) :
    (b.cleanup u).historyOf t = if t = u then [] else b.historyOf t := by
  simp only [cleanup, historyOf, OrderedMap.get_delete]
  split <;> rfl

theorem cleanup_nextId (b : Broker) :
    (b.cleanup u).nextId t = if t = u then 1 else b.nextId t := by
  simp only [cleanup, nextId, OrderedMap.get_delete]
  split <;> rfl

theorem cleanup_listenersOf (b : Broker) :
    (b.cleanup u).listenersOf t = if t = u then [] else b.listenersOf t := by
  simp only [cleanup, listenersOf, OrderedMap.get_delete]
  split <;> rfl

end Broker

/-- The history of a task is the end of its numbering, and is cut only when it is full. -/
structure Numbered (max next : Nat) (items : List BrokerEvent) : Prop where
  ids : items.map BrokerEvent.id = List.range' (next - items.length) items.length
  fits : items.length + 1 ≤ next
  full : items.length + 1 = next ∨ max ≤ items.length ∧ 0 < max

theorem numbered_nil (max : Nat) : Numbered max 1 [] := ⟨rfl, Nat.le_refl 1, .inl rfl⟩

variable {max next : Nat} {items : List BrokerEvent}

theorem Numbered.append (h : Numbered max next items) (event : TaskStreamEvent) :
    Numbered max (next + 1) (items ++ [⟨next, event⟩]) := by
  have hfits := h.fits
  have hlength : (items ++ [(⟨next, event⟩ : BrokerEvent)]).length = items.length + 1 := by simp
  refine ⟨?_, by omega, ?_⟩
  · rw [hlength, List.map_append, h.ids, Nat.add_sub_add_right, List.range'_concat]
    congr 1
    show [next] = _
    rw [Nat.one_mul, show next - items.length + items.length = next by omega]
  · rcases h.full with hall | ⟨hfull, hpos⟩
    · exact .inl (by omega)
    · exact .inr ⟨by omega, hpos⟩

theorem Numbered.slice (h : Numbered max next items) : Numbered max next (sliceLast max items) := by
  unfold sliceLast
  by_cases hpos : max = 0
  · rw [if_pos hpos]
    exact h
  · have hfits := h.fits
    have hlength : (items.drop (items.length - max)).length = items.length - (items.length - max) :=
      List.length_drop
    rw [if_neg hpos]
    refine ⟨?_, by omega, ?_⟩
    · rw [List.map_drop, h.ids, List.drop_range', hlength]
      congr 1
      omega
    · rcases h.full with hall | ⟨hfull, -⟩
      · by_cases hle : items.length ≤ max
        · exact .inl (by omega)
        · exact .inr ⟨by omega, by omega⟩
      · exact .inr ⟨by omega, by omega⟩

/-- The history reaches back to every number that it has had room for. -/
theorem Numbered.start_le (h : Numbered max next items) {k : Nat} (hroom : next ≤ k + 1 + max) :
    next - items.length ≤ k + 1 := by
  have hfits := h.fits
  rcases h.full with hall | ⟨hfull, -⟩ <;> omega

end TaskEventBroker
