import ClawWork.RegistryFrames

/-!
# The frames of one run

What the two gateway clients make of the frames that arrive for one task, one after the
other: the persistent client for an object of its registry, the one-shot client on its own
socket until its listeners are removed.
-/

namespace SingleRun

open JavaScript SharedTypes GatewayProtocol GatewayClient PersistentGatewayClient

/-- A frame and the time of its arrival. -/
structure Arrival where
  now : String
  frame : GatewayFrame

/-- The event of an entry that the handler of call `x` has got. -/
def eventOf (x : Nat) (entry : Entry) : Option TaskStreamEvent :=
  match entry.effect with
  | .event event => if entry.call = x then some event else none
  | _ => none

def eventOfEffect : Effect → Option TaskStreamEvent
  | .event event => some event
  | _ => none

section Persistent

variable (opts : Options)

/-- The clock is read. -/
def tick (c : Client) (now : String) : Client := { c with registry := { c.registry with clock := now } }

def receive (c : Client) (arrival : Arrival) : Client := (tick c arrival.now).handleMessage opts arrival.frame

def receiveAll (c : Client) (arrivals : List Arrival) : Client := arrivals.foldl (receive opts) c

/-- The events that the handler of call `x` gets while the frames arrive. -/
def emitted (c : Client) (x : Nat) (arrivals : List Arrival) : List TaskStreamEvent :=
  ((receiveAll opts c arrivals).registry.log.drop c.registry.log.length).filterMap (eventOf x)

end Persistent

section OneShot

variable (opts : Options)

/-- A frame that arrives when the listeners are removed is not heard. -/
def hear (o : OneShot) (arrival : Arrival) : OneShot × List Effect :=
  (o.step opts arrival.now (.message arrival.frame)).getD (o, [])

def heard (o : OneShot) : List Arrival → List TaskStreamEvent
  | [] => []
  | arrival :: arrivals =>
    (hear opts o arrival).2.filterMap eventOfEffect ++ heard (hear opts o arrival).1 arrivals

end OneShot

variable {opts : Options} {c : Client} {r : Registry} {x : Nat} {payload : EventPayload}

/-- The entry of an event for the handler of call `x`. -/
def entry (r : Registry) (x : Nat) (d : TaskEventDetail) : Entry := ⟨x, r.taskId x, .event (r.event x d)⟩

theorem log_emit (d : TaskEventDetail) : (r.emit x d).log = r.log ++ [entry r x d] := rfl

theorem log_emitArtifact (artifact : Option Artifact) : (r.emitArtifact x artifact).log =
    r.log ++ (artifact.map fun a => TaskEventDetail.resultCreated (.artifact a)).toList.map (entry r x) := by
  cases artifact with
  | none => simp [Registry.emitArtifact]
  | some a => rfl

/-- The labels of the events of an object stay the same as long as its identity does. -/
theorem entry_congr {r' : Registry} (hinput : (r'.tasks x).input = (r.tasks x).input)
    (hrun : (r'.tasks x).runId = (r.tasks x).runId) (hclock : r'.clock = r.clock) (d : TaskEventDetail) :
    entry r' x d = entry r x d := by
  simp only [entry, Registry.taskId, Registry.event, hinput, hrun, hclock]

theorem entry_emitArtifact (artifact : Option Artifact) (d : TaskEventDetail) :
    entry (r.emitArtifact x artifact) x d = entry r x d := by cases artifact <;> rfl

theorem log_onAgent : (r.onAgent opts x payload).log =
    r.log ++ (Registry.agentDetails opts r x payload).map (entry r x) := by
  simp only [Registry.onAgent, Registry.agentDetails, Registry.emitArtifact_tasks]
  by_cases hstream : payload.stream = some "assistant"
  · rw [if_pos hstream, if_pos hstream]
    split
    · simp [log_emitArtifact]
    · rw [log_emit, Registry.modify_log, log_emitArtifact, List.map_append, List.append_assoc, List.map_singleton,
        entry_congr (r := r) (by simp [Registry.emitArtifact_tasks]) (by simp [Registry.emitArtifact_tasks])]
      cases Registry.frameArtifact opts payload <;> rfl
  · rw [if_neg hstream, if_neg hstream]
    split
    · rw [log_emit, log_emitArtifact, entry_emitArtifact, List.map_append, List.append_assoc, List.map_singleton]
    · simp [log_emitArtifact]

theorem log_onChat :
    (r.onChat opts x payload).log = r.log ++ (Registry.chatDetails opts payload).map (entry r x) := by
  simp only [Registry.onChat, Registry.chatDetails]
  split <;> simp [log_emitArtifact, Registry.emitFailure, log_emit, entry_emitArtifact, *]

theorem log_receive (opts : Options) (c : Client) (arrival : Arrival) :
    c.registry.log <+: (receive opts c arrival).registry.log := by
  change (tick c arrival.now).registry.log <+: _
  unfold receive Client.handleMessage
  split
  · exact List.prefix_refl _
  · split
    · exact List.prefix_refl _
    · unfold Registry.onOk
      dsimp only
      split
      · exact List.prefix_refl _
      · exact List.prefix_append _ _
  · split
    · exact List.prefix_refl _
    · unfold Registry.onError
      dsimp only
      split <;> exact List.prefix_refl _
  · split
    · exact log_onAgent ▸ List.prefix_append _ _
    · exact List.prefix_refl _
  · split
    · exact log_onChat ▸ List.prefix_append _ _
    · exact List.prefix_refl _
  · exact List.prefix_refl _

theorem log_receiveAll (opts : Options) (c : Client) (arrivals : List Arrival) :
    c.registry.log <+: (receiveAll opts c arrivals).registry.log := by
  induction arrivals generalizing c with
  | nil => exact List.prefix_refl _
  | cons arrival arrivals ih => exact (log_receive opts c arrival).trans (ih _)

@[simp] theorem emitted_nil : emitted opts c x [] = [] := by simp [emitted, receiveAll]

theorem emitted_cons (arrival : Arrival) (arrivals : List Arrival) :
    emitted opts c x (arrival :: arrivals) =
      emitted opts c x [arrival] ++ emitted opts (receive opts c arrival) x arrivals := by
  obtain ⟨es, hes⟩ := log_receive opts c arrival
  obtain ⟨es', hes'⟩ := log_receiveAll opts (receive opts c arrival) arrivals
  unfold emitted receiveAll
  unfold receiveAll at hes'
  rw [List.foldl_cons, List.foldl_cons, List.foldl_nil, ← hes', List.drop_left, ← hes, List.append_assoc,
    List.drop_left, List.drop_left, List.filterMap_append]

theorem eventOf_entry (d : TaskEventDetail) : eventOf x (entry r x d) = some (r.event x d) := by
  simp [eventOf, entry]

theorem emitted_of_log {arrival : Arrival} {ds : List TaskEventDetail}
    (h : (receive opts c arrival).registry.log = c.registry.log ++ ds.map (entry r x)) :
    emitted opts c x [arrival] = ds.map (r.event x) := by
  rw [emitted, receiveAll, List.foldl_cons, List.foldl_nil, h, List.drop_left, List.filterMap_map,
    ← List.filterMap_eq_map]
  apply List.filterMap_congr
  intro d _
  exact eventOf_entry d

/-- The events of a frame that is about the object of call `x`. -/
theorem emitted_agent {now : String}
    (h : (tick c now).registry.findActive payload.runId payload.sessionKey = some x) :
    emitted opts c x [⟨now, .agent payload⟩] =
      (Registry.agentDetails opts c.registry x payload).map ((tick c now).registry.event x) := by
  apply emitted_of_log (r := (tick c now).registry)
  rw [receive, Client.handleMessage, h]
  exact log_onAgent

theorem emitted_chat {now : String}
    (h : (tick c now).registry.findActive payload.runId payload.sessionKey = some x) :
    emitted opts c x [⟨now, .chat payload⟩] =
      (Registry.chatDetails opts payload).map ((tick c now).registry.event x) := by
  apply emitted_of_log (r := (tick c now).registry)
  rw [receive, Client.handleMessage, h]
  exact log_onChat

end SingleRun
