import ClawWork.ReconnectDelivery
import ClawWork.StreamedMessages

/-!
# The stream of the task on the screen

The effect of `ConversationScreen` subscribes to the current task while it is queued or
running, and again whenever the task or its status has changed: the clean-up closes the
subscription, and the next one starts with the first event of the log. The environment decides
when the callbacks of the requests run, when the screen is rendered and when the effect runs.
-/

namespace ConversationStream

open SharedTypes TaskStore ConversationStore StreamedMessages StreamSubscription
open Transition (run Along Throughout)

/-- The JSON printer of the server and the parser of the app, on the events of a stream. -/
def wire (print : TaskStreamEvent → String) (parse : String → Option TaskStreamEvent) :
    Wire TaskStreamEvent := ⟨print, parse, TaskStreamEvent.isTerminal⟩

structure Stream where
  taskId : String
  subscription : Subscription TaskStreamEvent

/-- What a render of the screen sees: `currentTaskId` and `currentStatus`. -/
abbrev Deps := Option String × Option TaskStatus

structure Screen where
  store : TaskState
  /-- The events that `streamStore` has got. -/
  streamStore : List TaskStreamEvent
  rendered : Deps
  /-- The values that the effect has last run for. -/
  deps : Option Deps
  /-- The task and the subscription that the effect has to clean up. -/
  cleanup : Option (String × Nat)
  activeTaskIdRef : Option String
  activeSubscriptionRef : Option Nat
  streams : List Stream

/-- The screen as it is mounted. -/
def Screen.mount (store : TaskState) : Screen where
  store
  streamStore := []
  rendered := (store.currentTaskId, store.currentStatus)
  deps := none
  cleanup := none
  activeTaskIdRef := none
  activeSubscriptionRef := none
  streams := []

/-- The task is queued or running. -/
def isActive : Option TaskStatus → Bool
  | some .queued | some .running => true
  | _ => false

namespace Screen

variable (s : Screen)

def closeStream (n : Nat) : Screen :=
  { s with streams := s.streams.modify n fun stream =>
      { stream with subscription := stream.subscription.close } }

/-- `activeSubscriptionRef.current?.close()`. -/
def closeActive : Screen :=
  match s.activeSubscriptionRef with
  | some n => s.closeStream n
  | none => s

def subscribe (taskId : String) : Screen :=
  let s := s.closeActive
  { s with
    activeTaskIdRef := some taskId, activeSubscriptionRef := some s.streams.length,
    cleanup := some (taskId, s.streams.length), streams := s.streams ++ [⟨taskId, Subscription.start⟩] }

/-- The function that the effect has returned when it last ran. -/
def runCleanup : Screen :=
  match s.cleanup with
  | none => s
  | some (taskId, n) =>
    let s := { s with
      cleanup := none
      activeTaskIdRef := if s.activeTaskIdRef = some taskId then none else s.activeTaskIdRef
      activeSubscriptionRef := if s.activeSubscriptionRef = some n then none else s.activeSubscriptionRef }
    s.closeStream n

/-- The task that the effect subscribes to, for what was rendered. -/
def subscribesTo : Option String :=
  if isActive s.rendered.2 then TasksService.truthy s.rendered.1 else none

def runEffect : Screen :=
  let after := { s.runCleanup with deps := some s.rendered }
  match s.subscribesTo with
  | some taskId => if after.activeTaskIdRef = some taskId then after else after.subscribe taskId
  | none => after

/-- The handlers of a subscription to a task. -/
def handle (taskId : String) (s : Screen) : Action TaskStreamEvent → Screen
  | .opened _ => s
  | .event event => { s with
      streamStore := s.streamStore ++ [event], store := s.store.applyStreamEvent event }
  | .error message => { s with store := s.store.setTaskError message }
  | .complete =>
    if s.activeTaskIdRef = some taskId then { s with activeTaskIdRef := none, activeSubscriptionRef := none }
    else s

end Screen

inductive Label where
  /-- A callback of a request of a subscription, or its timer. -/
  | stream (n : Nat) (label : StreamSubscription.Label)
  | render
  | effect
  /-- `getTaskVersions` has returned. -/
  | versions (versions : List TaskResult)

/-- The step of a subscription and its handlers, which run in the order of its actions. -/
def stepStream {w : Wire TaskStreamEvent} (servers : String → Server w) (s : Screen) (n : Nat)
    (label : StreamSubscription.Label) : Option Screen := do
  let stream ← s.streams[n]?
  let subscription ← StreamSubscription.step (servers stream.taskId) (fun _ => false) stream.subscription label
  let actions := subscription.trace.drop stream.subscription.trace.length
  let s := { s with streams := s.streams.set n { stream with subscription } }
  some (actions.foldl (Screen.handle stream.taskId) s)

def step {w : Wire TaskStreamEvent} (servers : String → Server w) (s : Screen) : Label → Option Screen
  | .stream _ .close => none
  | .stream n label => stepStream servers s n label
  | .render => some { s with rendered := (s.store.currentTaskId, s.store.currentStatus) }
  | .effect => if s.deps = some s.rendered then none else some s.runEffect
  | .versions versions => some { s with
      store := { s.store with
        resultVersions := versions, selectedVersionNo := versions.getLast?.map TaskResult.versionNo } }

end ConversationStream
