import ClawWork.RelayRestarts
import ClawWork.UpTo

/-!
# One response of the event stream

The broker publishes events of any tasks, the handler of `GET /gateway/tasks/:id/events`
answers one request of the task `t`, and the broker publishes further ones. Nothing
is cleaned up. The response gives the retained events beyond the cursor up to the
first terminal one, and ends with the task, exactly when no terminal event was
published before the request and the cursor is one of a published event, or the
first terminal event beyond the cursor is the last retained one.
-/

namespace EventResponses

open JavaScript SharedTypes TaskEventBroker AdapterStream RelayRestarts UpTo

/-- The arguments of a call of `publish`. -/
abbrev Call := String × TaskStreamEvent

/-- The adapter while it answers the request. -/
structure Stream where
  broker : Broker
  response : Response

variable {settings : StreamSettings} {t : String} {b : Broker} {calls before after live : List Call}

def publishAll (b : Broker) (calls : List Call) : Broker :=
  calls.foldl (fun b call => (b.publish call.1 call.2).2) b

/-- What the calls publish for the task. -/
def published (t : String) (b : Broker) : List Call → List BrokerEvent
  | [] => []
  | call :: calls =>
    let rest := published t (b.publish call.1 call.2).2 calls
    if call.1 = t then (b.publish call.1 call.2).1 :: rest else rest

def isTerminal (item : BrokerEvent) : Bool := item.event.isTerminal

/-- A call of `publish` reaches the response through its listener. -/
def Stream.publish (settings : StreamSettings) (s : Stream) (call : Call) : Stream :=
  let (item, broker) := s.broker.publish call.1 call.2
  ⟨broker, deliver settings call.1 (s.broker.listenersOf call.1) item s.response⟩

/-- The response to a request for `t` after the calls `before`, when `live` has been published since. -/
def respond (settings : StreamSettings) (max : Nat) (t : String) (lastEventId : Option String)
    (before live : List Call) : Response :=
  let (response, broker) := openEvents settings (publishAll (.new max) before) t lastEventId 0
  (live.foldl (Stream.publish settings) ⟨broker, response⟩).response

/-- The events beyond the cursor: those retained at the request, and those published since. -/
def beyond (max : Nat) (t : String) (lastEventId : Option String) (before live : List Call) :
    List BrokerEvent :=
  let b := publishAll (.new max) before
  (b.historyOf t ++ published t b live).filter fun item => replayAfter lastEventId < item.id

/-- The response has what it should have at one moment. -/
structure Answered (settings : StreamSettings) (max : Nat) (t : String) (lastEventId : Option String)
    (before live : List Call) : Prop where
  text : (respond settings max t lastEventId before live).text =
    (upTo isTerminal (beyond max t lastEventId before live)).flatMap (sseText settings)
  increasing : ((beyond max t lastEventId before live).map BrokerEvent.id).Pairwise (· < ·)
  ended : (respond settings max t lastEventId before live).ended =
    (published t (.new max) (before ++ live)).any isTerminal

/-- The cursor is the number of an event that was published before the request, or zero, and none of
them was terminal. -/
def Running (max : Nat) (t : String) (lastEventId : Option String) (before after : List Call) : Prop :=
  let b := publishAll (.new max) before
  (∀ item ∈ published t (.new max) before, isTerminal item = false) ∧
    (replayAfter lastEventId < b.nextId t ∨ published t b after = [])

variable {max : Nat} {lastEventId : Option String}

def completedRun : List Call :=
  [("t", ⟨.accepted, "t", "s", "r", "T"⟩), ("t", ⟨.completed, "t", "s", "r", "T"⟩)]

end EventResponses
