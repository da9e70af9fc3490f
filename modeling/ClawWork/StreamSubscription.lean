import ClawWork.AdapterStream
import ClawWork.Transition

/-!
# The event stream subscription of the app

`subscribeTaskStream` reads the body of a request while it grows and opens the next request
when one fails, from the last event id it has seen. A request keeps the variables of its own
`connect` call; the subscription keeps what all of them share. The environment decides how
much of a body arrives, when each callback of a request runs and when it fails.
-/

namespace StreamSubscription

open JavaScript AdapterRelay AdapterStream

variable {ε : Type}

/-- The JSON printer of the server, the parser of the app, and `isTerminalEvent`. -/
structure Wire (ε : Type) where
  print : ε → String
  /-- `none` is an exception of `JSON.parse`. -/
  parse : String → Option ε
  isTerminal : ε → Bool

/-- The event is read back from its text, which is one line. -/
structure Wire.Readable (w : Wire ε) (e : ε) : Prop where
  parse : w.parse (w.print e) = some e
  line : ∀ c ∈ (w.print e).toList, c ≠ '\n' ∧ c ≠ '\r'

/-- The lines that the server library writes for an event of the log. -/
def eventLines (w : Wire ε) (p : Nat × ε) : List (List Char) :=
  ["id: ".toList ++ (toString p.1).toList, "retry: 1500".toList, "data: ".toList ++ (w.print p.2).toList]

def eventBody (w : Wire ε) (p : Nat × ε) : List Char := ['\n'].intercalate (eventLines w p)

def eventText (w : Wire ε) (p : Nat × ε) : List Char := eventBody w p ++ ['\n', '\n']

/-- A server with the log of the task. A body may open with a line break. -/
structure Server (w : Wire ε) where
  log : List (Nat × ε)
  increasing : log.Pairwise fun p q => p.1 < q.1
  readable : ∀ p ∈ log, w.Readable p.2
  opening : List Char
  opening_line : opening = [] ∨ opening = ['\n']

/-- The events that a request asks for; without a header it asks for all of them. -/
def above (log : List (Nat × ε)) (lastEventId : String) : List (Nat × ε) :=
  match number lastEventId with
  | some n => log.filter fun p => n < p.1
  | none => log

/-- The body that the server sends when nothing cuts it. -/
def Server.body {w : Wire ε} (server : Server w) (lastEventId : String) : List Char :=
  server.opening ++ (above server.log lastEventId).flatMap (eventText w)

/-- What the subscription does that its caller or the server sees. -/
inductive Action (ε : Type) where
  | opened (lastEventId : String)
  | event (e : ε)
  | complete
  | error (message : String)
  deriving DecidableEq

structure Request where
  /-- The header it was sent with; the empty text is no header. -/
  lastEventId : String
  responseText : List Char
  cursor : Nat
  buffer : List Char
  retryScheduled : Bool
  aborted : Bool

structure Subscription (ε : Type) where
  requests : Nat → Request
  /-- How many requests there are; the variable `xhr` refers to the last one. -/
  opened : Nat
  closed : Bool
  terminal : Bool
  lastEventId : String
  retryCount : Nat
  /-- Whether the retry timer is pending. -/
  retryTimer : Bool
  trace : List (Action ε)

namespace Subscription

variable (w : Wire ε) (closes : ε → Bool)

def xhr (s : Subscription ε) : Nat := s.opened - 1

def setRequest (s : Subscription ε) (n : Nat) (r : Request) : Subscription ε :=
  { s with requests := Function.update s.requests n r }

def record (s : Subscription ε) (a : Action ε) : Subscription ε := { s with trace := s.trace ++ [a] }

/-- `abort` of the current request. It runs `onreadystatechange` once more, which finds the
subscription closed or ended and returns; after that no callback of the request runs. -/
def abort (s : Subscription ε) : Subscription ε := s.setRequest s.xhr { s.requests s.xhr with aborted := true }

def connect (s : Subscription ε) : Subscription ε :=
  if s.closed || s.terminal then s
  else
    let request := ⟨s.lastEventId, [], 0, [], false, false⟩
    { s.setRequest s.opened request with opened := s.opened + 1 }.record (.opened s.lastEventId)

def close (s : Subscription ε) : Subscription ε :=
  if s.closed then s else { s with closed := true, retryTimer := false }.abort

def noteId (s : Subscription ε) (lines : List (List Char)) : Subscription ε :=
  match lines.find? fun line => "id: ".toList.isPrefixOf line with
  | some line => if line.drop 4 = [] then s else { s with lastEventId := .ofList (line.drop 4) }
  | none => s

/-- `handlers.onEvent(event)`; the handler may close the subscription before it returns. -/
def onEvent (s : Subscription ε) (e : ε) : Subscription ε :=
  let s := { s with retryCount := 0 }.record (.event e)
  if closes e then s.close else s

def onComplete (s : Subscription ε) : Subscription ε := ({ s with terminal := true }.record .complete).abort

/-- The text that is left of a buffer: what comes before further blank lines, and the rest. -/
def rejoin (raws : List (List Char)) (left : List Char) : List Char := raws.flatMap (· ++ ['\n', '\n']) ++ left

/-- The loop of `flush` over the complete events of the buffer, with the buffer it leaves. -/
def flushLoop (left : List Char) : Subscription ε → List (List Char) → Subscription ε × List Char
  | s, [] => (s, left)
  | s, raw :: raws =>
    let lines := raw.splitOn '\n'
    let s := s.noteId lines
    match lines.find? fun line => "data: ".toList.isPrefixOf line with
    | none => flushLoop left s raws
    | some line =>
      match w.parse (.ofList (line.drop 6)) with
      | none => (s, rejoin raws left)
      | some e =>
        let s := s.onEvent closes e
        if w.isTerminal e then (s.onComplete, rejoin raws left) else flushLoop left s raws

def flush (s : Subscription ε) (n : Nat) : Subscription ε :=
  if s.closed || n ≠ s.xhr then s
  else
    let r := s.requests n
    let chunk := r.responseText.drop r.cursor
    if chunk = [] then s
    else
      let (raws, left) := splitEvents (r.buffer ++ replaceCrlf chunk)
      let s := s.setRequest n { r with cursor := r.responseText.length }
      let (s, buffer) := flushLoop w closes left s raws
      s.setRequest n { s.requests n with buffer }

def retry (s : Subscription ε) (n : Nat) (message : String) : Subscription ε :=
  if s.closed || s.terminal || n ≠ s.xhr then s
  else if (s.requests n).retryScheduled then s
  else
    let s := s.setRequest n { s.requests n with retryScheduled := true }
    if 5 ≤ s.retryCount then { s with closed := true }.record (.error message)
    else { s with retryCount := s.retryCount + 1, retryTimer := true }

def onReadyStateChange (s : Subscription ε) (n readyState status : Nat) : Subscription ε :=
  if s.closed || s.terminal || n ≠ s.xhr then s
  else
    let s := if readyState = 3 ∨ readyState = 4 then s.flush w closes n else s
    if readyState = 4 && !s.terminal then
      s.retry n ("stream closed: " ++ if status = 0 then "network" else toString status)
    else s

/-- The subscription when `subscribeTaskStream` returns. -/
def start : Subscription ε :=
  connect ⟨fun _ => ⟨"", [], 0, [], false, false⟩, 0, false, false, "", 0, false, []⟩

/-- A request whose callbacks can still run. -/
def live (s : Subscription ε) (n : Nat) : Bool := decide (n < s.opened) && !(s.requests n).aborted

end Subscription

inductive Label where
  /-- More text of the body of a request has arrived. -/
  | receive (n : Nat) (text : List Char)
  | progress (n : Nat)
  | readyState (n readyState status : Nat)
  | error (n : Nat)
  /-- The retry timer fires. -/
  | timer
  | close

def step {w : Wire ε} (server : Server w) (closes : ε → Bool) (s : Subscription ε) : Label → Option
    (Subscription ε)
  | .receive n text =>
    let r := s.requests n
    let responseText := r.responseText ++ text
    if s.live n && responseText.isPrefixOf (server.body r.lastEventId) then
      some (s.setRequest n { r with responseText })
    else none
  | .progress n => if s.live n then some (s.flush w closes n) else none
  | .readyState n readyState status =>
    if s.live n then some (s.onReadyStateChange w closes n readyState status) else none
  | .error n => if s.live n then some (s.retry n "stream failed") else none
  | .timer => if s.retryTimer then some { s with retryTimer := false }.connect else none
  | .close => some s.close

end StreamSubscription
