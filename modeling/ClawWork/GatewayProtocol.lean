import ClawWork.SharedTypes

/-!
# Frames exchanged with the gateway

The frames a gateway socket delivers and the requests the adapter writes on it,
with the members that the two gateway clients read and set. An error response
without an `error` object is one whose code and message are absent.
-/

namespace GatewayProtocol

open JavaScript

structure EventPayload where
  runId : Option String := none
  sessionKey : Option String := none
  state : Option String := none
  errorMessage : Option String := none
  stream : Option String := none
  data : Option (List (String × Json)) := none
  message : Option Json := none

inductive GatewayFrame where
  | challenge
  | ok (id : String) (runId mainSessionKey : Option String)
  | error (id : String) (code message : Option String)
  | agent (payload : EventPayload)
  | chat (payload : EventPayload)
  /-- Any other frame that parses: neither a response nor an event the clients know. -/
  | other

structure GatewayAttachment where
  mimeType : String
  fileName : String
  content : String
  deriving DecidableEq, Repr

structure PreparedGatewayInput where
  message : String
  attachments : List GatewayAttachment
  deriving DecidableEq, Repr, Inhabited

inductive GatewayRequest where
  | connect (id : String)
  | chatSend (id sessionKey message : String) (attachments : List GatewayAttachment)
      (idempotencyKey : String) (timeoutMs : Nat)
  | chatAbort (id sessionKey : String) (runId : Option String)
  deriving DecidableEq, Repr

structure GatewayError where
  code : String
  message : String
  deriving DecidableEq, Repr, Inhabited

/-- What an execution promise resolves with. -/
structure Accepted where
  taskId : String
  sessionId : String
  runId : String
  sessionKey : String
  deriving DecidableEq, Repr, Inhabited

structure ExecuteGatewayTaskInput where
  taskId : String
  sessionId : String
  message : String
  deriving DecidableEq, Repr, Inhabited

inductive ReadyState where
  | connecting | opened | closing | closed
  deriving DecidableEq, Repr, Inhabited

/-- `ws.close()` and `ws.terminate()` leave the open state at once. -/
def ReadyState.shut : ReadyState → ReadyState
  | .connecting | .opened => .closing
  | state => state

/-- The settings of the process that the clients read. -/
structure Options where
  agentId : String
  taskTimeoutMs : Nat
  toLowerCase : String → String
  /-- The URL check of the schema library. -/
  isUrl : String → Bool
  /-- `String(value)` on a value that is no string. -/
  display : Json → String

/-- The settings without any environment variable, with ASCII stand-ins for the library calls. -/
def defaultOptions : Options where
  agentId := "main"
  taskTimeoutMs := 120000
  toLowerCase s := .ofList (s.toList.map Char.toLower)
  isUrl s := startsWith s "http://" || startsWith s "https://"
  display _ := "[object Object]"

end GatewayProtocol
