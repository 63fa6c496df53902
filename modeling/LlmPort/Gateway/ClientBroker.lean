import Mathlib.Data.List.Basic

/-!
# Tool calls brokered to a client

The state of `services/gateway/client_ws.py`: client sessions with their pending calls, and the
registry of connections. A future is known by the number of the brokered call that awaits it.
-/

namespace LlmPort.Gateway

structure ToolCallResult where
  callId : String
  toolId : String
  content : String
  isError : Bool
  latencyMs : Int
  realm : String
  executor : String
  deriving DecidableEq

/-- A result of the broker. -/
def ToolCallResult.brokered (callId toolId content : String) (isError : Bool) (latencyMs : Int) :
    ToolCallResult :=
  ⟨callId, toolId, content, isError, latencyMs, "client_local", "ClientToolBroker"⟩

/-- `created_at` in milliseconds. -/
structure PendingToolCall where
  callId : String
  toolId : String
  future : Nat
  createdAt : Int

/-- A session of the gateway, by its id. -/
abbrev GatewaySessionId := String

structure ClientSession where
  sessionId : GatewaySessionId
  clientId : String
  /-- `pending_calls`, which the broker keys by `call_id`. -/
  pendingCalls : List PendingToolCall
  connected : Bool

namespace ClientSession

def getPending (cs : ClientSession) (callId : String) : Option PendingToolCall :=
  cs.pendingCalls.find? (·.callId = callId)

def popPending (cs : ClientSession) (callId : String) : ClientSession :=
  { cs with pendingCalls := cs.pendingCalls.filter (·.callId ≠ callId) }

/-- `pending_calls[call_id] = pending`; the order of the entries plays no part. -/
def setPending (cs : ClientSession) (pending : PendingToolCall) : ClientSession :=
  { cs with
    pendingCalls := cs.pendingCalls.filter (·.callId ≠ pending.callId) ++ [pending] }

end ClientSession

/-- `_connections`, in insertion order, with the number of the client session under each key. -/
abbrev ClientConnections := List ((GatewaySessionId × String) × Nat)

namespace ClientConnections

def register (connections : ClientConnections) (key : GatewaySessionId × String) (c : Nat) :
    ClientConnections :=
  if connections.any (·.1 = key) then
    connections.map fun x => if x.1 = key then (key, c) else x
  else connections ++ [(key, c)]

def unregister (connections : ClientConnections) (key : GatewaySessionId × String) :
    ClientConnections :=
  connections.filter (·.1 ≠ key)

/-- The first connected client of a session. -/
def getAnyForSession (connections : ClientConnections) (sessions : List ClientSession)
    (sessionId : GatewaySessionId) : Option Nat :=
  (connections.find? fun x => x.1.1 = sessionId && sessions[x.2]?.any (·.connected)).map (·.2)

end ClientConnections

/-- A message about a tool call: the content and the error flag it gives, `none` for a result that
is no object, on which `.get` raises. -/
inductive ToolCallMessage where
  | toolCallResult (result : Option String) (ok : Bool)
  | toolCallError (error : Option String)

def ToolCallMessage.outcome : ToolCallMessage → Option (String × Bool)
  | toolCallResult result ok => result.map fun content => (content, !ok)
  | toolCallError error => some (error.getD "Client tool execution failed.", true)

end LlmPort.Gateway
