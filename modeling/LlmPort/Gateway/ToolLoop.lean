import LlmPort.Gateway.McpClient
import LlmPort.Gateway.ToolRouter
import LlmPort.Gateway.RequestRun
import LlmPort.Transition.Loop

/-!
# The tool loop

`_run_mcp_tool_loop` of `services/gateway/service.py`: it runs the tool calls of an answer that are
the gateway's, through the tool router or the MCP client alone, appends what they gave and asks the
model again.
-/

namespace LlmPort.Gateway

open Text Transition

/-- A tool call of an answer, with the name and the arguments of its function; `null` stands for a
name that is missing. -/
structure FunctionCall where
  id : Option Json
  name : Json
  arguments : Option Json

/-- `choices[0]["message"]` -/
structure AssistantMessage where
  content : Json
  toolCalls : List FunctionCall

/-- A message of a request, as far as its tool calls go. -/
inductive LoopMessage where
  | assistant (message : AssistantMessage)
  | tool (toolCallId : Json) (content : String)
  | other (role content : String)

/-- `_error_payload` of the adapter. -/
structure ErrorPayload where
  type : String
  message : String
  code : String

/-- A `CompletionResult`, with the messages of its choices. -/
structure LoopAnswer where
  statusCode : Nat
  choices : List AssistantMessage
  error : Option ErrorPayload

/-- What `mcp_client.call_tool` gives, and how long it took. -/
inductive McpCallOutcome where
  | result (r : McpToolCallResult)
  | failed (exc : String)
  | cancelled

/-- What a turn is given: by the calls it makes, in their order, and by the model; `none` is an
exception. -/
structure LoopRound where
  routed : Nat → RouteRun
  called : Nat → McpCallOutcome × Int
  recalled : Option LoopAnswer

structure ToolDispatch where
  qualifiedName : String
  arguments : Json
  callId : Json
  /-- An executor ran, or the MCP client made the call. -/
  executed : Bool

/-- An entry of `all_tool_calls`. -/
structure ToolCallRecord where
  iteration : Nat
  toolName : String
  mcpServer : Option String
  latencyMs : Int
  isError : Bool
  errorMessage : Option String
  realm : Option String
  executor : Option String

/-- What the loop does, in order. -/
inductive LoopOutput where
  | dispatched (d : ToolDispatch)
  | recorded (r : ToolCallRecord)
  | sent (messages : List LoopMessage)

inductive LoopEnding where
  | returned (result : LoopAnswer) (iterations : Nat)
  | gatewayError (statusCode : Nat) (message errorType : String) (code : Option String)
  | raised

structure LoopPoint where
  iteration : Nat
  result : LoopAnswer
  messages : List LoopMessage

structure McpToolLoop where
  /-- `\w` beyond ASCII -/
  unicodeWord : Char → Bool
  /-- `json.loads`, `none` where it raises. -/
  loads : String → Option Json
  toolRouter : Bool
  mcpClient : Bool
  /-- `session_id`, where it is a UUID. -/
  sessionUuid : Option SessionUuid
  maxIterations : Nat

/-- `tc.get("id", "")` -/
def FunctionCall.callId (tc : FunctionCall) : Json := tc.id.getD (.string "")

/-- `func.get("name") or ""`; other values have no `startswith`. -/
def FunctionCall.rawName (tc : FunctionCall) : Option String :=
  match tc.name with
  | .string s => some s
  | name => if name.truthy then none else some ""

namespace McpToolLoop

variable (cfg : McpToolLoop)

/-- `_use_router` -/
def useRouter : Bool := cfg.toolRouter && cfg.sessionUuid.isSome

def isWord (c : Char) : Bool :=
  c.isAlphanum || c = '_' || (128 ≤ c.toNat && cfg.unicodeWord c)

/-- `re.match(r"^[\w.]+", name)`, or the name itself where that gives none. -/
def cleanName (name : String) : String :=
  match name.toList.takeWhile fun c => cfg.isWord c || c = '.' with
  | [] => name
  | m => .ofList m

/-- The name is one of a tool that the gateway runs. -/
def ownsName (name : String) : Bool :=
  if cfg.useRouter then
    let cleanName := cfg.cleanName name
    startsWith cleanName "mcp." || startsWith cleanName "client." || startsWith cleanName "server."
  else startsWith name "mcp."

/-- `routable_calls`, or `mcp_calls` -/
def ownCalls (toolCalls : List FunctionCall) : List FunctionCall :=
  toolCalls.filter fun tc => tc.rawName.any cfg.ownsName

def qualifiedName (tc : FunctionCall) : String := cfg.cleanName (tc.rawName.getD "")

def argumentsOf (tc : FunctionCall) : Json :=
  match tc.arguments with
  | some (.string text) => (cfg.loads text).getD (.object [])
  | _ => .object []

def dispatch (round : LoopRound) (index : Nat) (tc : FunctionCall) : ToolDispatch where
  qualifiedName := cfg.qualifiedName tc
  arguments := cfg.argumentsOf tc
  callId := tc.callId
  executed := !cfg.useRouter || !(round.routed index).runs.isEmpty

/-- The content of the tool message for a call and the entry about it; `none` where an exception
leaves the loop. -/
def callResult (round : LoopRound) (iteration index : Nat) (tc : FunctionCall) :
    Option (String × ToolCallRecord) :=
  let toolName := cfg.qualifiedName tc
  let mcpServer := (toolName.splitOn ".")[1]?
  let firstChars (s : String) : String := .ofList (s.toList.take 500)
  if cfg.useRouter then
    match (round.routed index).answer with
    | .raised => none
    | .result r => some (r.content,
        ⟨iteration, toolName, mcpServer, r.latencyMs, r.isError,
          if r.isError then some (firstChars r.content) else none, some r.realm, some r.executor⟩)
  else
    let (outcome, latencyMs) := round.called index
    match outcome with
    | .cancelled => none
    | .failed exc => some ("Tool call failed: " ++ exc,
        ⟨iteration, toolName, mcpServer, latencyMs, true, some (firstChars exc), none, none⟩)
    | .result r => some (r.content,
        ⟨iteration, toolName, mcpServer, latencyMs, r.isError,
          if r.isError then some (firstChars r.content) else none, none, none⟩)

/-- The calls of a turn from the `index`th on: what is done, and the tool messages, or `none` where
an exception leaves the loop. -/
def runCalls (round : LoopRound) (iteration : Nat) :
    Nat → List FunctionCall → List LoopOutput × Option (List LoopMessage)
  | _, [] => ([], some [])
  | index, tc :: rest =>
    let dispatched := LoopOutput.dispatched (cfg.dispatch round index tc)
    match cfg.callResult round iteration index tc with
    | none => ([dispatched], none)
    | some (content, record) =>
      let (outputs, messages) := runCalls round iteration (index + 1) rest
      (dispatched :: .recorded record :: outputs,
        messages.map (.tool tc.callId content :: ·))

/-- What the loop makes of the answer to a call of its own. -/
def onRecall (p : LoopPoint) (mixed : Bool) (messages : List LoopMessage) :
    Option LoopAnswer → Except LoopEnding LoopPoint
  | none => .error .raised
  | some result =>
    if 400 ≤ result.statusCode then
      let upstream := s!"Upstream error {result.statusCode}"
      let message := (result.error.map (·.message)).getD ""
      .error (.gatewayError result.statusCode (if message = "" then upstream else message)
        ((result.error.map (·.type)).getD "upstream_error") (result.error.map (·.code)))
    else if mixed then .error (.returned result (p.iteration + 1))
    else .ok ⟨p.iteration + 1, result, messages⟩

/-- One turn of the loop. -/
def turn (rounds : Nat → LoopRound) (p : LoopPoint) : Turn LoopPoint LoopOutput LoopEnding :=
  let returned : LoopEnding := .returned p.result p.iteration
  match p.result.choices with
  | [] => ⟨[], .error returned⟩
  | message :: _ =>
    let ownCalls := cfg.ownCalls message.toolCalls
    if message.toolCalls.any (·.rawName.isNone) then ⟨[], .error .raised⟩
    else if ownCalls.isEmpty then ⟨[], .error returned⟩
    else
      let round := rounds p.iteration
      match cfg.runCalls round p.iteration 0 ownCalls with
      | (outputs, none) => ⟨outputs, .error .raised⟩
      | (outputs, some toolMessages) =>
        let messages := p.messages ++ .assistant message :: toolMessages
        ⟨outputs ++ [.sent messages],
          onRecall p (ownCalls.length < message.toolCalls.length) messages round.recalled⟩

/-- `_run_mcp_tool_loop`: what it does, and how it ends. -/
def run (rounds : Nat → LoopRound) (result : LoopAnswer) (messages : List LoopMessage) :
    List LoopOutput × LoopEnding :=
  -- without a router the loop asserts that there is an MCP client
  if !cfg.useRouter && !cfg.mcpClient then ([], .raised)
  else loop (cfg.turn rounds) (fun p => .returned p.result p.iteration) cfg.maxIterations
    ⟨0, result, messages⟩

end McpToolLoop

end LlmPort.Gateway
