import LlmPort.Gateway.PiiPolicy
import LlmPort.Transition.Run

/-!
# One request of the gateway

`route_non_stream` and `route_stream_chat` of `services/gateway/service.py`, up to the end of the
generator that the latter returns. A state is the point at which the request waits, with its locals
and what it has done so far; an event is what the wait gives. The texts of the payload carry where
they come from. Calls that do not await (the traces, the stream buffer) are left out.
-/

namespace LlmPort.Gateway

open Pii

/-- An exception, as far as the handlers tell it apart. -/
inductive Raised where
  | gatewayError (statusCode : Nat) (message : String) (code : Option String)
  | exception (message : String)
  /-- `CancelledError` or `GeneratorExit`, which `except Exception` lets pass. -/
  | cancelled
  deriving DecidableEq

/-- `str(exc)` -/
def Raised.text : Raised → String
  | gatewayError _ message _ | exception message => message
  | cancelled => ""

/-- What an await gives. The operation may have taken effect although the await raises: its answer
was lost, or the task was cancelled. -/
inductive Outcome (α : Type) where
  | done (a : α)
  | raised (e : Raised) (tookEffect : Bool)

/-- `ProviderType` of the gateway. -/
inductive ProviderType where
  | vllm | llamacpp | tgi | ollama
  | remoteOpenai | remoteAnthropic | remoteGoogle | remoteBedrock | remoteAzure | remoteMistral
  | remoteGroq | remoteDeepseek | remoteCohere | remoteCustom
  deriving DecidableEq

/-- The value starts with `remote_`. -/
def ProviderType.isRemote : ProviderType → Bool
  | vllm | llamacpp | tgi | ollama => false
  | _ => true

structure Candidate where
  instanceId : String
  providerType : ProviderType

/-- A routing decision, with the number of its lease among those of the request. -/
structure RoutingDecision where
  candidate : Candidate
  lease : Nat

/-- `_is_cloud_provider` -/
def RoutingDecision.isCloudProvider (d : RoutingDecision) : Bool :=
  d.candidate.providerType.isRemote

inductive SessionPart where
  | instructions | summary | memory | attachment | history | current
  deriving DecidableEq

/-- Where a message's text comes from. -/
inductive TextSource where
  | user
  | session (part : SessionPart)
  | rag
  | skill
  | toolResult
  /-- An answer of the model. -/
  | model
  /-- A prompt of the gateway's own. -/
  | gateway
  /-- The PII service returned it. -/
  | sanitized
  deriving DecidableEq

structure ToolCall where
  id : String
  name : String
  deriving DecidableEq

/-- A message; of an embeddings request, a text of its input. -/
structure Message where
  role : String
  content : String
  toolCalls : List ToolCall
  toolCallId : Option String
  source : TextSource
  deriving DecidableEq

def Message.text (role content : String) (source : TextSource) : Message :=
  ⟨role, content, [], none, source⟩

/-- An answer of the model; `errorCode` is that of its error payload. -/
structure Answer where
  statusCode : Nat
  content : String
  toolCalls : List ToolCall
  message : String
  errorCode : Option String

structure UpstreamCall where
  candidate : Candidate
  messages : List Message
  stream : Bool
  /-- A call of `_run_mcp_tool_loop`. -/
  inLoop : Bool

structure AuditRow where
  statusCode : Nat
  errorCode : Option String
  providerInstanceId : Option String
  sessionId : Option String
  stream : Bool
  deriving DecidableEq

/-- The parts of the service that may be absent, and its settings. -/
structure GatewayConfig where
  piiClient : Bool
  mcpToolCache : Bool
  mcpClient : Bool
  toolRouter : Bool
  retryPreFirstToken : Nat
  mcpToolLoopMaxIterations : Nat

inductive RequestKind where
  | chat | embeddings | stream
  deriving DecidableEq

/-- The endpoint is `/v1/chat/completions`. -/
def RequestKind.isChat (kind : RequestKind) : Bool := kind ≠ .embeddings

structure RouteRequest where
  kind : RequestKind
  sessionId : Option String
  messages : List (String × String)
  /-- The time of the request, as it is shown to the model. -/
  dateStr : String

/-- `_run_mcp_tool_loop` within an iteration. -/
structure ToolLoop where
  iteration : Nat
  messages : List Message
  todo : List ToolCall
  /-- The answer also names tools of the client's. -/
  mixed : Bool

inductive Point where
  | tenantPolicy | limits | candidates | pick
  | rag | session | skills | override
  | egress | fallbackRelease (d : RoutingDecision) | fallbackPick | localEgress
  | telemetry | mcpTools
  /-- The adapter is about to be called. -/
  | calling (attempt : Nat)
  | completion (attempt : Nat)
  | toolCall (loop : ToolLoop)
  /-- The adapter is about to be called again, with the results of the tools. -/
  | recalling (loop : ToolLoop)
  | recallCompletion (loop : ToolLoop)
  | detokenize | persist | recordSkills
  | release (d : RoutingDecision)
  | audit
  /-- The generator is returned, and not started. -/
  | notStarted
  | next
  | yielded
  /-- `data: [DONE]` is yielded after a failure. -/
  | yieldedDone
  | streamPersist | streamSkills
  | streamRelease (d : RoutingDecision)
  | streamAudit
  | finished

inductive FallbackOutcome where
  | notUsed | attempted | failed | succeeded
  deriving DecidableEq

structure RequestRun where
  kind : RequestKind
  sessionId : Option String
  dateStr : String
  point : Point
  /-- The parsed policy of the tenant, or the default one. -/
  floor : Option PIIPolicy
  allowModeOverride : Bool
  candidates : List Candidate
  decision : Option RoutingDecision
  payload : List Message
  egressPayload : List Message
  /-- `egress_payload is not payload` -/
  sanitized : Bool
  tokenMapping : Bool
  /-- `none` while the variable is unbound. -/
  resolvedSessionId : Option (Option String)
  hasSkills : Bool
  piiPolicy : Option PIIPolicy
  fallbackOutcome : FallbackOutcome
  mcpToolsInjected : Bool
  accumulatedContent : Bool
  statusCode : Nat
  errorCode : Option String
  /-- How many leases were acquired for the request. -/
  acquired : Nat
  released : List Nat
  audits : List AuditRow
  upstreamCalls : List UpstreamCall

inductive RequestEvent where
  | tenantPolicy (r : Outcome (Option PIIPolicy × Bool))
  | limits (r : Outcome Unit)
  | candidates (r : Outcome (List Candidate))
  /-- The candidate picked, by its place in the list. -/
  | picked (r : Outcome Nat)
  | rag (r : Outcome (Option String))
  | session (r : Outcome (Option (String × List (String × String × SessionPart))))
  | skills (r : Outcome (List String))
  | override (r : Outcome (Option SessionPIIOverride))
  /-- The texts the PII service returns, and whether there is a token mapping. -/
  | sanitized (r : Outcome (List (String × String) × Bool))
  | released (r : Outcome Unit)
  | telemetry (r : Outcome Unit)
  | mcpTools (r : Outcome Bool)
  | call
  | answered (r : Outcome Answer)
  | toolResult (r : Outcome String)
  | detokenized (r : Outcome Unit)
  | persisted (r : Outcome Unit)
  | skillsRecorded (r : Outcome Unit)
  | audited (r : Outcome Unit)
  /-- The consumer asks for the first chunk. -/
  | start
  /-- The generator is closed, or forgotten, before it was started. -/
  | drop
  /-- The next chunk's content, or the end of the upstream's stream. -/
  | chunk (r : Outcome (Option String))
  | resume
  | close

def piiRedactSystemPrompt : String :=
  "IMPORTANT — Privacy notice: The user's message has been processed by an automated PII (Personally " ++
  "Identifiable Information) redaction system. Certain sensitive values have been replaced with " ++
  "placeholders such as [REDACTED_EMAIL_ADDRESS], [REDACTED_PHONE_NUMBER], [REDACTED_PERSON], " ++
  "[REDACTED_CREDIT_CARD], etc. These placeholders indicate where real data existed but was removed for " ++
  "privacy. When responding, preserve these placeholders exactly as they appear — do not attempt to " ++
  "guess the original values. If the user asks you to recall or fill in a redacted value, politely " ++
  "explain that the information was redacted for privacy."

def piiTokenizeSystemPrompt : String :=
  "IMPORTANT — Privacy notice: The user's message has been processed by an automated PII (Personally " ++
  "Identifiable Information) tokenization system. Certain sensitive values have been replaced with " ++
  "surrogate tokens such as [PERSON_1], [EMAIL_ADDRESS_1], [PHONE_NUMBER_1], [LOCATION_1], etc. Each " ++
  "token represents a real value that will be restored after your response. CRITICAL RULES:\n" ++
  "1. Treat each token as if it were the real value it represents. For example, [PERSON_1] is a real " ++
  "person — refer to them naturally, use appropriate pronouns, and reason about them as you would a " ++
  "real name.\n" ++
  "2. Preserve every token exactly as written in your response — do not modify, remove, decode, or " ++
  "invent the underlying value.\n" ++
  "3. Place tokens in the same logical positions in your answer (e.g. if the user asks 'Who is " ++
  "[PERSON_1]?', your answer should reference [PERSON_1]).\n" ++
  "4. If multiple tokens of the same type appear (e.g. [PERSON_1] and [PERSON_2]), treat them as " ++
  "distinct individuals/values.\n" ++
  "5. Do not mention or explain the tokenization system to the user."

/-- Insert messages after the leading system messages. -/
def insertAfterSystem (new messages : List Message) : List Message :=
  messages.takeWhile (·.role = "system") ++ new ++ messages.dropWhile (·.role = "system")

/-- `should_scan` -/
def shouldScan (policy : PIIPolicy) (isCloud : Bool) : Bool :=
  if isCloud then policy.egress.enabledForCloud else policy.egress.enabledForLocal

namespace RequestRun

def initial (request : RouteRequest) : RequestRun where
  kind := request.kind
  sessionId := request.sessionId
  dateStr := request.dateStr
  point := .tenantPolicy
  floor := none
  allowModeOverride := false
  candidates := []
  decision := none
  payload := request.messages.map fun m => .text m.1 m.2 .user
  egressPayload := []
  sanitized := false
  tokenMapping := false
  resolvedSessionId := none
  hasSkills := false
  piiPolicy := none
  fallbackOutcome := .notUsed
  mcpToolsInjected := false
  accumulatedContent := false
  statusCode := 500
  errorCode := none
  acquired := 0
  released := []
  audits := []
  upstreamCalls := []

/-! ## The ends of a request -/

/-- The row that `audit.log` is called with. -/
def auditRow (q : RequestRun) : AuditRow where
  statusCode := q.statusCode
  errorCode := q.errorCode <|>
    if q.fallbackOutcome = .succeeded then some "pii_fallback_to_local_succeeded" else none
  providerInstanceId := q.decision.map (·.candidate.instanceId)
  sessionId := match q.kind, q.point with
    | .stream, .audit => q.sessionId
    | _, _ => q.resolvedSessionId.join <|> q.sessionId
  stream := q.kind = .stream

/-- The arguments of `audit.log` are evaluated: `route_non_stream` reads `resolved_session_id`. -/
def enterAudit (q : RequestRun) : RequestRun :=
  if q.kind ≠ .stream ∧ q.resolvedSessionId = none then { q with point := .finished }
  else { q with point := .audit }

/-- The `finally` of the request. -/
def enterFinally (q : RequestRun) : RequestRun :=
  match q.decision with
  | some d => { q with point := .release d }
  | none => q.enterAudit

/-- An exception leaves the `try`. -/
def fail (e : Raised) (q : RequestRun) : RequestRun :=
  match e with
  | .gatewayError statusCode _ code => { q with statusCode, errorCode := code }.enterFinally
  | _ => q.enterFinally

/-- The `finally` of the generator, after the usage of skills is recorded. -/
def streamAfterSkills (q : RequestRun) : RequestRun :=
  match q.decision with
  | some d => { q with point := .streamRelease d }
  | none => { q with point := .streamAudit }

def streamAfterPersist (q : RequestRun) : RequestRun :=
  if q.hasSkills then { q with point := .streamSkills } else q.streamAfterSkills

/-- The `finally` of the generator. -/
def finalize (q : RequestRun) : RequestRun :=
  if q.resolvedSessionId.join.isSome ∧ q.accumulatedContent then { q with point := .streamPersist }
  else q.streamAfterPersist

/-- An operation on a lease or a row took effect. -/
def tookEffect {α : Type} : Outcome α → Bool
  | .done _ => true
  | .raised _ b => b

def released? {α : Type} (lease : Nat) (r : Outcome α) (q : RequestRun) : RequestRun :=
  if tookEffect r then { q with released := q.released ++ [lease] } else q

def audited? {α : Type} (r : Outcome α) (q : RequestRun) : RequestRun :=
  if tookEffect r then { q with audits := q.audits ++ [q.auditRow] } else q

/-! ## Before the first call of the adapter -/

section
variable (cfg : GatewayConfig)

/-- `_inject_datetime_context` -/
def injectDatetime (q : RequestRun) : RequestRun :=
  if q.kind.isChat then
    let prompt := s!"Current date and time: {q.dateStr}."
    { q with egressPayload := .text "system" prompt .gateway :: q.egressPayload }
  else q

/-- `_inject_pii_system_prompt`, when the egress was sanitized. -/
def injectPiiPrompt (policy : PIIPolicy) (q : RequestRun) : RequestRun :=
  if q.sanitized ∧ q.kind.isChat then
    let prompt := match policy.egress.mode with
      | .tokenizeReversible => piiTokenizeSystemPrompt
      | .redact => piiRedactSystemPrompt
    { q with egressPayload := insertAfterSystem [.text "system" prompt .gateway] q.egressPayload }
  else q

def afterTelemetry (q : RequestRun) : RequestRun :=
  let q := q.injectDatetime
  if q.kind.isChat ∧ cfg.mcpToolCache then { q with point := .mcpTools }
  else { q with point := .calling 0 }

def afterEgress (q : RequestRun) : RequestRun :=
  match q.piiPolicy with
  | none => q.afterTelemetry cfg
  | some policy =>
    let q := q.injectPiiPrompt policy
    if cfg.piiClient ∧ policy.telemetry.enabled ∧ policy.telemetry.mode ≠ "metrics_only" then
      { q with point := .telemetry }
    else q.afterTelemetry cfg

/-- `_resolve_pii_policy`, and the first call of `_apply_egress_pii`. -/
def afterOverride (sessionOverride : Option SessionPIIOverride) (q : RequestRun) : RequestRun :=
  let piiPolicy := q.floor.map fun floor => match sessionOverride with
    | none => floor
    | some override => clampAndMerge floor override q.allowModeOverride false
  let q := { q with piiPolicy, egressPayload := q.payload }
  match q.piiPolicy, q.decision with
  | some policy, some d =>
    if cfg.piiClient ∧ shouldScan policy d.isCloudProvider then { q with point := .egress }
    else q.afterEgress cfg
  | _, _ => q.afterEgress cfg

def afterSkills (q : RequestRun) : RequestRun :=
  if q.resolvedSessionId.join.isSome then { q with point := .override } else q.afterOverride cfg none

def afterRag (q : RequestRun) : RequestRun :=
  if q.kind.isChat then { q with resolvedSessionId := some none, point := .session }
  else { q with resolvedSessionId := some none }.afterSkills cfg

/-- What `_apply_egress_pii` does with the answer of the PII service. -/
def onSanitized (policy : PIIPolicy) (isCloud : Bool) (r : Outcome (List (String × String) × Bool))
    (q : RequestRun) : RequestRun :=
  match r with
  | .done (messages, tokenMapping) =>
    let egressPayload := messages.map fun m => .text m.1 m.2 .sanitized
    { q with egressPayload, sanitized := true, tokenMapping }.afterEgress cfg
  | .raised .cancelled _ => q.fail .cancelled
  | .raised _ _ => match policy.egress.failAction, isCloud, q.decision with
    | .block, _, _ =>
      q.fail (.gatewayError 502 "PII service unavailable and fail_action=block."
        (some "pii_service_unavailable"))
    | .fallbackToLocal, true, some d =>
      { q with decision := none, fallbackOutcome := .attempted, point := .fallbackRelease d }
    | _, _, _ => q.afterEgress cfg

/-- `_fallback_to_local_candidate` after the release. -/
def localCandidates (q : RequestRun) : List Candidate :=
  q.candidates.filter (!·.providerType.isRemote)

/-- An exception leaves `_fallback_to_local_candidate`. -/
def failFallback (e : Raised) (q : RequestRun) : RequestRun :=
  match e with
  | .gatewayError .. => { q with fallbackOutcome := .failed }.fail e
  | _ => q.fail e

def pickLocal (q : RequestRun) : RequestRun :=
  if q.localCandidates = [] then
    q.failFallback (.gatewayError 503
      "PII fallback requested but no local provider candidate is available."
      (some "pii_fallback_no_local_provider"))
  else { q with point := .fallbackPick }

/-- A lease is acquired on a candidate. -/
def lease (candidate : Candidate) (q : RequestRun) : RequestRun :=
  { q with decision := some ⟨candidate, q.acquired⟩, acquired := q.acquired + 1 }

/-- The second call of `_apply_egress_pii`. -/
def afterFallback (q : RequestRun) : RequestRun :=
  match q.piiPolicy with
  | some policy =>
    if shouldScan policy false then { q with point := .localEgress } else q.afterEgress cfg
  | none => q.afterEgress cfg

/-! ## The calls of the adapter -/

/-- The MCP streaming path, which calls the adapter without streaming. -/
def viaTools (q : RequestRun) : Bool := q.mcpToolsInjected && (cfg.mcpClient || cfg.toolRouter)

/-- `_use_router` -/
def useRouter (q : RequestRun) : Bool := cfg.toolRouter && q.resolvedSessionId.join.isSome

def callUpstream (messages : List Message) (stream inLoop : Bool) (q : RequestRun) : RequestRun :=
  match q.decision with
  | some d => { q with upstreamCalls := q.upstreamCalls ++ [⟨d.candidate, messages, stream, inLoop⟩] }
  | none => q

def afterAnswer (q : RequestRun) : RequestRun :=
  if q.tokenMapping ∧ cfg.piiClient then { q with point := .detokenize }
  else { q with point := .persist }

/-- The generator is returned. -/
def returnStream (q : RequestRun) : RequestRun :=
  { q with statusCode := 200, errorCode := none, point := .notStarted }

def afterLoop (q : RequestRun) : RequestRun :=
  if q.kind = .stream then q.returnStream else q.afterAnswer cfg

def startsWith (pre name : String) : Bool := pre.toList.isPrefixOf name.toList

/-- The gateway executes the call: any tool of the three realms with a router, MCP tools without. -/
def executes (q : RequestRun) (tc : ToolCall) : Bool :=
  if q.useRouter cfg then
    startsWith "mcp." tc.name || startsWith "client." tc.name || startsWith "server." tc.name
  else startsWith "mcp." tc.name

/-- The head of an iteration, up to its first await. -/
def loopHead (iteration : Nat) (answer : Answer) (messages : List Message) (q : RequestRun) :
    RequestRun :=
  let todo := answer.toolCalls.filter (q.executes cfg)
  if cfg.mcpToolLoopMaxIterations ≤ iteration ∨ todo = [] then q.afterLoop cfg
  else
    let message := ⟨"assistant", answer.content, answer.toolCalls, none, .model⟩
    { q with
      point := .toolCall ⟨iteration, messages ++ [message], todo, todo ≠ answer.toolCalls⟩ }

def startLoop (answer : Answer) (q : RequestRun) : RequestRun :=
  if q.useRouter cfg ∨ cfg.mcpClient then q.loopHead cfg 0 answer q.egressPayload
  else q.fail (.exception "")

/-- The first answer of the adapter. -/
def onAnswer (attempt : Nat) (r : Outcome Answer) (q : RequestRun) : RequestRun :=
  if q.kind = .stream then
    match r with
    | .raised e _ => q.fail e
    | .done answer =>
      if q.viaTools cfg then
        if 400 ≤ answer.statusCode then
          q.fail (.gatewayError answer.statusCode answer.message answer.errorCode)
        else q.startLoop cfg answer
      else q.returnStream
  else
    match r with
    | .raised .cancelled _ => q.fail .cancelled
    | .raised e _ =>
      if cfg.retryPreFirstToken ≤ attempt then
        q.fail (.gatewayError 502 s!"Upstream request failed: {e.text}"
          (some "upstream_request_failed"))
      else { q with point := .calling (attempt + 1) }
    | .done answer =>
      let q := { q with statusCode := answer.statusCode }
      if q.kind.isChat ∧ (cfg.mcpClient ∨ cfg.toolRouter) then q.startLoop cfg answer
      else q.afterAnswer cfg

/-- The result of a tool is appended; after the last one the adapter is called again. -/
def appendResult (loop : ToolLoop) (tc : ToolCall) (todo : List ToolCall) (content : String)
    (q : RequestRun) : RequestRun :=
  let message := ⟨"tool", content, [], some tc.id, .toolResult⟩
  let loop := { loop with messages := loop.messages ++ [message], todo }
  { q with point := if todo = [] then .recalling loop else .toolCall loop }

def onToolResult (loop : ToolLoop) (r : Outcome String) (q : RequestRun) : RequestRun :=
  match loop.todo, r with
  | [], _ => q
  | tc :: todo, .done content => q.appendResult loop tc todo content
  | tc :: todo, .raised e _ =>
    -- the router's exceptions are not caught, those of the MCP client become a result
    if q.useRouter cfg ∨ e = .cancelled then q.fail e
    else q.appendResult loop tc todo s!"Tool call failed: {e.text}"

def onRecall (loop : ToolLoop) (r : Outcome Answer) (q : RequestRun) : RequestRun :=
  match r with
  | .raised e _ => q.fail e
  | .done answer =>
    if 400 ≤ answer.statusCode then
      q.fail (.gatewayError answer.statusCode answer.message answer.errorCode)
    else if loop.mixed then q.afterLoop cfg
    else q.loopHead cfg (loop.iteration + 1) answer loop.messages

/-! ## The events -/

def step (q : RequestRun) : RequestEvent → RequestRun
  | .tenantPolicy r => match q.point, r with
    | .tenantPolicy, .done (floor, allowModeOverride) =>
      { q with floor, allowModeOverride, point := .limits }
    | .tenantPolicy, .raised .. => { q with point := .finished }
    | _, _ => q
  | .limits r => match q.point, r with
    | .limits, .done () => { q with point := .candidates }
    | .limits, .raised .. => { q with point := .finished }
    | _, _ => q
  | .candidates r => match q.point, r with
    | .candidates, .done candidates => { q with candidates, point := .pick }
    | .candidates, .raised .. => { q with point := .finished }
    | _, _ => q
  | .picked r => match q.point, r with
    | .pick, .done i => match q.candidates[i]? with
      | some candidate => { q.lease candidate with point := .rag }
      | none => q
    | .pick, .raised _ tookEffect =>
      { q with acquired := q.acquired + tookEffect.toNat, point := .finished }
    | .fallbackPick, .done i => match q.localCandidates[i]? with
      | some candidate => { q.lease candidate with fallbackOutcome := .succeeded }.afterFallback cfg
      | none => q
    | .fallbackPick, .raised e tookEffect =>
      let q := { q with acquired := q.acquired + tookEffect.toNat }
      match e with
      | .gatewayError _ _ (some "no_capacity") =>
        q.failFallback (.gatewayError 503
          "PII fallback requested but no local provider has free capacity."
          (some "pii_fallback_no_local_capacity"))
      | e => q.failFallback e
    | _, _ => q
  | .rag r => match q.point, r with
    | .rag, .done none => q.afterRag cfg
    | .rag, .done (some context) =>
      { q with payload := .text "system" context .rag :: q.payload }.afterRag cfg
    | .rag, .raised e _ => q.fail e
    | _, _ => q
  | .session r => match q.point, r with
    | .session, .done none => { q with point := .skills }
    | .session, .done (some (sessionId, messages)) =>
      { q with
        payload := messages.map fun m => .text m.1 m.2.1 (.session m.2.2)
        resolvedSessionId := some (some sessionId)
        point := .skills }
    | .session, .raised e _ => q.fail e
    | _, _ => q
  | .skills r => match q.point, r with
    | .skills, .done bodies =>
      { q with
        payload := insertAfterSystem (bodies.map fun body => .text "system" body .skill) q.payload
        hasSkills := bodies ≠ [] }.afterSkills cfg
    | .skills, .raised e _ => q.fail e
    | _, _ => q
  | .override r => match q.point, r with
    | .override, .done override => q.afterOverride cfg override
    | .override, .raised e _ => q.fail e
    | _, _ => q
  | .sanitized r => match q.point, q.piiPolicy, q.decision with
    | .egress, some policy, some d => q.onSanitized cfg policy d.isCloudProvider r
    | .localEgress, some policy, _ => q.onSanitized cfg policy false r
    | _, _, _ => q
  | .released r => match q.point, r with
    | .fallbackRelease d, .done () => (q.released? d.lease r).pickLocal
    | .fallbackRelease d, .raised e _ => (q.released? d.lease r).failFallback e
    | .release d, .done () => (q.released? d.lease r).enterAudit
    | .release d, .raised .. => { q.released? d.lease r with point := .finished }
    | .streamRelease d, .done () => { q.released? d.lease r with point := .streamAudit }
    | .streamRelease d, .raised .. => { q.released? d.lease r with point := .finished }
    | _, _ => q
  | .telemetry r => match q.point, r with
    | .telemetry, .raised .cancelled _ => q.fail .cancelled
    | .telemetry, _ => q.afterTelemetry cfg
    | _, _ => q
  | .mcpTools r => match q.point, r with
    | .mcpTools, .done mcpToolsInjected => { q with mcpToolsInjected, point := .calling 0 }
    | .mcpTools, .raised e _ => q.fail e
    | _, _ => q
  | .call => match q.point with
    | .calling attempt =>
      { q.callUpstream q.egressPayload (q.kind = .stream ∧ ¬ q.viaTools cfg) false with
        point := .completion attempt }
    | .recalling loop => { q.callUpstream loop.messages false true with point := .recallCompletion loop }
    | _ => q
  | .answered r => match q.point with
    | .completion attempt => q.onAnswer cfg attempt r
    | .recallCompletion loop => q.onRecall cfg loop r
    | _ => q
  | .toolResult r => match q.point with
    | .toolCall loop => q.onToolResult cfg loop r
    | _ => q
  | .detokenized r => match q.point, r with
    | .detokenize, .raised .cancelled _ => q.fail .cancelled
    | .detokenize, _ => { q with point := .persist }
    | _, _ => q
  | .persisted r => match q.point, r with
    | .persist, .done () => { q with point := .recordSkills }
    | .persist, .raised e _ => q.fail e
    | .streamPersist, .raised .cancelled _ => { q with point := .finished }
    | .streamPersist, _ => q.streamAfterPersist
    | _, _ => q
  | .skillsRecorded r => match q.point, r with
    | .recordSkills, .done () => q.enterFinally
    | .recordSkills, .raised e _ => q.fail e
    | .streamSkills, .raised .cancelled _ => { q with point := .finished }
    | .streamSkills, _ => q.streamAfterSkills
    | _, _ => q
  | .audited r => match q.point with
    | .audit | .streamAudit => { q.audited? r with point := .finished }
    | _ => q
  | .start => match q.point with
    | .notStarted => { q with point := .next }
    | _ => q
  | .drop => match q.point with
    | .notStarted => { q with point := .finished }
    | _ => q
  | .chunk r => match q.point, r with
    | .next, .done (some content) =>
      { q with accumulatedContent := q.accumulatedContent || content ≠ "", point := .yielded }
    | .next, .done none => q.finalize
    | .next, .raised .cancelled _ => q.finalize
    | .next, .raised .. =>
      { q with statusCode := 502, errorCode := some "upstream_stream_failed", point := .yieldedDone }
    | _, _ => q
  | .resume => match q.point with
    | .yielded => { q with point := .next }
    | .yieldedDone => q.finalize
    | _ => q
  | .close => match q.point with
    | .yielded | .yieldedDone => q.finalize
    | _ => q

end

end RequestRun

end LlmPort.Gateway
