import LlmPort.Text.Json
import LlmPort.Backend.ControlPlane
import LlmPort.Backend.Llm.Provisioning
import LlmPort.Backend.Llm.Reconcile

/-!
# Runtimes and their gateway instances

The control plane beside the gateway database. A step is one operation of the backend; the calls it
makes on the gateway are carried out when it is done. Beside the two databases the state keeps which
runtimes have been reported unhealthy since they were last reported running or successfully
provisioned.
-/

namespace LlmPort.Backend

open Transition NodeControl NodeControlService Store Llm LLMService Text

def healthText : InstanceHealth → String
  | .healthy => "healthy"
  | .unhealthy => "unhealthy"
  | .unknown => "unknown"

def executionTargetText : ExecutionTarget → String
  | .localDocker => "local"
  | .remote => "remote"
  | .node => "node"

/-- The request of `_publish_runtime_to_gateway`. -/
def nodePublishRequest (baseUrl : EndpointUrl) (providerType : ProviderType)
    (health : InstanceHealth) (litellmModel : Option String) (nodeId : Option Uuid)
    (executionTarget : ExecutionTarget) (desiredState : String) : PublishRequest where
  baseUrl := endpointText baseUrl
  backendProviderType := providerTypeValue providerType
  isRemote := false
  healthStatus := healthText health
  weight := 1
  maxConcurrency := 10
  apiKeyEncrypted := none
  litellmProvider := none
  litellmModel
  extraParams := none
  nodeId := nodeId.map uuidStr
  nodeMetadata := some <| String.ofList <| Json.dumps <| .object
    [("execution_target", .string (executionTargetText executionTarget)),
      ("desired_state", .string desiredState)]
  capacityHints := some <| String.ofList <| Json.dumps <| .object
    [("node_id", nodeId.elim .null fun id => .string (uuidStr id))]

/-- What a call does to the gateway database. -/
def applySync (gateway : GatewayDb) : SyncCall → GatewayDb
  | .setInstanceHealth runtimeId health => gateway.setInstanceHealth runtimeId (healthText health)
  | .publishRuntime runtimeId name baseUrl providerType health litellmModel nodeId target desired =>
    gateway.publishRuntime runtimeId name
      (nodePublishRequest baseUrl providerType health litellmModel nodeId target desired)
  | .unpublishRuntime runtimeId name => gateway.unpublishRuntime runtimeId name
  | .provisionForRuntime _ | .deprovisionForRuntime _ | .dockerStart _ | .dockerStop _
  | .dockerRestart _ | .dockerTeardown _ => gateway

/-- The gateway database after the calls of a store. -/
def deliver (gateway : GatewayDb) (s : Store) : GatewayDb := s.syncCalls.foldl applySync gateway

structure GatewayMirror where
  store : Store
  gateway : GatewayDb
  unhealthySeen : Uuid → Bool

/-- The calls that can reach a runtime or its instance. -/
inductive MirrorEvent where
  | create (draw : Draw) (runtimeId : Uuid) (req : CreateRequest) (env : CreateEnvironment)
  /-- A lifecycle request, or any other call of the control plane but a command of the operator's
  own. -/
  | control (e : ControlEvent) (h : ∀ draw req, e ≠ .issue draw req)
  | health (nodeId : Uuid) (event : HealthEvent)
  | reconcile (runtimeId : Uuid) (inspected : Option ContainerState)
  | probe (runtimeId : Uuid) (inspected : Option ContainerState) (healthy : Bool)
  | stopRaises (runtimeId : Uuid)

/-- The runtime that a call reports as successfully provisioned. -/
def provisioned (s : Store) : ControlEvent → Option Uuid
  | .result _ nodeId commandId payload => (ownCommand s nodeId commandId).bind fun c =>
    if payload.success ∧ fits 128 payload.errorCode ∧ isProvisioning c.commandType then
      runtimeIdOf c.payloadJson
    else none
  | _ => none

/-- The runtime a health event names. -/
def healthRuntimeId (event : HealthEvent) : Option Uuid :=
  match event.payload.runtimeId with
  | .uuid id _ => some id
  | .missing | .falsy | .malformed => none

/-- What a health event says about the health of its runtime. -/
def reportsUnhealthy : HealthEventType → Option Bool
  | .unhealthy => some true
  | .running => some false
  | .stopped | .missing | .crashLoop => none

namespace GatewayMirror

/-- The instance of a runtime; a runtime is published while it has one. -/
def instanceOf (m : GatewayMirror) (id : Uuid) : Option ProviderInstance :=
  m.gateway.instances.find? (·.id = id)

/-- An operation is done: its calls are carried out on the gateway database. -/
def settle (m : GatewayMirror) (s : Store) : GatewayMirror :=
  { m with store := { s with syncCalls := [] }, gateway := deliver m.gateway s }

def create (llm : LLMService) (draw : Draw) (runtimeId : Uuid) (req : CreateRequest)
    (env : CreateEnvironment) (m : GatewayMirror) : GatewayMirror :=
  match llm.createRuntime draw runtimeId req env m.store with
  | .error _ => m
  | .ok (s, publish) =>
    let m := { m.settle s with unhealthySeen := Function.update m.unhealthySeen runtimeId false }
    match publish with
    | none => m
    | some publish =>
      if llm.nodeControl.gatewaySync then
        { m with gateway := m.gateway.publishRuntime runtimeId req.name publish }
      else m

/-- One operation of the backend. -/
def step (llm : LLMService) (m : GatewayMirror) : MirrorEvent → GatewayMirror
  | .create draw runtimeId req env =>
    -- a runtime's id is drawn fresh
    if m.store.getRuntime runtimeId = none then m.create llm draw runtimeId req env else m
  | .control e _ => { m.settle (controlStep llm m.store e) with
      unhealthySeen := fun id =>
        if provisioned m.store e = some id then false else m.unhealthySeen id }
  | .health nodeId event =>
    { m.settle (llm.nodeControl.reconcileRuntimeFromEvent nodeId event m.store) with
      unhealthySeen := fun id =>
        if healthRuntimeId event = some id then
          (reportsUnhealthy event.eventType).getD (m.unhealthySeen id)
        else m.unhealthySeen id }
  | .reconcile runtimeId inspected => match m.store.getRuntime runtimeId with
    | none => m
    | some runtime => m.settle (llm.reconcileRuntimeStatus runtime inspected m.store)
  | .probe runtimeId inspected healthy =>
    m.settle (committed m.store (llm.getRuntimeHealth runtimeId inspected healthy m.store))
  | .stopRaises runtimeId => m.settle (stopRuntimeRaising runtimeId m.store)

end GatewayMirror

/-- No command that names the runtime is still to be answered. -/
def Quiet (s : Store) (id : Uuid) : Prop :=
  ∀ c ∈ s.commands, runtimeIdOf c.payloadJson = some id → c.status.isTerminal

/-- The instance shows the runtime as it is. -/
structure Mirrors (runtime : LLMRuntime) (unhealthySeen : Bool) (x : ProviderInstance) : Prop where
  health : x.healthStatus = "healthy" ↔ runtime.status = .running ∧ unhealthySeen = false
  baseUrl : runtime.endpointUrl.map (normalizeBaseUrl ∘ endpointText) = some x.baseUrl

/-- The instance of every published runtime shows it as it is, unless a command is in flight. -/
def RoutingMirrors (m : GatewayMirror) : Prop :=
  ∀ id runtime x, m.store.getRuntime id = some runtime → m.instanceOf id = some x →
    Quiet m.store id → Mirrors runtime (m.unhealthySeen id) x

/-- The instance, when there is one, shows healthy exactly if `up` holds. -/
def Shows (published : Option ProviderInstance) (up : Prop) : Prop :=
  ∀ x, published = some x → (x.healthStatus = "healthy" ↔ up)

/-- The instance, when there is one, shows this endpoint. -/
def ShowsUrl (published : Option ProviderInstance) (url : Option EndpointUrl) : Prop :=
  ∀ x, published = some x → url.map (normalizeBaseUrl ∘ endpointText) = some x.baseUrl

/-- What a lifecycle request that issues no command needs of the runtime and its instance. -/
def localKeeps (s : Store) (published : Option ProviderInstance) (unhealthySeen : Bool)
    (runtime : LLMRuntime) : LifecycleRequest → Prop
  | .start _ =>
    if runtime.containerRef.filter (· ≠ "") = none then published.isSome → unhealthySeen = false
    else Shows published False
  | .stop _ => True
  | .restart _ =>
    Shows published (runtime.containerRef.filter (· ≠ "") = none ∧ unhealthySeen = false)
  | .update _ _ placement =>
    if (s.getProvider runtime.providerId).any (·.remoteEndpoint) then
      Shows published (unhealthySeen = false)
    else ∀ containerId url, (s.getModel runtime.modelId).isSome →
      placement.rebuilt = some (containerId, url) →
      Shows published False ∧ ShowsUrl published (url <|> runtime.endpointUrl)

/-- What the result of a command of the runtime needs of the runtime and its instance. -/
def resultKeeps (published : Option ProviderInstance) (unhealthySeen : Bool) (runtime : LLMRuntime)
    (c : InfraNodeCommand) (payload : CommandResult) : Prop :=
  if payload.success then
    match c.commandType with
    | .deployWorkload | .startWorkload | .restartWorkload =>
      (payload.result.getD .empty).endpointUrl = none → Shows published True
    | .stopWorkload | .removeWorkload => True
    -- the status stays, and so does the instance
    | _ => Shows published (runtime.status = .running ∧
        (isProvisioning c.commandType ∨ unhealthySeen = false))
  else isProvisioning c.commandType ∨ Shows published False

namespace GatewayMirror

variable (m : GatewayMirror)

/-- What a reaper pass needs of a runtime whose stop command it times out. -/
def reapKeeps (llm : LLMService) (now : Time) (id : Uuid) : Prop :=
  (∃ d ∈ staleRows llm.nodeControl now m.store, runtimeIdOf d.payloadJson = some id ∧
      isProvisioning d.commandType) ∨
    (∃ d ∈ m.store.commands, d.id ∉ (staleRows llm.nodeControl now m.store).map (·.id) ∧
      runtimeIdOf d.payloadJson = some id ∧ d.status.isTerminal = false) ∨
    Shows (m.instanceOf id) False

/-- The steps after which the instance shows the runtime as it is. -/
def keepsRouting (llm : LLMService) : MirrorEvent → Prop
  | .create .. => True
  | .control (.lifecycle _ req) _ => ∀ runtime, m.store.getRuntime req.runtimeId = some runtime →
    requestNode req m.store = none →
    localKeeps m.store (m.instanceOf runtime.id) (m.unhealthySeen runtime.id) runtime req
  | .control (.result _ nodeId commandId payload) _ => ∀ c id runtime,
    ownCommand m.store nodeId commandId = some c → fits 128 payload.errorCode →
    runtimeIdOf c.payloadJson = some id → m.store.getRuntime id = some runtime →
    (∀ d ∈ m.store.commands, d.id ≠ c.id → runtimeIdOf d.payloadJson = some id →
      d.status.isTerminal) →
    resultKeeps (m.instanceOf id) (m.unhealthySeen id) runtime c payload
  | .control (.reap now) _ => ∀ c ∈ staleRows llm.nodeControl now m.store,
    ∀ id, runtimeIdOf c.payloadJson = some id → isProvisioning c.commandType = false →
      m.reapKeeps llm now id
  | .control _ _ => True
  | .health _ event => ∀ id runtime, healthRuntimeId event = some id →
    m.store.getRuntime id = some runtime → event.eventType = .running →
    runtime.status = .running → Quiet m.store id →
    Shows (m.instanceOf id) True
  | .reconcile runtimeId inspected => ∀ runtime, m.store.getRuntime runtimeId = some runtime →
    llm.verdict runtime inspected m.store = .promote →
    (m.instanceOf runtimeId).isSome → m.unhealthySeen runtimeId = false
  | .probe runtimeId inspected healthy => ∀ runtime, m.store.getRuntime runtimeId = some runtime →
    match llm.verdict runtime inspected m.store with
    | .promote => (m.instanceOf runtimeId).isSome → m.unhealthySeen runtimeId = false
    | .fail _ => True
    | .keep => healthy → runtime.status = .starting → Quiet m.store runtimeId →
      Shows (m.instanceOf runtimeId) (m.unhealthySeen runtimeId = false)
  | .stopRaises runtimeId => ∀ runtime, m.store.getRuntime runtimeId = some runtime →
    hostingNode runtime = none → runtime.containerRef.filter (· ≠ "") ≠ none →
    Shows (m.instanceOf runtimeId) False

/-- No runtime, no command, no published instance. -/
structure Initial : Prop where
  runtimes : m.store.runtimes = []
  commands : m.store.commands = []
  syncCalls : m.store.syncCalls = []
  instances : m.gateway.instances = []

end GatewayMirror

end LlmPort.Backend
