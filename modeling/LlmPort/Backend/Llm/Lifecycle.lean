import LlmPort.Backend.NodeControl.Service

/-!
# Runtime lifecycle requests

The start, stop, restart and update operations of `services/llm/service.py`. On a node-hosted
runtime each issues one command under a key of its own per runtime and moves the runtime to
`starting` or `stopping`; the remaining branches act on remote endpoints and local containers.
-/

namespace LlmPort.Backend.Llm

open NodeControl

/-- What the service takes from outside: its node-control settings, Python's Unicode tables and the
model cache on disk. -/
structure LLMService where
  nodeControl : NodeControlService
  nodeCommandDefaultTimeoutSec : Int
  /-- `str.lower` -/
  lower : String → String
  /-- `str.isalnum` on one character -/
  isAlnum : Char → Bool
  /-- The manifest of a cached repository that has blobs, as the JSON text of its entries. -/
  cacheManifest : String → Option String

namespace LLMService

/-- A service with the default timeout and no gateway database. -/
def plain : LLMService where
  nodeControl := ⟨900, false⟩
  nodeCommandDefaultTimeoutSec := 900
  lower := String.toLower
  isAlnum := Char.isAlphanum
  cacheManifest _ := none

variable (llm : LLMService)

/-- Strip a character from both ends. -/
def strip (c : Char) (text : List Char) : List Char :=
  ((text.dropWhile (· = c)).reverse.dropWhile (· = c)).reverse

/-- Deterministic Docker container name for node-deployed runtimes. -/
def nodeContainerName (runtimeName : String) : String :=
  let dashed := runtimeName.toList.map fun c => if c = '_' ∨ c = '/' ∨ c = ' ' then '-' else c
  let slug := strip '-' <| (llm.lower (String.ofList dashed)).toList.filter fun c =>
    llm.isAlnum c ∨ c = '-'
  if slug = [] then "llm-port-runtime" else "llm-port-" ++ String.ofList (slug.take 48)

def providerTypeValue : ProviderType → String
  | .vllm => "vllm"
  | .llamacpp => "llamacpp"
  | .tgi => "tgi"
  | .ollama => "ollama"
  | .cloud => "cloud"

/-- The `model_sync` entry of a payload. -/
def buildModelSyncPayload (model : LLMModel) (source : String) : List (String × JsonField) :=
  match model.hfRepoId.filter (· ≠ "") with
  | none => [("model_sync", .null)]
  | some repo =>
    let base := [("model_sync.model_id", JsonField.text (uuidStr model.id)),
      ("model_sync.hf_repo_id", .text repo), ("model_sync.source", .text source)]
    if source = "download_from_hf" then base
    else match llm.cacheManifest repo with
      | none => base
      | some manifest => base ++ [("model_sync.manifest", .json manifest)]

/-- `value or default` on texts that an absent key makes empty. -/
def orDefault (value default : String) : String := if value = "" then default else value

/-- The GPU request and the IPC mode derived from the provider. -/
def gpuAndIpc (provider : Option LLMProvider) (config : ProviderConfig) : String × String :=
  let needsGpu := provider.any fun p => p.type = .vllm ∨ p.type = .tgi
  let gpuRequest := if config.gpuRequest = "" ∧ needsGpu then "all" else config.gpuRequest
  let ipcMode :=
    if config.ipcMode = "" ∧ gpuRequest ≠ "" ∧ needsGpu then "host" else config.ipcMode
  (gpuRequest, ipcMode)

/-- The entries of a full deploy-compatible payload, with `extra` where the update request has
entries of its own. -/
def deployEntries (runtime : LLMRuntime) (provider : Option LLMProvider) (model : Option LLMModel)
    (extra : List (String × JsonField)) : List (String × JsonField) :=
  let config := runtime.providerConfig
  let (gpuRequest, ipcMode) := gpuAndIpc provider config
  let modelSource := orDefault config.modelSource "sync_from_server"
  [("runtime_name", .text runtime.name),
    ("container_name", .text (llm.nodeContainerName runtime.name)),
    ("provider_id", .text (uuidStr runtime.providerId)),
    ("provider_type", .text (provider.elim "vllm" fun p => providerTypeValue p.type)),
    ("model", .text (model.elim "" fun m => m.hfRepoId.getD "")),
    ("model_id", .text (uuidStr runtime.modelId)),
    ("generic_config", .json runtime.genericConfig),
    ("provider_config", .json config.json),
    ("openai_compat", .bool runtime.openaiCompat)] ++ extra ++
  (model.elim [("model_sync", .json "{}")] fun m => llm.buildModelSyncPayload m modelSource) ++
  [("image_source", .text (orDefault config.imageSource "pull_from_registry")),
    ("gpu_request", .text gpuRequest), ("ipc_mode", .text ipcMode),
    ("shm_size", .text config.shmSize), ("memory_limit", .text config.memoryLimit),
    ("cpu_limit", .text config.cpuLimit), ("container_port", .text config.containerPort)]

def buildNodeDeployPayload (runtime : LLMRuntime) (s : Store) : CommandPayload where
  runtimeId := .uuid runtime.id true
  enabled := true
  entries := llm.deployEntries runtime (s.getProvider runtime.providerId)
    (s.getModel runtime.modelId) []

/-- The payload of a stop command. -/
def stopPayload (runtime : LLMRuntime) : CommandPayload where
  runtimeId := .uuid runtime.id true
  enabled := true
  entries := [("runtime_name", .text runtime.name),
    ("container_name", .text (llm.nodeContainerName runtime.name))]

/-- `RuntimeDAO.set_status` -/
def setStatus (runtimeId : Uuid) (status : RuntimeStatus) (s : Store) : Store :=
  match s.getRuntime runtimeId with
  | none => s
  | some runtime => s.updateRuntime { runtime with
      status
      statusMessage := if status = .error then runtime.statusMessage else none }

/-- The four requests that drive a runtime's life. -/
inductive LifecycleAction where
  | start | stop | restart | update
  deriving DecidableEq

namespace LifecycleAction

def commandType : LifecycleAction → NodeCommandType
  | start => .startWorkload
  | stop => .stopWorkload
  | restart => .restartWorkload
  | update => .updateWorkload

/-- The last part of the idempotency key. -/
def verb : LifecycleAction → String
  | start => "start"
  | stop => "stop"
  | restart => "restart"
  | update => "update"

/-- The status the request leaves on the runtime. -/
def pendingStatus : LifecycleAction → RuntimeStatus
  | stop => .stopping
  | start | restart | update => .starting

end LifecycleAction

/-- The key of an action on a runtime. -/
def lifecycleKey (action : LifecycleAction) (runtimeId : Uuid) : String :=
  s!"runtime:{uuidStr runtimeId}:{action.verb}"

/-- The arguments a lifecycle request passes to `issue_command`. -/
def lifecycleRequest (action : LifecycleAction) (runtime : LLMRuntime) (nodeId : Uuid)
    (payload : CommandPayload) : CommandRequest where
  nodeId
  commandType := action.commandType
  payload
  issuedBy := none
  correlationId := some (uuidStr runtime.id)
  timeoutSec := some llm.nodeCommandDefaultTimeoutSec
  idempotencyKey := some (lifecycleKey action runtime.id)

/-- Issue the command of a lifecycle request and note it on the runtime. -/
def issueLifecycle (draw : Draw) (action : LifecycleAction) (runtime : LLMRuntime) (nodeId : Uuid)
    (payload : CommandPayload) (s : Store) : Except ServiceError Store :=
  match llm.nodeControl.issueCommand draw (llm.lifecycleRequest action runtime nodeId payload) s with
  | .error e => .error e
  | .ok (s, command) =>
    let s := s.updateRuntime { runtime with lastCommandId := some command.id }
    .ok (setStatus runtime.id action.pendingStatus s)

def notFound (runtimeId : Uuid) : ServiceError :=
  .valueError s!"Runtime {uuidStr runtimeId} not found"

/-- The node a runtime's commands go to. -/
def hostingNode (runtime : LLMRuntime) : Option Uuid :=
  if runtime.executionTarget = .node then runtime.assignedNodeId else none

def startRuntime (draw : Draw) (runtimeId : Uuid) (s : Store) : Except ServiceError Store :=
  match s.getRuntime runtimeId with
  | none => .error (notFound runtimeId)
  | some runtime => match hostingNode runtime with
    | some nodeId =>
      llm.issueLifecycle draw .start runtime nodeId (llm.buildNodeDeployPayload runtime s) s
    | none => match runtime.containerRef.filter (· ≠ "") with
      | none =>
        let s := setStatus runtimeId .running s
        .ok (llm.nodeControl.syncCall (.setInstanceHealth runtimeId .healthy) s)
      | some containerRef => .ok (setStatus runtimeId .starting (s.call (.dockerStart containerRef)))

def stopRuntime (draw : Draw) (runtimeId : Uuid) (s : Store) : Except ServiceError Store :=
  match s.getRuntime runtimeId with
  | none => .error (notFound runtimeId)
  | some runtime => match hostingNode runtime with
    | some nodeId => llm.issueLifecycle draw .stop runtime nodeId (llm.stopPayload runtime) s
    | none =>
      let s := match runtime.containerRef.filter (· ≠ "") with
        | none => s
        | some containerRef => (setStatus runtimeId .stopping s).call (.dockerStop containerRef)
      let s := setStatus runtimeId .stopped s
      .ok (llm.nodeControl.syncCall (.setInstanceHealth runtimeId .unhealthy) s)

def restartRuntime (draw : Draw) (runtimeId : Uuid) (s : Store) : Except ServiceError Store :=
  match s.getRuntime runtimeId with
  | none => .error (notFound runtimeId)
  | some runtime => match hostingNode runtime with
    | some nodeId =>
      llm.issueLifecycle draw .restart runtime nodeId (llm.buildNodeDeployPayload runtime s) s
    | none => match runtime.containerRef.filter (· ≠ "") with
      | none => .ok (setStatus runtimeId .running s)
      | some containerRef => .ok (setStatus runtimeId .starting (s.call (.dockerRestart containerRef)))

/-- The fields of an update request; `none` leaves a column unchanged. -/
structure UpdateConfig where
  name : Option String
  genericConfig : Option String
  providerConfig : Option ProviderConfig
  openaiCompat : Option Bool
  targetNodeId : Option Uuid
  placementHints : String
  deriving DecidableEq

/-- `RuntimeDAO.update_config` -/
def updateConfig (config : UpdateConfig) (runtime : LLMRuntime) : LLMRuntime :=
  { runtime with
    name := config.name.getD runtime.name
    genericConfig := config.genericConfig.getD runtime.genericConfig
    providerConfig := config.providerConfig.getD runtime.providerConfig
    openaiCompat := config.openaiCompat.getD runtime.openaiCompat }

/-- The payload of an update command. -/
def updatePayload (config : UpdateConfig) (runtime : LLMRuntime) (provider : LLMProvider)
    (s : Store) : CommandPayload where
  runtimeId := .uuid runtime.id true
  enabled := true
  entries := llm.deployEntries runtime (some provider) (s.getModel runtime.modelId)
    [("placement_hints", .json config.placementHints)]

/-- What a request asks of code outside the control plane: the node the scheduler picks, and the
container id and endpoint that a local rebuild gives. -/
structure Placement where
  scheduled : Except ServiceError Uuid
  rebuilt : Option (String × Option EndpointUrl)

/-- The node branch of `update_and_restart_runtime`. -/
def updateOnNode (draw : Draw) (config : UpdateConfig) (placement : Placement)
    (runtime : LLMRuntime) (s : Store) : Except ServiceError Store :=
  match s.getProvider runtime.providerId with
  | none => .error (.valueError s!"Provider {uuidStr runtime.providerId} not found")
  | some provider =>
    match ((config.targetNodeId <|> runtime.assignedNodeId).map .ok).getD placement.scheduled with
    | .error e => .error e
    | .ok nodeId =>
      let runtime := { runtime with assignedNodeId := some nodeId }
      llm.issueLifecycle draw .update runtime nodeId (llm.updatePayload config runtime provider s)
        (s.updateRuntime runtime)

/-- Stop and remove the Docker container of a runtime. -/
def teardownRuntime (runtime : LLMRuntime) (s : Store) : Store :=
  match runtime.containerRef.filter (· ≠ "") with
  | none => s
  | some containerRef =>
    if runtime.executionTarget = .node then s else s.call (.dockerTeardown containerRef)

/-- The branch of `update_and_restart_runtime` for remote endpoints and local containers. -/
def updateLocally (placement : Placement) (runtime : LLMRuntime) (s : Store) :
    Except ServiceError Store :=
  if (s.getProvider runtime.providerId).any (·.remoteEndpoint) then
    .ok (setStatus runtime.id .running s)
  else match s.getModel runtime.modelId with
    | none => .error (.valueError s!"Model {uuidStr runtime.modelId} not found")
    | some _ =>
      let s := teardownRuntime runtime s
      match placement.rebuilt with
      -- the new configuration was committed before the rebuild raised
      | none => .ok s
      | some (containerId, endpointUrl) =>
        let s := s.updateRuntime { runtime with
          containerRef := some containerId
          endpointUrl := endpointUrl <|> runtime.endpointUrl }
        .ok (setStatus runtime.id .starting s)

def updateAndRestartRuntime (draw : Draw) (runtimeId : Uuid) (config : UpdateConfig)
    (placement : Placement) (s : Store) : Except ServiceError Store :=
  match s.getRuntime runtimeId with
  | none => .error (notFound runtimeId)
  | some runtime =>
    let runtime := updateConfig config runtime
    if runtime.executionTarget = .node then llm.updateOnNode draw config placement runtime s
    else updateLocally placement runtime (s.updateRuntime runtime)

/-- A lifecycle request of the admin interface. -/
inductive LifecycleRequest where
  | start (runtimeId : Uuid)
  | stop (runtimeId : Uuid)
  | restart (runtimeId : Uuid)
  | update (runtimeId : Uuid) (config : UpdateConfig) (placement : Placement)

namespace LifecycleRequest

def runtimeId : LifecycleRequest → Uuid
  | start runtimeId | stop runtimeId | restart runtimeId | update runtimeId _ _ => runtimeId

def action : LifecycleRequest → LifecycleAction
  | start _ => .start
  | stop _ => .stop
  | restart _ => .restart
  | update _ _ _ => .update

end LifecycleRequest

def handle (draw : Draw) (req : LifecycleRequest) (s : Store) : Except ServiceError Store :=
  match req with
  | .start runtimeId => llm.startRuntime draw runtimeId s
  | .stop runtimeId => llm.stopRuntime draw runtimeId s
  | .restart runtimeId => llm.restartRuntime draw runtimeId s
  | .update runtimeId config placement =>
    llm.updateAndRestartRuntime draw runtimeId config placement s

end LLMService

end LlmPort.Backend.Llm
