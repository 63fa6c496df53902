import LlmPort.Backend.Llm.Lifecycle
import LlmPort.Backend.Llm.GatewaySync

/-!
# Creating and deleting runtimes

`create_runtime` with its three branches (remote endpoint, node, local container), and
`delete_runtime`.
-/

namespace LlmPort.Backend.Llm

open NodeControl

/-- The arguments of `create_runtime`; a text that is absent is empty. -/
structure CreateRequest where
  name : String
  providerId : Uuid
  modelId : Uuid
  genericConfig : String
  providerConfig : ProviderConfig
  openaiCompat : Bool
  targetNodeId : Option Uuid
  placementHints : String
  modelSource : String
  imageSource : String

namespace LLMService

variable (llm : LLMService)

/-- `_select_node_for_runtime`, given the scheduler's answer. -/
def selectNode (targetNodeId : Option Uuid) (scheduled : Except ServiceError Uuid) (s : Store) :
    Except ServiceError Uuid :=
  match targetNodeId with
  | none => scheduled
  | some nodeId => match s.getNodeById nodeId with
    | none => .error (.valueError s!"Target node {uuidStr nodeId} not found")
    | some node => .ok node.id

/-- The row `create_runtime` inserts, placed on a node. -/
def createdRow (runtimeId : Uuid) (req : CreateRequest) (nodeId : Uuid) : LLMRuntime where
  id := runtimeId
  name := req.name
  providerId := req.providerId
  modelId := req.modelId
  status := .creating
  statusMessage := none
  endpointUrl := none
  openaiCompat := req.openaiCompat
  genericConfig := req.genericConfig
  providerConfig := req.providerConfig
  containerRef := none
  executionTarget := .node
  assignedNodeId := some nodeId
  desiredState := "running"
  lastCommandId := none

/-- The payload of the first deploy command: the request's own sources come before those of the
configuration. -/
def createPayload (req : CreateRequest) (runtime : LLMRuntime) (provider : LLMProvider)
    (model : LLMModel) : CommandPayload where
  runtimeId := .uuid runtime.id true
  enabled := true
  entries := llm.deployEntries
    { runtime with providerConfig := { req.providerConfig with
        modelSource := req.modelSource
        imageSource := orDefault req.imageSource req.providerConfig.imageSource } }
    (some provider) (some model) [("placement_hints", .json req.placementHints)]

/-- The arguments of the commands that create and remove a runtime's workload. -/
def provisioningRequest (commandType : NodeCommandType) (verb : String) (runtime : LLMRuntime)
    (nodeId : Uuid) (payload : CommandPayload) : CommandRequest where
  nodeId
  commandType
  payload
  issuedBy := none
  correlationId := some (uuidStr runtime.id)
  timeoutSec := some llm.nodeCommandDefaultTimeoutSec
  idempotencyKey := some s!"runtime:{uuidStr runtime.id}:{verb}"

def deployRequest (runtime : LLMRuntime) (nodeId : Uuid) (payload : CommandPayload) :
    CommandRequest :=
  llm.provisioningRequest .deployWorkload "deploy" runtime nodeId payload

def removeRequest (runtime : LLMRuntime) (nodeId : Uuid) : CommandRequest :=
  llm.provisioningRequest .removeWorkload "remove" runtime nodeId (llm.stopPayload runtime)

/-- The node branch of `create_runtime`; `compatible` is the adapter's verdict on the model and its
artifacts, which a download by the node and a remote provider skip. -/
def createOnNode (draw : Draw) (runtimeId : Uuid) (req : CreateRequest)
    (compatible : Except ServiceError Unit) (scheduled : Except ServiceError Uuid) (s : Store) :
    Except ServiceError Store :=
  match s.getProvider req.providerId, s.getModel req.modelId with
  | none, _ => .error (.valueError s!"Provider {uuidStr req.providerId} not found")
  | some _, none => .error (.valueError s!"Model {uuidStr req.modelId} not found")
  | some provider, some model =>
    if req.modelSource ≠ "download_from_hf" ∧ model.status ≠ .available then
      .error (.valueError s!"Model {uuidStr req.modelId} is not available")
    else match (if req.modelSource = "download_from_hf" then .ok () else compatible) with
      | .error e => .error e
      | .ok () => match selectNode req.targetNodeId scheduled s with
        | .error e => .error e
        | .ok nodeId =>
          let runtime := createdRow runtimeId req nodeId
          let s := { s with runtimes := s.runtimes ++ [runtime] }.upsertWorkloadAssignment
            ⟨runtime.id, nodeId, runtime.desiredState, none⟩
          match llm.nodeControl.issueCommand draw (llm.deployRequest runtime nodeId
              (llm.createPayload req runtime provider model)) s with
          | .error e => .error e
          | .ok (s, command) =>
            let s := s.updateRuntime { runtime with lastCommandId := some command.id }
            .ok (setStatus runtime.id .starting s)

/-- The columns of a provider row that only remote endpoints use; an empty text is `none`. -/
structure RemoteColumns where
  endpointUrl : Option EndpointUrl
  apiKeyEncrypted : Option String
  litellmProvider : Option String
  litellmModel : Option String
  extraParams : Option String

/-- The endpoint of a remote provider, or the sentinel under which LiteLLM routes by itself. -/
def remoteEndpoint (columns : RemoteColumns) : Option EndpointUrl :=
  columns.endpointUrl <|>
    columns.litellmProvider.map fun provider => ⟨"litellm", provider, none, ""⟩

/-- What `create_runtime` takes from outside: the adapter's verdict, the scheduler's answer, the
settings, the provider's columns, and the container id and endpoint of a container that was
created. -/
structure CreateEnvironment where
  compatible : Except ServiceError Unit
  scheduled : Except ServiceError Uuid
  nodeClusterEnabled : Bool
  columns : RemoteColumns
  built : Option (String × Option EndpointUrl)

/-- The checks of `create_runtime` before it inserts a row. -/
def checkCreate (req : CreateRequest) (compatible : Except ServiceError Unit) (s : Store) :
    Except ServiceError (LLMProvider × LLMModel) :=
  match s.getProvider req.providerId, s.getModel req.modelId with
  | none, _ => .error (.valueError s!"Provider {uuidStr req.providerId} not found")
  | some _, none => .error (.valueError s!"Model {uuidStr req.modelId} not found")
  | some provider, some model =>
    let nodeDownloads := req.modelSource = "download_from_hf"
    if ¬ nodeDownloads ∧ model.status ≠ .available then
      .error (.valueError s!"Model {uuidStr req.modelId} is not available")
    else (if provider.remoteEndpoint ∨ nodeDownloads then .ok () else compatible).map fun _ =>
      (provider, model)

/-- The row `RuntimeDAO.create` inserts. -/
def insertedRow (runtimeId : Uuid) (req : CreateRequest) : LLMRuntime where
  id := runtimeId
  name := req.name
  providerId := req.providerId
  modelId := req.modelId
  status := .creating
  statusMessage := none
  endpointUrl := none
  openaiCompat := req.openaiCompat
  genericConfig := req.genericConfig
  providerConfig := req.providerConfig
  containerRef := none
  executionTarget := .localDocker
  assignedNodeId := none
  desiredState := "running"
  lastCommandId := none

/-- The remote branch of `create_runtime`: the new store, and what is published in the gateway. -/
def createRemote (runtimeId : Uuid) (req : CreateRequest) (env : CreateEnvironment) (s : Store) :
    Except ServiceError (Store × PublishRequest) :=
  match checkCreate req env.compatible s with
  | .error e => .error e
  | .ok (provider, _) => match remoteEndpoint env.columns with
    | none => .error (.valueError "Remote provider has no endpoint_url configured")
    | some endpointUrl =>
      let runtime := { insertedRow runtimeId req with
        executionTarget := .remote
        endpointUrl := some endpointUrl
        status := .running }
      .ok ({ s with runtimes := s.runtimes ++ [runtime] }, {
        baseUrl := endpointText endpointUrl
        backendProviderType := providerTypeValue provider.type
        isRemote := true
        healthStatus := "healthy"
        weight := 1
        maxConcurrency := 10
        apiKeyEncrypted := env.columns.apiKeyEncrypted
        litellmProvider := env.columns.litellmProvider
        litellmModel := env.columns.litellmModel
        extraParams := env.columns.extraParams
        nodeId := none
        nodeMetadata := none
        capacityHints := none })

/-- The local branch of `create_runtime`. -/
def createLocally (runtimeId : Uuid) (req : CreateRequest) (env : CreateEnvironment) (s : Store) :
    Except ServiceError (Store × Option PublishRequest) :=
  match checkCreate req env.compatible s with
  | .error e => .error e
  | .ok (provider, model) => match env.built with
    -- the row that was committed before the container is deleted again
    | none => .ok (s, none)
    | some (containerId, endpointUrl) =>
      let runtime := { insertedRow runtimeId req with
        containerRef := some containerId
        endpointUrl
        status := .starting }
      .ok ({ s with runtimes := s.runtimes ++ [runtime] }, endpointUrl.map fun url => {
        baseUrl := endpointText url
        backendProviderType := providerTypeValue provider.type
        isRemote := false
        -- promoted to healthy once reconciliation detects the container is up
        healthStatus := "unknown"
        weight := 1
        maxConcurrency := 10
        apiKeyEncrypted := none
        litellmProvider := none
        litellmModel := model.hfRepoId.filter (· ≠ "")
        extraParams := none
        nodeId := none
        nodeMetadata := none
        capacityHints := none })

def createRuntime (draw : Draw) (runtimeId : Uuid) (req : CreateRequest) (env : CreateEnvironment)
    (s : Store) : Except ServiceError (Store × Option PublishRequest) :=
  if (s.getProvider req.providerId).any (·.remoteEndpoint) then
    (createRemote runtimeId req env s).map fun (s, publish) => (s, some publish)
  else if env.nodeClusterEnabled ∨ req.targetNodeId.isSome then
    (llm.createOnNode draw runtimeId req env.compatible env.scheduled s).map fun s => (s, none)
  else createLocally runtimeId req env s

/-- Stop, remove the container, and delete the runtime record. -/
def deleteRuntime (draw : Draw) (runtimeId : Uuid) (s : Store) : Except ServiceError Store :=
  match s.getRuntime runtimeId with
  | none => .error (notFound runtimeId)
  | some runtime =>
    let finish (s : Store) : Store :=
      let s := llm.nodeControl.syncCall (.unpublishRuntime runtimeId runtime.name) s
      let s := s.call (.deprovisionForRuntime runtimeId)
      { s with runtimes := s.runtimes.filter (·.id ≠ runtimeId) }
    match hostingNode runtime with
    | some nodeId =>
      match llm.nodeControl.issueCommand draw (llm.removeRequest runtime nodeId) s with
      | .error e => .error e
      | .ok (s, _) => .ok (finish s)
    | none => .ok (finish (teardownRuntime runtime s))

end LLMService

end LlmPort.Backend.Llm
