import Mathlib.Data.List.Sort
import Mathlib.Data.BitVec

/-!
# Rows of the node control plane

The tables the node-control service reads and writes (`db/models/node_control.py` and
`db/models/llm.py`), each row with the columns some modelled function uses, and the database
session as a record of tables.
-/

namespace LlmPort.Backend.NodeControl

abbrev Uuid := BitVec 128

instance : LawfulBEq Uuid := inferInstance

/-- The canonical text of a UUID: 32 hexadecimal digits in groups of 8-4-4-4-12. -/
def uuidStr (id : Uuid) : String :=
  let hex := (Nat.toDigits 16 id.toNat).leftpad 32 '0'
  String.ofList <| hex.take 8 ++ '-' :: (hex.drop 8).take 4 ++ '-' :: (hex.drop 12).take 4 ++
    '-' :: (hex.drop 16).take 4 ++ '-' :: hex.drop 20

/-- Microseconds since the epoch. -/
abbrev Time := Int

/-- `timedelta(seconds=n)` -/
def seconds (n : Int) : Time := n * 1000000

/-- The texts of the node statuses. -/
def wellKnownNodeStatuses : List String :=
  ["healthy", "degraded", "draining", "maintenance", "offline", "error"]

/-- The status of a node; an agent may also report any `other` text. -/
inductive NodeHealthStatus where
  | healthy | degraded | draining | maintenance | offline | error
  | other (name : String) (h : name ∉ wellKnownNodeStatuses)
  deriving DecidableEq

def NodeHealthStatus.value : NodeHealthStatus → String
  | healthy => "healthy"
  | degraded => "degraded"
  | draining => "draining"
  | maintenance => "maintenance"
  | offline => "offline"
  | error => "error"
  | other name _ => name

inductive NodeCommandStatus where
  | queued | dispatched | acked | running | succeeded | failed | canceled | timedOut
  deriving DecidableEq

namespace NodeCommandStatus

/-- The statuses `issue_command` and `set_command_status` treat as terminal. -/
def isTerminal : NodeCommandStatus → Bool
  | succeeded | failed | canceled | timedOut => true
  | queued | dispatched | acked | running => false

/-- The statuses of `list_inflight_commands`. -/
def isInflight : NodeCommandStatus → Bool
  | dispatched | acked | running => true
  | queued | succeeded | failed | canceled | timedOut => false

/-- The statuses of `list_pending_commands`. -/
def isPending : NodeCommandStatus → Bool
  | queued | dispatched => true
  | acked | running | succeeded | failed | canceled | timedOut => false

theorem isTerminal_of_isInflight {status : NodeCommandStatus} (h : status.isInflight) :
    status.isTerminal = false := by
  cases status <;> simp_all [isInflight, isTerminal]

end NodeCommandStatus

/-- The texts of the well-known command types. -/
def wellKnownCommandTypes : List String :=
  ["deploy_workload", "start_workload", "stop_workload", "restart_workload", "remove_workload",
    "update_workload", "refresh_inventory", "set_maintenance_mode", "drain_node", "resume_node",
    "collect_diagnostics", "sync_model", "fetch_container_logs", "host_op", "sync_node_profile",
    "check_system_updates", "apply_system_updates"]

/-- The well-known command types; the admin endpoint may also issue any `other` text. -/
inductive NodeCommandType where
  | deployWorkload | startWorkload | stopWorkload | restartWorkload | removeWorkload
  | updateWorkload | refreshInventory | setMaintenanceMode | drainNode | resumeNode
  | collectDiagnostics | syncModel | fetchContainerLogs | hostOp | syncNodeProfile
  | checkSystemUpdates | applySystemUpdates
  | other (name : String) (h : name ∉ wellKnownCommandTypes)
  deriving DecidableEq

def NodeCommandType.value : NodeCommandType → String
  | deployWorkload => "deploy_workload"
  | startWorkload => "start_workload"
  | stopWorkload => "stop_workload"
  | restartWorkload => "restart_workload"
  | removeWorkload => "remove_workload"
  | updateWorkload => "update_workload"
  | refreshInventory => "refresh_inventory"
  | setMaintenanceMode => "set_maintenance_mode"
  | drainNode => "drain_node"
  | resumeNode => "resume_node"
  | collectDiagnostics => "collect_diagnostics"
  | syncModel => "sync_model"
  | fetchContainerLogs => "fetch_container_logs"
  | hostOp => "host_op"
  | syncNodeProfile => "sync_node_profile"
  | checkSystemUpdates => "check_system_updates"
  | applySystemUpdates => "apply_system_updates"
  | other name _ => name

inductive RuntimeStatus where
  | creating | starting | running | stopping | stopped | error
  deriving DecidableEq

inductive ModelStatus where
  | available | downloading | failed | deleting
  deriving DecidableEq

inductive ProviderType where
  | vllm | llamacpp | tgi | ollama | cloud
  deriving DecidableEq

inductive ExecutionTarget where
  | localDocker | remote | node
  deriving DecidableEq

/-- What `payload_json.get("runtime_id")` holds: `None` (no key, or null), another falsy value, a
text `uuid.UUID` rejects, or one it accepts (`canonical` when it is the text `str(uuid)` gives). -/
inductive RuntimeIdField where
  | missing
  | falsy
  | malformed
  | uuid (id : Uuid) (canonical : Bool)
  deriving DecidableEq

/-- A value of a JSON object that no modelled function looks into. -/
inductive JsonField where
  | null
  | bool (b : Bool)
  | text (s : String)
  /-- A nested value, as its JSON text. -/
  | json (s : String)
  deriving DecidableEq

/-- A command's `payload_json`: the two entries the control plane and the agent's own handlers
read, and the other entries of the object. -/
structure CommandPayload where
  runtimeId : RuntimeIdField
  /-- `bool(payload.get("enabled", True))` -/
  enabled : Bool
  entries : List (String × JsonField)
  deriving DecidableEq

/-- An endpoint URL as `urlparse` splits it. -/
structure EndpointUrl where
  scheme : String
  hostname : String
  port : Option Nat
  path : String
  deriving DecidableEq

/-- A command's `result` object: the entries that are read back, and the rest. -/
structure ResultJson where
  /-- The entry when it is a text that is not blank, stripped. -/
  endpointUrl : Option EndpointUrl
  replayed : Bool
  entries : List (String × JsonField)
  deriving DecidableEq

/-- `{}` -/
def ResultJson.empty : ResultJson := ⟨none, false, []⟩

/-- The fields of a `command_result` frame: `success` as `bool` reads it, `result` when it is an
object. -/
structure CommandResult where
  success : Bool
  result : Option ResultJson
  errorCode : Option String
  errorMessage : Option String
  deriving DecidableEq

structure InfraNode where
  id : Uuid
  host : String
  status : NodeHealthStatus
  maintenanceMode : Bool
  draining : Bool
  schedulerEligible : Bool
  /-- `capabilities_json.get("gpu_count", 0)` -/
  capabilityGpuCount : Int
  deriving DecidableEq

/-- A stream session; `connected` while `disconnected_at` is null. -/
structure InfraNodeSession where
  id : Uuid
  nodeId : Uuid
  connected : Bool
  lastRxOffset : Int
  deriving DecidableEq

structure InfraNodeCommand where
  id : Uuid
  nodeId : Uuid
  commandType : NodeCommandType
  status : NodeCommandStatus
  correlationId : Option String
  idempotencyKey : String
  payloadJson : CommandPayload
  resultJson : Option ResultJson
  timeoutSec : Option Int
  issuedBy : Option Uuid
  issuedAt : Time
  dispatchedAt : Option Time
  ackedAt : Option Time
  startedAt : Option Time
  completedAt : Option Time
  errorCode : Option String
  errorMessage : Option String
  deriving DecidableEq

/-- The part of a frame that a timeline entry keeps as its `payload_json`. -/
inductive EventPayload where
  | message (text : Option String)
  | result (payload : CommandResult)
  deriving DecidableEq

structure InfraNodeCommandEvent where
  commandId : Uuid
  seq : Nat
  phase : String
  message : String
  payloadJson : Option EventPayload
  deriving DecidableEq

structure InfraNodeWorkloadAssignment where
  runtimeId : Uuid
  nodeId : Uuid
  desiredState : String
  /-- A runtime's status, or "pending". -/
  actualState : Option RuntimeStatus
  deriving DecidableEq

/-- The `provider_config` object of a runtime: the entries the node payload copies (empty when
absent), and the whole as JSON text. -/
structure ProviderConfig where
  gpuRequest : String
  ipcMode : String
  modelSource : String
  imageSource : String
  shmSize : String
  memoryLimit : String
  cpuLimit : String
  containerPort : String
  json : String
  deriving DecidableEq

structure LLMRuntime where
  id : Uuid
  name : String
  providerId : Uuid
  modelId : Uuid
  status : RuntimeStatus
  statusMessage : Option String
  endpointUrl : Option EndpointUrl
  openaiCompat : Bool
  genericConfig : String
  providerConfig : ProviderConfig
  containerRef : Option String
  executionTarget : ExecutionTarget
  assignedNodeId : Option Uuid
  desiredState : String
  lastCommandId : Option Uuid
  deriving DecidableEq

structure LLMProvider where
  id : Uuid
  type : ProviderType
  /-- `target == ProviderTarget.REMOTE_ENDPOINT` -/
  remoteEndpoint : Bool
  deriving DecidableEq

structure LLMModel where
  id : Uuid
  status : ModelStatus
  hfRepoId : Option String
  deriving DecidableEq

inductive InstanceHealth where
  | healthy | unhealthy | unknown
  deriving DecidableEq

/-- The calls that leave the control plane for the gateway database, the monitoring files and the
local Docker daemon. -/
inductive SyncCall where
  | setInstanceHealth (runtimeId : Uuid) (health : InstanceHealth)
  | publishRuntime (runtimeId : Uuid) (name : String) (baseUrl : EndpointUrl)
      (providerType : ProviderType) (health : InstanceHealth) (litellmModel : Option String)
      (nodeId : Option Uuid) (executionTarget : ExecutionTarget) (desiredState : String)
  | unpublishRuntime (runtimeId : Uuid) (name : String)
  | provisionForRuntime (runtimeId : Uuid)
  | deprovisionForRuntime (runtimeId : Uuid)
  | dockerStart (containerRef : String)
  | dockerStop (containerRef : String)
  | dockerRestart (containerRef : String)
  | dockerTeardown (containerRef : String)
  deriving DecidableEq

/-- The database as one session sees it, with the outgoing calls in order. -/
structure Store where
  nodes : List InfraNode
  sessions : List InfraNodeSession
  commands : List InfraNodeCommand
  commandEvents : List InfraNodeCommandEvent
  assignments : List InfraNodeWorkloadAssignment
  runtimes : List LLMRuntime
  providers : List LLMProvider
  models : List LLMModel
  syncCalls : List SyncCall
  deriving DecidableEq

end LlmPort.Backend.NodeControl
