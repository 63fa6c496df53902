import LlmPort.NodeAgent.ContainerNames
import LlmPort.NodeAgent.WorkloadCommand
import LlmPort.Transition.Raising

/-!
# The runtime manager

The workload operations of `runtime_manager.py` over the containers of the node and the agent's
workload state. Every call that leaves the agent may raise; an operation that raises leaves what it
has done until then.
-/

namespace LlmPort.NodeAgent

open Backend.Llm Text Transition

/-- The arguments of the container runtime's `run`. -/
structure RunCall where
  image : String
  name : String
  ports : List String
  env : List (String × String)
  gpus : Option String
  volumes : List String
  command : List String
  entrypoint : Option String
  extraArgs : List String
  deriving DecidableEq

structure Container where
  call : RunCall
  id : String
  running : Bool
  deriving DecidableEq

/-- An entry of the agent's `workloads`. -/
structure WorkloadRow where
  runtimeName : String
  containerName : String
  containerId : String
  providerType : String
  image : String
  containerPort : String
  hostPort : String
  endpointUrl : String
  deriving DecidableEq

structure NodeState where
  containers : List Container
  workloads : String → Option WorkloadRow
  /-- The calls of `run` so far. -/
  runs : List RunCall

/-- The calls that leave the agent. -/
inductive Call where
  | progress (phase : String)
  | inspect
  | remove
  | pullModel
  | pullImage
  | loadImage
  | run
  | ready
  | start
  | restart
  | port
  deriving DecidableEq

/-- How a call ends: the text of what it raises, and whether it took effect all the same. -/
structure Answer where
  error : Option String
  applied : Bool

/-- What the agent meets while it executes one command. -/
structure World where
  answer : Call → Answer
  /-- `inspect` answers in time. -/
  responds : Bool
  /-- The image is in the listing of the local ones. -/
  imageListed : Bool
  /-- The id a new container gets. -/
  containerId : String
  /-- `port`, for a container that was run with the arguments. -/
  port : RunCall → String → Option Nat

inductive WorkloadError where
  | rejected (rejection : Rejection)
  | policyViolation (image : String)
  | modelSync (message : String)
  | noImageLoader
  /-- A call raised. -/
  | raised (message : String)
  deriving DecidableEq

def WorkloadError.message : WorkloadError → String
  | rejected rejection => rejection.message
  | policyViolation image => s!"Image '{image}' not in allowlist."
  | modelSync message | raised message => message
  | noImageLoader => "Image loader not configured — cannot transfer image."

abbrev AgentM := EStateM WorkloadError NodeState

/-- What an operation returns. -/
structure WorkloadResult where
  runtimeId : String
  containerName : Option String
  containerId : Option String
  endpointUrl : Option String
  deriving DecidableEq

namespace NodeState

/-- A node without workloads. -/
def empty : NodeState := ⟨[], fun _ => none, []⟩

def container? (node : NodeState) (name : String) : Option Container :=
  node.containers.find? (·.call.name = name)

def hasContainer (node : NodeState) (name : String) : Bool :=
  node.containers.any (·.call.name = name)

def setRunning (node : NodeState) (name : String) : NodeState :=
  { node with containers := node.containers.map fun c =>
      if c.call.name = name then { c with running := true } else c }

def removeContainer (node : NodeState) (name : String) : NodeState :=
  { node with containers := node.containers.filter (·.call.name ≠ name) }

def setWorkload (node : NodeState) (runtimeId : String) (row : WorkloadRow) : NodeState :=
  { node with workloads := Function.update node.workloads runtimeId (some row) }

def dropWorkload (node : NodeState) (runtimeId : String) : NodeState :=
  { node with workloads := Function.update node.workloads runtimeId none }

end NodeState

namespace World

/-- A world in which no call raises and the images are there. -/
def quiet (responds : Bool) (containerId : String) (port : RunCall → String → Option Nat) : World :=
  ⟨fun _ => ⟨none, true⟩, responds, true, containerId, port⟩

variable (world : World)

def call (c : Call) (effect : NodeState → NodeState) : AgentM Unit := fun node =>
  match world.answer c with
  | ⟨none, _⟩ => .ok () (effect node)
  | ⟨some message, applied⟩ => .error (.raised message) (if applied then effect node else node)

/-- `_progress` -/
def progress (phase : String) : AgentM Unit := world.call (.progress phase) id

/-- `exists` -/
def containerExists (name : String) : AgentM Bool := do
  world.call .inspect id
  pure (world.responds && (← get).hasContainer name)

def remove (name : String) : AgentM Unit := world.call .remove (·.removeContainer name)

def runConflict : String := "Conflict. The container name is already in use."

/-- `run`; a name that is in use is refused. -/
def run (args : RunCall) : AgentM String := do
  modify fun node => { node with runs := node.runs ++ [args] }
  if (← get).hasContainer args.name then throw (.raised runConflict)
  else do
    world.call .run fun node =>
      { node with containers := node.containers ++ [⟨args, world.containerId, true⟩] }
    pure world.containerId

end World

/-- `deploy_workload` up to its first effect: whom it deploys, and from which image. -/
structure DeployTarget where
  runtimeId : String
  providerType : String
  image : String
  runtimeName : String
  containerName : String
  deriving DecidableEq

namespace RuntimeManager

/-- A manager whose interpreter knows the Latin letters alone. -/
def plain : RuntimeManager where
  llm := .plain
  repr _ := "{}"
  advertiseHost := "10.0.0.1"
  advertiseScheme := "http"
  modelStoreRoot := "/srv/llm-port/models"
  modelPuller := true
  imageLoader := true

variable (mgr : RuntimeManager)

/-- `_DEFAULT_IMAGES` -/
def defaultImages : List (String × String) :=
  [("vllm", "vllm/vllm-openai:latest"),
    ("llamacpp", "ghcr.io/ggerganov/llama.cpp:server"),
    ("tgi", "ghcr.io/huggingface/text-generation-inference:latest"),
    ("ollama", "ollama/ollama:latest")]

def providerType (payload : JsonObject) : String :=
  mgr.llm.lower (mgr.field [payload] "provider_type" "vllm")

def defaultImage (payload : JsonObject) : String :=
  (defaultImages.lookup (mgr.providerType payload)).getD ""

def deployTarget (payload : JsonObject) : Except Rejection DeployTarget :=
  let runtimeId := mgr.field [payload] "runtime_id" ""
  if runtimeId = "" then .error (.noRuntimeId true)
  else
    let image := LLMService.orDefault (mgr.field [payload] "image" "") <|
      LLMService.orDefault (mgr.field [dictAt payload "provider_config"] "image" "")
        (mgr.defaultImage payload)
    if image = "" then .error .noImage
    else
      let runtimeName := mgr.textOr [payload] "runtime_name" runtimeId
      .ok {
        runtimeId, image, runtimeName
        providerType := mgr.providerType payload
        containerName := LLMService.orDefault (mgr.field [payload] "container_name" "")
          (NodeAgent.containerName mgr.llm runtimeId (some runtimeName)) }

/-- A field of the payload, or of its provider configuration. -/
def setting (payload : JsonObject) (key default : String) : String :=
  mgr.field [payload, dictAt payload "provider_config"] key default

def containerPort (payload : JsonObject) : String := mgr.setting payload "container_port" "8000"

def hostPort (payload : JsonObject) : String :=
  mgr.setting payload "host_port" (mgr.containerPort payload)

/-- The container's command. -/
def commandOf (target : DeployTarget) (payload : JsonObject) :
    Except Rejection (List String × Option String) :=
  mgr.workloadCommand target.providerType payload (mgr.containerPort payload)

/-- The arguments of `run`; `hfOffline` when the model cache is mounted. -/
def runCall (payload : JsonObject) (target : DeployTarget) (command : List String)
    (entrypoint : Option String) (hfOffline : Option Bool) : RunCall :=
  let needsGpu := target.providerType = "vllm" ∨ target.providerType = "tgi"
  let gpuRequest := LLMService.orDefault (mgr.setting payload "gpu_request" "")
    (if needsGpu then "all" else "")
  let shmSize := LLMService.orDefault (mgr.setting payload "shm_size" "")
    (if gpuRequest ≠ "" then "1g" else "")
  let ipcMode := LLMService.orDefault (mgr.setting payload "ipc_mode" "")
    (if gpuRequest ≠ "" ∧ needsGpu then "host" else "")
  let option (flag value : String) : List String := if value = "" then [] else [flag, value]
  { image := target.image
    name := target.containerName
    ports := [mgr.hostPort payload ++ ":" ++ mgr.containerPort payload]
    env := [("LLM_PORT_RUNTIME_ID", target.runtimeId),
        ("LLM_PORT_PROVIDER_TYPE", target.providerType)] ++
      (if gpuRequest ≠ "" ∧ "nvcr.io".toList <:+: target.image.toList then
        [("NVIDIA_DISABLE_REQUIRE", "1")] else []) ++
      (match hfOffline with
      | some true => [("HF_HUB_CACHE", "/data/hf-cache"), ("HF_HUB_OFFLINE", "1"),
          ("TRANSFORMERS_OFFLINE", "1")]
      | some false => [("HF_HUB_CACHE", "/data/hf-cache")]
      | none => [])
    gpus := if gpuRequest = "" then none else some gpuRequest
    volumes := if hfOffline.isSome then [mgr.modelStoreRoot ++ ":/data/hf-cache"] else []
    command
    entrypoint
    extraArgs := option "--memory" (mgr.setting payload "memory_limit" "") ++
      option "--cpus" (mgr.setting payload "cpu_limit" "") ++ option "--shm-size" shmSize ++
      option "--ipc" ipcMode }

def endpoint (hostPort : String) : String :=
  mgr.advertiseScheme ++ "://" ++ mgr.advertiseHost ++ ":" ++ hostPort

/-- Raise what a check of the payload raises. -/
def check {α : Type} : Except Rejection α → AgentM α
  | .ok a => pure a
  | .error rejection => throw (.rejected rejection)

variable (world : World)

/-- The files of the model, from the backend. -/
def pullModel : AgentM Unit :=
  if mgr.modelPuller then do
    world.progress "sync_model"
    match world.answer .pullModel with
    | ⟨none, _⟩ => pure ()
    | ⟨some message, _⟩ => throw (.modelSync s!"Model sync failed: {message}")
  else pure ()

/-- The model's files, pulled if need be: whether the container works offline, when the cache is
mounted. -/
def syncModel (payload : JsonObject) : AgentM (Option Bool) :=
  let modelSync := dictAt payload "model_sync"
  let source := (modelSync.lookup "source").getD (.string "sync_from_server")
  if (modelSync.lookup "hf_repo_id").any Json.truthy then
    if source = .string "sync_from_server" ∧ (modelSync.lookup "blobs").any Json.truthy then do
      mgr.pullModel world
      pure (some true)
    else if source = .string "download_from_hf" then do
      world.progress "sync_model"
      pure (some false)
    else pure none
  else do
    world.progress "sync_model"
    pure none

/-- The container image, pulled or transferred if need be. -/
def ensureImage (payload : JsonObject) : AgentM Unit :=
  let imageSource := mgr.field [payload] "image_source" ""
  if imageSource = "pull_from_registry" then do
    world.progress "pull_image"
    world.call .pullImage id
  else if imageSource = "transfer_from_server" then do
    world.progress "pull_image"
    if world.imageListed then pure ()
    else if mgr.imageLoader then world.call .loadImage id else throw .noImageLoader
  else world.progress "pull_image"

/-- A container of the name that is there already is removed. -/
def removeStale (name : String) : AgentM Unit := do
  if ← world.containerExists name then world.remove name else pure ()

/-- What is stored of a deployment. -/
def workloadRow (payload : JsonObject) (target : DeployTarget) (containerId : String) :
    WorkloadRow where
  runtimeName := target.runtimeName
  containerName := target.containerName
  containerId
  providerType := target.providerType
  image := target.image
  containerPort := mgr.containerPort payload
  hostPort := mgr.hostPort payload
  endpointUrl := mgr.endpoint (mgr.hostPort payload)

/-- What follows `run`: the workload is recorded, then the container is waited for. -/
def recordWorkload (payload : JsonObject) (target : DeployTarget) (containerId : String) :
    AgentM WorkloadResult := do
  world.progress "resolve_endpoint"
  modify (·.setWorkload target.runtimeId (mgr.workloadRow payload target containerId))
  world.call .ready id
  world.progress "ready"
  pure ⟨target.runtimeId, some target.containerName, some containerId,
    some (mgr.endpoint (mgr.hostPort payload))⟩

def deployWorkload (payload : JsonObject) : AgentM WorkloadResult := do
  let target ← check (mgr.deployTarget payload)
  world.progress "validate"
  world.progress "remove_stale"
  removeStale world target.containerName
  let (command, entrypoint) ← check (mgr.commandOf target payload)
  let hfOffline ← mgr.syncModel world payload
  mgr.ensureImage world payload
  world.progress "start_container"
  let containerId ← world.run (mgr.runCall payload target command entrypoint hfOffline)
  mgr.recordWorkload world payload target containerId

/-- `_require_runtime_id` -/
def requireRuntimeId (payload : JsonObject) : Except Rejection String :=
  let runtimeId := mgr.field [payload] "runtime_id" ""
  if runtimeId = "" then .error (.noRuntimeId false) else .ok runtimeId

/-- A field that is a text and not blank. -/
def textField (payload : JsonObject) (key : String) : Option String :=
  match payload.lookup key with
  | some (.string text) => if strip text = "" then none else some text
  | _ => none

/-- `_lookup_container`, where none may be found; an empty name counts as none. -/
def lookupContainer (node : NodeState) (runtimeId : String) (payload : JsonObject) :
    Option String :=
  match node.workloads runtimeId with
  | some row => if row.containerName = "" then none else some row.containerName
  | none => match textField payload "container_name" with
    | some explicit => some (strip explicit)
    | none => (textField payload "runtime_name").map fun name =>
        NodeAgent.containerName mgr.llm runtimeId (some name)

/-- `_resolve_endpoint` -/
def resolveEndpoint (containerName containerPort : String) : AgentM (Option String) := do
  world.call .port id
  let hostPort := ((← get).container? containerName).bind (world.port ·.call containerPort)
  pure (hostPort.map fun hostPort => mgr.endpoint (toString hostPort))

/-- `start_workload` and `restart_workload`, which differ in the call alone: a workload without a
container is deployed. -/
def startOrRestart (c : Call) (payload : JsonObject) : AgentM WorkloadResult := do
  let runtimeId ← check (mgr.requireRuntimeId payload)
  match mgr.lookupContainer (← get) runtimeId payload with
  | none => mgr.deployWorkload world payload
  | some containerName =>
    if ← world.containerExists containerName then
      world.call c (·.setRunning containerName)
      let endpointUrl ← mgr.resolveEndpoint world containerName "8000"
      pure ⟨runtimeId, some containerName, none, endpointUrl⟩
    else mgr.deployWorkload world payload

def startWorkload (payload : JsonObject) : AgentM WorkloadResult :=
  mgr.startOrRestart world .start payload

def restartWorkload (payload : JsonObject) : AgentM WorkloadResult :=
  mgr.startOrRestart world .restart payload

def removeNamed : Option String → AgentM Unit
  | some name => world.remove name
  | none => pure ()

def removeWorkload (payload : JsonObject) : AgentM WorkloadResult := do
  let runtimeId ← check (mgr.requireRuntimeId payload)
  let containerName := mgr.lookupContainer (← get) runtimeId payload
  removeNamed world containerName
  modify (·.dropWorkload runtimeId)
  pure ⟨runtimeId, containerName, none, none⟩

def updateWorkload (payload : JsonObject) : AgentM WorkloadResult := do
  let _ ← check (mgr.requireRuntimeId payload)
  let _ ← mgr.removeWorkload world payload
  mgr.deployWorkload world payload

theorem requireRuntimeId_of_deployTarget {mgr : RuntimeManager} {payload : JsonObject}
    {target : DeployTarget} (h : mgr.deployTarget payload = .ok target) :
    mgr.requireRuntimeId payload = .ok target.runtimeId := by
  unfold deployTarget at h
  dsimp only at h
  split at h
  · cases h
  next hid =>
    split at h
    · cases h
    · cases h
      rw [requireRuntimeId, if_neg hid]

/-! ## What the parts leave alone -/

variable {mgr} {world} {node : NodeState} {payload : JsonObject} {τ : Type} {g : NodeState → τ}

@[simp] theorem ends_check_ok {α : Type} {a : α} {Q : α → NodeState → Prop}
    {E : WorkloadError → NodeState → Prop} : Ends (check (.ok a)) node Q E ↔ Q a node := ends_pure

@[simp] theorem ends_check_error {α : Type} {rejection : Rejection} {Q : α → NodeState → Prop}
    {E : WorkloadError → NodeState → Prop} :
    Ends (check (.error rejection)) node Q E ↔ E (.rejected rejection) node := ends_throw

theorem keeps_check {α : Type} {r : Except Rejection α} : Keeps g (check r) := by
  cases r with
  | ok a => exact .pure
  | error rejection => exact .throw

theorem keeps_call {c : Call} {effect : NodeState → NodeState} (h : ∀ s, g (effect s) = g s) :
    Keeps g (world.call c effect) := by
  intro s
  unfold World.call endState
  rcases world.answer c with ⟨_ | message, applied⟩
  · exact h s
  · cases applied with
    | false => rfl
    | true => exact h s

theorem keeps_progress {phase : String} : Keeps g (world.progress phase) := keeps_call fun _ => rfl

theorem keeps_containerExists {name : String} : Keeps g (world.containerExists name) :=
  (keeps_call fun _ => rfl).bind fun _ => .bind .get fun _ => .pure

theorem keeps_removeStale {name : String} (h : ∀ s, g (s.removeContainer name) = g s) :
    Keeps g (removeStale world name) :=
  keeps_containerExists.bind fun _ => .ite (fun _ => keeps_call h) fun _ => .pure

theorem keeps_pullModel : Keeps g (mgr.pullModel world) := by
  refine .ite (fun _ => keeps_progress.bind fun _ => ?_) fun _ => .pure
  split
  · exact .pure
  · exact .throw

/-- Of the node itself, syncing the model changes nothing. -/
theorem keeps_syncModel : Keeps g (mgr.syncModel world payload) := by
  refine .ite (fun _ => .ite (fun _ => ?_) fun _ => .ite (fun _ => ?_) fun _ => .pure) fun _ => ?_
  · exact keeps_pullModel.bind fun _ => .pure
  · exact keeps_progress.bind fun _ => .pure
  · exact keeps_progress.bind fun _ => .pure

/-- Nor does getting hold of the image. -/
theorem keeps_ensureImage : Keeps g (mgr.ensureImage world payload) := by
  refine .ite (fun _ => ?_) fun _ => .ite (fun _ => ?_) fun _ => keeps_progress
  · exact keeps_progress.bind fun _ => keeps_call fun _ => rfl
  · refine keeps_progress.bind fun _ => .ite (fun _ => .pure) fun _ => ?_
    exact .ite (fun _ => keeps_call fun _ => rfl) fun _ => .throw

theorem keeps_resolveEndpoint {containerName containerPort : String} :
    Keeps g (mgr.resolveEndpoint world containerName containerPort) :=
  (keeps_call fun _ => rfl).bind fun _ => .bind .get fun _ => .pure

theorem keeps_removeWorkload (hremove : ∀ s name, g (NodeState.removeContainer s name) = g s)
    (hdrop : ∀ s runtimeId, g (NodeState.dropWorkload s runtimeId) = g s) :
    Keeps g (mgr.removeWorkload world payload) := by
  refine keeps_check.bind fun runtimeId => .bind .get fun s => Keeps.bind ?_ fun _ => ?_
  · cases mgr.lookupContainer s runtimeId payload with
    | none => exact .pure
    | some name => exact keeps_call fun s => hremove s name
  · exact .bind (fun s => hdrop s runtimeId) fun _ => .pure

theorem keeps_recordWorkload {target : DeployTarget} {containerId : String}
    (h : ∀ s runtimeId row, g (NodeState.setWorkload s runtimeId row) = g s) :
    Keeps g (mgr.recordWorkload world payload target containerId) := by
  refine keeps_progress.bind fun _ => Keeps.bind (fun s => h s _ _) fun _ => ?_
  exact (keeps_call fun _ => rfl).bind fun _ => keeps_progress.bind fun _ => .pure

/-! ## What the parts raise -/

/-- The payload is not what the error is about. -/
def NotRejected (e : WorkloadError) : Prop := ∀ rejection, e ≠ .rejected rejection

theorem ends_call {c : Call} {effect : NodeState → NodeState} :
    Ends (world.call c effect) node (fun _ s => s = effect node) fun e _ => NotRejected e := by
  rw [ends_iff]
  unfold World.call
  rcases world.answer c with ⟨_ | message, applied⟩
  · rfl
  · exact fun _ h => by cases h

theorem raises_call {c : Call} {effect : NodeState → NodeState} :
    Raises NotRejected (world.call c effect) := fun _ =>
  ends_call.imp (fun _ _ _ => trivial) fun _ _ h => h

theorem raises_progress {phase : String} : Raises NotRejected (world.progress phase) := raises_call

theorem raises_containerExists {name : String} :
    Raises NotRejected (world.containerExists name) :=
  raises_call.bind fun _ => .bind .get fun _ => .pure

theorem ends_removeStale {name : String} :
    Ends (removeStale world name) node (fun _ s => s = node ∨ s = node.removeContainer name)
      fun e _ => NotRejected e := by
  refine raises_containerExists.ends_bind keeps_containerExists (fun _ => ?_) fun _ _ h => h
  exact ends_ite.2 ⟨fun _ => ends_call.imp (fun _ _ h => .inr h) fun _ _ h => h,
    fun _ => ends_pure.2 (.inl rfl)⟩

theorem raises_syncModel : Raises NotRejected (mgr.syncModel world payload) := by
  have hpull : Raises NotRejected (mgr.pullModel world) := by
    refine .ite (fun _ => raises_progress.bind fun _ => ?_) fun _ => .pure
    split
    · exact .pure
    · exact .throw fun _ h => by cases h
  refine .ite (fun _ => .ite (fun _ => ?_) fun _ => .ite (fun _ => ?_) fun _ => .pure) fun _ => ?_
  · exact hpull.bind fun _ => .pure
  · exact raises_progress.bind fun _ => .pure
  · exact raises_progress.bind fun _ => .pure

theorem raises_ensureImage : Raises NotRejected (mgr.ensureImage world payload) := by
  refine .ite (fun _ => ?_) fun _ => .ite (fun _ => ?_) fun _ => raises_progress
  · exact raises_progress.bind fun _ => raises_call
  · refine raises_progress.bind fun _ => .ite (fun _ => .pure) fun _ => ?_
    exact .ite (fun _ => raises_call) fun _ => .throw fun _ h => by cases h

theorem raises_run {args : RunCall} : Raises NotRejected (world.run args) :=
  .bind .modify fun _ => .bind .get fun _ => .ite (fun _ => .throw fun _ h => by cases h) fun _ =>
    raises_call.bind fun _ => .pure

theorem raises_recordWorkload {target : DeployTarget} {containerId : String} :
    Raises NotRejected (mgr.recordWorkload world payload target containerId) :=
  raises_progress.bind fun _ => .bind .modify fun _ => raises_call.bind fun _ =>
    raises_progress.bind fun _ => .pure

/-! ## A quiet world -/

section
variable {responds : Bool} {containerId : String} {port : RunCall → String → Option Nat}
  {s : NodeState} {E : WorkloadError → NodeState → Prop}

@[simp] theorem quiet_call {c : Call} {effect : NodeState → NodeState} :
    (World.quiet responds containerId port).call c effect = modify effect := rfl

@[simp] theorem quiet_progress {phase : String} :
    (World.quiet responds containerId port).progress phase = pure ⟨⟩ := rfl

@[simp] theorem quiet_containerExists {name : String} {Q : Bool → NodeState → Prop} :
    Ends ((World.quiet responds containerId port).containerExists name) s Q E ↔
      Q (responds && s.hasContainer name) s := ends_iff

theorem quiet_removeStale {name : String} {Q : NodeState → Prop} :
    Ends (removeStale (World.quiet responds containerId port) name) s (fun _ => Q) E ↔
      Q (if responds && s.hasContainer name then s.removeContainer name else s) := by
  simp only [removeStale, ends_bind, quiet_containerExists, ends_ite, World.remove, quiet_call,
    ends_modify, ends_pure]
  cases responds && s.hasContainer name with
  | true => simp
  | false => simp

theorem quiet_removeWorkload {runtimeId : String} {Q : WorkloadResult → NodeState → Prop}
    (h : mgr.requireRuntimeId payload = .ok runtimeId) :
    Ends (mgr.removeWorkload (World.quiet responds containerId port) payload) s Q E ↔
      Q ⟨runtimeId, mgr.lookupContainer s runtimeId payload, none, none⟩
        (((mgr.lookupContainer s runtimeId payload).elim s s.removeContainer).dropWorkload
          runtimeId) := by
  unfold removeWorkload
  rw [h]
  simp only [ends_bind, ends_check_ok, ends_get]
  cases mgr.lookupContainer s runtimeId payload with
  | none => simp only [removeNamed, ends_pure, ends_modify, Option.elim]
  | some name =>
    simp only [removeNamed, World.remove, quiet_call, ends_pure, ends_modify, Option.elim]

theorem quiet_syncModel {Q : Option Bool → NodeState → Prop} (hQ : ∀ hfOffline, Q hfOffline s) :
    Ends (mgr.syncModel (World.quiet responds containerId port) payload) s Q E := by
  have hpull : Ends (mgr.pullModel (World.quiet responds containerId port)) s (fun _ s' => s' = s) E := by
    unfold pullModel
    exact ends_ite.2 ⟨fun _ => ends_iff.2 rfl, fun _ => ends_pure.2 rfl⟩
  unfold syncModel
  dsimp only
  split
  · split
    · refine ends_bind.2 (hpull.imp ?_ fun _ _ h => h)
      rintro _ _ rfl
      exact ends_pure.2 (hQ _)
    · split
      · exact ends_bind.2 (ends_pure.2 (ends_pure.2 (hQ _)))
      · exact ends_pure.2 (hQ _)
  · exact ends_bind.2 (ends_pure.2 (ends_pure.2 (hQ _)))

theorem quiet_ensureImage {Q : NodeState → Prop} (hQ : Q s) :
    Ends (mgr.ensureImage (World.quiet responds containerId port) payload) s (fun _ => Q) E := by
  unfold ensureImage
  simp only [quiet_progress, quiet_call, pure_bind]
  refine ends_ite.2 ⟨fun _ => ends_modify.2 hQ, fun _ => ends_ite.2 ⟨fun _ => ?_, fun _ => ?_⟩⟩
  · exact ends_pure.2 hQ
  · exact ends_pure.2 hQ

end

end RuntimeManager

end LlmPort.NodeAgent
