import LlmPort.Backend.Llm.Lifecycle
import LlmPort.Backend.NodeControl.HealthEvents

/-!
# Reconciliation and health probes

`reconcile_runtime_status` and `get_runtime_health` of `services/llm/service.py`, and what a stop
leaves behind when the Docker daemon raises.
-/

namespace LlmPort.Backend.Llm

open NodeControl

/-- The `State` object of an inspected container. -/
structure ContainerState where
  status : String
  exitCode : Int

/-- What a reconciliation makes of a runtime. -/
inductive Verdict where
  | keep
  | promote
  | fail (message : String)
  deriving DecidableEq

/-- The statuses of a runtime that is coming up. -/
def isPending : RuntimeStatus → Bool
  | .creating | .starting => true
  | .running | .stopping | .stopped | .error => false

/-- The statuses that are reconciled. -/
def isTransient : RuntimeStatus → Bool
  | .creating | .starting | .running => true
  | .stopping | .stopped | .error => false

/-- The assigned node does not exist or is offline. -/
def onOfflineNode (runtime : LLMRuntime) (s : Store) : Bool :=
  runtime.assignedNodeId.any fun nodeId => (s.getNodeById nodeId).all (·.status = .offline)

namespace LLMService

variable (llm : LLMService)

/-- The branches of `reconcile_runtime_status`; an inspection that raises is `none`. -/
def verdict (runtime : LLMRuntime) (inspected : Option ContainerState) (s : Store) : Verdict :=
  match runtime.containerRef.filter (· ≠ "") with
  | none => .keep
  | some containerRef =>
    if ¬ isTransient runtime.status then .keep
    else if runtime.executionTarget = .node then
      if onOfflineNode runtime s then .fail "Node offline" else .keep
    else match inspected with
      | none =>
        if isPending runtime.status then .fail s!"Container {containerRef} not found" else .keep
      | some state =>
        let dockerStatus := llm.lower state.status
        if dockerStatus = "running" then if isPending runtime.status then .promote else .keep
        else if dockerStatus ∈ ["exited", "dead", "removing"] then
          .fail s!"Container {dockerStatus} (exit code {state.exitCode})"
        else .keep

def reconcileRuntimeStatus (runtime : LLMRuntime) (inspected : Option ContainerState) (s : Store) :
    Store :=
  match llm.verdict runtime inspected s with
  | .keep => s
  | .promote =>
    let s := setStatus runtime.id .running s
    llm.nodeControl.syncCall (.setInstanceHealth runtime.id .healthy) s
  | .fail message =>
    let s := setStatus runtime.id .error
      (s.updateRuntime { runtime with statusMessage := some message })
    llm.nodeControl.syncCall (.setInstanceHealth runtime.id .unhealthy) s

/-- `get_runtime_health`, given what the inspection and the adapter's probe answer. -/
def getRuntimeHealth (runtimeId : Uuid) (inspected : Option ContainerState) (healthy : Bool)
    (s : Store) : Except ServiceError Store :=
  match s.getRuntime runtimeId with
  | none => .error (notFound runtimeId)
  | some runtime => match s.getProvider runtime.providerId with
    | none => .error (.valueError s!"Provider {uuidStr runtime.providerId} not found")
    | some _ =>
      let s := llm.reconcileRuntimeStatus runtime inspected s
      if healthy ∧ runtimeStatus s runtimeId = some .starting then
        .ok (setStatus runtimeId .running s)
      else .ok s

/-- `stop_runtime` on a local container when `docker.stop` raises: the status was committed before
it. -/
def stopRuntimeRaising (runtimeId : Uuid) (s : Store) : Store :=
  match s.getRuntime runtimeId with
  | none => s
  | some runtime => match hostingNode runtime, runtime.containerRef.filter (· ≠ "") with
    | none, some containerRef => (setStatus runtimeId .stopping s).call (.dockerStop containerRef)
    | _, _ => s

end LLMService

end LlmPort.Backend.Llm
