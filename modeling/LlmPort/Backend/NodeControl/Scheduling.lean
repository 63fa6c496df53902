import Mathlib.Data.Rat.Defs
import LlmPort.Backend.NodeControl.Rows

/-!
# Scheduling a runtime on a node

`schedule_node_for_runtime`, with the maintenance and drain toggles and the inventory snapshots it
reads.
-/

namespace LlmPort.Backend.NodeControl

/-- The latest inventory and utilization of a node; an entry that is absent is 0. -/
structure InventorySnapshot where
  nodeId : Uuid
  /-- `inventory.get("gpu_count")` -/
  gpuCount : Int
  /-- `inventory.get("gpu", {}).get("count")` -/
  nestedGpuCount : Int
  /-- `utilization.get("gpu_free_vram_bytes")` -/
  gpuFreeVramBytes : Int
  /-- `utilization.get("gpu", {}).get("free_vram_bytes", 0)` -/
  nestedFreeVramBytes : Int
  deriving DecidableEq

/-- `a or b` on numbers -/
def orInt (a b : Int) : Int := if a = 0 then b else a

namespace NodeControlService

def setNodeMaintenance (nodeId : Uuid) (enabled : Bool) (s : Store) : Except ServiceError Store :=
  match s.getNodeById nodeId with
  | none => .error (.valueError "Node not found.")
  | some node => .ok (s.updateNode { node with
      maintenanceMode := enabled, status := if enabled then .maintenance else .healthy })

def setNodeDraining (nodeId : Uuid) (enabled : Bool) (s : Store) : Except ServiceError Store :=
  match s.getNodeById nodeId with
  | none => .error (.valueError "Node not found.")
  | some node => .ok (s.updateNode { node with
      draining := enabled
      status :=
        if enabled then .draining else if node.status = .draining then .healthy else node.status })

/-- The node row an enrollment leaves: a new one, or the one of the agent id brought up to date. -/
def enrollNodeRow (nodeId : Uuid) (host : String) (gpuCount : Int) (s : Store) : Store :=
  match s.getNodeById nodeId with
  | none => { s with nodes := s.nodes ++ [⟨nodeId, host, .healthy, false, false, true, gpuCount⟩] }
  | some node => s.updateNode { node with host, capabilityGpuCount := gpuCount, status := .healthy }

/-- `node.status in {"healthy", "degraded"}` -/
def isUp (status : NodeHealthStatus) : Bool := status = .healthy ∨ status = .degraded

def rejectedReasons (requiresGpu : Bool) (gpuCount : Int) (node : InfraNode) : List String :=
  (if node.schedulerEligible then [] else ["scheduler_ineligible"]) ++
  (if node.maintenanceMode then ["maintenance_mode"] else []) ++
  (if node.draining then ["draining"] else []) ++
  (if isUp node.status then [] else ["status_" ++ node.status.value]) ++
  (if requiresGpu ∧ gpuCount ≤ 0 then ["gpu_required"] else [])

/-- A node as the scheduler weighs it. -/
structure Candidate where
  node : InfraNode
  gpuCount : Int
  freeVramBytes : Int
  score : ℚ
  rejectedReasons : List String

/-- The weight of a node that is not rejected. -/
def score (node : InfraNode) (gpuCount freeVramBytes : Int) : ℚ :=
  (if node.status = .healthy then 30 else 15) + min (gpuCount * 10) 50 + freeVramBytes / 1024 ^ 3

def candidateOf (roundScore : ℚ → ℚ) (requiresGpu : Bool) (snapshots : List InventorySnapshot)
    (node : InfraNode) : Candidate :=
  let snapshot := snapshots.find? (·.nodeId = node.id)
  let gpuCount := orInt (snapshot.elim 0 (·.gpuCount))
    (orInt (snapshot.elim 0 (·.nestedGpuCount)) node.capabilityGpuCount)
  let freeVramBytes :=
    orInt (snapshot.elim 0 (·.gpuFreeVramBytes)) (snapshot.elim 0 (·.nestedFreeVramBytes))
  let reasons := rejectedReasons requiresGpu gpuCount node
  { node, gpuCount, freeVramBytes
    score := roundScore (if reasons = [] then score node gpuCount freeVramBytes else 0)
    rejectedReasons := reasons }

/-- `(item["score"], item["host"])` in lexicographic order -/
def Candidate.before (a b : Candidate) : Bool :=
  a.score < b.score ∨ a.score = b.score ∧ a.node.host < b.node.host

/-- `max`: the first of the greatest. -/
def best : List Candidate → Option Candidate
  | [] => none
  | c :: rest => some (rest.foldl (fun a b => if a.before b then b else a) c)

structure Scheduled where
  node : InfraNode
  requiresGpu : Bool
  candidates : List Candidate

/-- `roundScore` is the floating-point value of a score rounded to three digits. -/
def scheduleNodeForRuntime (roundScore : ℚ → ℚ) (provider : LLMProvider)
    (capabilityRequiresGpu : Bool)
    (snapshots : List InventorySnapshot) (s : Store) : Except ServiceError Scheduled :=
  let nodes := s.nodes.insertionSort (·.host ≤ ·.host)
  if nodes = [] then .error (.valueError "No eligible nodes are currently available.")
  else
    let requiresGpu := capabilityRequiresGpu || provider.type = .vllm || provider.type = .tgi
    let candidates := nodes.map (candidateOf roundScore requiresGpu snapshots)
    match best (candidates.filter (·.rejectedReasons = [])) with
    | none => .error (.valueError "No eligible nodes satisfy runtime constraints.")
    | some selected => match s.getNodeById selected.node.id with
      | none => .error (.valueError "Selected node no longer exists.")
      | some node => .ok ⟨node, requiresGpu, candidates⟩

variable {svc : NodeControlService} {s s' : Store} {node : InfraNode}

/-- Nothing on the row of the node keeps the scheduler from it. -/
def isEligible (node : InfraNode) : Bool :=
  node.schedulerEligible && !node.maintenanceMode && !node.draining && isUp node.status

theorem isEligible_of_rejectedReasons {requiresGpu : Bool} {gpuCount : Int}
    (h : rejectedReasons requiresGpu gpuCount node = []) : isEligible node := by
  unfold rejectedReasons at h
  obtain ⟨⟨⟨⟨h₁, h₂⟩, h₃⟩, h₄⟩, -⟩ : ((((_ ∧ _) ∧ _) ∧ _) ∧ _) := by
    simpa only [List.append_eq_nil_iff] using h
  unfold isEligible
  by_cases he : node.schedulerEligible
  · by_cases hm : node.maintenanceMode
    · simp [hm] at h₂
    · by_cases hd : node.draining
      · simp [hd] at h₃
      · by_cases hs : isUp node.status
        · simp [he, hm, hd, hs]
        · simp [hs] at h₄
  · simp [he] at h₁

theorem mem_of_best {l : List Candidate} {c : Candidate} (h : best l = some c) : c ∈ l := by
  cases l with
  | nil => cases h
  | cons first rest =>
    cases h
    -- every step of the fold keeps one of the candidates seen so far
    suffices ∀ (l : List Candidate) (c : Candidate),
        l.foldl (fun a b => if a.before b then b else a) c ∈ c :: l from this rest first
    intro l
    induction l with
    | nil => exact fun c => List.mem_singleton_self c
    | cons b l ih =>
      intro c
      rw [List.foldl_cons]
      split
      · exact List.mem_cons_of_mem _ (ih b)
      · obtain hc | hl := List.mem_cons.1 (ih c)
        · exact List.mem_cons.2 (.inl hc)
        · exact List.mem_cons_of_mem _ (List.mem_cons_of_mem _ hl)

theorem getNodeById_id {id : Uuid} (h : s.getNodeById id = some node) : node.id = id := by
  simpa using List.find?_some h

/-- The node the scheduler selects has the id of one whose row is eligible. -/
theorem scheduleNodeForRuntime_eligible {roundScore : ℚ → ℚ} {provider : LLMProvider}
    {capabilityRequiresGpu : Bool} {snapshots : List InventorySnapshot} {selected : Scheduled}
    (h : scheduleNodeForRuntime roundScore provider capabilityRequiresGpu snapshots s = .ok selected) :
    ∃ node ∈ s.nodes, isEligible node ∧ node.id = selected.node.id := by
  unfold scheduleNodeForRuntime at h
  dsimp only at h
  split at h
  next => cases h
  next =>
    split at h
    next => cases h
    next c hbest =>
      split at h
      next => cases h
      next node hnode =>
        cases h
        obtain ⟨hm, hr⟩ := List.mem_filter.1 (mem_of_best hbest)
        obtain ⟨node', hn', rfl⟩ := List.mem_map.1 hm
        refine ⟨node', (List.mem_insertionSort _).1 hn', ?_, (getNodeById_id hnode).symm⟩
        exact isEligible_of_rejectedReasons (of_decide_eq_true hr)

end NodeControlService

end LlmPort.Backend.NodeControl
