import LlmPort.NodeAgent.RuntimeManager

/-!
# Rejected deployments

What is left of the node when `deploy_workload` or `update_workload` rejects a payload for what it
contains: the removals come before the last checks.
-/

namespace LlmPort.NodeAgent

open Text Transition

namespace NodeState

/-- The containers that are up. -/
def running (node : NodeState) : List Container := node.containers.filter (·.running)

def isRunning (node : NodeState) (name : String) : Bool :=
  node.containers.any fun c => c.call.name = name ∧ c.running

/-- The same containers are up, and the same workloads are stored. -/
structure Unchanged (node node' : NodeState) : Prop where
  running : ∀ c, c ∈ node'.running ↔ c ∈ node.running
  workloads : node'.workloads = node.workloads

variable {node node' node'' : NodeState} {name runtimeId : String} {c : Container}

theorem Unchanged.refl : Unchanged node node := ⟨fun _ => .rfl, rfl⟩

theorem Unchanged.trans (h : Unchanged node node') (h' : Unchanged node' node'') :
    Unchanged node node'' :=
  ⟨fun c => (h'.running c).trans (h.running c), h'.workloads.trans h.workloads⟩

theorem mem_running : c ∈ node.running ↔ c ∈ node.containers ∧ c.running := List.mem_filter

theorem mem_running_removeContainer :
    c ∈ (node.removeContainer name).running ↔ c ∈ node.running ∧ c.call.name ≠ name := by
  rw [mem_running, mem_running, removeContainer, List.mem_filter, decide_eq_true_iff,
    and_right_comm]

theorem isRunning_iff : node.isRunning name ↔ ∃ c ∈ node.running, c.call.name = name := by
  simp only [isRunning, List.any_eq_true, decide_eq_true_eq, mem_running, and_assoc]
  exact exists_congr fun c => and_congr_right fun _ => and_comm

/-- A removal is noticed exactly if a container of the name was up. -/
theorem unchanged_removeContainer_iff :
    Unchanged node (node.removeContainer name) ↔ node.isRunning name = false := by
  rw [← Bool.not_eq_true, isRunning_iff]
  constructor
  · rintro h ⟨c, hc, hname⟩
    exact (mem_running_removeContainer.1 ((h.running c).2 hc)).2 hname
  · intro h
    refine ⟨fun c => ?_, rfl⟩
    rw [mem_running_removeContainer]
    exact and_iff_left_of_imp fun hc hname => h ⟨c, hc, hname⟩

/-- What is unchanged without a container had none of the name up. -/
theorem Unchanged.of_removeContainer (hsub : ∀ c ∈ node'.running, c ∈ node.running)
    (h : Unchanged node (node'.removeContainer name)) :
    Unchanged node node' ∧ node.isRunning name = false := by
  have hkept : ∀ c ∈ node.running, c ∈ node'.running ∧ c.call.name ≠ name := fun c hc =>
    mem_running_removeContainer.1 ((h.running c).2 hc)
  refine ⟨⟨fun c => ⟨hsub c, fun hc => (hkept c hc).1⟩, h.workloads⟩, ?_⟩
  rw [← Bool.not_eq_true, isRunning_iff]
  rintro ⟨c, hc, hname⟩
  exact (hkept c hc).2 hname

theorem removeContainer_of_not_hasContainer (h : node.hasContainer name = false) :
    node.removeContainer name = node := by
  have hall : node.containers.filter (·.call.name ≠ name) = node.containers :=
    List.filter_eq_self.2 fun c hc => by simpa using List.any_eq_false.1 h c hc
  rw [removeContainer, hall]

end NodeState

open NodeState

/-- The two operations that deploy a payload unconditionally. -/
inductive DeployOp where
  | deploy
  | update

namespace RuntimeManager

variable (mgr : RuntimeManager)

def perform (world : World) (payload : JsonObject) : DeployOp → AgentM WorkloadResult
  | .deploy => mgr.deployWorkload world payload
  | .update => mgr.updateWorkload world payload

/-- Whatever the world answers, an operation that rejects the payload leaves the node as it was. -/
def LeavesRejected (op : DeployOp) (payload : JsonObject) (node : NodeState) : Prop :=
  ∀ world, Ends (mgr.perform world payload op) node (fun _ _ => True) fun e node' =>
    ∀ rejection, e = .rejected rejection → Unchanged node node'

/-- The payload has a runtime and an image, but no command the container may be run with. -/
def RejectedLate (payload : JsonObject) (target : DeployTarget) : Prop :=
  mgr.deployTarget payload = .ok target ∧
    ∃ rejection, mgr.commandOf target payload = .error rejection

/-- There is nothing on the node that the deployment would remove. -/
def NothingStale (payload : JsonObject) (node : NodeState) : Prop :=
  ∀ target, mgr.RejectedLate payload target → node.isRunning target.containerName = false

/-- The payload is accepted, or rejected where nothing is removed. -/
def Harmless (payload : JsonObject) (node : NodeState) : DeployOp → Prop
  | .deploy => mgr.NothingStale payload node
  | .update => ∀ runtimeId, mgr.requireRuntimeId payload = .ok runtimeId →
      (∃ rejection, mgr.deployTarget payload = .error rejection) ∨
        (∃ target, mgr.RejectedLate payload target) →
      node.workloads runtimeId = none ∧
        (∀ name ∈ mgr.lookupContainer node runtimeId payload, node.isRunning name = false) ∧
        mgr.NothingStale payload node

variable {mgr} {world : World} {payload : JsonObject} {node : NodeState} {target : DeployTarget}

/-- Where a deployment that rejects its payload leaves the node. -/
def DeployLeft (mgr : RuntimeManager) (payload : JsonObject) (node node' : NodeState) : Prop :=
  (∃ rejection, mgr.deployTarget payload = .error rejection) ∧ node' = node ∨
    ∃ target, mgr.RejectedLate payload target ∧
      (node' = node ∨ node' = node.removeContainer target.containerName)

theorem deployWorkload_rejected (mgr : RuntimeManager) (world : World) (payload : JsonObject)
    (node : NodeState) : Ends (mgr.deployWorkload world payload) node (fun _ _ => True)
      fun e node' => ∀ rejection, e = .rejected rejection → DeployLeft mgr payload node node' := by
  have hraised : ∀ (e : WorkloadError) (node' : NodeState), NotRejected e →
      ∀ rejection, e = .rejected rejection → DeployLeft mgr payload node node' :=
    fun e _ h rejection he => absurd he (h rejection)
  unfold deployWorkload
  cases htarget : mgr.deployTarget payload with
  | error rejection =>
    exact ends_bind.2 (ends_check_error.2 fun _ _ => .inl ⟨⟨rejection, htarget⟩, rfl⟩)
  | ok target =>
    refine ends_bind.2 (ends_check_ok.2 ?_)
    refine raises_progress.ends_bind keeps_progress (fun _ => ?_) hraised
    refine raises_progress.ends_bind keeps_progress (fun _ => ?_) hraised
    refine ends_bind.2 (ends_removeStale.imp (fun _ s hs => ?_) hraised)
    cases hcommand : mgr.commandOf target payload with
    | error rejection =>
      refine ends_bind.2 (ends_check_error.2 fun _ _ => ?_)
      exact .inr ⟨target, ⟨htarget, rejection, hcommand⟩, hs⟩
    | ok command =>
      -- what is left to raise is not about the payload
      refine ends_bind.2 (ends_check_ok.2 ?_)
      refine Ends.imp (Raises.bind raises_syncModel (fun _ => ?_) s) (fun _ _ h => h) hraised
      refine raises_ensureImage.bind fun _ => raises_progress.bind fun _ => ?_
      exact raises_run.bind fun _ => raises_recordWorkload

/-- What a responsive quiet world makes of a payload that is rejected. -/
theorem quiet_deployWorkload_rejected {containerId : String} {port : RunCall → String → Option Nat}
    {P : WorkloadError → NodeState → Prop}
    (h : Ends (mgr.deployWorkload (.quiet true containerId port) payload) node (fun _ _ => True) P) :
    (∀ rejection, mgr.deployTarget payload = .error rejection → P (.rejected rejection) node) ∧
      ∀ target, mgr.RejectedLate payload target → ∃ rejection,
        P (.rejected rejection) (node.removeContainer target.containerName) := by
  unfold deployWorkload at h
  constructor
  · intro rejection htarget
    rw [htarget] at h
    exact ends_check_error.1 (ends_bind.1 h)
  · rintro target ⟨htarget, rejection, hcommand⟩
    rw [htarget] at h
    have h := ends_check_ok.1 (ends_bind.1 h)
    rw [hcommand] at h
    simp only [quiet_progress, pure_bind] at h
    have h := ends_check_error.1 (ends_bind.1 (quiet_removeStale.1 (ends_bind.1 h)))
    refine ⟨rejection, ?_⟩
    cases hhas : node.hasContainer target.containerName with
    | true => simpa [hhas] using h
    | false =>
      rw [removeContainer_of_not_hasContainer hhas]
      simpa [hhas] using h

/-- The node an update deploys on. -/
def cleared (mgr : RuntimeManager) (runtimeId : String) (payload : JsonObject) (node : NodeState) :
    NodeState :=
  ((mgr.lookupContainer node runtimeId payload).elim node node.removeContainer).dropWorkload runtimeId

theorem ends_removeWorkload {runtimeId : String} (h : mgr.requireRuntimeId payload = .ok runtimeId) :
    Ends (mgr.removeWorkload world payload) node
      (fun _ s => s = mgr.cleared runtimeId payload node) fun e _ => NotRejected e := by
  unfold removeWorkload cleared
  rw [h]
  refine ends_bind.2 (ends_check_ok.2 (ends_bind.2 (ends_get.2 (ends_bind.2 ?_))))
  cases mgr.lookupContainer node runtimeId payload with
  | none => exact ends_pure.2 (ends_bind.2 (ends_modify.2 (ends_pure.2 rfl)))
  | some name =>
    refine ends_call.imp (fun _ s hs => ?_) fun _ _ h => h
    exact ends_bind.2 (ends_modify.2 (ends_pure.2 (hs ▸ rfl)))

theorem mem_running_cleared {runtimeId : String} {c : Container} :
    c ∈ (mgr.cleared runtimeId payload node).running ↔ c ∈ node.running ∧
      ∀ name ∈ mgr.lookupContainer node runtimeId payload, c.call.name ≠ name := by
  unfold cleared
  cases mgr.lookupContainer node runtimeId payload with
  | none => exact (and_iff_left (by simp)).symm
  | some name =>
    have hremoved : c ∈ ((node.removeContainer name).dropWorkload runtimeId).running ↔ _ :=
      mem_running_removeContainer
    simpa using hremoved

/-- What an update removes is noticed exactly if the workload was stored or its container up. -/
theorem unchanged_cleared_iff {runtimeId : String} :
    Unchanged node (mgr.cleared runtimeId payload node) ↔ node.workloads runtimeId = none ∧
      ∀ name ∈ mgr.lookupContainer node runtimeId payload, node.isRunning name = false := by
  have hworkloads : (mgr.cleared runtimeId payload node).workloads =
      Function.update node.workloads runtimeId none := by
    unfold cleared
    cases mgr.lookupContainer node runtimeId payload with
    | none => rfl
    | some name => rfl
  constructor
  · intro h
    refine ⟨?_, fun name hname => ?_⟩
    · rw [← h.workloads, hworkloads]
      exact Function.update_self ..
    · rw [← Bool.not_eq_true, NodeState.isRunning_iff]
      rintro ⟨c, hc, hcname⟩
      exact (mem_running_cleared.1 ((h.running c).2 hc)).2 name hname hcname
  · rintro ⟨hnone, hdown⟩
    refine ⟨fun c => mem_running_cleared.trans (and_iff_left_of_imp fun hc name hname hcname => ?_), ?_⟩
    · have hup : node.isRunning name := NodeState.isRunning_iff.2 ⟨c, hc, hcname⟩
      rw [hdown name hname] at hup
      cases hup
    · rw [hworkloads, ← hnone]
      exact Function.update_eq_self ..

theorem nothingStale_iff {node' : NodeState} (h : ∀ c, c ∈ node'.running ↔ c ∈ node.running) :
    mgr.NothingStale payload node' ↔ mgr.NothingStale payload node := by
  refine forall_congr' fun target => imp_congr_right fun _ => ?_
  rw [← Bool.not_eq_true, ← Bool.not_eq_true, NodeState.isRunning_iff, NodeState.isRunning_iff]
  simp only [h]

/-- A deployment leaves the node as it was when it rejects a payload with nothing stale. -/
theorem unchanged_of_deployLeft {node' : NodeState} (h : mgr.NothingStale payload node)
    (hleft : DeployLeft mgr payload node node') : Unchanged node node' := by
  obtain ⟨-, rfl⟩ | ⟨target, hlate, rfl | rfl⟩ := hleft
  · exact .refl
  · exact .refl
  · exact unchanged_removeContainer_iff.2 (h target hlate)

/-- A rejected payload leaves the node as it was exactly if the operation has nothing to remove
before it is rejected. -/
theorem leavesRejected_iff (mgr : RuntimeManager) (op : DeployOp) (payload : JsonObject)
    (node : NodeState) : mgr.LeavesRejected op payload node ↔ mgr.Harmless payload node op := by
  cases op with
  | deploy =>
    constructor
    · intro h target hlate
      obtain ⟨rejection, hunchanged⟩ := (quiet_deployWorkload_rejected
        (h (.quiet true "" fun _ _ => none))).2 target hlate
      exact unchanged_removeContainer_iff.1 (hunchanged rejection rfl)
    · intro h world
      exact (deployWorkload_rejected mgr world payload node).imp (fun _ _ h => h)
        fun e node' hleft rejection he => unchanged_of_deployLeft h (hleft rejection he)
  | update =>
    constructor
    · intro h runtimeId hid hrejected
      have hquiet := h (.quiet true "" fun _ _ => none)
      simp only [perform, updateWorkload, hid] at hquiet
      have hquiet := (quiet_removeWorkload hid).1 (ends_bind.1 (ends_check_ok.1 (ends_bind.1 hquiet)))
      obtain ⟨hearly, hlate⟩ := quiet_deployWorkload_rejected hquiet
      have hsub : ∀ c ∈ (mgr.cleared runtimeId payload node).running, c ∈ node.running :=
        fun c hc => (mem_running_cleared.1 hc).1
      rcases hrejected with ⟨rejection, hrejection⟩ | ⟨target, htarget⟩
      · obtain ⟨hnone, hdown⟩ := unchanged_cleared_iff.1 (hearly rejection hrejection rejection rfl)
        refine ⟨hnone, hdown, fun target htarget => ?_⟩
        rw [htarget.1] at hrejection
        cases hrejection
      · obtain ⟨rejection, hleft⟩ := hlate target htarget
        obtain ⟨hcleared, -⟩ := Unchanged.of_removeContainer hsub (hleft rejection rfl)
        obtain ⟨hnone, hdown⟩ := unchanged_cleared_iff.1 hcleared
        refine ⟨hnone, hdown, fun target' htarget' => ?_⟩
        obtain ⟨rejection', hleft'⟩ := hlate target' htarget'
        exact (Unchanged.of_removeContainer hsub (hleft' rejection' rfl)).2
    · intro h world
      simp only [perform, updateWorkload]
      cases hid : mgr.requireRuntimeId payload with
      | error rejection => exact ends_bind.2 (ends_check_error.2 fun _ _ => .refl)
      | ok runtimeId =>
        refine ends_bind.2 (ends_check_ok.2 (ends_bind.2 ((ends_removeWorkload hid).imp ?_ ?_)))
        · rintro _ _ rfl
          refine (deployWorkload_rejected mgr world payload _).imp (fun _ _ h => h) ?_
          intro e node' hleft rejection he
          have hrejected : (∃ rejection, mgr.deployTarget payload = .error rejection) ∨
              ∃ target, mgr.RejectedLate payload target :=
            (hleft rejection he).imp (fun h => h.1) fun ⟨target, h, _⟩ => ⟨target, h⟩
          obtain ⟨hnone, hdown, hstale⟩ := h runtimeId hid hrejected
          have hcleared := unchanged_cleared_iff.2 ⟨hnone, hdown⟩
          exact hcleared.trans (unchanged_of_deployLeft ((nothingStale_iff hcleared.running).2 hstale)
            (hleft rejection he))
        · exact fun e _ h rejection he => absurd he (h rejection)

/-- A vLLM runtime that is up. -/
def deployedNode : NodeState where
  containers := [⟨⟨"vllm/vllm-openai:latest", "llm-port-a", ["8000:8000"], [], none, [], [], none, []⟩,
    "c1", true⟩]
  workloads _ := none
  runs := []

/-- A payload without a model takes down the container it is deployed again for. -/
theorem not_leavesRejected_noModel :
    ¬ ∀ (mgr : RuntimeManager) (op : DeployOp) (payload : JsonObject) (node : NodeState),
      mgr.LeavesRejected op payload node := by
  intro h
  have hlate : plain.RejectedLate [("runtime_id", .string "rt-1"), ("container_name",
      .string "llm-port-a")] ⟨"rt-1", "vllm", "vllm/vllm-openai:latest", "rt-1", "llm-port-a"⟩ :=
    ⟨by decide +kernel, .noModel, by decide +kernel⟩
  obtain ⟨rejection, hleft⟩ := (quiet_deployWorkload_rejected
    (h plain .deploy _ deployedNode (.quiet true "c2" fun _ _ => none))).2 _ hlate
  exact absurd (unchanged_removeContainer_iff.1 (hleft rejection rfl)) (by decide)

end RuntimeManager

end LlmPort.NodeAgent
