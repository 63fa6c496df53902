import LlmPort.NodeAgent.Dispatcher
import LlmPort.NodeAgent.RuntimeManager

/-!
# The image allowlist

`_execute` of `dispatcher.py` checks the image a payload names before the runtime manager chooses
the one it runs. A payload that names none is not checked, and is run from the default image of its
provider.
-/

namespace LlmPort.NodeAgent

open Backend.Llm Text Transition

namespace PolicyGuard

/-- An image is listed by its name or by a prefix of it. -/
def permits (imageAllowlist : List String) (image : String) : Bool :=
  imageAllowlist.any fun entry => image = entry ∨ entry.toList <+: image.toList

def validateImage (imageAllowlist : List String) (image : String) : AgentM Unit :=
  if imageAllowlist = [] ∨ permits imageAllowlist image then pure ()
  else throw (.policyViolation image)

end PolicyGuard

namespace RuntimeManager

variable (mgr : RuntimeManager) (imageAllowlist : List String) (world : World)

/-- `_resolve_image` -/
def resolveImage (payload : JsonObject) : String :=
  LLMService.orDefault (mgr.field [payload] "image" "")
    (mgr.field [dictAt payload "provider_config"] "image" "")

/-- The commands whose image is checked. -/
def deployingCommands : List String :=
  ["deploy_workload", "update_workload", "start_workload", "restart_workload"]

def guardImage (commandType : String) (payload : JsonObject) : AgentM Unit :=
  if commandType ∈ deployingCommands ∧ mgr.resolveImage payload ≠ "" then
    PolicyGuard.validateImage imageAllowlist (mgr.resolveImage payload)
  else pure ()

/-- The operations of the runtime manager that deploy; no other command leads to `run`. -/
def runWorkload (commandType : String) (payload : JsonObject) : AgentM (Option WorkloadResult) :=
  if commandType = "deploy_workload" then do return some (← mgr.deployWorkload world payload)
  else if commandType = "start_workload" then do return some (← mgr.startWorkload world payload)
  else if commandType = "restart_workload" then do return some (← mgr.restartWorkload world payload)
  else if commandType = "remove_workload" then do return some (← mgr.removeWorkload world payload)
  else if commandType = "update_workload" then do return some (← mgr.updateWorkload world payload)
  else pure none

/-- `_execute`, of the commands on workloads. -/
def execute (commandType : String) (payload : JsonObject) : AgentM (Option WorkloadResult) := do
  mgr.guardImage imageAllowlist commandType payload
  mgr.runWorkload world commandType payload

/-- What the execution of a command has passed to `run`. -/
def ran (commandType : String) (payload : JsonObject) (node : NodeState) : List RunCall :=
  (endState (mgr.execute imageAllowlist world commandType payload) { node with runs := [] }).runs

/-- The payload passes the checks of its contents. -/
def accepts (payload : JsonObject) : Bool :=
  match mgr.deployTarget payload with
  | .ok target => (mgr.commandOf target payload).isOk
  | .error _ => false

/-- The command deploys the default image of its provider, or does so when there is no container to
start. -/
structure RunsDefault (commandType : String) (payload : JsonObject) : Prop where
  deploys : commandType ∈ deployingCommands
  accepted : mgr.accepts payload
  unnamed : mgr.resolveImage payload = ""

variable {mgr imageAllowlist world} {node : NodeState} {commandType : String} {payload : JsonObject}
  {target : DeployTarget}

theorem orDefault_orDefault (a b c : String) :
    LLMService.orDefault a (LLMService.orDefault b c) =
      LLMService.orDefault (LLMService.orDefault a b) c := by
  unfold LLMService.orDefault
  by_cases ha : a = ""
  · rw [if_pos ha, if_pos ha]
  · rw [if_neg ha, if_neg ha, if_neg ha]

theorem image_of_deployTarget (h : mgr.deployTarget payload = .ok target) :
    target.image = LLMService.orDefault (mgr.resolveImage payload) (mgr.defaultImage payload) := by
  unfold deployTarget at h
  dsimp only at h
  split at h
  · cases h
  · split at h
    · cases h
    · cases h
      rw [resolveImage, ← orDefault_orDefault]

theorem accepts_iff : mgr.accepts payload ↔ ∃ target command,
    mgr.deployTarget payload = .ok target ∧ mgr.commandOf target payload = .ok command := by
  cases htarget : mgr.deployTarget payload with
  | error rejection => simp [accepts, htarget]
  | ok target =>
    have haccepts : mgr.accepts payload = (mgr.commandOf target payload).isOk := by
      rw [accepts, htarget]
    rw [haccepts]
    cases hcommand : mgr.commandOf target payload with
    | error rejection => exact iff_of_false (by simp [Except.isOk, Except.toBool]) (by simp [hcommand])
    | ok command => exact iff_of_true rfl ⟨target, command, rfl, hcommand⟩

/-- What a deployment may have added to the calls of `run`. -/
def DeployRan (mgr : RuntimeManager) (payload : JsonObject) (before after : List RunCall) : Prop :=
  after = before ∨ ∃ target call, mgr.deployTarget payload = .ok target ∧ mgr.accepts payload ∧
    after = before ++ [call] ∧ call.image = target.image

theorem runs_run {args : RunCall} :
    Ends (world.run args) node (fun _ s => s.runs = node.runs ++ [args])
      (fun _ s => s.runs = node.runs ++ [args]) := by
  unfold World.run
  rw [ends_bind, ends_modify, ends_bind, ends_get]
  refine ends_ite.2 ⟨fun _ => ends_throw.2 rfl, fun _ => ?_⟩
  refine Keeps.ends (g := NodeState.runs) (.bind (keeps_call ?_) fun _ => .pure) _
  exact fun _ => rfl

/-- Whatever the world answers, a deployment runs one container at most, from the image of its
target, and only when its payload is accepted. -/
theorem deployWorkload_ran (mgr : RuntimeManager) (world : World) (payload : JsonObject)
    (node : NodeState) : DeployRan mgr payload node.runs
      (endState (mgr.deployWorkload world payload) node).runs := by
  refine (ends_state (P := fun s : NodeState => DeployRan mgr payload node.runs s.runs)).1 ?_
  have hkept : ∀ (_ : WorkloadError) (s : NodeState), s.runs = node.runs →
      DeployRan mgr payload node.runs s.runs := fun _ _ => .inl
  unfold deployWorkload
  cases htarget : mgr.deployTarget payload with
  | error rejection => exact ends_bind.2 (ends_check_error.2 (.inl rfl))
  | ok target =>
    refine ends_bind.2 (ends_check_ok.2 ?_)
    refine keeps_progress.ends_bind rfl (fun _ s hs => ?_) hkept
    refine keeps_progress.ends_bind hs (fun _ s hs => ?_) hkept
    refine (keeps_removeStale fun _ => rfl).ends_bind hs (fun _ s hs => ?_) hkept
    cases hcommand : mgr.commandOf target payload with
    | error rejection => exact ends_bind.2 (ends_check_error.2 (.inl hs))
    | ok command =>
      refine ends_bind.2 (ends_check_ok.2 ?_)
      refine keeps_syncModel.ends_bind hs (fun hfOffline s hs => ?_) hkept
      refine keeps_ensureImage.ends_bind hs (fun _ s hs => ?_) hkept
      refine keeps_progress.ends_bind hs (fun _ s hs => ?_) hkept
      have hran : ∀ {s : NodeState} {hfOffline : Option Bool}, s.runs = node.runs ++
          [mgr.runCall payload target command.1 command.2 hfOffline] →
          DeployRan mgr payload node.runs s.runs := fun hs =>
        .inr ⟨target, _, htarget, accepts_iff.2 ⟨target, command, htarget, hcommand⟩, hs, rfl⟩
      refine ends_bind.2 (runs_run.imp (fun _ s hs' => ?_) fun _ s hs' => hran (hs ▸ hs'))
      rw [hs] at hs'
      exact ((keeps_recordWorkload (g := NodeState.runs) fun _ _ _ => rfl).ends s).imp
        (fun _ _ h => hran (h.trans hs')) fun _ _ h => hran (h.trans hs')

/-- When nothing raises, the deployment of an accepted payload gets to `run`. -/
theorem quiet_deployWorkload {responds : Bool} {containerId : String}
    {port : RunCall → String → Option Nat} (h : mgr.accepts payload) (node : NodeState) :
    (endState (mgr.deployWorkload (.quiet responds containerId port) payload) node).runs ≠
      node.runs := by
  obtain ⟨target, command, htarget, hcommand⟩ := accepts_iff.1 h
  refine (ends_state (P := fun s : NodeState => s.runs ≠ node.runs)).1 ?_
  unfold deployWorkload
  rw [htarget]
  refine ends_bind.2 (ends_check_ok.2 ?_)
  rw [hcommand]
  simp only [quiet_progress, pure_bind]
  refine ends_bind.2 (quiet_removeStale.2 ?_)
  have hstale : (if responds && node.hasContainer target.containerName then
      node.removeContainer target.containerName else node).runs = node.runs := by
    split <;> rfl
  refine ends_bind.2 (ends_check_ok.2 (ends_bind.2 (quiet_syncModel fun hfOffline => ?_)))
  refine ends_bind.2 (quiet_ensureImage (ends_bind.2 ?_))
  have hmore : ∀ {s : NodeState} {call : RunCall}, s.runs = node.runs ++ [call] →
      s.runs ≠ node.runs := fun hs => by simp [hs]
  refine runs_run.imp (fun _ s hs => ?_) fun _ s hs => hmore (hstale ▸ hs)
  rw [hstale] at hs
  exact ((keeps_recordWorkload (g := NodeState.runs) fun _ _ _ => rfl).ends s).imp
    (fun _ _ h => hmore (h.trans hs)) fun _ _ h => hmore (h.trans hs)

/-- The rule for a computation that may end in a deployment. -/
theorem ran_of_deploy {s : NodeState} {before : List RunCall} (hs : s.runs = before) :
    Ends (mgr.deployWorkload world payload) s (fun _ s' => DeployRan mgr payload before s'.runs)
      (fun _ s' => DeployRan mgr payload before s'.runs) := by
  refine (ends_state (P := fun s' : NodeState => DeployRan mgr payload before s'.runs)).2 ?_
  rw [← hs]
  exact deployWorkload_ran mgr world payload s

theorem startOrRestart_ran (mgr : RuntimeManager) (world : World) (c : Call) (payload : JsonObject)
    (node : NodeState) : DeployRan mgr payload node.runs
      (endState (mgr.startOrRestart world c payload) node).runs := by
  refine (ends_state (P := fun s : NodeState => DeployRan mgr payload node.runs s.runs)).1 ?_
  have hkept : ∀ (_ : WorkloadError) (s : NodeState), s.runs = node.runs →
      DeployRan mgr payload node.runs s.runs := fun _ _ => .inl
  unfold startOrRestart
  refine keeps_check.ends_bind rfl (fun runtimeId s hs => ?_) hkept
  refine ends_bind.2 (ends_get.2 ?_)
  split
  · exact ran_of_deploy hs
  · refine keeps_containerExists.ends_bind hs (fun _ s hs => ?_) hkept
    refine ends_ite.2 ⟨fun _ => ?_, fun _ => ran_of_deploy hs⟩
    refine Keeps.ends_bind (g := NodeState.runs) (keeps_call fun _ => rfl) hs (fun _ s hs => ?_) hkept
    exact keeps_resolveEndpoint.ends_bind hs (fun _ _ hs => ends_pure.2 (.inl hs)) hkept

theorem updateWorkload_ran (mgr : RuntimeManager) (world : World) (payload : JsonObject)
    (node : NodeState) : DeployRan mgr payload node.runs
      (endState (mgr.updateWorkload world payload) node).runs := by
  refine (ends_state (P := fun s : NodeState => DeployRan mgr payload node.runs s.runs)).1 ?_
  have hkept : ∀ (_ : WorkloadError) (s : NodeState), s.runs = node.runs →
      DeployRan mgr payload node.runs s.runs := fun _ _ => .inl
  unfold updateWorkload
  refine keeps_check.ends_bind rfl (fun _ s hs => ?_) hkept
  refine Keeps.ends_bind (g := NodeState.runs) ?_ hs (fun _ s hs => ran_of_deploy hs) hkept
  exact keeps_removeWorkload (fun _ _ => rfl) fun _ _ => rfl

/-- A command that is not checked for its image does not get to `run`. -/
theorem runWorkload_ran (mgr : RuntimeManager) (world : World) (commandType : String)
    (payload : JsonObject) (node : NodeState) :
    (endState (mgr.runWorkload world commandType payload) node).runs = node.runs ∨
      commandType ∈ deployingCommands ∧ DeployRan mgr payload node.runs
        (endState (mgr.runWorkload world commandType payload) node).runs := by
  unfold runWorkload
  split
  next h =>
    rw [endState_bind_pure]
    exact .inr ⟨by simp [deployingCommands, h], deployWorkload_ran mgr world payload node⟩
  split
  next h =>
    rw [endState_bind_pure]
    exact .inr ⟨by simp [deployingCommands, h], startOrRestart_ran mgr world _ payload node⟩
  split
  next h =>
    rw [endState_bind_pure]
    exact .inr ⟨by simp [deployingCommands, h], startOrRestart_ran mgr world _ payload node⟩
  split
  next =>
    rw [endState_bind_pure]
    exact .inl (keeps_removeWorkload (fun _ _ => rfl) (fun _ _ => rfl) node)
  split
  next h =>
    rw [endState_bind_pure]
    exact .inr ⟨by simp [deployingCommands, h], updateWorkload_ran mgr world payload node⟩
  · exact .inl rfl

/-- When `inspect` is late, to start a workload is to deploy it. -/
theorem late_startOrRestart {containerId runtimeId : String} {port : RunCall → String → Option Nat}
    {c : Call} {Q : WorkloadResult → NodeState → Prop} {E : WorkloadError → NodeState → Prop}
    (h : mgr.requireRuntimeId payload = .ok runtimeId)
    (hd : Ends (mgr.deployWorkload (.quiet false containerId port) payload) node Q E) :
    Ends (mgr.startOrRestart (.quiet false containerId port) c payload) node Q E := by
  unfold startOrRestart
  rw [h]
  refine ends_bind.2 (ends_check_ok.2 (ends_bind.2 (ends_get.2 ?_)))
  split
  · exact hd
  · refine ends_bind.2 (quiet_containerExists.2 (ends_ite.2 ⟨fun hf => ?_, fun _ => hd⟩))
    cases hf

/-- Each command that is checked for its image gets to `run` when its payload is accepted, nothing
raises and `inspect` is late. -/
theorem late_runWorkload {containerId : String} {port : RunCall → String → Option Nat}
    (h : mgr.accepts payload) (hc : commandType ∈ deployingCommands) (node : NodeState) :
    (endState (mgr.runWorkload (.quiet false containerId port) commandType payload) node).runs ≠
      node.runs := by
  obtain ⟨target, -, htarget, -⟩ := accepts_iff.1 h
  have hid := requireRuntimeId_of_deployTarget htarget
  have hdeploy : ∀ s : NodeState, s.runs = node.runs →
      Ends (mgr.deployWorkload (.quiet false containerId port) payload) s
        (fun _ s' => s'.runs ≠ node.runs) fun _ s' => s'.runs ≠ node.runs := by
    intro s hs
    refine (ends_state (P := fun s' : NodeState => s'.runs ≠ node.runs)).2 ?_
    rw [← hs]
    exact quiet_deployWorkload h s
  have hstart : ∀ c, (endState (mgr.startOrRestart (.quiet false containerId port) c payload)
      node).runs ≠ node.runs := fun c =>
    (ends_state (P := fun s' : NodeState => s'.runs ≠ node.runs)).1
      (late_startOrRestart hid (hdeploy node rfl))
  have hupdate : (endState (mgr.updateWorkload (.quiet false containerId port) payload)
      node).runs ≠ node.runs := by
    refine (ends_state (P := fun s' : NodeState => s'.runs ≠ node.runs)).1 ?_
    unfold updateWorkload
    rw [hid]
    refine ends_bind.2 (ends_check_ok.2 (ends_bind.2 ?_))
    refine (quiet_removeWorkload hid).2 ?_
    apply hdeploy
    cases mgr.lookupContainer node target.runtimeId payload with
    | none => rfl
    | some name => rfl
  simp only [deployingCommands, List.mem_cons, List.not_mem_nil, or_false] at hc
  unfold runWorkload
  rcases hc with rfl | rfl | rfl | rfl
  · rw [if_pos rfl, endState_bind_pure]
    exact quiet_deployWorkload h node
  · simp only [String.reduceEq, if_false, if_true, endState_bind_pure]
    exact hupdate
  · simp only [String.reduceEq, if_false, if_true, endState_bind_pure]
    exact hstart .start
  · simp only [String.reduceEq, if_false, if_true, endState_bind_pure]
    exact hstart .restart

theorem guardImage_cases (mgr : RuntimeManager) {imageAllowlist : List String}
    (h : imageAllowlist ≠ []) (commandType : String) (payload : JsonObject) :
    mgr.guardImage imageAllowlist commandType payload = pure ⟨⟩ ∧
        (commandType ∈ deployingCommands → mgr.resolveImage payload ≠ "" →
          PolicyGuard.permits imageAllowlist (mgr.resolveImage payload)) ∨
      mgr.guardImage imageAllowlist commandType payload =
        throw (.policyViolation (mgr.resolveImage payload)) := by
  unfold guardImage
  split
  next hguarded =>
    unfold PolicyGuard.validateImage
    split
    next hlisted => exact .inl ⟨rfl, fun _ _ => hlisted.resolve_left h⟩
    next => exact .inr rfl
  next hfree => exact .inl ⟨rfl, fun hc hn => absurd ⟨hc, hn⟩ hfree⟩

/-- Every image that is run is one the allowlist permits, exactly if the command does not come down
to the default image of its provider, or that image is permitted. -/
theorem permitted_iff (mgr : RuntimeManager) {imageAllowlist : List String} (commandType : String)
    (payload : JsonObject) (node : NodeState) (h : imageAllowlist ≠ []) :
    (∀ world, ∀ call ∈ mgr.ran imageAllowlist world commandType payload node,
        PolicyGuard.permits imageAllowlist call.image) ↔
      (mgr.RunsDefault commandType payload →
        PolicyGuard.permits imageAllowlist (mgr.defaultImage payload)) := by
  constructor
  · intro hall hdefault
    have hguard : mgr.guardImage imageAllowlist commandType payload = pure ⟨⟩ :=
      if_neg fun hnamed => hnamed.2 hdefault.unnamed
    specialize hall (.quiet false "" fun _ _ => none)
    unfold ran execute at hall
    rw [hguard, pure_bind] at hall
    obtain hsame | ⟨-, hran⟩ := runWorkload_ran mgr (.quiet false "" fun _ _ => none) commandType
      payload { node with runs := [] }
    · exact absurd hsame (late_runWorkload hdefault.accepted hdefault.deploys _)
    · obtain hsame | ⟨target, call, htarget, -, hruns, himage⟩ := hran
      · exact absurd hsame (late_runWorkload hdefault.accepted hdefault.deploys _)
      · have hpermits := hall call (by rw [hruns]; exact List.mem_append_right _ List.mem_cons_self)
        rwa [himage, image_of_deployTarget htarget, hdefault.unnamed, LLMService.orDefault,
          if_pos rfl] at hpermits
  · intro hcond world call hcall
    unfold ran execute at hcall
    obtain ⟨hguard, hnamed⟩ | hguard := guardImage_cases mgr h commandType payload
    · rw [hguard, pure_bind] at hcall
      obtain hsame | ⟨hdeploys, hsame | ⟨target, call', htarget, haccepts, hruns, himage⟩⟩ :=
        runWorkload_ran mgr world commandType payload { node with runs := [] }
      · rw [hsame] at hcall
        cases hcall
      · rw [hsame] at hcall
        cases hcall
      · rw [hruns] at hcall
        cases List.mem_singleton.1 hcall
        rw [himage, image_of_deployTarget htarget, LLMService.orDefault]
        split
        next hunnamed => exact hcond ⟨hdeploys, haccepts, hunnamed⟩
        next hname => exact hnamed hdeploys hname
    · rw [hguard] at hcall
      cases hcall

/-- A payload that names an image of the organisation. -/
theorem permitted_named : ["ghcr.io/my-org/"] ≠ [] ∧ ∀ world, ∀ call ∈
    plain.ran ["ghcr.io/my-org/"] world "deploy_workload"
      [("runtime_id", .string "rt-1"), ("image", .string "ghcr.io/my-org/model:v1")] .empty,
    PolicyGuard.permits ["ghcr.io/my-org/"] call.image := by
  refine ⟨by decide, (permitted_iff plain _ _ _ (by decide)).2 fun h => ?_⟩
  exact absurd h.unnamed (by decide)

/-- A payload without an image is run from the default one, which is not in the allowlist. -/
theorem not_permitted_default :
    ¬ ∀ (mgr : RuntimeManager) (imageAllowlist : List String) (commandType : String)
      (payload : JsonObject) (node : NodeState), imageAllowlist ≠ [] →
      ∀ world, ∀ call ∈ mgr.ran imageAllowlist world commandType payload node,
        PolicyGuard.permits imageAllowlist call.image := by
  intro h
  have hran := h plain ["ghcr.io/my-org/"] "deploy_workload"
    [("runtime_id", .string "rt-1"), ("provider_type", .string "tgi")] .empty (by decide)
    (.quiet true "c1" fun _ _ => none)
  exact absurd hran (by decide +kernel)

end RuntimeManager

end LlmPort.NodeAgent
