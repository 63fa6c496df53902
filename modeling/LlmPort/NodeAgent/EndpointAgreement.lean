import LlmPort.NodeAgent.HealthSupervisor
import LlmPort.NodeAgent.RuntimeManager

/-!
# Endpoint agreement

A deployment records the endpoint it has pinned, the health supervisor asks for the recorded port,
and starting or restarting a workload asks for port 8000.
-/

namespace LlmPort.NodeAgent

open Backend.Llm Backend.NodeControl Text Transition

/-- The advertised address of the configuration; of the schemes only two are allowed. -/
structure AdvertiseConfig where
  host : String
  https : Bool

def AdvertiseConfig.scheme (cfg : AdvertiseConfig) : String := if cfg.https then "https" else "http"

/-- What the health supervisor is given. -/
def AdvertiseConfig.supervisor (cfg : AdvertiseConfig) : Advertise :=
  ⟨cfg.scheme, LLMService.orDefault cfg.host "127.0.0.1"⟩

/-- What the runtime manager makes of the same configuration. -/
def RuntimeManager.configured (mgr : RuntimeManager) (cfg : AdvertiseConfig) : RuntimeManager :=
  { mgr with
    advertiseHost := LLMService.orDefault (strip cfg.host) "127.0.0.1"
    advertiseScheme := cfg.scheme }

/-- The text of an endpoint, as it is sent. -/
def endpointText (url : EndpointUrl) : String :=
  url.scheme ++ "://" ++ url.hostname ++ ":" ++ (url.port.map toString).getD "" ++ url.path

def WorkloadRow.info (row : WorkloadRow) : WorkloadInfo := ⟨some row.containerName, row.containerPort⟩

/-- A container that is run with one published port answers for one port. -/
def PublishesOne (port : RunCall → String → Option Nat) (call : RunCall) : Prop :=
  ∀ p q m n, port call p = some m → port call q = some n → p = q

/-- Whenever the health supervisor comes to know that the container of the workload is up, it reports
the endpoint. -/
def Reported (cfg : AdvertiseConfig) (port : RunCall → String → Option Nat) (row : WorkloadRow)
    (node : NodeState) (endpointUrl : String) : Prop :=
  ∀ (sup : HealthSupervisor) runtime id state name p, row.info.container = some (name, p) →
    runtime.inspect name = .state state → state.status = "running" →
    runtime.port name p = .port ((node.container? name).bind (port ·.call p)) →
    sup.lastKnownStatus id ≠ "running" →
    ∀ event ∈ (sup.checkContainer cfg.supervisor runtime id name p).1.events.drop sup.events.length,
      event.eventType = .running → event.payload.endpointUrl.map endpointText = some endpointUrl

/-- The recorded endpoint is the one that the operations return, and that the health supervisor
reports. -/
structure EndpointsAgree (mgr : RuntimeManager) (cfg : AdvertiseConfig)
    (port : RunCall → String → Option Nat) (runtimeId : String) (row : WorkloadRow)
    (node : NodeState) : Prop where
  started : ∀ world payload, world.responds → world.port = port →
    mgr.requireRuntimeId payload = .ok runtimeId →
    Ends (mgr.startWorkload world payload) node
      (fun result _ => result.endpointUrl = some row.endpointUrl) fun _ _ => True
  restarted : ∀ world payload, world.responds → world.port = port →
    mgr.requireRuntimeId payload = .ok runtimeId →
    Ends (mgr.restartWorkload world payload) node
      (fun result _ => result.endpointUrl = some row.endpointUrl) fun _ _ => True
  reported : Reported cfg port row node row.endpointUrl

namespace HealthSupervisor

variable {sup : HealthSupervisor} {runtime : ContainerRuntime}
  {id : Uuid} {name port : String} {state : ContainerState} {hostPort : Option Nat}

/-- A container found up is reported once, with the endpoint of the port asked for. -/
theorem checkContainer_report (advertise : Advertise) (hi : runtime.inspect name = .state state)
    (hs : state.status = "running") (hp : runtime.port name port = .port hostPort)
    (hprev : sup.lastKnownStatus id ≠ "running") :
    ∃ later, (sup.checkContainer advertise runtime id name port).1.events = sup.events ++
      ⟨.running, runningPayload id name
        (hostPort.map fun n => ⟨advertise.scheme, advertise.host, some n, ""⟩) state
        (sup.lastKnownStatus id)⟩ :: later ∧ ∀ event ∈ later, event.eventType ≠ .running := by
  have hresolve : resolveEndpoint advertise (runtime.port name port) =
      some (hostPort.map fun n => ⟨advertise.scheme, advertise.host, some n, ""⟩) := by
    rw [hp]
    cases hostPort with
    | none => rfl
    | some n => rfl
  unfold checkContainer reportTransition
  simp only [hi, hs, if_true, if_pos hprev, hresolve, Option.map_some]
  obtain ⟨later, hlater, hno⟩ := Reports.conditions id ((sup.record id "running").add .running
    (runningPayload id name (hostPort.map fun n => ⟨advertise.scheme, advertise.host, some n, ""⟩)
      state (sup.lastKnownStatus id))) name state
  refine ⟨later, ?_, hno⟩
  rw [hlater.events, add, record, List.append_assoc, List.singleton_append]

end HealthSupervisor

namespace RuntimeManager

variable {mgr : RuntimeManager} {world : World} {payload : JsonObject} {node : NodeState}
  {runtimeId : String} {row : WorkloadRow} {c : Container}

/-! ## What a deployment records -/

/-- The row of the workload and the container it was stored for. -/
def Stored (mgr : RuntimeManager) (payload : JsonObject) (containerId : String)
    (before after : NodeState) : Prop :=
  ∃ target command entrypoint hfOffline, mgr.deployTarget payload = .ok target ∧
    after.workloads = Function.update before.workloads target.runtimeId
      (some (mgr.workloadRow payload target containerId)) ∧
    ∀ c ∈ after.containers, c ∉ before.containers →
      c.call = mgr.runCall payload target command entrypoint hfOffline

theorem ends_run {args : RunCall} :
    Ends (world.run args) node
      (fun containerId s => containerId = world.containerId ∧ s.workloads = node.workloads ∧
        s.containers = node.containers ++ [⟨args, world.containerId, true⟩])
      fun _ s => s.workloads = node.workloads := by
  unfold World.run
  refine ends_bind.2 (ends_modify.2 (ends_bind.2 (ends_get.2 (ends_ite.2 ⟨fun _ => ?_, fun _ => ?_⟩))))
  · exact ends_throw.2 rfl
  · refine ends_bind.2 ((ends_call.and (Keeps.ends (g := NodeState.workloads) (keeps_call ?_) _)).imp
      ?_ ?_)
    · exact fun _ => rfl
    · rintro _ s ⟨rfl, -⟩
      exact ends_pure.2 ⟨rfl, rfl, rfl⟩
    · exact fun _ _ h => h.2

theorem ends_recordWorkload {target : DeployTarget} {containerId : String} {P : NodeState → Prop}
    (h : P node)
    (h' : P (node.setWorkload target.runtimeId (mgr.workloadRow payload target containerId))) :
    Ends (mgr.recordWorkload world payload target containerId) node (fun _ => P) fun _ => P := by
  unfold recordWorkload
  refine keeps_progress.ends_bind_same (fun _ => ?_) fun _ => h
  refine ends_bind.2 (ends_modify.2 (Keeps.ends_bind_same (keeps_call fun _ => rfl) (fun _ => ?_) ?_))
  · exact keeps_progress.ends_bind_same (fun _ => ends_pure.2 h') fun _ => h'
  · exact fun _ => h'

/-- A deployment that stores a workload stores the row of its payload, with the container it ran. -/
theorem deployWorkload_stored (mgr : RuntimeManager) (world : World) (payload : JsonObject)
    (node : NodeState) :
    (endState (mgr.deployWorkload world payload) node).workloads = node.workloads ∨
      Stored mgr payload world.containerId node
        (endState (mgr.deployWorkload world payload) node) := by
  refine (ends_state (P := fun s : NodeState => s.workloads = node.workloads ∨
    Stored mgr payload world.containerId node s)).1 ?_
  have hkept : ∀ {s : NodeState}, s.workloads = node.workloads →
      s.workloads = node.workloads ∨ Stored mgr payload world.containerId node s := Or.inl
  unfold deployWorkload
  cases htarget : mgr.deployTarget payload with
  | error rejection => exact ends_bind.2 (ends_check_error.2 (hkept rfl))
  | ok target =>
    refine ends_bind.2 (ends_check_ok.2 ?_)
    refine keeps_progress.ends_bind_same (fun _ => ?_) fun _ => hkept rfl
    refine keeps_progress.ends_bind_same (fun _ => ?_) fun _ => hkept rfl
    refine ends_bind.2 ((ends_removeStale.and (Keeps.ends (g := NodeState.workloads)
      (keeps_removeStale fun _ => rfl) node)).imp ?_ fun _ _ h => hkept h.2)
    rintro _ s ⟨hs, hworkloads⟩
    have hsub : ∀ c ∈ s.containers, c ∈ node.containers := by
      rcases hs with rfl | rfl
      · exact fun c hc => hc
      · exact fun c hc => (List.mem_filter.1 hc).1
    cases hcommand : mgr.commandOf target payload with
    | error rejection => exact ends_bind.2 (ends_check_error.2 (hkept hworkloads))
    | ok command =>
      refine ends_bind.2 (ends_check_ok.2 ?_)
      refine keeps_syncModel.ends_bind_same (fun hfOffline => ?_) fun _ => hkept hworkloads
      refine keeps_ensureImage.ends_bind_same (fun _ => ?_) fun _ => hkept hworkloads
      refine keeps_progress.ends_bind_same (fun _ => ?_) fun _ => hkept hworkloads
      refine ends_bind.2 (ends_run.imp ?_ fun _ s' h => hkept (h.trans hworkloads))
      rintro _ s' ⟨rfl, hrun, hcontainers⟩
      refine ends_recordWorkload (hkept (hrun.trans hworkloads)) (.inr ?_)
      refine ⟨target, command.1, command.2, hfOffline, htarget, ?_, fun c hc hnew => ?_⟩
      · rw [NodeState.setWorkload, hrun, hworkloads]
      · rw [NodeState.setWorkload, hcontainers] at hc
        rcases List.mem_append.1 hc with hc | hc
        · exact absurd (hsub c hc) hnew
        · rw [List.mem_singleton.1 hc]

/-! ## What starting returns -/

/-- Some call of the world raises. -/
def World.Raising (world : World) : Prop := ∃ c, (world.answer c).error.isSome

theorem ends_call_raising {c : Call} {effect : NodeState → NodeState} :
    Ends (world.call c effect) node (fun _ s => s = effect node) fun _ _ => World.Raising world := by
  rw [ends_iff]
  unfold World.call
  rcases hanswer : world.answer c with ⟨_ | message, applied⟩
  · rfl
  · exact ⟨c, by rw [hanswer]; rfl⟩

theorem container?_setRunning {name : String} (h : node.container? name = some c) :
    (node.setRunning name).container? name = some { c with running := true } := by
  have hname : c.call.name = name := by simpa using List.find?_some h
  have hkeys : (fun d : Container => decide (d.call.name = name)) ∘
      (fun d => if d.call.name = name then { d with running := true } else d) =
        fun d => decide (d.call.name = name) := by
    funext d
    rw [Function.comp_apply]
    split <;> rfl
  unfold NodeState.container? NodeState.setRunning at *
  rw [List.find?_map, hkeys, h, Option.map_some, if_pos hname]

theorem hasContainer_of_container? {name : String} (h : node.container? name = some c) :
    node.hasContainer name := by
  refine List.any_eq_true.2 ⟨c, List.mem_of_find?_eq_some h, ?_⟩
  simpa using List.find?_some h

/-- A workload whose container is there is started, and the endpoint of port 8000 returned. -/
theorem ends_startOrRestart {call : Call} (hid : mgr.requireRuntimeId payload = .ok runtimeId)
    (hrow : node.workloads runtimeId = some row) (hname : row.containerName ≠ "")
    (hc : node.container? row.containerName = some c) (hresponds : world.responds) :
    Ends (mgr.startOrRestart world call payload) node
      (fun result _ => result.endpointUrl =
        (world.port c.call "8000").map fun n => mgr.endpoint (toString n))
      fun _ _ => World.Raising world := by
  have hlookup : mgr.lookupContainer node runtimeId payload = some row.containerName := by
    simp only [lookupContainer, hrow, if_neg hname]
  unfold startOrRestart
  rw [hid]
  refine ends_bind.2 (ends_check_ok.2 (ends_bind.2 (ends_get.2 ?_)))
  rw [hlookup]
  refine ends_bind.2 (ends_bind.2 (ends_call_raising.imp (fun _ s hs => ?_) fun _ _ h => h))
  rw [show s = node from hs]
  refine ends_bind.2 (ends_get.2 (ends_pure.2 (ends_ite.2 ⟨fun _ => ?_, fun hno => ?_⟩)))
  · refine ends_bind.2 (ends_call_raising.imp (fun _ s hs => ?_) fun _ _ h => h)
    rw [hs]
    refine ends_bind.2 (ends_bind.2 (ends_call_raising.imp (fun _ s hs => ?_) fun _ _ h => h))
    refine ends_bind.2 (ends_get.2 (ends_pure.2 (ends_pure.2 ?_)))
    have hup : s.container? row.containerName = some { c with running := true } := by
      rw [show s = node.setRunning row.containerName from hs]
      exact container?_setRunning hc
    simp only [hup, Option.bind_some]
  · exact absurd (by simp [hresponds, hasContainer_of_container? hc]) hno

theorem orDefault_ne_empty {value default : String} (h : default ≠ "") :
    LLMService.orDefault value default ≠ "" := by
  unfold LLMService.orDefault
  split
  · exact h
  next hvalue => exact hvalue

theorem containerName_ne_empty {target : DeployTarget} (h : mgr.deployTarget payload = .ok target) :
    target.containerName ≠ "" := by
  unfold deployTarget at h
  dsimp only at h
  split at h
  · cases h
  split at h
  · cases h
  · cases h
    refine orDefault_ne_empty fun hname => ?_
    have htext := congrArg String.toList hname
    simp [NodeAgent.containerName] at htext

/-! ## Agreement -/

variable {cfg : AdvertiseConfig} {node' : NodeState} {port : RunCall → String → Option Nat}

theorem endpointText_supervisor {n : Nat} :
    endpointText ⟨cfg.supervisor.scheme, cfg.supervisor.host, some n, ""⟩ =
        (mgr.configured cfg).endpoint (toString n) ↔ strip cfg.host = cfg.host := by
  unfold endpointText endpoint configured AdvertiseConfig.supervisor
  simp only [Option.map_some, Option.getD_some, String.append_empty, String.append_left_inj,
    String.append_right_inj]
  unfold LLMService.orDefault
  by_cases hhost : cfg.host = ""
  · have hblank : strip "" = "" := by decide
    simp only [hhost, hblank, if_true]
  · rw [if_neg hhost]
    by_cases hstrip : strip cfg.host = ""
    · have hlocal : strip "127.0.0.1" ≠ "" := by decide
      rw [if_pos hstrip]
      refine iff_of_false (fun heq => ?_) fun heq => hhost (heq.symm.trans hstrip)
      rw [heq] at hstrip
      exact hlocal hstrip
    · rw [if_neg hstrip]
      exact eq_comm

/-- The port the supervisor asks for. -/
def askedPort (row : WorkloadRow) : String := LLMService.orDefault row.containerPort "8000"

/-- What the supervisor reports of a container that is there. -/
theorem reported_iff {endpointUrl : String} (hname : row.containerName ≠ "")
    (hfound : node.container? row.containerName = some c) :
    Reported cfg port row node endpointUrl ↔
      (port c.call (askedPort row)).map (fun n =>
        endpointText ⟨cfg.supervisor.scheme, cfg.supervisor.host, some n, ""⟩) = some endpointUrl := by
  have hinfo : row.info.container = some (row.containerName, askedPort row) := by
    simp [WorkloadInfo.container, WorkloadRow.info, hname, askedPort, LLMService.orDefault]
    rfl
  have hanswer : (node.container? row.containerName).bind (port ·.call (askedPort row)) =
      port c.call (askedPort row) := by
    rw [hfound, Option.bind_some]
  constructor
  · intro h
    have hfresh : HealthSupervisor.fresh.lastKnownStatus 0 ≠ "running" := by decide
    let up : ContainerState := ⟨"running", 0, none, ""⟩
    let runtime : ContainerRuntime := ⟨fun _ => .state up, fun _ _ => .port (port c.call (askedPort row))⟩
    have hreport := h .fresh runtime 0 up _ _ hinfo rfl rfl (by rw [hanswer]) hfresh
    have hup : runtime.inspect row.containerName = .state up := rfl
    have hp : runtime.port row.containerName (askedPort row) =
      .port (port c.call (askedPort row)) := rfl
    obtain ⟨later, hevents, -⟩ :=
      HealthSupervisor.checkContainer_report cfg.supervisor hup rfl hp hfresh
    rw [hevents, List.drop_left] at hreport
    rw [← hreport _ List.mem_cons_self rfl]
    cases port c.call (askedPort row) <;> rfl
  · intro h sup runtime id state name p hcontainer hi hs hp hprev
    rw [hinfo] at hcontainer
    cases hcontainer
    rw [hanswer] at hp
    obtain ⟨later, hevents, hno⟩ :=
      HealthSupervisor.checkContainer_report cfg.supervisor hi hs hp hprev
    rw [hevents, List.drop_left]
    intro event hevent hrunning
    rcases List.mem_cons.1 hevent with rfl | hevent
    · rw [← h]
      cases port c.call (askedPort row) <;> rfl
    · exact absurd hrunning (hno event hevent)

theorem endpoint_inj {a b : String} (h : mgr.endpoint a = mgr.endpoint b) : a = b := by
  unfold endpoint at h
  rwa [String.append_right_inj] at h

/-- The endpoint a deployment has recorded is the one that starting and restarting the workload
return and the supervisor reports, exactly if the container listens on port 8000, which is published
where the deployment asked for it, and the configured host is not padded. -/
theorem endpointsAgree_iff (mgr : RuntimeManager) (cfg : AdvertiseConfig) (world : World)
    (payload : JsonObject) (node : NodeState) {runtimeId : String} {row : WorkloadRow}
    {c c' : Container}
    -- the row a deployment has stored, and the container it has run
    (hstored : (endState ((mgr.configured cfg).deployWorkload world payload) node).workloads
      runtimeId = some row) (hnew : node.workloads runtimeId ≠ some row)
    (hc : c ∈ (endState ((mgr.configured cfg).deployWorkload world payload) node).containers)
    (hcnew : c ∉ node.containers)
    -- both are still there
    (hrow : node'.workloads runtimeId = some row)
    (hfound : node'.container? row.containerName = some c') (hcall : c'.call = c.call)
    (hport : c.call.ports.length = 1 → PublishesOne port c.call) :
    EndpointsAgree (mgr.configured cfg) cfg port runtimeId row node' ↔
      askedPort row = "8000" ∧ (port c.call "8000").map toString = some row.hostPort ∧
        strip cfg.host = cfg.host := by
  obtain hsame | ⟨target, command, entrypoint, hfOffline, htarget, hworkloads, hcontainers⟩ :=
    deployWorkload_stored (mgr.configured cfg) world payload node
  · rw [hsame] at hstored
    exact absurd hstored hnew
  have hid : target.runtimeId = runtimeId := by
    by_contra hne
    rw [hworkloads, Function.update_of_ne (Ne.symm hne)] at hstored
    exact hnew hstored
  subst hid
  rw [hworkloads, Function.update_self, Option.some.injEq] at hstored
  have hname : row.containerName ≠ "" := by
    rw [← hstored]
    exact containerName_ne_empty htarget
  have hurl : row.endpointUrl = (mgr.configured cfg).endpoint row.hostPort := by
    rw [← hstored]
    rfl
  have hone : PublishesOne port c.call := by
    apply hport
    rw [hcontainers c hc hcnew]
    rfl
  have hstart : ∀ call world payload, world.responds → world.port = port →
      (mgr.configured cfg).requireRuntimeId payload = .ok target.runtimeId →
      Ends ((mgr.configured cfg).startOrRestart world call payload) node'
        (fun result _ => result.endpointUrl = (port c.call "8000").map fun n =>
          (mgr.configured cfg).endpoint (toString n)) fun _ _ => World.Raising world := by
    intro call world payload hresponds hworld hid
    have hends : Ends ((mgr.configured cfg).startOrRestart world call payload) node' _ _ :=
      ends_startOrRestart hid hrow hname hfound hresponds
    rwa [hworld, hcall] at hends
  rw [← hcall] at hone hstart ⊢
  constructor
  · intro hagree
    have hid := requireRuntimeId_of_deployTarget htarget
    obtain ⟨result, -, hresult, hsome⟩ := (((hstart .start (.quiet true "" port) payload rfl rfl hid).and
      (hagree.started (.quiet true "" port) payload rfl rfl hid)).imp (fun _ _ h => h)
        (fun _ _ ⟨⟨_, h⟩, _⟩ => by cases h)).exists
    rw [hsome, hurl, eq_comm, Option.map_eq_some_iff] at hresult
    obtain ⟨n, hn, hhostPort⟩ := hresult
    have hhostPort := endpoint_inj hhostPort
    have hreported := (reported_iff hname hfound).1 hagree.reported
    rw [Option.map_eq_some_iff] at hreported
    obtain ⟨m, hm, htext⟩ := hreported
    have hasked := hone _ _ _ _ hm hn
    rw [hasked, hn, Option.some.injEq] at hm
    refine ⟨hasked, by rw [hn, Option.map_some, hhostPort], ?_⟩
    rw [hurl, ← hhostPort, ← hm] at htext
    exact endpointText_supervisor.1 htext
  · rintro ⟨hasked, hhostPort, hhost⟩
    rw [Option.map_eq_some_iff] at hhostPort
    obtain ⟨n, hn, hhostPort⟩ := hhostPort
    rw [← hhostPort] at hurl
    have hreported : Reported cfg port row node' row.endpointUrl := by
      apply (reported_iff hname hfound).2
      rw [hasked, hn, Option.map_some, hurl]
      exact congrArg some (endpointText_supervisor.2 hhost)
    have hreturned : ((port c'.call "8000").map fun n => (mgr.configured cfg).endpoint (toString n)) =
        some row.endpointUrl := by
      rw [hn, Option.map_some, hurl]
    refine ⟨fun world payload hresponds hworld hid => ?_, fun world payload hresponds hworld hid => ?_,
      hreported⟩
    · exact (hstart .start world payload hresponds hworld hid).imp (fun _ _ h => h.trans hreturned)
        fun _ _ _ => trivial
    · exact (hstart .restart world payload hresponds hworld hid).imp (fun _ _ h => h.trans hreturned)
        fun _ _ _ => trivial

/-- A payload of a runtime that listens on the port. -/
def tgiPayload (containerPort : String) : JsonObject :=
  [("runtime_id", .string "rt-1"), ("provider_type", .string "tgi"),
    ("container_port", .string containerPort)]

def localNetwork : AdvertiseConfig := ⟨"10.0.0.1", false⟩

/-- The node after the payload has been deployed. -/
def tgiNode (containerPort : String) : NodeState :=
  endState ((plain.configured localNetwork).deployWorkload (.quiet true "c1" fun _ _ => none)
    (tgiPayload containerPort)) .empty

def tgiRow (containerPort : String) : WorkloadRow where
  runtimeName := "rt-1"
  containerName := "llm-port-rt-1"
  containerId := "c1"
  providerType := "tgi"
  image := "ghcr.io/huggingface/text-generation-inference:latest"
  containerPort
  hostPort := containerPort
  endpointUrl := "http://10.0.0.1:" ++ containerPort

def tgiContainer (containerPort : String) : Container where
  call :=
    { image := "ghcr.io/huggingface/text-generation-inference:latest"
      name := "llm-port-rt-1"
      ports := [containerPort ++ ":" ++ containerPort]
      env := [("LLM_PORT_RUNTIME_ID", "rt-1"), ("LLM_PORT_PROVIDER_TYPE", "tgi")]
      gpus := some "all"
      volumes := []
      command := []
      entrypoint := none
      extraArgs := ["--shm-size", "1g", "--ipc", "host"] }
  id := "c1"
  running := true

/-- A runtime that publishes the port under its own number. -/
def published (n : Nat) : RunCall → String → Option Nat :=
  fun _ p => if p = toString n then some n else none

theorem publishesOne_published (n : Nat) (call : RunCall) : PublishesOne (published n) call := by
  intro p q _ _ hp hq
  unfold published at hp hq
  split at hp
  next hp' =>
    split at hq
    next hq' => rw [hp', hq']
    next => cases hq
  next => cases hp

/-- A runtime that listens on port 8000. -/
theorem endpointsAgree_tgi : EndpointsAgree (plain.configured localNetwork) localNetwork
    (published 8000) "rt-1" (tgiRow "8000") (tgiNode "8000") := by
  have hstored : (tgiNode "8000").workloads "rt-1" = some (tgiRow "8000") := by decide +kernel
  have hc : tgiContainer "8000" ∈ (tgiNode "8000").containers := by decide +kernel
  have hfound : (tgiNode "8000").container? "llm-port-rt-1" = some (tgiContainer "8000") := by
    decide +kernel
  refine (endpointsAgree_iff plain localNetwork _ _ _ hstored (fun h => by cases h) hc
    (by simp [NodeState.empty]) hstored hfound rfl fun _ => publishesOne_published 8000 _).2 ?_
  exact ⟨by decide +kernel, by decide +kernel, by decide +kernel⟩

/-- A runtime that listens on another port is started without an endpoint. -/
theorem not_endpointsAgree_3000 :
    ¬ ∀ (mgr : RuntimeManager) (cfg : AdvertiseConfig) (world : World) (payload : JsonObject)
      (node node' : NodeState) (port : RunCall → String → Option Nat) (runtimeId : String)
      (row : WorkloadRow) (c : Container),
      (endState ((mgr.configured cfg).deployWorkload world payload) node).workloads runtimeId =
        some row → node.workloads runtimeId ≠ some row →
      c ∈ (endState ((mgr.configured cfg).deployWorkload world payload) node).containers →
      c ∉ node.containers → node'.workloads runtimeId = some row →
      node'.container? row.containerName = some c → PublishesOne port c.call →
      (port c.call row.containerPort).map toString = some row.hostPort →
      EndpointsAgree (mgr.configured cfg) cfg port runtimeId row node' := by
  intro h
  have hstored : (tgiNode "3000").workloads "rt-1" = some (tgiRow "3000") := by decide +kernel
  have hc : tgiContainer "3000" ∈ (tgiNode "3000").containers := by decide +kernel
  have hfound : (tgiNode "3000").container? "llm-port-rt-1" = some (tgiContainer "3000") := by
    decide +kernel
  have hid : (plain.configured localNetwork).requireRuntimeId (tgiPayload "3000") = .ok "rt-1" := by
    decide +kernel
  have hagree := h plain localNetwork _ _ _ _ (published 3000) _ _ _ hstored (fun h => by cases h) hc
    (by simp [NodeState.empty]) hstored hfound (publishesOne_published 3000 _) (by decide +kernel)
  have hstarted := hagree.started (.quiet true "" (published 3000)) _ rfl rfl hid
  obtain ⟨result, -, hnone, hsome⟩ := ((ends_startOrRestart hid hstored (by decide) hfound rfl).and
    hstarted).imp (fun _ _ h => h) (fun _ _ ⟨⟨_, h⟩, _⟩ => by cases h) |>.exists
  rw [hsome] at hnone
  cases hnone

end RuntimeManager

end LlmPort.NodeAgent
