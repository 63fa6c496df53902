import LlmPort.Backend.RoutingReports
import LlmPort.Backend.RoutingRequests

/-!
# Routing over runs

Every operation that meets `keepsRouting` keeps the routing invariant, so along a run of such
operations the instance of every published runtime shows it as it is whenever no command is in
flight.
-/

namespace LlmPort.Backend

open Transition NodeControl NodeControlService Store Llm LLMService GatewayMirror

variable {llm : LLMService} {m : GatewayMirror} {g : GatewayDb} {s : Store} {seen : Uuid → Bool}
  {id : Uuid} {e : MirrorEvent}

/-- The invariant of the machine: between operations no call is left to be carried out. -/
structure Routed (llm : LLMService) (m : GatewayMirror) : Prop where
  drained : m.store.syncCalls = []
  routing : Routing llm.nodeControl m.gateway m.unhealthySeen m.store

theorem Routed.shown_eq (h : Routed llm m) (id : Uuid) :
    shown m.gateway m.store id = m.instanceOf id := by
  unfold shown deliver
  rw [h.drained]
  rfl

theorem Routed.mirrors (h : Routed llm m) : RoutingMirrors m := by
  intro id r x hr hx hq
  have hurl := h.routing.showsUrl hr
  have hhealth := h.routing.health id r hr hq
  rw [h.shown_eq] at hurl hhealth
  exact ⟨hhealth x hx, hurl x hx⟩

theorem GatewayMirror.Initial.routed (h : m.Initial) : Routed llm m := by
  have hnone (id : Uuid) : m.store.getRuntime id = none := by
    unfold Store.getRuntime
    rw [h.runtimes]
    rfl
  have hshown (id : Uuid) : shown m.gateway m.store id = none := by
    unfold shown deliver
    rw [h.syncCalls, List.foldl_nil, h.instances]
    rfl
  refine ⟨h.syncCalls, ⟨⟨?_, ?_, ?_, fun _ => hshown, ?_⟩, ?_⟩⟩
  · unfold Keyed specs
    rw [h.commands]
    exact List.nodup_nil
  · rw [h.commands]
    exact fun c hc => by cases hc
  · intro id r hr
    rw [hnone] at hr
    cases hr
  · intro id hsome
    rw [hshown] at hsome
    cases hsome
  · intro id r hr
    rw [hnone] at hr
    cases hr

/-- A result that is rolled back reports nothing. -/
theorem provisioned_of_error {now : Time} {nodeId commandId : Uuid} {payload : CommandResult}
    {svc : NodeControlService} {err : ServiceError}
    (h : svc.recordCommandResult now nodeId commandId payload s = .error err) :
    provisioned s (.result now nodeId commandId payload) = none := by
  unfold recordCommandResult at h
  split at h
  next => cases h
  next c hown =>
    split at h
    next => cases h
    next hfits => simp [provisioned, hown, hfits]

/-- A call of the control plane that keeps the routing. -/
theorem Routed.control {c : ControlEvent} (h : Routed llm m)
    (hissue : ∀ draw req, c ≠ .issue draw req)
    (hok : m.keepsRouting llm (.control c hissue)) :
    Routing llm.nodeControl m.gateway (seenAfter m.unhealthySeen m.store c)
      (controlStep llm m.store c) := by
  have hr := h.routing
  cases c with
  | issue draw req => exact absurd rfl (hissue draw req)
  | lifecycle draw req =>
    simp only [controlStep, committed]
    split
    next s' hs =>
      refine hr.handle (fun r hrow hnode => ?_) hs
      have hk := hok r hrow hnode
      rwa [← h.shown_eq] at hk
    next => exact hr
  | listForDispatch now nodeId limit => exact hr.listCommandsForDispatch now nodeId limit
  | listDispatchable now nodeId limit => exact hr.listDispatchableCommands now nodeId limit
  | ack => exact hr.recordCommandAck
  | progress => exact hr.recordCommandProgress
  | result now nodeId commandId payload =>
    simp only [controlStep, committed]
    split
    next s' hs =>
      refine hr.recordCommandResult (fun c id r hown hfits hid hrow hothers => ?_) hs
      have hk := hok c id r hown hfits hid hrow hothers
      rwa [← h.shown_eq] at hk
    next err hs =>
      rw [seenAfter_eq (provisioned_of_error hs)]
      exact hr
  | reap now =>
    refine hr.reapStaleCommands fun c hc id hid hp => ?_
    have hk := hok c hc id hid hp
    unfold reapKeeps at hk
    rwa [← h.shown_eq] at hk
  | openSession => exact hr.same ⟨rfl, rfl, rfl⟩ rfl
  | closeSession => exact hr.closeStreamSession
  | streamOffset sessionId offset =>
    refine hr.same ?_ updateStreamOffset_commands
    simp only [controlStep, updateStreamOffset]
    split
    · exact .refl _
    · split <;> exact ⟨rfl, rfl, rfl⟩
  | heartbeat nodeId status host =>
    simp only [controlStep]
    split
    · exact hr
    · exact hr.same ⟨rfl, rfl, rfl⟩ rfl

theorem Routed.settle (h : Routing llm.nodeControl m.gateway seen s) :
    Routed llm { m.settle s with unhealthySeen := seen } :=
  ⟨rfl, h.settle⟩

theorem Routed.create {draw : Draw} {runtimeId : Uuid} {req : CreateRequest}
    {env : CreateEnvironment} (h : Routed llm m) (hnew : m.store.getRuntime runtimeId = none) :
    Routed llm (m.create llm draw runtimeId req env) := by
  unfold GatewayMirror.create
  split
  next => exact h
  next s publish hs =>
    obtain ⟨hr, hpublish⟩ := h.routing.createRuntime hnew hs
    have hsettled := Routed.settle (m := m) hr
    simp only
    split
    next => exact hsettled
    next p =>
      split
      next hsync =>
        obtain ⟨r, url, hrow, hurl, hreq, hhealth⟩ := hpublish p rfl
        refine ⟨rfl, hsettled.routing.publish rfl hsync hrow hurl hreq (hhealth.trans ?_)⟩
        simp
      next => exact hsettled

/-- An operation that meets its condition keeps the invariant. -/
theorem Routed.step (h : Routed llm m) (hok : m.keepsRouting llm e) :
    Routed llm (m.step llm e) := by
  cases e with
  | create draw runtimeId req env =>
    simp only [GatewayMirror.step]
    split
    next hnew => exact h.create hnew
    next => exact h
  | control c hissue => exact Routed.settle (h.control hissue hok)
  | health nodeId event =>
    refine Routed.settle (h.routing.reconcileRuntimeFromEvent fun id r hid hr he hst hq => ?_)
    rw [h.shown_eq]
    exact hok id r hid hr he hst hq
  | reconcile runtimeId inspected =>
    simp only [GatewayMirror.step]
    split
    next => exact h
    next r hr =>
      obtain rfl : r.id = runtimeId := getRuntime_id hr
      refine Routed.settle (h.routing.reconcileRuntimeStatus hr fun hv hx => ?_)
      rw [h.shown_eq] at hx
      exact hok r hr hv hx
  | probe runtimeId inspected healthy =>
    apply Routed.settle
    unfold committed
    split
    next s hs =>
      refine h.routing.getRuntimeHealth (fun r hr => ?_) hs
      simp only [h.shown_eq]
      exact hok r hr
    next => exact h.routing
  | stopRaises runtimeId =>
    refine Routed.settle (h.routing.stopRuntimeRaising fun r hr hn hc => ?_)
    rw [h.shown_eq]
    exact hok r hr hn hc

/-- Along a run whose operations all meet their condition, the instance of every published runtime
shows it as it is whenever no command for it is in flight. -/
theorem routing_mirrors (llm : LLMService) {m : GatewayMirror} {es : List MirrorEvent}
    (h0 : m.Initial) (H : Guarded (fun m => m.step llm) (fun m => m.keepsRouting llm) m es) :
    Always (fun m => m.step llm) RoutingMirrors m es :=
  H.always (fun _ _ h hok => Routed.step h hok) (fun _ h => h.mirrors) h0.routed

/-- A backend with a gateway database. -/
def syncedService : LLMService := { plain with nodeControl := ⟨900, true⟩ }

/-- A remote provider and a model of it, and nothing else. -/
def remoteProviderOnly : GatewayMirror where
  store := { oneNode 7 with providers := [⟨20, .cloud, true⟩], models := [⟨30, .available, none⟩] }
  gateway := ⟨[], [], []⟩
  unhealthySeen _ := false

/-- A runtime on the remote provider. -/
def createEndpoint : MirrorEvent :=
  .create ⟨0, 40, 50⟩ 1
    { name := "gpt"
      providerId := 20
      modelId := 30
      genericConfig := "{}"
      providerConfig := ⟨"", "", "", "", "", "", "", "", "{}"⟩
      openaiCompat := true
      targetNodeId := none
      placementHints := "{}"
      modelSource := ""
      imageSource := "" }
    { compatible := .ok ()
      scheduled := .error .databaseError
      nodeClusterEnabled := false
      columns := ⟨some ⟨"https", "api.example.com", none, "/v1"⟩, none, none, none, none⟩
      built := none }

/-- A lifecycle request on the runtime. -/
def requested (req : LifecycleRequest) : MirrorEvent :=
  .control (.lifecycle ⟨0, 40, 50⟩ req) fun _ _ h => by cases h

/-- A remote endpoint that is stopped and started again is routed to again. -/
theorem endpoint_mirrors : Always (fun m => m.step syncedService) RoutingMirrors remoteProviderOnly
    [createEndpoint, requested (.stop 1), requested (.start 1)] := by
  refine routing_mirrors syncedService ⟨rfl, rfl, rfl, rfl⟩ ⟨trivial, ?_, ?_, trivial⟩
  · intro r hr hn
    trivial
  · intro r hr hn
    cases hr
    exact fun _ => rfl

/-- A remote endpoint that is stopped and restarted reads running, and its instance unhealthy. -/
theorem not_routing_mirrors_restart :
    ¬ Always (fun m => m.step syncedService) RoutingMirrors remoteProviderOnly
      [createEndpoint, requested (.stop 1), requested (.restart 1)] := by
  intro H
  have hend := H _ List.prefix_rfl 1 _ _ rfl rfl (fun c hc => by cases hc)
  exact absurd (hend.health.2 ⟨rfl, rfl⟩) (by decide)

end LlmPort.Backend
